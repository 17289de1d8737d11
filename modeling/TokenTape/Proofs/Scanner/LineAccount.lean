import TokenTape.Proofs.Scanner.History
/-!
The lines of a scanner, told from the bytes that it has read. After any history the line reached is
one more than the newlines that are gone, wherever they stood: between lexemes, in comments and
strings, in a newline literal, before a refused byte or a failed reply. The line of a token, and
that of a fault, is told the same way from the bytes before its first one.
-/
namespace TokenTape

namespace Scanner

/-- Some bytes have been read since a start on line 1, and their newlines were counted. -/
structure HasRead (start : List UInt8) (scanner : Scanner) (read : List UInt8) : Prop where
  input : start = read ++ scanner.unread
  lines : scanner.line = 1 + read.count 10

/-- What a turn of the reader does to the account. -/
theorem HasRead.turn {start read : List UInt8} {scanner : Scanner} {after : Reader}
    {result : Except Obstacle Lexeme} (account : HasRead start scanner read)
    (turn : scanner.reader.Turn after result) :
    ∃ more, start = (read ++ more) ++ after.unread ∧ after.line = 1 + (read ++ more).count 10 := by
  have further (more : List UInt8) (input : scanner.unread = more ++ after.unread)
      (lines : after.line = scanner.line + more.count 10) :
      ∃ more, start = (read ++ more) ++ after.unread ∧ after.line = 1 + (read ++ more).count 10 := by
    refine ⟨more, ?_, ?_⟩
    · rw [account.input, input, List.append_assoc]
    · rw [lines, account.lines, List.count_append, Nat.add_assoc]
  cases turn with
  | lexeme gap written input stands starts reaches =>
    refine further (Utf8.bytesOf gap ++ Utf8.bytesOf written) ?_ ?_
    · rw [unread, input, List.append_assoc]
    · rw [reaches, starts, List.count_append, Utf8.count_bytesOf, Utf8.count_bytesOf, Nat.add_assoc]
      rfl
  | ended gap input starts reaches =>
    refine further (Utf8.bytesOf gap) input ?_
    rw [reaches, starts, Utf8.count_bytesOf]
    rfl
  | refused gap byte input other starts reaches =>
    refine further (Utf8.bytesOf gap ++ [byte]) ?_ ?_
    · rw [unread, input, List.append_assoc]
      rfl
    · have none : [byte].count 10 = 0 := by simpa [List.count_eq_zero] using other.symm
      rw [reaches, starts, List.count_append, none, Utf8.count_bytesOf]
      rfl
  | unreadable gap input starts within reaches =>
    refine further (Utf8.bytesOf gap) input ?_
    rw [reaches, Utf8.count_bytesOf]
    rfl

/-- The account is kept through every history. -/
theorem hasRead_askAll (reserved : ReservedWords) (vocabulary : Vocabulary) (file text : String)
    (source : LineSource) (asks : List Ask) :
    let start := Scanner.start reserved vocabulary file text source
    let scanner := (start.askAll asks).2
    scanner.reader.Sound ∧ scanner.file = file ∧ ∃ read, HasRead start.unread scanner read := by
  intro start scanner
  refine askAll_induction (motive := fun scanner => scanner.reader.Sound ∧ scanner.file = file ∧
    ∃ read, HasRead start.unread scanner read) ?_ ?_ asks
  · rintro scanner ⟨sound, named, read, account⟩ finished
    obtain ⟨turn, later⟩ := Reader.next_turn sound rfl
    obtain ⟨more, input, lines⟩ := account.turn turn
    refine ⟨?_, ?_, read ++ more, ?_, ?_⟩
    · simp only [next_reader]
      exact later
    · simp only [next_file_eq, named]
    · simp only [unread, next_reader]
      exact input
    · simp only [line, next_reader]
      exact lines
  · exact ⟨Reader.start_sound text source, rfl, [], rfl, rfl⟩

/-- After any history of calls, failed ones too, the line reached is one more than the newlines
among the bytes read since the start, over all the replies they came from. The line of a token goes
forward and not beyond that line. If the next call gives a token, it starts on the line that is told
in this way from the bytes before its first one, and the end of input is on the line reached; a
fault is told with the file and the line of the byte that was refused. -/
theorem lines_are_newlines_read (reserved : ReservedWords) (vocabulary : Vocabulary)
    (file text : String) (source : LineSource) (asks : List Ask) (ask : Ask) :
    let start := Scanner.start reserved vocabulary file text source
    let scanner := (start.askAll asks).2
    let after := (scanner.ask ask).2
    scanner.tokenLine ≤ scanner.line ∧ scanner.tokenLine ≤ after.tokenLine ∧
      ∃ read, start.unread = read ++ scanner.unread ∧ scanner.line = 1 + read.count 10 ∧
        match (scanner.ask ask).1 with
        | none => after = scanner
        | some (.ok token) =>
          if token.isEnd then after.tokenLine = after.line
          else ∃ gap written, ∃ lexeme : Lexeme,
            scanner.unread = gap ++ (Utf8.bytesOf written ++ after.unread) ∧
            token = (lexeme.token scanner.reserved scanner.vocabulary).1 ∧
            (lexeme.Written written ∨ lexeme.CutOff written ∧ after.unread = []) ∧
            after.tokenLine = 1 + (read ++ gap).count 10
        | some (.error (.fault named line _)) =>
          named = file ∧ ∃ gap byte, scanner.unread = gap ++ byte :: after.unread ∧
            line = 1 + (read ++ gap).count 10
        | some (.error _) => True := by
  intro start scanner after
  obtain ⟨sound, named, read, account⟩ := hasRead_askAll reserved vocabulary file text source asks
  rcases scanner.ask_cases ask with done | ⟨finished, given⟩
  · have same : after = scanner := congrArg Prod.snd done
    rw [same, done]
    exact ⟨sound.ordered, Nat.le_refl _, read, account.input, account.lines, rfl⟩
  · have outcome : (scanner.ask ask).1 = some scanner.next.1 := congrArg Prod.fst given
    have reader : after.reader = scanner.reader.next.2 := by
      simp only [after, given, next_reader]
    have left : after.unread = scanner.reader.next.2.unread := by rw [unread, reader]
    have tokenLine : after.tokenLine = scanner.reader.next.2.tokenLine := by
      rw [Scanner.tokenLine, reader]
    have reached : after.line = scanner.reader.next.2.line := by rw [line, reader]
    have turn : scanner.reader.Turn scanner.reader.next.2 scanner.reader.next.1 :=
      (Reader.next_turn sound rfl).1
    rw [outcome, left, tokenLine, reached]
    refine ⟨sound.ordered, turn.tokenLine_le sound.ordered, read, account.input, account.lines, ?_⟩
    -- The bytes before a lexeme are those read before and the gap that has been passed over.
    have starts {gap : List Char} {line : Nat} (told : line = scanner.line + gap.count '\n') :
        line = 1 + (read ++ Utf8.bytesOf gap).count 10 := by
      rw [told, account.lines, List.count_append, Utf8.count_bytesOf, Nat.add_assoc]
    match taken : scanner.reader.next with
    | (.ok lexeme, behind) =>
      rw [taken] at turn
      rw [next_of_lexeme taken]
      cases turn with
      | lexeme gap written input stands told _ =>
        have going : (lexeme.token scanner.reserved scanner.vocabulary).1.isEnd = false := by
          rw [Bool.eq_false_iff, ne_eq, Lexeme.isEnd_token]
          rintro rfl
          rcases stands with none | ⟨none, -⟩ <;> cases none
        simp only [going, Bool.false_eq_true, if_false]
        exact ⟨_, written, lexeme, input, rfl, stands, starts told⟩
      | ended _ _ _ level =>
        have atEnd : (Lexeme.endOfInput.token scanner.reserved scanner.vocabulary).1.isEnd = true :=
          Lexeme.isEnd_token.mpr rfl
        simp only [atEnd, if_true]
        exact level.symm
    | (.error obstacle, behind) =>
      rw [taken] at turn
      rw [next_of_obstacle taken]
      cases turn with
      | refused gap byte input _ told level =>
        exact ⟨named, _, byte, input, starts (level.trans told)⟩
      | unreadable => trivial

end Scanner
end TokenTape
