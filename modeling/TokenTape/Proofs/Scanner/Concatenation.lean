import TokenTape.Proofs.Reading.Below
import TokenTape.Proofs.Scanner.Meaning
/-!
Two texts with a newline between them. Unless the first one fails or ends inside a string or a block
comment, scanning both at once gives the tokens of the first, and then all that scanning the second
gives with the words that the first has left, on lines that are further down
(`Scanner.scan_concatenation`). So nothing but the vocabulary and the line is carried from one token to
the next.
-/
namespace TokenTape

/-- The same diagnosis for a place further down. -/
def Diagnosis.down (lines : Nat) : Diagnosis → Diagnosis
  | .fault file line cause => .fault file (line + lines) cause
  | .outOfMemory file line => .outOfMemory file (line + lines)
  | .corrupt offset damage => .corrupt offset damage
  | .unreadable reason => .unreadable reason

theorem Obstacle.diagnosis_down (obstacle : Obstacle) (file : String) (line lines : Nat) :
    obstacle.diagnosis file (line + lines) = (obstacle.diagnosis file line).down lines := by
  cases obstacle <;> rfl

/-- The same token further down. -/
def Located.down (lines : Nat) (located : Located) : Located :=
  { located with line := located.line + lines, reached := located.reached + lines }

/-- The same scanner further down. -/
def Scanner.down (lines : Nat) (scanner : Scanner) : Scanner :=
  { scanner with reader := scanner.reader.down lines }

/-- The same scan further down. -/
def Scan.down (lines : Nat) (scan : Scan) : Scan :=
  ⟨scan.tokens.map (.down lines), scan.failure.map (.down lines), scan.final.down lines⟩

namespace Scanner

/-- The same scanner before other input. -/
def reading (scanner : Scanner) (reader : Reader) : Scanner := { scanner with reader }

variable {scanner after : Scanner}

/-- What a scan gives depends on the first request alone. -/
theorem scan_congr {other : Scanner} (same : scanner.next = other.next) : scanner.scan = other.scan := by
  match taken : other.next with
  | (.error diagnosis, after) =>
    rw [taken] at same
    rw [scan_of_failed taken, scan_of_failed same]
  | (.ok token, after) =>
    rw [taken] at same
    cases ended : token.isEnd with
    | true => rw [scan_of_ended taken ended, scan_of_ended same ended]
    | false => rw [scan_of_going taken ended, scan_of_going same ended]

/-- Only what a reader gives next matters of it. -/
theorem next_congr (scanner : Scanner) {one other : Reader} (same : one.next = other.next) :
    (scanner.reading one).next = (scanner.reading other).next := by
  simp only [next, reading, same]

/-- Where a lexeme is read, the scan has its token before what is scanned behind it. -/
theorem scan_of_lexeme {one behind : Reader} {lexeme : Lexeme}
    (read : one.next = (.ok lexeme, behind)) (some : lexeme ≠ .endOfInput) :
    let made := lexeme.token scanner.reserved scanner.vocabulary
    (scanner.reading one).scan =
      ({ scanner with vocabulary := made.2 }.reading behind).scan.cons
        ⟨made.1, behind.tokenLine, behind.line⟩ := by
  intro made
  have taken : (scanner.reading one).next = _ := next_of_lexeme read
  have going : made.1.isEnd = false := by
    rwa [Bool.eq_false_iff, ne_eq, Lexeme.isEnd_token]
  exact scan_of_going taken going

/-- One span of text gives the same further down. -/
theorem next_below {lines : Nat} {lower : Reader} (oneSpan : scanner.reader.source = [])
    (below : Reader.Below lines scanner.reader lower) :
    (scanner.reading lower).next =
      (scanner.next.1.mapError (.down lines), scanner.next.2.down lines) := by
  have same := Reader.next_below oneSpan below
  match read : scanner.reader.next with
  | (.ok lexeme, behind) =>
    rw [read] at same
    rw [next_of_lexeme read]
    exact next_of_lexeme same
  | (.error obstacle, behind) =>
    rw [read] at same
    have given : (scanner.reading lower).next = _ := next_of_obstacle same
    rw [given, next_of_obstacle read, Except.mapError, ← Obstacle.diagnosis_down]
    rfl

/-- One span of text is scanned alike further down. -/
theorem scan_below {lines : Nat} {lower : Reader} (oneSpan : scanner.reader.source = [])
    (below : Reader.Below lines scanner.reader lower) :
    (scanner.reading lower).scan = scanner.scan.down lines := by
  have first := next_below oneSpan below
  induction scanner using scan_induction generalizing lower with
  | failed scanner diagnosis after taken =>
    rw [taken] at first
    rw [scan_of_failed taken, scan_of_failed first]
    rfl
  | ended scanner token after taken ended =>
    rw [taken] at first
    rw [scan_of_ended taken ended, scan_of_ended first ended]
    rfl
  | going scanner token after taken going ih =>
    have left : scanner.next.2.reader.source = [] := by
      rw [next_reader]
      exact Reader.next_source_nil oneSpan
    rw [taken] at first left
    have later := after.reader.below_down lines
    have further : (after.down lines).scan = after.scan.down lines :=
      ih left later (next_below left later)
    rw [scan_of_going taken going, scan_of_going first going, further]
    rfl

/-- What a scanner does not change. -/
theorem scan_final (scanner : Scanner) :
    scanner.scan.final = { scanner with
      reader := scanner.scan.final.reader, vocabulary := scanner.scan.final.vocabulary } := by
  induction scanner using scan_induction with
  | failed scanner diagnosis after taken =>
    rw [scan_of_failed taken]
    obtain ⟨obstacle, reader, -, -, rfl⟩ := next_error taken
    rfl
  | ended scanner token after taken ended =>
    rw [scan_of_ended taken ended]
    obtain ⟨lexeme, reader, -, -, rfl⟩ := next_ok taken
    rfl
  | going scanner token after taken going ih =>
    rw [scan_of_going taken going, Scan.cons_final]
    obtain ⟨lexeme, reader, -, -, rfl⟩ := next_ok taken
    exact ih

/-- Behind a span that does not end open, a scan goes on behind the newline as at the start of a text,
further down. -/
theorem scan_followed (span : scanner.reader.Closed) (complete : scanner.scan.failure = none)
    (more : List Char) :
    let final := scanner.scan.final
    let lower := (final.reading ⟨[], more, [], 1, 1⟩).scan.down final.line
    ∃ before last, scanner.scan.tokens = before ++ [last] ∧ last.token = .endOfInput ∧
      (scanner.reading (scanner.reader.followed more)).scan =
        ⟨before ++ lower.tokens, lower.failure, lower.final⟩ := by
  induction scanner using scan_induction with
  | failed scanner diagnosis after taken =>
    rw [scan_of_failed taken] at complete
    cases complete
  | ended scanner token after taken ended =>
    have atEnd := Token.eq_endOfInput_of_isEnd (next_recordable taken) ended
    rw [scan_of_ended taken ended]
    obtain ⟨lexeme, reader, read, rfl, rfl⟩ := next_ok taken
    obtain rfl := Lexeme.isEnd_token.mp ended
    refine ⟨[], _, rfl, atEnd, ?_⟩
    -- The request that found the end goes on behind the newline, where only the line differs from
    -- that at the start of a text.
    obtain ⟨tokenLine, resumed⟩ := Reader.next_followed_end span read more
    let lower : Reader := ⟨[], more, [], reader.line + 1, tokenLine⟩
    have below : Reader.Below reader.line ⟨[], more, [], 1, 1⟩ lower :=
      ⟨rfl, rfl, rfl, Nat.add_comm _ _⟩
    have same : (scanner.reading (scanner.reader.followed more)).next =
        (scanner.reading lower).next := scanner.next_congr resumed
    rw [scan_congr same]
    have further : ((scanner.reading ⟨[], more, [], 1, 1⟩).reading lower).scan = _ :=
      scan_below rfl below
    exact further
  | going scanner token after taken going ih =>
    rw [scan_of_going taken going] at complete ⊢
    obtain ⟨lexeme, reader, read, rfl, rfl⟩ := next_ok taken
    have some := Lexeme.ne_endOfInput_of_going going
    obtain ⟨before, last, tokens, atEnd, whole⟩ := ih (span.next read some) complete
    refine ⟨_ :: before, last, congrArg (_ :: ·) tokens, atEnd, ?_⟩
    exact (scan_of_lexeme (Reader.next_followed span read some more) some).trans
      (congrArg (Scan.cons _) whole)

/-- A scan to the end of a span has counted all its newlines. -/
theorem scan_final_line (span : scanner.reader.Closed) (complete : scanner.scan.failure = none) :
    scanner.scan.final.line = scanner.line + scanner.unread.count 10 := by
  induction scanner using scan_induction with
  | failed scanner diagnosis after taken =>
    rw [scan_of_failed taken] at complete
    cases complete
  | ended scanner token after taken ended =>
    rw [scan_of_ended taken ended]
    obtain ⟨lexeme, reader, read, rfl, rfl⟩ := next_ok taken
    obtain rfl := Lexeme.isEnd_token.mp ended
    have counted := (Reader.next_turn span.sound read).1.line_add_count
    rw [Reader.unread_of_endOfInput span read] at counted
    exact counted
  | going scanner token after taken going ih =>
    rw [scan_of_going taken going] at complete ⊢
    obtain ⟨lexeme, reader, read, rfl, rfl⟩ := next_ok taken
    have some := Lexeme.ne_endOfInput_of_going going
    exact (ih (span.next read some) complete).trans
      (Reader.next_turn span.sound read).1.line_add_count

/-- Concatenation. If scanning a text does not fail and the text does not end inside a string or a block
comment, scanning it with a newline and another text behind gives its tokens without the end of input,
and then what scanning the other text gives with the vocabulary that was left. All lines of the latter,
those of a failure too, are moved down by the newlines of the first text and one more, and the scanner
ends in the same state but for its lines. -/
theorem scan_concatenation (reserved : ReservedWords) (vocabulary : Vocabulary)
    (file first second : String) :
    let upper := (start reserved vocabulary file first []).scan
    let lower := (start reserved upper.final.vocabulary file second []).scan
    let whole := (start reserved vocabulary file (first ++ "\n" ++ second) []).scan
    let lines := 1 + first.toList.count '\n'
    upper.failure = none → ¬ EndsOpen (Utf8.bytesOf first.toList) →
      (∃ before last, upper.tokens = before ++ [last] ∧ last.token = .endOfInput ∧
        whole.tokens = before ++ lower.tokens.map (.down lines)) ∧
      whole.failure = lower.failure.map (.down lines) ∧
      whole.final = lower.final.down lines := by
  intro upper lower whole lines complete closed
  let scanner := start reserved vocabulary file first []
  have unread : scanner.reader.unread = Utf8.bytesOf first.toList := Reader.unread_of_span rfl rfl
  have span : scanner.reader.Closed := ⟨Reader.start_sound first [], rfl, unread ▸ closed⟩
  have reached : upper.final.line = lines := by
    have counted : upper.final.line = 1 + scanner.reader.unread.count 10 :=
      scan_final_line span complete
    rw [counted, unread, Utf8.count_bytesOf]
  have both : start reserved vocabulary file (first ++ "\n" ++ second) [] =
      scanner.reading (scanner.reader.followed second.toList) := by
    simp [start, Reader.start, Reader.followed, reading, scanner]
  have resumed : start reserved upper.final.vocabulary file second [] =
      upper.final.reading ⟨[], second.toList, [], 1, 1⟩ := by
    rw [scan_final scanner]
    rfl
  obtain ⟨before, last, tokens, atEnd, joined⟩ := scan_followed span complete second.toList
  have joined : whole = ⟨before ++ (lower.down lines).tokens, (lower.down lines).failure,
      (lower.down lines).final⟩ := by
    rw [← reached]
    simp only [whole, lower, both, resumed]
    exact joined
  rw [joined]
  exact ⟨⟨before, last, tokens, atEnd, rfl⟩, rfl, rfl⟩

/-- A point without digits, a slash and the mark of an exponent before newlines, and a quote that fails. -/
theorem scan_concatenation_of_prefixes :
    let upper := (start ⟨[]⟩ .empty "t.c" "7.\n/\n1e" []).scan
    let lower := (start ⟨[]⟩ upper.final.vocabulary "t.c" "/ '" []).scan
    let whole := (start ⟨[]⟩ .empty "t.c" ("7.\n/\n1e" ++ "\n" ++ "/ '") []).scan
    upper.failure = none ∧ ¬ EndsOpen (Utf8.bytesOf "7.\n/\n1e".toList) ∧
      (∃ before last, upper.tokens = before ++ [last] ∧ last.token = .endOfInput ∧
        whole.tokens = before ++ lower.tokens.map (.down 3)) ∧
      whole.failure = some (.fault "t.c" 4 (.unclosed 0)) ∧ whole.final = lower.final.down 3 := by
  intro upper lower whole
  have complete : upper.failure = none :=
    (scan_lexemes _).2.mpr (by decide +kernel)
  have closed : ¬ EndsOpen (Utf8.bytesOf "7.\n/\n1e".toList) := by
    intro endsOpen
    rcases endsOpen.mark_mem with quote | comment
    · revert quote
      decide +kernel
    · revert comment
      decide +kernel
  have failed : lower.failure = some (.fault "t.c" 1 (.unclosed 0)) := by decide +kernel
  obtain ⟨tokens, failure, final⟩ := scan_concatenation ⟨[]⟩ .empty "t.c" "7.\n/\n1e" "/ '" complete closed
  have count : 1 + "7.\n/\n1e".toList.count '\n' = 3 := by decide +kernel
  rw [count] at tokens failure final
  exact ⟨complete, closed, tokens, failure.trans (congrArg _ failed), final⟩

end Scanner
end TokenTape
