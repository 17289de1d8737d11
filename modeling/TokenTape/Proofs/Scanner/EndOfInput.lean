import TokenTape.Proofs.Reading.Supply
import TokenTape.Proofs.Scanner.History
import TokenTape.Proofs.Tape.Outcome
/-!
The end of input is told for good. A scanner that holds a line source (`SuppliedScanner`) gives what a
scanner over the replies gives, and it knows how often it has asked. Once it has told the end of input
nothing of it changes any more, however it is asked, so it is packed into one byte. Somebody who goes
through its items meets tokens and then at most one last outcome, whatever is asked for besides
(`SuppliedScanner.end_of_input_absorbing`).
-/
namespace TokenTape

/-- What somebody meets who goes through items one by one: tokens, then at most one last outcome, which
is the end of input or a failure, and nothing behind it. -/
inductive EndsOnce : List (Option Outcome) → Prop
  | going : EndsOnce []
  | token {token : Token} {items : List (Option Outcome)} (goes : token.isEnd = false)
      (further : EndsOnce items) : EndsOnce (some (.ok token) :: items)
  | last {outcome : Outcome} (isLast : outcome.isLast = true) (count : Nat) :
      EndsOnce (some outcome :: List.replicate count none)

/-! ## Going through the items -/

namespace Scanner

/-- What the steps of a history give. -/
def items (scanner : Scanner) (asks : List Ask) : List (Option Outcome) :=
  ((asks.zip (scanner.askAll asks).1).filter (·.1 == .step)).map Prod.snd

theorem items_next (scanner : Scanner) (asks : List Ask) :
    scanner.items (.next :: asks) = scanner.next.2.items asks := by
  simp [items, askAll, ask]

theorem items_step (scanner : Scanner) (asks : List Ask) :
    scanner.items (.step :: asks) = scanner.step.1 :: scanner.step.2.items asks := by
  simp [items, askAll, ask]

/-- Where the steps are over, they stay so. -/
theorem items_of_finished {scanner : Scanner} (finished : scanner.finished = true)
    (asks : List Ask) : ∃ count, scanner.items asks = List.replicate count none := by
  induction asks generalizing scanner with
  | nil => exact ⟨0, rfl⟩
  | cons ask asks ih =>
    cases ask with
    | next =>
      rw [items_next]
      exact ih ((next_finished scanner).trans finished)
    | step =>
      obtain ⟨count, nothing⟩ := ih finished
      refine ⟨count + 1, ?_⟩
      rw [items_step, step, if_pos finished, nothing]
      rfl

theorem items_endOnce {scanner : Scanner} (going : scanner.finished = false) (asks : List Ask) :
    EndsOnce (scanner.items asks) := by
  induction asks generalizing scanner with
  | nil => exact .going
  | cons ask asks ih =>
    cases ask with
    | next =>
      rw [items_next]
      exact ih ((next_finished scanner).trans going)
    | step =>
      rw [items_step, step, if_neg (by simp [going])]
      cases isLast : Outcome.isLast scanner.next.1 with
      | true =>
        have finished : Scanner.finished { scanner.next.2 with finished := true } = true := rfl
        obtain ⟨count, nothing⟩ := items_of_finished finished asks
        simp only [isLast, nothing]
        exact .last isLast count
      | false =>
        cases taken : scanner.next.1 with
        | error diagnosis =>
          rw [taken] at isLast
          cases isLast
        | ok token =>
          rw [taken] at isLast
          have unfinished : Scanner.finished { scanner.next.2 with finished := false } = false := rfl
          have further := ih unfinished
          simp only [taken, isLast]
          exact .token isLast further

end Scanner

/-! ## A scanner that asks -/

/-- A scanner whose reader holds a line source. -/
structure SuppliedScanner where
  file : String
  reserved : ReservedWords
  reader : SuppliedReader
  vocabulary : Vocabulary
  finished : Bool

namespace SuppliedScanner

def start (reserved : ReservedWords) (vocabulary : Vocabulary) (file text : String)
    (supply : Supply) : SuppliedScanner :=
  ⟨file, reserved, ⟨[], text.toList, supply, 1, 1⟩, vocabulary, false⟩

/-- The same scanner over the replies to come. -/
def scanner (supplied : SuppliedScanner) : Scanner :=
  ⟨supplied.file, supplied.reserved, supplied.reader.reader, supplied.vocabulary, supplied.finished⟩

/-- Takes the next token. -/
def next (supplied : SuppliedScanner) : Outcome × SuppliedScanner :=
  match supplied.reader.next with
  | (.ok lexeme, reader) =>
    let (token, vocabulary) := lexeme.token supplied.reserved supplied.vocabulary
    (.ok token, { supplied with reader, vocabulary })
  | (.error obstacle, reader) =>
    (.error (obstacle.diagnosis supplied.file reader.line), { supplied with reader })

/-- Asks once. -/
def ask (supplied : SuppliedScanner) : Ask → Option Outcome × SuppliedScanner
  | .next => (some supplied.next.1, supplied.next.2)
  | .step =>
    if supplied.finished then (none, supplied)
    else (some supplied.next.1, { supplied.next.2 with finished := supplied.next.1.isLast })

/-- Asks again and again. -/
def askAll (supplied : SuppliedScanner) : List Ask → List (Option Outcome) × SuppliedScanner
  | [] => ([], supplied)
  | ask :: asks =>
    let later := (supplied.ask ask).2.askAll asks
    ((supplied.ask ask).1 :: later.1, later.2)

theorem next_scanner (supplied : SuppliedScanner) :
    supplied.scanner.next = (supplied.next.1, supplied.next.2.scanner) := by
  have same := supplied.reader.next_reader
  unfold next
  match read : supplied.reader.next with
  | (.ok lexeme, reader) =>
    rw [read] at same
    have same : supplied.scanner.reader.next = (.ok lexeme, reader.reader) := same
    exact Scanner.next_of_lexeme same
  | (.error obstacle, reader) =>
    rw [read] at same
    have same : supplied.scanner.reader.next = (.error obstacle, reader.reader) := same
    exact Scanner.next_of_obstacle same

theorem ask_scanner (supplied : SuppliedScanner) (ask : Ask) :
    supplied.scanner.ask ask = ((supplied.ask ask).1, (supplied.ask ask).2.scanner) := by
  cases ask with
  | next => simp only [Scanner.ask, SuppliedScanner.ask, next_scanner]
  | step =>
    have finished : supplied.scanner.finished = supplied.finished := rfl
    simp only [Scanner.ask, Scanner.step, SuppliedScanner.ask, next_scanner, finished]
    split <;> rfl

theorem askAll_scanner (supplied : SuppliedScanner) (asks : List Ask) :
    supplied.scanner.askAll asks = ((supplied.askAll asks).1, (supplied.askAll asks).2.scanner) := by
  induction asks generalizing supplied with
  | nil => rfl
  | cons ask asks ih => simp only [Scanner.askAll, askAll, ask_scanner, ih]

/-! ## Behind the end of input -/

/-- Nothing is left to be told but the end of input, and telling it changes nothing. -/
def AtEnd (supplied : SuppliedScanner) : Prop := supplied.next = (.ok .endOfInput, supplied)

theorem next_endOfInput {supplied : SuppliedScanner} (told : supplied.next.1 = .ok .endOfInput) :
    supplied.next.2.AtEnd := by
  unfold next at told ⊢
  match read : supplied.reader.next with
  | (.error obstacle, reader) =>
    rw [read] at told
    cases told
  | (.ok lexeme, reader) =>
    rw [read] at told
    have last : (lexeme.token supplied.reserved supplied.vocabulary).1.isEnd = true := by
      rw [Except.ok.inj told]
      rfl
    obtain rfl := Lexeme.isEnd_token.mp last
    simp only [AtEnd, next, SuppliedReader.next_endOfInput read]
    rfl

/-- A request does not look at whether the steps are over. -/
theorem next_with_finished (supplied : SuppliedScanner) (finished : Bool) :
    next { supplied with finished } = (supplied.next.1, { supplied.next.2 with finished }) := by
  unfold next
  dsimp only
  split <;> rfl

theorem AtEnd.with_finished {supplied : SuppliedScanner} (atEnd : supplied.AtEnd) (finished : Bool) :
    AtEnd { supplied with finished } := by
  rw [AtEnd, next_with_finished, atEnd]

/-- Whichever way the end of input has been told, it is told again. -/
theorem ask_endOfInput {supplied : SuppliedScanner} {ask : Ask}
    (told : (supplied.ask ask).1 = some (.ok .endOfInput)) : (supplied.ask ask).2.AtEnd := by
  cases ask with
  | next => exact next_endOfInput (Option.some.inj told)
  | step =>
    unfold SuppliedScanner.ask at told ⊢
    dsimp only at told ⊢
    split at told
    · cases told
    · next going =>
      rw [if_neg going]
      exact (next_endOfInput (Option.some.inj told)).with_finished _

/-- However a scanner is asked behind the end of input, nothing of it changes but whether the steps are
over. -/
theorem AtEnd.askAll {supplied : SuppliedScanner} (atEnd : supplied.AtEnd) (asks : List Ask) :
    ∃ finished, (supplied.askAll asks).2 = { supplied with finished } := by
  induction asks generalizing supplied with
  | nil => exact ⟨supplied.finished, rfl⟩
  | cons ask asks ih =>
    have once : ∃ finished, (supplied.ask ask).2 = { supplied with finished } := by
      cases ask with
      | next =>
        refine ⟨supplied.finished, ?_⟩
        rw [SuppliedScanner.ask, atEnd]
      | step =>
        rw [SuppliedScanner.ask, atEnd]
        split
        · exact ⟨supplied.finished, rfl⟩
        · exact ⟨_, rfl⟩
    obtain ⟨finished, asked⟩ := once
    obtain ⟨finished', later⟩ := ih (atEnd.with_finished finished)
    refine ⟨finished', ?_⟩
    rw [SuppliedScanner.askAll, asked, later]

/-- A scanner over replies, seen as one that asks for them. -/
def ofScanner (scanner : Scanner) : SuppliedScanner :=
  ⟨scanner.file, scanner.reserved,
    ⟨scanner.reader.stray, scanner.reader.text, .ofReplies scanner.reader.source, scanner.reader.line,
      scanner.reader.tokenLine⟩,
    scanner.vocabulary, scanner.finished⟩

theorem scanner_ofScanner (scanner : Scanner) : (ofScanner scanner).scanner = scanner := by
  simp only [SuppliedScanner.scanner, ofScanner, SuppliedReader.reader, Supply.replies_ofReplies]

end SuppliedScanner

namespace Scanner

variable {scanner after : Scanner}

/-- The end of input that has been told once is told again, and telling it changes nothing. -/
theorem next_again (told : scanner.next = (.ok .endOfInput, after)) :
    after.next = (.ok .endOfInput, after) := by
  have first := (SuppliedScanner.ofScanner scanner).next_scanner
  rw [SuppliedScanner.scanner_ofScanner, told] at first
  obtain ⟨outcome, rfl⟩ := Prod.mk.inj first
  rw [SuppliedScanner.next_scanner, SuppliedScanner.next_endOfInput outcome.symm]

/-- A complete scan leaves the scanner at the end of input. -/
theorem final_next (complete : scanner.scan.failure = none) :
    scanner.scan.final.next = (.ok .endOfInput, scanner.scan.final) := by
  induction scanner using scan_induction with
  | failed scanner diagnosis after taken =>
    rw [scan_of_failed taken] at complete
    cases complete
  | ended scanner token after taken ended =>
    rw [scan_of_ended taken ended]
    obtain rfl := Token.eq_endOfInput_of_isEnd (next_recordable taken) ended
    exact next_again taken
  | going scanner token after taken going ih =>
    rw [scan_of_going taken going] at complete ⊢
    exact ih complete

/-- At the end of input one byte is packed, with line marks and without. -/
theorem pack_at_end (atEnd : scanner.next = (.ok .endOfInput, scanner)) (marks : Bool) {quota : Quota}
    (room : 2 ≤ quota.free) :
    scanner.pack marks quota = ⟨.ok ⟨[Kind.endOfInput.tag]⟩,
      { quota with committed := quota.committed + 1 }, scanner⟩ := by
  have scan := scan_of_ended atEnd rfl
  have complete : scanner.scan.failure = none := by
    rw [scan]
  have noMark : (if marks then scanner.tokenLine - scanner.line else 0) = 0 := by
    have lines := (next_lines atEnd).2
    split
    · exact Nat.sub_eq_zero_of_le lines
    · rfl
  have bytes : Located.encodeAll marks scanner.line scanner.scan.tokens = [Kind.endOfInput.tag] := by
    rw [scan]
    simp only [Located.encodeAll, noMark]
    rfl
  have packed := (pack_of_complete marks quota scanner complete).1
  rw [bytes, scan] at packed
  exact packed room

/-- What has been packed is packed again into one byte. -/
theorem pack_again {marks : Bool} {quota : Quota} {tape : Tape}
    (packed : (scanner.pack marks quota).result = .ok tape) (again : Bool) {left : Quota}
    (room : 2 ≤ left.free) :
    let packing := scanner.pack marks quota
    packing.scanner.pack again left = ⟨.ok ⟨[Kind.endOfInput.tag]⟩,
      { left with committed := left.committed + 1 }, packing.scanner⟩ := by
  obtain ⟨complete, rfl, twice⟩ := pack_eq_ok_iff.mp packed
  have final := (pack_of_complete marks quota scanner complete).1 twice
  rw [final]
  exact pack_at_end (final_next complete) again room

end Scanner

namespace SuppliedScanner

/-- Whatever has been asked for, by requests and by steps, the outcomes are those of a scanner over the
replies. Once one of them is the end of input, the scanner stays as it is, however it is asked: each
further request tells the end of input again, on the same line, with the same vocabulary and without
asking the line source. The steps give tokens and then at most one last outcome, and nothing behind it.
A scanner that has been packed is packed again, with line marks or without, into the one byte of the end
of input, if two bytes are free. -/
theorem end_of_input_absorbing (reserved : ReservedWords) (vocabulary : Vocabulary)
    (file text : String) (supply : Supply) (asks : List Ask) :
    let start := SuppliedScanner.start reserved vocabulary file text supply
    let running := Scanner.start reserved vocabulary file text supply.replies
    let supplied := (start.askAll asks).2
    let scanner := (running.askAll asks).2
    (start.askAll asks).1 = (running.askAll asks).1 ∧ supplied.scanner = scanner ∧
      (∀ ask, (supplied.ask ask).1 = some (.ok .endOfInput) → ∀ more,
        let told := (supplied.ask ask).2
        let later := (told.askAll more).2
        later.next = (.ok .endOfInput, later) ∧ ∃ finished, later = { told with finished }) ∧
      EndsOnce (running.items asks) ∧
      ∀ marks quota tape, (scanner.pack marks quota).result = .ok tape →
        ∀ again left, 2 ≤ left.free →
          let packing := scanner.pack marks quota
          packing.scanner.pack again left = ⟨.ok ⟨[Kind.endOfInput.tag]⟩,
            { left with committed := left.committed + 1 }, packing.scanner⟩ := by
  intro start running supplied scanner
  have same : running.askAll asks = ((start.askAll asks).1, supplied.scanner) :=
    askAll_scanner start asks
  refine ⟨(congrArg Prod.fst same).symm, (congrArg Prod.snd same).symm, ?_, ?_, ?_⟩
  · intro ask told more
    have atEnd := ask_endOfInput told
    obtain ⟨finished, kept⟩ := atEnd.askAll more
    refine ⟨?_, finished, kept⟩
    rw [kept]
    exact atEnd.with_finished finished
  · exact Scanner.items_endOnce rfl asks
  · intro marks quota tape packed again left room
    exact Scanner.pack_again packed again room

/-- A line source that would go on behind its end is asked twice: for the rest of a comment, and in
vain. -/
theorem end_of_input_absorbing_behind_comment :
    let words := ReservedWords.ofVocabulary .empty
    let supply : Supply := ⟨[some (.line "x */"), none, some (.line "z")], 0, true⟩
    let supplied := start words.1 words.2 "t.c" "/* " supply
    let told := (supplied.ask .next).2
    let later := (told.askAll [.step, .next]).2
    let scanner := Scanner.start words.1 words.2 "t.c" "/* " supply.replies
    let packing := scanner.pack true (.ofLimit 64)
    (supplied.ask .next).1 = some (.ok .endOfInput) ∧
      told.reader.supply = ⟨[some (.line "z")], 2, false⟩ ∧
      later.next = (.ok .endOfInput, later) ∧ later.reader.supply = told.reader.supply ∧
      packing.result = .ok ⟨[66]⟩ ∧
      (packing.scanner.pack false (.ofLimit 2)).result = .ok ⟨[66]⟩ := by
  intro words supply supplied told later scanner packing
  obtain ⟨-, -, absorbing, -, again⟩ :=
    end_of_input_absorbing words.1 words.2 "t.c" "/* " supply []
  have read : supplied.reader.next =
      (.ok .endOfInput, ⟨[], [], ⟨[some (.line "z")], 2, false⟩, 1, 1⟩) := by
    simp [supplied, start, supply, SuppliedReader.next, SuppliedReader.settle, SuppliedBody.read,
      Supply.ask, Closer.comment, SuppliedBody.body, Body.newlines]
    rfl
  have taken : supplied.next = (.ok .endOfInput, { supplied with
      reader := ⟨[], [], ⟨[some (.line "z")], 2, false⟩, 1, 1⟩ }) := by
    simp only [SuppliedScanner.next, read]
    rfl
  have ended : (supplied.ask .next).1 = some (.ok .endOfInput) := by
    rw [ask, taken]
  have asked : told.reader.supply = ⟨[some (.line "z")], 2, false⟩ := by
    simp only [told, ask, taken]
  obtain ⟨next, finished, kept⟩ := absorbing .next ended [.step, .next]
  have packed : packing.result = .ok ⟨[66]⟩ := by
    have given : scanner.next = (.ok .endOfInput, supplied.next.2.scanner) := by
      rw [show scanner = supplied.scanner from rfl, next_scanner, taken]
    have scan := Scanner.scan_of_ended given rfl
    refine Scanner.pack_eq_ok_iff.mpr ?_
    rw [scan, taken]
    decide
  have room : 2 ≤ (Quota.ofLimit 2).free := by decide
  refine ⟨ended, asked, next, congrArg (fun scanner => scanner.reader.supply) kept, packed, ?_⟩
  exact congrArg Packing.result (again true (.ofLimit 64) ⟨[66]⟩ packed false (.ofLimit 2) room)

end SuppliedScanner
end TokenTape
