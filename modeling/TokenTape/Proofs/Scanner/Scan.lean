import TokenTape.Proofs.Reading.LineOrder
import TokenTape.Scanner
/-!
What repeated requests for a token give, up to the first end of input or failure. `Scanner.scan`
asks with `Scanner.next` alone, so it may start in any state, also where `Scanner.step` has
nothing more to give. Its tokens start on lines that never go back, each of them can be
recorded on a tape, and only the last one can be the end of input.
-/
namespace TokenTape

/-- A token, the line it starts on and the line that the scanner has reached behind it. -/
structure Located where
  token : Token
  line : Nat
  reached : Nat
  deriving DecidableEq

/-- What is left to be scanned. -/
structure Scan where
  /-- The tokens in order, with the end of input if it was reached. -/
  tokens : List Located
  /-- Why there is no further token, unless the end of input was reached. -/
  failure : Option Diagnosis
  final : Scanner

namespace Scan

/-- The same scan with one more token before it. -/
def cons (located : Located) (scan : Scan) : Scan := { scan with tokens := located :: scan.tokens }

@[simp] theorem cons_tokens (located : Located) (scan : Scan) :
    (scan.cons located).tokens = located :: scan.tokens := rfl

@[simp] theorem cons_failure (located : Located) (scan : Scan) :
    (scan.cons located).failure = scan.failure := rfl

@[simp] theorem cons_final (located : Located) (scan : Scan) :
    (scan.cons located).final = scan.final := rfl

end Scan

/-- A token that a tape can hold: it is no line mark, and it carries a value just when its kind
asks for one. -/
def Token.Recordable (token : Token) : Prop :=
  token.kind ≠ .endOfLine ∧ token.value.isSome = token.kind.hasValue

/-- The end of input carries nothing, so its kind already says which token it is. -/
theorem Token.eq_endOfInput_of_isEnd {token : Token} (recordable : token.Recordable)
    (ended : token.isEnd = true) : token = .endOfInput := by
  obtain ⟨kind, value⟩ := token
  obtain rfl : kind = .endOfInput := by simpa [isEnd] using ended
  have none : value.isSome = false := recordable.2
  simpa [Token.endOfInput, Token.bare] using none

theorem Lexeme.token_recordable (reserved : ReservedWords) (vocabulary : Vocabulary)
    (lexeme : Lexeme) : (lexeme.token reserved vocabulary).1.Recordable := by
  cases lexeme with
  | word spelling =>
    simp only [token]
    split <;>
    · refine ⟨?_, rfl⟩
      intro mark
      cases mark
  | _ =>
    refine ⟨?_, rfl⟩
    intro mark
    cases mark

/-- A token behind which a scan goes on was not made of the end of input. -/
theorem Lexeme.ne_endOfInput_of_going {reserved : ReservedWords} {vocabulary : Vocabulary}
    {lexeme : Lexeme} (going : (lexeme.token reserved vocabulary).1.isEnd = false) :
    lexeme ≠ .endOfInput := by
  intro last
  rw [Lexeme.isEnd_token.mpr last] at going
  cases going

namespace Scanner

variable {scanner after : Scanner}

/-- A lexeme becomes a token and leaves all but the reader and the vocabulary as it was. -/
theorem next_of_lexeme {lexeme : Lexeme} {reader : Reader}
    (read : scanner.reader.next = (.ok lexeme, reader)) :
    scanner.next = (.ok (lexeme.token scanner.reserved scanner.vocabulary).1,
      { scanner with
        reader, vocabulary := (lexeme.token scanner.reserved scanner.vocabulary).2 }) := by
  simp only [next, read]

/-- An obstacle is told with the file and the line reached, and no word enters the vocabulary. -/
theorem next_of_obstacle {obstacle : Obstacle} {reader : Reader}
    (read : scanner.reader.next = (.error obstacle, reader)) :
    scanner.next = (.error (obstacle.diagnosis scanner.file reader.line), { scanner with reader }) := by
  simp only [next, read]

/-- All that a request can have done when it gives a token. -/
theorem next_ok {token : Token} (taken : scanner.next = (.ok token, after)) :
    ∃ lexeme reader, scanner.reader.next = (.ok lexeme, reader) ∧
      token = (lexeme.token scanner.reserved scanner.vocabulary).1 ∧
      after = { scanner with
        reader, vocabulary := (lexeme.token scanner.reserved scanner.vocabulary).2 } := by
  match read : scanner.reader.next with
  | (.ok lexeme, reader) =>
    rw [next_of_lexeme read] at taken
    cases taken
    exact ⟨lexeme, reader, rfl, rfl, rfl⟩
  | (.error obstacle, reader) =>
    rw [next_of_obstacle read] at taken
    cases taken

/-- All that a request can have done when it fails. -/
theorem next_error {diagnosis : Diagnosis} (taken : scanner.next = (.error diagnosis, after)) :
    ∃ obstacle reader, scanner.reader.next = (.error obstacle, reader) ∧
      diagnosis = obstacle.diagnosis scanner.file reader.line ∧ after = { scanner with reader } := by
  match read : scanner.reader.next with
  | (.ok lexeme, reader) =>
    rw [next_of_lexeme read] at taken
    cases taken
  | (.error obstacle, reader) =>
    rw [next_of_obstacle read] at taken
    cases taken
    exact ⟨obstacle, reader, rfl, rfl, rfl⟩

/-- A token starts on no earlier line than was reached before it, and ends on no earlier line
than it starts on. -/
theorem next_lines {token : Token} (taken : scanner.next = (.ok token, after)) :
    scanner.line ≤ after.tokenLine ∧ after.tokenLine ≤ after.line := by
  obtain ⟨lexeme, reader, read, -, rfl⟩ := next_ok taken
  exact Reader.next_lines read

theorem next_file {token : Token} (taken : scanner.next = (.ok token, after)) :
    after.file = scanner.file := by
  obtain ⟨lexeme, reader, -, -, rfl⟩ := next_ok taken
  rfl

theorem next_recordable {token : Token} (taken : scanner.next = (.ok token, after)) :
    token.Recordable := by
  obtain ⟨lexeme, reader, -, rfl, -⟩ := next_ok taken
  exact Lexeme.token_recordable _ _ lexeme

/-- A request that gives a token other than the end of input uses up input. -/
theorem remaining_lt_of_next {token : Token}
    (taken : scanner.next = (.ok token, after)) (going : token.isEnd = false) :
    after.reader.remaining < scanner.reader.remaining := by
  have used := scanner.next_remaining_lt
  rw [taken] at used
  apply used
  intro other same
  cases same
  exact going

/-- Requests tokens up to the first end of input or failure. -/
def scan (scanner : Scanner) : Scan :=
  match _taken : scanner.next with
  | (.error diagnosis, after) => ⟨[], some diagnosis, after⟩
  | (.ok token, after) =>
    match _ended : token.isEnd with
    | true => ⟨[⟨token, after.tokenLine, after.line⟩], none, after⟩
    | false => after.scan.cons ⟨token, after.tokenLine, after.line⟩
termination_by scanner.reader.remaining
decreasing_by exact remaining_lt_of_next _taken _ended

/-- One case for each way in which a scan goes on: it fails, it reaches the end of input, or it
gives a token and goes on behind it. -/
@[elab_as_elim]
theorem scan_induction {motive : Scanner → Prop}
    (failed : ∀ scanner diagnosis after, scanner.next = (.error diagnosis, after) → motive scanner)
    (ended : ∀ scanner token after, scanner.next = (.ok token, after) → token.isEnd = true →
      motive scanner)
    (going : ∀ scanner token after, scanner.next = (.ok token, after) → token.isEnd = false →
      motive after → motive scanner)
    (scanner : Scanner) : motive scanner := by
  induction size : scanner.reader.remaining using Nat.strongRecOn generalizing scanner with
  | ind size ih =>
    match taken : scanner.next with
    | (.error diagnosis, after) => exact failed scanner diagnosis after taken
    | (.ok token, after) =>
      cases last : token.isEnd with
      | true => exact ended scanner token after taken last
      | false =>
        have smaller := remaining_lt_of_next taken last
        exact going scanner token after taken last (ih _ (by omega) after rfl)

theorem scan_of_failed {diagnosis : Diagnosis} (taken : scanner.next = (.error diagnosis, after)) :
    scanner.scan = ⟨[], some diagnosis, after⟩ := by
  rw [scan]
  split
  · next found =>
    rw [taken] at found
    cases found
    rfl
  · next found =>
    rw [taken] at found
    cases found

theorem scan_of_ended {token : Token} (taken : scanner.next = (.ok token, after))
    (ended : token.isEnd = true) :
    scanner.scan = ⟨[⟨token, after.tokenLine, after.line⟩], none, after⟩ := by
  rw [scan]
  split
  · next found =>
    rw [taken] at found
    cases found
  · next found =>
    rw [taken] at found
    cases found
    split
    · rfl
    · next going =>
      rw [ended] at going
      cases going

theorem scan_of_going {token : Token} (taken : scanner.next = (.ok token, after))
    (going : token.isEnd = false) :
    scanner.scan = after.scan.cons ⟨token, after.tokenLine, after.line⟩ := by
  rw [scan]
  split
  · next found =>
    rw [taken] at found
    cases found
  · next found =>
    rw [taken] at found
    cases found
    split
    · next ended =>
      rw [going] at ended
      cases ended
    · rfl

end Scanner

/-- Each token starts on the line of the one before it or further down; the first is compared
with a given line. -/
def Descending (line : Nat) : List Located → Prop
  | [] => True
  | located :: rest => line ≤ located.line ∧ Descending located.line rest

theorem Descending.of_le {line lower : Nat} {tokens : List Located} (le : lower ≤ line)
    (descending : Descending line tokens) : Descending lower tokens := by
  cases tokens with
  | nil => trivial
  | cons located rest => exact ⟨Nat.le_trans le descending.1, descending.2⟩

namespace Scanner

theorem scan_descending (scanner : Scanner) : Descending scanner.line scanner.scan.tokens := by
  induction scanner using scan_induction with
  | failed scanner diagnosis after taken =>
    rw [scan_of_failed taken]
    trivial
  | ended scanner token after taken ended =>
    rw [scan_of_ended taken ended]
    exact ⟨(next_lines taken).1, trivial⟩
  | going scanner token after taken going ih =>
    rw [scan_of_going taken going]
    exact ⟨(next_lines taken).1, ih.of_le (next_lines taken).2⟩

theorem scan_recordable (scanner : Scanner) :
    ∀ located ∈ scanner.scan.tokens, located.token.Recordable := by
  induction scanner using scan_induction with
  | failed scanner diagnosis after taken =>
    rw [scan_of_failed taken]
    intro located member
    cases member
  | ended scanner token after taken ended =>
    rw [scan_of_ended taken ended]
    intro located member
    rw [List.mem_singleton.mp member]
    exact next_recordable taken
  | going scanner token after taken going ih =>
    rw [scan_of_going taken going]
    intro located member
    rcases List.mem_cons.mp member with rfl | later
    · exact next_recordable taken
    · exact ih located later

/-- A scan that does not fail gives other tokens first and then the end of input, once; behind
that the scanner stands on the line reached with it. -/
theorem scan_ends (scanner : Scanner) (complete : scanner.scan.failure = none) :
    ∃ before last, scanner.scan.tokens = before ++ [last] ∧ last.token = .endOfInput ∧
      last.reached = scanner.scan.final.line ∧
      ∀ located ∈ before, located.token.isEnd = false := by
  induction scanner using scan_induction with
  | failed scanner diagnosis after taken =>
    rw [scan_of_failed taken] at complete
    cases complete
  | ended scanner token after taken ended =>
    rw [scan_of_ended taken ended]
    have atEnd := Token.eq_endOfInput_of_isEnd (next_recordable taken) ended
    refine ⟨[], _, rfl, atEnd, rfl, ?_⟩
    intro located member
    cases member
  | going scanner token after taken going ih =>
    rw [scan_of_going taken going] at complete ⊢
    obtain ⟨before, last, tokens, atEnd, line, others⟩ := ih complete
    refine ⟨_ :: before, last, by rw [Scan.cons_tokens, tokens]; rfl, atEnd, line, ?_⟩
    intro located member
    rcases List.mem_cons.mp member with rfl | later
    · exact going
    · exact others located later

theorem scan_final_file (scanner : Scanner) : scanner.scan.final.file = scanner.file := by
  induction scanner using scan_induction with
  | failed scanner diagnosis after taken =>
    rw [scan_of_failed taken]
    obtain ⟨obstacle, reader, -, -, rfl⟩ := next_error taken
    rfl
  | ended scanner token after taken ended =>
    rw [scan_of_ended taken ended]
    exact next_file taken
  | going scanner token after taken going ih =>
    rw [scan_of_going taken going]
    exact ih.trans (next_file taken)

end Scanner
end TokenTape
