import TokenTape.Reading.Reader
import TokenTape.ReservedWords
/-!
A scanner turns lexemes into tokens: words enter the vocabulary, and a word that the table
of reserved words knows becomes a keyword. `next` may be called at any time, also after a
failure; `step` is for going through a source once and stops for good after the end of input
or the first failure.
-/
namespace TokenTape

/-- A reader together with the vocabulary that its words enter. -/
structure Scanner where
  /-- The name under which failures are told. -/
  file : String
  reserved : ReservedWords
  reader : Reader
  vocabulary : Vocabulary
  /-- Whether `step` has given the end of input or a failure. -/
  finished : Bool

/-- The token of a lexeme, and the vocabulary with the lexeme's text in it. -/
def Lexeme.token (reserved : ReservedWords) (vocabulary : Vocabulary) :
    Lexeme → Token × Vocabulary
  | .word spelling =>
    let (handle, vocabulary) := vocabulary.intern spelling
    match reserved.lookup? handle with
    | some keyword => (.bare (.keyword keyword), vocabulary)
    | none => (.valued .identifier (.word handle), vocabulary)
  | .numeral parts =>
    (.valued (if parts.isFloat then .float else .integer) parts.value, vocabulary)
  | .string text =>
    let (handle, vocabulary) := vocabulary.intern text
    (.valued .string (.word handle), vocabulary)
  | .character c => (.valued .character (.integer (Int64.ofNat c.toNat)), vocabulary)
  | .symbol mark => (.bare (.symbol mark), vocabulary)
  | .endOfInput => (.endOfInput, vocabulary)

/-- Only the end of input makes the token that ends a scan. -/
theorem Lexeme.isEnd_token {reserved : ReservedWords} {vocabulary : Vocabulary} {lexeme : Lexeme} :
    (lexeme.token reserved vocabulary).1.isEnd = true ↔ lexeme = .endOfInput := by
  cases lexeme with
  | word spelling =>
    simp only [token]
    split <;> simp [Token.isEnd, Token.bare, Token.valued]
  | _ => simp [token, Token.isEnd, Token.bare, Token.valued, Token.endOfInput]

/-- What is told about an obstacle met in a file on a line. -/
def Obstacle.diagnosis (file : String) (line : Nat) : Obstacle → Diagnosis
  | .fault cause => .fault file line cause
  | .unreadable reason => .unreadable reason

namespace Scanner

/-- A scanner at the start of a text. -/
def start (reserved : ReservedWords) (vocabulary : Vocabulary) (file text : String)
    (source : LineSource) : Scanner :=
  ⟨file, reserved, .start text source, vocabulary, false⟩

/-- The line reached so far. -/
def line (scanner : Scanner) : Nat := scanner.reader.line

/-- The line on which the latest token started. -/
def tokenLine (scanner : Scanner) : Nat := scanner.reader.tokenLine

/-- Takes the next token. -/
def next : Scanner → Outcome × Scanner
  | ⟨file, reserved, reader, vocabulary, finished⟩ =>
    match reader.next with
    | (.ok lexeme, reader) =>
      let (token, vocabulary) := lexeme.token reserved vocabulary
      (.ok token, ⟨file, reserved, reader, vocabulary, finished⟩)
    | (.error obstacle, reader) =>
      (.error (obstacle.diagnosis file reader.line), ⟨file, reserved, reader, vocabulary, finished⟩)

/-- Takes the next token unless the scan is over. -/
def step (scanner : Scanner) : Option (Outcome) × Scanner :=
  if scanner.finished then (none, scanner)
  else
    let (outcome, scanner) := scanner.next
    (some outcome, { scanner with finished := Outcome.isLast outcome })

/-- Taking a token uses up input until the end of input is reached. -/
theorem next_remaining_lt (scanner : Scanner)
    (more : ∀ token, scanner.next.1 = .ok token → token.isEnd = false) :
    scanner.next.2.reader.remaining < scanner.reader.remaining := by
  obtain ⟨file, reserved, reader, vocabulary, finished⟩ := scanner
  have used := reader.next_remaining_lt
  simp only [next] at more ⊢
  split at more
  · next lexeme reader' found =>
    rw [found] at used
    apply used
    intro last
    cases last
    have := more _ rfl
    rw [Lexeme.isEnd_token.mpr rfl] at this
    cases this
  · next obstacle reader' found =>
    rw [found] at used
    exact used (by simp)

/-- One outcome of a scan and the lines that the scanner has reached with it. -/
structure Report where
  outcome : Outcome
  tokenLine : Nat
  line : Nat

/-- What is left of a scan that goes through a source once. -/
def stepsLeft (scanner : Scanner) : Nat :=
  if scanner.finished then 0 else scanner.reader.remaining + 1

theorem step_stepsLeft_lt {scanner after : Scanner} {outcome : Outcome}
    (stepped : scanner.step = (some outcome, after)) : after.stepsLeft < scanner.stepsLeft := by
  unfold step at stepped
  split at stepped
  · simp at stepped
  · next running =>
    simp only [Prod.mk.injEq, Option.some.injEq] at stepped
    obtain ⟨rfl, rfl⟩ := stepped
    simp only [stepsLeft, running]
    split
    · simp
    · next going =>
      simp only [Bool.false_eq_true, if_false, Nat.add_lt_add_iff_right]
      apply next_remaining_lt
      intro token found
      simpa [Outcome.isLast, found] using going

/-- Goes on to the end of the scan, with the reports gathered before, the latest first. -/
def runOnto (reports : List Report) (scanner : Scanner) : List Report × Scanner :=
  match _stepped : scanner.step with
  | (none, scanner) => (reports.reverse, scanner)
  | (some outcome, after) =>
    runOnto (⟨outcome, after.tokenLine, after.line⟩ :: reports) after
termination_by scanner.stepsLeft
decreasing_by exact step_stepsLeft_lt _stepped

/-- Goes through the source to its end or to the first failure. -/
def run (scanner : Scanner) : List Report × Scanner := scanner.runOnto []

end Scanner
end TokenTape
