import TokenTape.Proofs.Reading.SpanTokens
import TokenTape.Proofs.Scanner.History
/-!
A scanner over bytes, with every access checked. It asks a `Span` for its lexemes and has no result
as soon as one check fails: a byte that does not exist, a slice beyond the end, or text that would
start or end inside a character. None of them ever fails, and the outcomes are those of the scanner
over characters (`ByteScanner.accesses_in_range`).
-/
namespace TokenTape

/-- A span together with the vocabulary that its words enter. -/
structure ByteScanner where
  file : String
  reserved : ReservedWords
  span : Span
  vocabulary : Vocabulary
  finished : Bool

namespace ByteScanner

def start (reserved : ReservedWords) (vocabulary : Vocabulary) (file text : String)
    (source : LineSource) : ByteScanner :=
  ⟨file, reserved, .start text source, vocabulary, false⟩

/-- Takes the next token, if all checks pass. -/
def next (scanner : ByteScanner) : Option (Outcome × ByteScanner) := do
  let (result, span) ← scanner.span.next
  match result with
  | .ok lexeme =>
    let (token, vocabulary) := lexeme.token scanner.reserved scanner.vocabulary
    return (.ok token, { scanner with span, vocabulary })
  | .error obstacle =>
    return (.error (obstacle.diagnosis scanner.file span.line), { scanner with span })

/-- Asks once. -/
def ask (scanner : ByteScanner) : Ask → Option (Option Outcome × ByteScanner)
  | .next => do
    let (outcome, scanner) ← scanner.next
    return (some outcome, scanner)
  | .step =>
    if scanner.finished then return (none, scanner)
    else do
      let (outcome, scanner) ← scanner.next
      return (some outcome, { scanner with finished := Outcome.isLast outcome })

/-- Asks again and again. -/
def askAll (scanner : ByteScanner) : List Ask → Option (List (Option Outcome) × ByteScanner)
  | [] => return ([], scanner)
  | ask :: asks => do
    let (outcome, scanner) ← scanner.ask ask
    let (outcomes, scanner) ← scanner.askAll asks
    return (outcome :: outcomes, scanner)

/-- A scanner over bytes in step with one over characters. -/
structure Mirrors (bytewise : ByteScanner) (scanner : Scanner) : Prop where
  file : bytewise.file = scanner.file
  reserved : bytewise.reserved = scanner.reserved
  vocabulary : bytewise.vocabulary = scanner.vocabulary
  finished : bytewise.finished = scanner.finished
  tracks : bytewise.span.Tracks scanner.reader

theorem Mirrors.next {bytewise : ByteScanner} {scanner : Scanner} (mirrors : bytewise.Mirrors scanner) :
    ∃ after, bytewise.next = some (scanner.next.1, after) ∧ after.Mirrors scanner.next.2 := by
  obtain ⟨span, given, tracks⟩ := mirrors.tracks.next
  match read : scanner.reader.next with
  | (.ok lexeme, reader) =>
    rw [read] at given tracks
    rw [Scanner.next_of_lexeme read, ByteScanner.next, given, ← mirrors.reserved, ← mirrors.vocabulary]
    exact ⟨_, rfl, mirrors.file, rfl, rfl, mirrors.finished, tracks⟩
  | (.error obstacle, reader) =>
    rw [read] at given tracks
    have sameLine : span.line = reader.line := tracks.line
    rw [Scanner.next_of_obstacle read, ByteScanner.next, given, ← mirrors.file, ← sameLine]
    exact ⟨_, rfl, rfl, mirrors.reserved, mirrors.vocabulary, mirrors.finished, tracks⟩

theorem Mirrors.ask {bytewise : ByteScanner} {scanner : Scanner} (mirrors : bytewise.Mirrors scanner)
    (ask : Ask) :
    ∃ after, bytewise.ask ask = some ((scanner.ask ask).1, after) ∧
      after.Mirrors (scanner.ask ask).2 := by
  obtain ⟨after, given, further⟩ := mirrors.next
  cases ask with
  | next => exact ⟨after, by simp [ByteScanner.ask, given, Scanner.ask], further⟩
  | step =>
    simp only [ByteScanner.ask, Scanner.ask, Scanner.step, mirrors.finished]
    split
    · exact ⟨bytewise, rfl, mirrors⟩
    · rw [given]
      exact ⟨_, rfl, further.file, further.reserved, further.vocabulary, rfl, further.tracks⟩

theorem Mirrors.askAll {bytewise : ByteScanner} {scanner : Scanner}
    (mirrors : bytewise.Mirrors scanner) (asks : List Ask) :
    ∃ after, bytewise.askAll asks = some ((scanner.askAll asks).1, after) ∧
      after.Mirrors (scanner.askAll asks).2 := by
  induction asks generalizing bytewise scanner with
  | nil => exact ⟨bytewise, rfl, mirrors⟩
  | cons ask asks ih =>
    obtain ⟨middle, first, further⟩ := mirrors.ask ask
    obtain ⟨after, later, mirrors⟩ := ih further
    exact ⟨after, by simp [ByteScanner.askAll, first, later, Scanner.askAll], mirrors⟩

theorem start_mirrors (reserved : ReservedWords) (vocabulary : Vocabulary) (file text : String)
    (source : LineSource) :
    (start reserved vocabulary file text source).Mirrors
      (.start reserved vocabulary file text source) :=
  ⟨rfl, rfl, rfl, rfl, Span.start_tracks text source⟩

/-- Whatever the text and the replies are, and however a scanner is asked, also after failures, all
checks pass: every byte that is taken exists, every slice lies within the bytes, those that become
text start and end between characters, and the index does not go beyond the end. What is given is
what the scanner over characters gives. -/
theorem accesses_in_range (reserved : ReservedWords) (vocabulary : Vocabulary) (file text : String)
    (source : LineSource) (asks : List Ask) :
    ∃ after, (start reserved vocabulary file text source).askAll asks =
        some (((Scanner.start reserved vocabulary file text source).askAll asks).1, after) ∧
      after.span.position ≤ after.span.bytes.length := by
  have mirrors := start_mirrors reserved vocabulary file text source
  obtain ⟨after, given, further⟩ := mirrors.askAll asks
  exact ⟨after, given, further.tracks.within⟩

end ByteScanner
end TokenTape
