import TokenTape.Proofs.Reading.Advance
import TokenTape.Proofs.Reading.Unread
import TokenTape.Proofs.Scanner.Scan
/-!
Histories of a scanner. `Scanner.next` may be called at any time and `Scanner.step` until it has
nothing more to give; both may be mixed, and failures end nothing but the steps. What each call
keeps holds after every history (`askAll_induction`).
-/
namespace TokenTape

/-- The two ways of asking a scanner for a token. -/
inductive Ask where
  | next
  | step
  deriving DecidableEq, Repr

namespace Scanner

/-- All bytes that are left, those of the replies to come included. -/
def unread (scanner : Scanner) : List UInt8 := scanner.reader.unread

theorem next_reader (scanner : Scanner) : scanner.next.2.reader = scanner.reader.next.2 := by
  match read : scanner.reader.next with
  | (.ok lexeme, reader) => rw [next_of_lexeme read]
  | (.error obstacle, reader) => rw [next_of_obstacle read]

theorem next_file_eq (scanner : Scanner) : scanner.next.2.file = scanner.file := by
  match read : scanner.reader.next with
  | (.ok lexeme, reader) => rw [next_of_lexeme read]
  | (.error obstacle, reader) => rw [next_of_obstacle read]

theorem next_finished (scanner : Scanner) : scanner.next.2.finished = scanner.finished := by
  match read : scanner.reader.next with
  | (.ok lexeme, reader) => rw [next_of_lexeme read]
  | (.error obstacle, reader) => rw [next_of_obstacle read]

/-- Behind a request there are no replies to come that were not to come before it. -/
theorem next_source_suffix (scanner : Scanner) :
    scanner.next.2.reader.source <:+ scanner.reader.source := by
  rw [next_reader]
  exact (Reader.next_advances scanner.reader).source_suffix

/-- Asks once. A step that has nothing more to give has no outcome. -/
def ask (scanner : Scanner) : Ask → Option Outcome × Scanner
  | .next => (some scanner.next.1, scanner.next.2)
  | .step => scanner.step

/-- Asks again and again. -/
def askAll (scanner : Scanner) : List Ask → List (Option Outcome) × Scanner
  | [] => ([], scanner)
  | ask :: asks =>
    let later := (scanner.ask ask).2.askAll asks
    ((scanner.ask ask).1 :: later.1, later.2)

/-- Whichever way a scanner is asked, it gives its next outcome, or the steps are over and nothing
happens. -/
theorem ask_cases (scanner : Scanner) (ask : Ask) :
    scanner.ask ask = (none, scanner) ∨
      ∃ finished, scanner.ask ask =
        (some scanner.next.1, { scanner.next.2 with finished := finished }) := by
  cases ask with
  | next => exact Or.inr ⟨scanner.next.2.finished, rfl⟩
  | step =>
    simp only [Scanner.ask, step]
    split
    · exact Or.inl rfl
    · exact Or.inr ⟨_, rfl⟩

/-- All that a request can have done when it gives a token, whichever way it was made. -/
theorem ask_ok {scanner : Scanner} {ask : Ask} {token : Token}
    (given : (scanner.ask ask).1 = some (.ok token)) :
    scanner.next = (.ok token, scanner.next.2) ∧
      ∃ finished, (scanner.ask ask).2 = { scanner.next.2 with finished := finished } := by
  rcases scanner.ask_cases ask with nothing | ⟨finished, asked⟩
  · rw [nothing] at given
    cases given
  · rw [asked] at given
    exact ⟨Prod.ext (Option.some.inj given) rfl, finished, congrArg Prod.snd asked⟩

/-- What the next outcome keeps holds after every history. It cannot depend on whether the steps
are over. -/
@[elab_as_elim]
theorem askAll_induction {motive : Scanner → Prop}
    (next : ∀ scanner, motive scanner →
      ∀ finished, motive { scanner.next.2 with finished := finished })
    {scanner : Scanner} (start : motive scanner) (asks : List Ask) :
    motive (scanner.askAll asks).2 := by
  induction asks generalizing scanner with
  | nil => exact start
  | cons ask asks ih =>
    refine ih ?_
    rcases scanner.ask_cases ask with done | ⟨finished, given⟩
    · rw [done]
      exact start
    · rw [given]
      exact next scanner start finished

theorem askAll_file (scanner : Scanner) (asks : List Ask) :
    (scanner.askAll asks).2.file = scanner.file := by
  refine askAll_induction (motive := fun later => later.file = scanner.file) ?_ rfl asks
  intro later named _
  rw [← named]
  exact next_file_eq later

end Scanner
end TokenTape
