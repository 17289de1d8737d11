import TokenTape.Proofs.Reading.Followed
/-!
The same input further down. What a reader gives does not depend on the line that it has reached, nor on
the line of the lexeme before; all lines that it reaches move with it (`Reader.next_below`).
-/
namespace TokenTape

theorem lineAfter_add (line lines : Nat) (c : Char) :
    lineAfter (line + lines) c = lineAfter line c + lines := by
  unfold lineAfter
  split
  · exact Nat.add_right_comm _ _ _
  · rfl

namespace Reader

/-- The same reader a number of lines further down. -/
def down (reader : Reader) (lines : Nat) : Reader :=
  { reader with line := reader.line + lines, tokenLine := reader.tokenLine + lines }

/-- A reader with the same input as another one, a number of lines below it. The line that is noted
for the latest lexeme does not matter. -/
structure Below (lines : Nat) (upper lower : Reader) : Prop where
  stray : lower.stray = upper.stray
  text : lower.text = upper.text
  source : lower.source = upper.source
  line : lower.line = upper.line + lines

theorem below_down (reader : Reader) (lines : Nat) : Below lines reader (reader.down lines) :=
  ⟨rfl, rfl, rfl, rfl⟩

variable {upper lower : Reader} {lines : Nat}

/-- Below, the same blanks and comments are passed over. -/
theorem settle_below (below : Below lines upper lower) :
    lower.settle.1 = upper.settle.1 ∧ Below lines upper.settle.2 lower.settle.2 := by
  obtain ⟨stray, text, source, line, tokenLine⟩ := lower
  obtain ⟨rfl, rfl, rfl, rfl⟩ := below
  fun_induction settle upper generalizing tokenLine with
  | case1 reason source line _ =>
    rw [settle]
    exact ⟨rfl, rfl, rfl, rfl, rfl⟩
  | case2 more source line _ ih =>
    rw [settle]
    exact ih tokenLine
  | case3 text source line _ ih =>
    rw [settle]
    exact ih (line + lines)
  | case4 text source line _ body reader reason failed =>
    rw [settle, failed]
    exact ⟨rfl, rfl, rfl, rfl, Nat.add_right_comm _ _ _⟩
  | case5 text source line _ body reader going ih =>
    rw [settle]
    split
    · next reason failed => exact (going reason failed).elim
    · rw [Nat.add_right_comm]
      exact ih (line + lines)
  | case6 c text source line _ noLine noBlock blank ih =>
    rw [settle, if_pos blank, lineAfter_add]
    · exact ih tokenLine
    · exact noLine
    · exact noBlock
  | case7 c text source line _ noLine noBlock stands =>
    rw [settle, if_neg stands]
    · exact ⟨rfl, rfl, rfl, rfl, rfl⟩
    · exact noLine
    · exact noBlock
  | case8 reader noFailure noMore noLine noBlock noOther =>
    obtain ⟨stray, text, source, line, _⟩ := reader
    rw [settle]
    · exact ⟨rfl, rfl, rfl, rfl, rfl⟩
    · rintro reason source _ _ ⟨⟩
      exact noFailure reason source _ _ rfl
    · rintro more source _ _ ⟨⟩
      exact noMore more source _ _ rfl
    · rintro text source _ _ ⟨⟩
      exact noLine text source _ _ rfl
    · rintro text source _ _ ⟨⟩
      exact noBlock text source _ _ rfl
    · rintro c text source _ _ ⟨⟩
      exact noOther c text source _ _ rfl

/-- Below, the same lexeme is taken, and the lines move. -/
theorem take_below (below : Below lines upper lower) :
    lower.take = (upper.take.1, upper.take.2.down lines) := by
  obtain ⟨stray, text, source, line, tokenLine⟩ := lower
  obtain ⟨rfl, rfl, rfl, rfl⟩ := below
  obtain ⟨stray, text, source, line, _⟩ := upper
  match stray, text with
  | byte :: stray, text => rfl
  | [], [] => rfl
  | [], c :: rest =>
    simp only [take]
    split
    · rfl
    split
    · rfl
    split
    · rw [Nat.add_right_comm]
      split <;> rfl
    split
    · split
      · split
        · rw [lineAfter_add]
          rfl
        · rfl
      · rfl
    split <;> rfl

theorem next_below (oneSpan : upper.source = []) (below : Below lines upper lower) :
    lower.next = (upper.next.1, upper.next.2.down lines) := by
  have oneSpan' : lower.source = [] := below.source.trans oneSpan
  rw [next_of_span oneSpan, next_of_span oneSpan', take_below (settle_below below).2]

end Reader
end TokenTape
