import TokenTape.Reading.Reader
/-!
A reader never goes back a line. Between two requests its line stands still, and a lexeme
starts on the line that was reached when the blanks before it were passed.
-/
namespace TokenTape
namespace Reader

/-- Passing over blanks and comments never goes back a line. -/
theorem line_le_settle (reader : Reader) : reader.line ≤ reader.settle.2.line := by
  fun_induction settle reader with
  | case1 => exact Nat.le_refl _
  | case2 more source line tokenLine ih => exact ih
  | case3 text source line tokenLine ih => exact ih
  | case4 text source line tokenLine body => exact Nat.le_add_right line body.newlines
  | case5 text source line tokenLine body reader going ih =>
    exact Nat.le_trans (Nat.le_add_right line body.newlines) ih
  | case6 c text source line tokenLine _ _ _ ih =>
    refine Nat.le_trans ?_ ih
    unfold lineAfter
    split
    · exact Nat.le_succ line
    · exact Nat.le_refl line
  | case7 => exact Nat.le_refl _
  | case8 => exact Nat.le_refl _

/-- A lexeme starts on the line reached before it, and it never goes back a line. -/
theorem take_lines (reader : Reader) :
    reader.take.2.tokenLine = reader.line ∧ reader.line ≤ reader.take.2.line := by
  obtain ⟨stray, text, source, line, tokenLine⟩ := reader
  match stray, text with
  | byte :: stray, text => exact ⟨rfl, Nat.le_refl line⟩
  | [], [] => exact ⟨rfl, Nat.le_refl line⟩
  | [], c :: rest =>
    simp only [take]
    split
    · exact ⟨rfl, Nat.le_refl line⟩
    split
    · exact ⟨rfl, Nat.le_refl line⟩
    split
    · split <;> exact ⟨rfl, Nat.le_add_right line _⟩
    split
    · split
      · next code after =>
        split
        · refine ⟨rfl, ?_⟩
          simp only [lineAfter]
          split
          · exact Nat.le_succ line
          · exact Nat.le_refl line
        · exact ⟨rfl, Nat.le_refl line⟩
      · exact ⟨rfl, Nat.le_refl line⟩
    split <;> exact ⟨rfl, Nat.le_refl line⟩

/-- The lines of one request, if it gives a lexeme: where the reader stood, where the lexeme
starts, where the reader stands behind it. -/
theorem next_lines {reader after : Reader} {lexeme : Lexeme}
    (taken : reader.next = (.ok lexeme, after)) :
    reader.line ≤ after.tokenLine ∧ after.tokenLine ≤ after.line := by
  have settled := line_le_settle reader
  unfold next at taken
  split at taken
  · cases taken
  · next stopped found =>
    rw [found] at settled
    obtain ⟨starts, reaches⟩ := take_lines stopped
    rw [taken] at starts reaches
    simp only at starts reaches settled
    exact ⟨by omega, by omega⟩

end Reader

end TokenTape
