/-!
Sets of code points as lists of closed ranges. The ranges of a table ascend and lie apart, so
a search may stop at the first range beyond the code point; `contains_iff` says that it finds
just what the ranges hold.
-/
namespace TokenTape

/-- Closed ranges of code points. -/
abbrev Ranges := List (Nat × Nat)

namespace Ranges

/-- Whether each range is in order and lies before all that follow it, with a gap between. -/
def ascending : Ranges → Bool
  | [] => true
  | [(first, last)] => first ≤ last
  | (first, last) :: (next, stop) :: rest =>
    first ≤ last && last + 1 < next && ascending ((next, stop) :: rest)

/-- Searches the ranges for a code point, as far as the first range beyond it. -/
def contains : Ranges → Nat → Bool
  | [], _ => false
  | (first, last) :: rest, n => if n < first then false else n ≤ last || contains rest n

private theorem first_lt_of_ascending {first last : Nat} {rest : Ranges}
    (sorted : ascending ((first, last) :: rest) = true) :
    first ≤ last ∧ ascending rest = true ∧ ∀ range ∈ rest, last < range.1 := by
  induction rest generalizing first last with
  | nil => simpa [ascending] using sorted
  | cons head rest ih =>
    obtain ⟨next, last'⟩ := head
    simp only [ascending, Bool.and_eq_true, decide_eq_true_eq] at sorted
    obtain ⟨⟨order, gap⟩, tail⟩ := sorted
    obtain ⟨order', _, beyond⟩ := ih tail
    refine ⟨order, tail, fun range member => ?_⟩
    rcases List.mem_cons.mp member with rfl | member
    · simp only
      omega
    · have := beyond range member
      omega

/-- The search finds exactly the code points of the ranges. -/
theorem contains_iff {ranges : Ranges} {n : Nat} (sorted : ranges.ascending = true) :
    ranges.contains n = true ↔ ∃ range ∈ ranges, range.1 ≤ n ∧ n ≤ range.2 := by
  induction ranges with
  | nil => simp [contains]
  | cons head rest ih =>
    obtain ⟨first, last⟩ := head
    obtain ⟨order, tail, beyond⟩ := first_lt_of_ascending sorted
    simp only [contains, List.mem_cons, exists_eq_or_imp]
    split
    · next before =>
      constructor
      · intro found
        cases found
      · rintro (⟨low, _⟩ | ⟨range, member, low, _⟩)
        · omega
        · have := beyond range member
          omega
    · next reached =>
      simp only [Bool.or_eq_true, decide_eq_true_eq, ih tail]
      constructor
      · rintro (high | found)
        · exact .inl ⟨by omega, high⟩
        · exact .inr found
      · rintro (⟨_, high⟩ | found)
        · exact .inl high
        · exact .inr found

end Ranges
end TokenTape
