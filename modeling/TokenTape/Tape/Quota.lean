/-!
A quota limits how many bytes may be kept at a time. Committing takes bytes from what is
free, releasing gives them back, and a refused commit changes nothing.
-/
namespace TokenTape

/-- How many bytes may be kept, and how many are. -/
structure Quota where
  limit : Nat
  committed : Nat
  deriving DecidableEq, Repr

namespace Quota

/-- A quota of which nothing is used. -/
def ofLimit (limit : Nat) : Quota := ⟨limit, 0⟩

/-- How many bytes may still be committed. -/
def free (quota : Quota) : Nat := quota.limit - quota.committed

/-- Takes bytes from what is free, if there are enough of them. -/
def commit? (quota : Quota) (size : Nat) : Option Quota :=
  if quota.committed + size ≤ quota.limit then some { quota with committed := quota.committed + size }
  else none

/-- Gives bytes back. More than all of them counts as all. -/
def release (quota : Quota) (size : Nat) : Quota :=
  { quota with committed := quota.committed - size }

/-- A commit is accepted exactly when it fits, and then it takes just its own size. -/
theorem commit?_eq_some_iff {quota after : Quota} {size : Nat} :
    quota.commit? size = some after ↔
      quota.committed + size ≤ quota.limit ∧
        after = ⟨quota.limit, quota.committed + size⟩ := by
  unfold commit?
  split <;> simp [*, eq_comm]

end Quota
end TokenTape
