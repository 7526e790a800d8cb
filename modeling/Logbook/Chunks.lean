set_option autoImplicit false

/-! # Consecutive groups

A list cut into groups of equal length, of which the last may be shorter. -/

namespace Logbook

/-- Consecutive groups of `n` elements; the last may be shorter. -/
def chunks {α : Type} (n : Nat) (xs : List α) : List (List α) :=
  if _h : n = 0 ∨ xs = [] then []
  else xs.take n :: chunks n (xs.drop n)
termination_by xs.length
decreasing_by
  simp only [not_or] at _h
  have := List.length_pos_iff.mpr _h.2
  simp only [List.length_drop]
  omega

/-- The groups together are the list. -/
theorem flatten_chunks {α : Type} {n : Nat} (hn : n ≠ 0) (xs : List α) :
    (chunks n xs).flatten = xs := by
  induction hlen : xs.length using Nat.strongRecOn generalizing xs with
  | ind k ih =>
    rw [chunks]
    split
    · next h => simp [h.resolve_left hn]
    · next h =>
      have hpos := List.length_pos_iff.2 fun e => h (Or.inr e)
      have hrest := ih (xs.drop n).length (by simp only [List.length_drop]; omega) (xs.drop n) rfl
      rw [List.flatten_cons, hrest, List.take_append_drop]

end Logbook
