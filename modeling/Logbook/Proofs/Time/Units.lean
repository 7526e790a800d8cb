import Mathlib.Algebra.Group.Nat.Defs
import Mathlib.Algebra.Ring.Int.Defs
import Logbook.Time.Epoch

set_option autoImplicit false

/-! # The unit of a bare number

A whole number stands for a time in the unit that its magnitude tells. Turning it into nanoseconds
never leaves the range of times, and every second that is far enough from 1970 is the same time in
whichever unit it is written (**`Time.ofWhole_exact`**). -/

namespace Logbook.Time

theorem secondsBound_eq : secondsBound = 4294967296 :=
  rfl

theorem toInt_unitOf (magnitude : Nat) :
    (unitOf magnitude).toInt
      = if magnitude < secondsBound then 1000000000
        else if magnitude < secondsBound * 1000 then 1000000
        else if magnitude < secondsBound * 1000000 then 1000
        else 1 := by
  unfold unitOf
  split
  · rfl
  · split
    · rfl
    · split <;> rfl

/-- The bounds between the units leave room for the multiplication. -/
theorem mul_unitOf_in_range (n : Int64) :
    -2 ^ 63 ≤ n.toInt * (unitOf n.toInt.natAbs).toInt ∧
      n.toInt * (unitOf n.toInt.natAbs).toInt < 2 ^ 63 := by
  have hlow := Int64.le_toInt n
  have hhigh := Int64.toInt_lt n
  rw [toInt_unitOf, secondsBound_eq]
  split
  · omega
  · split
    · omega
    · split <;> omega

theorem toInt_mul_unitOf (n : Int64) :
    (n * unitOf n.toInt.natAbs).toInt = n.toInt * (unitOf n.toInt.natAbs).toInt := by
  obtain ⟨hlow, hhigh⟩ := mul_unitOf_in_range n
  rw [Int64.toInt_mul]
  exact Int.bmod_eq_of_le_mul_two (by omega) (by omega)

theorem ofWhole_eq_none_iff (n : Int64) : ofWhole n = none ↔ n = 0 := by
  unfold ofWhole
  split
  · next h => exact iff_of_true rfl h
  · next h => exact iff_of_false nofun h

theorem toInt_ofWhole {n : Int64} {t : Timestamp} (h : ofWhole n = some t) :
    t.toInt = n.toInt * (unitOf n.toInt.natAbs).toInt := by
  unfold ofWhole at h
  split at h
  · cases h
  · cases h
    exact toInt_mul_unitOf n

/-- How many of each unit a second has: seconds, then milliseconds, microseconds and nanoseconds. -/
def perSecond : List Int := [1, 1000, 1000000, 1000000000]

/-- A second written in any unit is told to be in that unit. -/
theorem unitOf_of_second {s unit : Int} (hlow : 4294968 ≤ s.natAbs) (hhigh : s.natAbs < 2 ^ 32)
    (hunit : unit ∈ perSecond) : unit * (unitOf (s * unit).natAbs).toInt = 1000000000 := by
  rw [toInt_unitOf, secondsBound_eq]
  simp only [perSecond, List.mem_cons, List.not_mem_nil, or_false] at hunit
  rcases hunit with rfl | rfl | rfl | rfl
  · rw [if_pos (by omega)]
    rfl
  · rw [if_neg (by omega), if_pos (by omega)]
    rfl
  · rw [if_neg (by omega), if_neg (by omega), if_pos (by omega)]
    rfl
  · rw [if_neg (by omega), if_neg (by omega), if_neg (by omega)]
    rfl

theorem second_in_range {s unit : Int} (hhigh : s.natAbs < 2 ^ 32) (hunit : unit ∈ perSecond) :
    -2 ^ 63 ≤ s * unit ∧ s * unit < 2 ^ 63 := by
  simp only [perSecond, List.mem_cons, List.not_mem_nil, or_false] at hunit
  rcases hunit with rfl | rfl | rfl | rfl <;> omega

/-- **Whole numbers become times exactly.** The product with the unit of a number is in range for
    every number, it is the time that the number stands for, and only zero stands for none. All four
    spellings of a second stand for that second, unless it is so close to 1970 that its milliseconds
    could be seconds. -/
theorem ofWhole_exact :
    (∀ n : Int64,
      (Int64.minValue.toInt ≤ n.toInt * (unitOf n.toInt.natAbs).toInt ∧
        n.toInt * (unitOf n.toInt.natAbs).toInt ≤ Int64.maxValue.toInt) ∧
      (ofWhole n = none ↔ n = 0) ∧
      ∀ t, ofWhole n = some t → t.toInt = n.toInt * (unitOf n.toInt.natAbs).toInt) ∧
    ∀ s : Int, 4294968 ≤ s.natAbs → s.natAbs < 2 ^ 32 → ∀ unit ∈ perSecond,
      ∃ n t : Int64, n.toInt = s * unit ∧ ofWhole n = some t ∧ t.toInt = s * 1000000000 := by
  have hmin : Int64.minValue.toInt = -2 ^ 63 := rfl
  have hmax : Int64.maxValue.toInt = 2 ^ 63 - 1 := rfl
  constructor
  · intro n
    obtain ⟨hlow, hhigh⟩ := mul_unitOf_in_range n
    exact ⟨⟨by omega, by omega⟩, ofWhole_eq_none_iff n, fun t => toInt_ofWhole⟩
  · intro s hlow hhigh unit hunit
    obtain ⟨hfrom, hto⟩ := second_in_range hhigh hunit
    have hn : (Int64.ofInt (s * unit)).toInt = s * unit := Int64.toInt_ofInt_of_le hfrom hto
    have hunitOf := unitOf_of_second hlow hhigh hunit
    cases ht : ofWhole (Int64.ofInt (s * unit)) with
    | none =>
      rw [ofWhole_eq_none_iff] at ht
      rw [ht, Int64.toInt_zero] at hn
      rcases Int.mul_eq_zero.1 hn.symm with rfl | rfl
      · simp at hlow
      · simp at hunitOf
    | some t =>
      refine ⟨_, t, hn, ht, ?_⟩
      rw [toInt_ofWhole ht, hn, Int.mul_assoc, hunitOf]

/-- The least second before 1970 whose milliseconds are told to be milliseconds. -/
theorem milliseconds_before_1970 : ofWhole (-4294968000) = some (-4294968000000000) := by
  obtain ⟨n, t, hn, hsome, ht⟩ :=
    ofWhole_exact.2 (-4294968) (by decide) (by decide) 1000 (by decide)
  have hread : n = -4294968000 := Int64.toInt_inj.1 hn
  have htime : t = -4294968000000000 := Int64.toInt_inj.1 ht
  rw [← hread, hsome, htime]

end Logbook.Time
