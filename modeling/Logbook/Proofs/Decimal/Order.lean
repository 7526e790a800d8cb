import Mathlib.Data.Int.Order.Basic
import Mathlib.Data.Prod.Lex

set_option autoImplicit false

/-! # The order of doubles

Doubles other than NaN are ordered as their ranks are (`Decimal.lt_iff_rank_lt`), and ranks are
ordered linearly. NaN neither precedes nor follows any double. -/

namespace Logbook.Decimal

open Float.Model

/-- Where a double that is taken apart stands: first its sign, then how large it is. -/
def rankOf : UnpackedFloat → ℤ ×ₗ ℤ ×ₗ ℤ
  | .infinity .negative => toLex (-2, toLex (0, 0))
  | .finite .negative mantissa exponent _ => toLex (-1, toLex (-exponent, -(mantissa : ℤ)))
  | .zero _ | .notANumber => toLex (0, toLex (0, 0))
  | .finite .positive mantissa exponent _ => toLex (1, toLex (exponent, (mantissa : ℤ)))
  | .infinity .positive => toLex (2, toLex (0, 0))

/-- Where a double stands among the doubles. NaN stands nowhere and has the rank of zero. -/
def rank (x : Float) : ℤ ×ₗ ℤ ×ₗ ℤ :=
  rankOf x.toModel.unpack

theorem then_compare_eq_lt {e f : ℤ} {m n : ℕ} :
    (compare e f).then (compare m n) = .lt ↔ e < f ∨ e = f ∧ m < n := by
  rw [Ordering.then_eq_lt, Int.compare_eq_lt, Int.compare_eq_eq, Nat.compare_eq_lt]

theorem then_compare_eq_gt {e f : ℤ} {m n : ℕ} :
    (compare e f).then (compare m n) = .gt ↔ f < e ∨ e = f ∧ n < m := by
  rw [Ordering.then_eq_gt, Int.compare_eq_gt, Int.compare_eq_eq, Nat.compare_eq_gt]

theorem compare_eq_lt_iff {x y : UnpackedFloat} (hx : x ≠ .notANumber) (hy : y ≠ .notANumber) :
    x.compare y = some .lt ↔ rankOf x < rankOf y := by
  rcases x with (_ | _) | _ | _ | ⟨_ | _, m, e, hm⟩ <;>
    rcases y with (_ | _) | _ | _ | ⟨_ | _, n, f, hn⟩ <;>
    first
      | exact absurd rfl hx
      | exact absurd rfl hy
      | dsimp only [UnpackedFloat.compare, rankOf]
        simp [Prod.Lex.toLex_lt_toLex, compare]
  -- of two finite doubles with the same sign, the exponents and then the mantissas decide
  case finite.negative.finite.negative => exact then_compare_eq_gt
  case finite.positive.finite.positive => exact then_compare_eq_lt

theorem compare_notANumber_left (y : UnpackedFloat) :
    UnpackedFloat.compare .notANumber y = none := by
  cases y <;> rfl

theorem compare_notANumber_right (x : UnpackedFloat) :
    UnpackedFloat.compare x .notANumber = none := by
  rcases x with (_ | _) | _ | _ | ⟨_ | _, _, _, _⟩ <;> rfl

theorem isNaN_eq_false_iff {x : Float} : x.isNaN = false ↔ x.toModel.unpack ≠ .notANumber := by
  show x.toModel.unpack.isNaN = false ↔ _
  cases x.toModel.unpack with
  | notANumber => exact ⟨nofun, fun h => absurd rfl h⟩
  | infinity => exact ⟨fun _ => nofun, fun _ => rfl⟩
  | zero => exact ⟨fun _ => nofun, fun _ => rfl⟩
  | finite => exact ⟨fun _ => nofun, fun _ => rfl⟩

theorem lt_iff_compare {x y : Float} :
    x < y ↔ x.toModel.unpack.compare y.toModel.unpack = some .lt := by
  show decide (x.toModel < y.toModel) = true ↔ _
  rw [decide_eq_true_iff]
  exact beq_iff_eq

/-- **Doubles other than NaN are ordered by rank.** -/
theorem lt_iff_rank_lt {x y : Float} (hx : x.isNaN = false) (hy : y.isNaN = false) :
    x < y ↔ rank x < rank y := by
  rw [lt_iff_compare, rank, rank]
  exact compare_eq_lt_iff (isNaN_eq_false_iff.1 hx) (isNaN_eq_false_iff.1 hy)

/-- NaN neither precedes nor follows. -/
theorem isNaN_of_lt {x y : Float} (h : x < y) : x.isNaN = false ∧ y.isNaN = false := by
  rw [lt_iff_compare] at h
  rw [isNaN_eq_false_iff, isNaN_eq_false_iff]
  constructor
  · intro hx
    rw [hx, compare_notANumber_left] at h
    cases h
  · intro hy
    rw [hy, compare_notANumber_right] at h
    cases h

/-- Of two doubles at most one precedes the other. -/
theorem not_lt_of_lt {x y : Float} (h : x < y) : ¬ y < x := by
  obtain ⟨hx, hy⟩ := isNaN_of_lt h
  rw [lt_iff_rank_lt hy hx]
  exact lt_asymm ((lt_iff_rank_lt hx hy).1 h)

end Logbook.Decimal
