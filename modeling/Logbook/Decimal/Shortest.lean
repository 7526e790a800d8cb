import Logbook.Decimal.Binary

set_option autoImplicit false

/-! # Shortest decimals

The text of a double has the fewest digits that still read back as the same double. The reals that
round to `m * 2 ^ q` form an interval; for one digit, two digits and so on, the two decimals around
the double on the grid with that many digits are tested against the interval, and the first grid
with a hit wins. -/

namespace Logbook.Decimal

/-- The decimal `digits * 10 ^ exponent`. -/
structure Digits where
  digits : Nat
  exponent : Int
  deriving DecidableEq, Repr

/-- A positive double with its rounding interval, all four numbers over `2 * den`. -/
structure Rounding where
  /-- The double. -/
  value : Nat
  /-- The ends of the interval. -/
  low : Nat
  high : Nat
  den : Nat
  /-- Whether the ends round to the double. -/
  closed : Bool
  deriving Repr

/-- The rounding interval of `mantissa * 2 ^ exponent`. Below a power of two the doubles are twice
    as dense as above it. -/
def Rounding.of (mantissa : Nat) (exponent : Int) : Rounding :=
  let (up, den) := if 0 ≤ exponent then (1 <<< exponent.toNat, 4) else (1, 4 <<< (-exponent).toNat)
  let narrow := mantissa = leadingBit ∧ -1074 < exponent
  { value := 4 * mantissa * up
    low := (4 * mantissa - if narrow then 1 else 2) * up
    high := (4 * mantissa + 2) * up
    den
    closed := mantissa % 2 = 0 }

/-- Compares `digits * 10 ^ exponent` with `n / den`. -/
def compareDecimal (d : Digits) (n den : Nat) : Ordering :=
  if 0 ≤ d.exponent then compare (d.digits * Nat.pow 10 d.exponent.toNat * den) n
  else compare (d.digits * den) (n * Nat.pow 10 (-d.exponent).toNat)

/-- Whether a decimal lies in the rounding interval. -/
def Rounding.contains (r : Rounding) (d : Digits) : Bool :=
  let lo := compareDecimal d r.low r.den
  let hi := compareDecimal d r.high r.den
  if r.closed then lo != .lt && hi != .gt else lo == .gt && hi == .lt

/-- The largest `k` with `10 ^ k ≤ n / den`, searched upwards from a lower bound. -/
def logTen (n den : Nat) : (fuel : Nat) → Int → Int
  | 0, k => k
  | fuel + 1, k =>
    if compareDecimal ⟨1, k + 1⟩ n den != .gt then logTen n den fuel (k + 1) else k

/-- A number not above the decimal logarithm of `n / den`, and at most a few below it. -/
def logTenBelow (n den : Nat) : Int :=
  let two : Int := (n.log2 : Int) - den.log2 - 1
  Int.fdiv (two * 30102) 100000 - 1

/-- The whole part of `n / den / 10 ^ exponent`. -/
def floorAt (n den : Nat) (exponent : Int) : Nat :=
  if 0 ≤ exponent then n / (den * Nat.pow 10 exponent.toNat)
  else n * Nat.pow 10 (-exponent).toNat / den

/-- Whether the decimal above the value is strictly nearer to it than the one below; of two equally
    near, the one with the even last digit counts as nearer. -/
def upperIsNearer (r : Rounding) (lower : Nat) (exponent : Int) : Bool :=
  match compareDecimal ⟨2 * lower + 1, exponent⟩ (2 * r.value) r.den with
  | .lt => true
  | .gt => false
  | .eq => lower % 2 = 1

/-- Tries grids with ever more digits, `exponent` being the place of the last digit. -/
def search (r : Rounding) : (fuel : Nat) → (exponent : Int) → Digits
  | 0, exponent => ⟨floorAt r.value r.den exponent, exponent⟩
  | fuel + 1, exponent =>
    let lower := floorAt r.value r.den exponent
    let below := r.contains ⟨lower, exponent⟩
    let above := r.contains ⟨lower + 1, exponent⟩
    if below && above then
      if upperIsNearer r lower exponent then ⟨lower + 1, exponent⟩ else ⟨lower, exponent⟩
    else if below then ⟨lower, exponent⟩
    else if above then ⟨lower + 1, exponent⟩
    else search r fuel (exponent - 1)

/-- The same decimal without zeros at the end. -/
def stripZeros : (fuel : Nat) → Digits → Digits
  | 0, d => d
  | fuel + 1, d =>
    if d.digits % 10 = 0 ∧ d.digits ≠ 0 then stripZeros fuel ⟨d.digits / 10, d.exponent + 1⟩ else d

/-- The shortest decimal that reads back as `mantissa * 2 ^ exponent`, which is positive. -/
def shortest (mantissa : Nat) (exponent : Int) : Digits :=
  let r := Rounding.of mantissa exponent
  let top := logTen r.value r.den 8 (logTenBelow r.value r.den)
  stripZeros 20 (search r 20 top)

end Logbook.Decimal
