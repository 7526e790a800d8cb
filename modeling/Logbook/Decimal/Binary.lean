set_option autoImplicit false

/-! # Doubles as exact numbers

A finite double is `m * 2 ^ q` for whole numbers `m` and `q`. This module takes doubles apart into
that form and finds the double nearest to a ratio of naturals, with ties to the even neighbour. -/

namespace Logbook.Decimal

/-- A double taken apart. -/
inductive Parts where
  /-- The number `mantissa * 2 ^ exponent`, negated if `negative`. -/
  | finite (negative : Bool) (mantissa : Nat) (exponent : Int)
  | infinite (negative : Bool)
  | nan
  deriving DecidableEq, Repr

/-- The least mantissa of a double whose exponent is not the least one. -/
def leadingBit : Nat := 1 <<< 52

/-- Reads the sign, exponent and fraction of the sixty-four bits of a double. -/
def Parts.ofBits (bits : UInt64) : Parts :=
  let n := bits.toNat
  let negative := 1 <<< 63 ≤ n
  let biased : Nat := n / leadingBit % 2048
  let fraction : Nat := n % leadingBit
  if biased = 2047 then if fraction = 0 then .infinite negative else .nan
  else if biased = 0 then .finite negative fraction (-1074)
  else .finite negative (leadingBit + fraction) ((biased : Int) - 1075)

def Parts.ofFloat (x : Float) : Parts :=
  .ofBits x.toBits

/-- The whole number next to a double towards zero, cut to the numbers of sixty-four bits with a
    sign; zero for no number. -/
def toInt64 (x : Float) : Int64 :=
  match Parts.ofFloat x with
  | .finite negative mantissa exponent =>
    let magnitude : Int :=
      if 0 ≤ exponent then mantissa <<< exponent.toNat else mantissa >>> (-exponent).toNat
    let n := if negative then -magnitude else magnitude
    Int64.ofInt (max Int64.minValue.toInt (min n Int64.maxValue.toInt))
  | .infinite negative => if negative then Int64.minValue else Int64.maxValue
  | .nan => 0

/-- The double `mantissa * 2 ^ exponent`, for a mantissa below `2 ^ 53` and an exponent from `-1074`
    to `971` such that the mantissa is at least `2 ^ 52` or the exponent least. -/
def ofParts (negative : Bool) (mantissa : Nat) (exponent : Int) : Float :=
  let biased := if mantissa < leadingBit then 0 else (exponent + 1075).toNat
  let magnitude := biased * leadingBit + mantissa % leadingBit
  Float.ofBits (UInt64.ofNat (if negative then 1 <<< 63 + magnitude else magnitude))

def infinity (negative : Bool) : Float :=
  Float.ofBits (if negative then 0xFFF0000000000000 else 0x7FF0000000000000)

/-- The quotient rounded to the nearest whole number, a half to the even one. -/
def divToEven (num den : Nat) : Nat :=
  let q := num / den
  let r := num % den
  if 2 * r < den then q
  else if den < 2 * r then q + 1
  else if q % 2 = 0 then q else q + 1

/-- `num / den` divided by `2 ^ shift`, rounded to a whole number. -/
def scaledQuotient (num den : Nat) (shift : Int) : Nat :=
  if 0 ≤ shift then divToEven num (den <<< shift.toNat)
  else divToEven (num <<< (-shift).toNat) den

/-- The double nearest to `num / den`. -/
def nearest (negative : Bool) (num den : Nat) : Float :=
  if num = 0 then ofParts negative 0 (-1074)
  else
    -- `num / den` lies strictly between `2 ^ (guess - 1)` and `2 ^ (guess + 1)`.
    let guess : Int := (num.log2 : Int) - den.log2
    let below : Bool :=
      if 0 ≤ guess then num < den <<< guess.toNat else num <<< (-guess).toNat < den
    let exponent := max (-1074) ((if below then guess - 1 else guess) - 52)
    let m := scaledQuotient num den exponent
    let (m, exponent) := if m = 2 * leadingBit then (leadingBit, exponent + 1) else (m, exponent)
    if 971 < exponent then infinity negative else ofParts negative m exponent

/-- The double nearest to `digits * 10 ^ exponent`. Exponents that put the number beyond every
    double are decided by the number of digits alone. -/
def nearestDecimal (negative : Bool) (digits : Nat) (exponent : Int) : Float :=
  if digits = 0 then ofParts negative 0 (-1074)
  else
    let places : Int := (Nat.toDigits 10 digits).length + exponent
    if 310 < places then infinity negative
    else if places < -330 then ofParts negative 0 (-1074)
    else if 0 ≤ exponent then nearest negative (digits * Nat.pow 10 exponent.toNat) 1
    else nearest negative digits (Nat.pow 10 (-exponent).toNat)

end Logbook.Decimal
