import Logbook.Decimal.Shortest

set_option autoImplicit false

/-! # The text of a double

Every text of a double shows its shortest digits. Two layouts are in use: one never writes an
exponent, the other is the one for numbers in JSON texts. -/

namespace Logbook.Decimal

/-- How digits become text. -/
structure Layout where
  /-- Whether a number whose first digit stands at this power of ten is written without exponent. -/
  isPositional : Int → Bool
  /-- What follows a whole number written without exponent. -/
  wholeSuffix : String
  infinity : String
  nan : String

/-- Never an exponent, and whole numbers without a point. -/
def Layout.plain : Layout where
  isPositional := fun _ => true
  wholeSuffix := ""
  infinity := "inf"
  nan := "NaN"

/-- Always visibly not a whole number; an exponent below `1e-5` and from `1e16` on. -/
def Layout.json : Layout where
  isPositional := fun power => -5 ≤ power && power < 16
  wholeSuffix := ".0"
  infinity := "null"
  nan := "null"

/-- Digits without exponent; the point stands after the first `point` digits. -/
def positional (ds : List Char) (point : Int) (wholeSuffix : String) : List Char :=
  if point ≤ 0 then '0' :: '.' :: (List.replicate (-point).toNat '0' ++ ds)
  else
    let n := point.toNat
    if ds.length ≤ n then ds ++ List.replicate (n - ds.length) '0' ++ wholeSuffix.toList
    else ds.take n ++ '.' :: ds.drop n

/-- Digits with one digit before the point and a signed exponent. -/
def scientific (ds : List Char) (power : Int) : List Char :=
  let fraction := if ds.length ≤ 1 then [] else '.' :: ds.drop 1
  let sign := if power < 0 then '-' else '+'
  ds.take 1 ++ fraction ++ 'e' :: sign :: (toString power.natAbs).toList

/-- The text of a double. -/
def Layout.render (l : Layout) (x : Float) : String :=
  let signed (negative : Bool) (cs : List Char) :=
    String.ofList (if negative then '-' :: cs else cs)
  match Parts.ofFloat x with
  | .nan => l.nan
  | .infinite negative => if l.infinity == "null" then "null" else signed negative l.infinity.toList
  | .finite negative 0 _ => signed negative ('0' :: l.wholeSuffix.toList)
  | .finite negative mantissa exponent =>
    let d := shortest mantissa exponent
    let ds := (toString d.digits).toList
    let point : Int := ds.length + d.exponent
    signed negative <|
      if l.isPositional (point - 1) then positional ds point l.wholeSuffix
      else scientific ds (point - 1)

end Logbook.Decimal
