import Logbook.Decimal.Binary
import Logbook.Text.Class

set_option autoImplicit false

/-! # Reading doubles

A text is a number if it is an optional sign followed by digits with at most one point among them
and an optional exponent, or by one of the words for infinity and for no number in any case. Its
value is the nearest double. -/

namespace Logbook.Decimal

/-- Digits at the front of a text, and the rest. -/
def spanDigits (cs : List Char) : List Char × List Char :=
  cs.span Text.isAsciiDigit

def digitsValue (ds : List Char) : Nat :=
  ds.foldl (fun n c => n * 10 + (c.toNat - 48)) 0

/-- A sign at the front of a text: whether it is a minus, and the rest. -/
def readSign : List Char → Bool × List Char
  | '-' :: rest => (true, rest)
  | '+' :: rest => (false, rest)
  | rest => (false, rest)

/-- Reads an exponent mark with its whole number, which must end the text; an absent exponent is
    zero. -/
def readExponent? : List Char → Option Int
  | [] => some 0
  | c :: rest =>
    if c = 'e' || c = 'E' then
      let (negative, rest) := readSign rest
      let (ds, rest) := spanDigits rest
      if ds.isEmpty || !rest.isEmpty then none
      else some (if negative then -(digitsValue ds : Int) else digitsValue ds)
    else none

def lower (cs : List Char) : List Char :=
  cs.map Char.toLower

/-- Reads an unsigned number. -/
def readUnsigned? (negative : Bool) (cs : List Char) : Option Float :=
  if lower cs == "inf".toList || lower cs == "infinity".toList then some (infinity negative)
  else if lower cs == "nan".toList then some (0.0 / 0.0)
  else
    let (whole, rest) := spanDigits cs
    let (fraction, rest) := match rest with
      | '.' :: rest => spanDigits rest
      | rest => ([], rest)
    if whole.isEmpty && fraction.isEmpty then none
    else do
      let exponent ← readExponent? rest
      return nearestDecimal negative (digitsValue (whole ++ fraction)) (exponent - fraction.length)

/-- The double a text stands for. -/
def read? (s : String) : Option Float :=
  let (negative, rest) := readSign s.toList
  readUnsigned? negative rest

/-- The whole number from `0` to `2 ^ 64 - 1` a text stands for; a plus in front is allowed. -/
def readUInt64? (s : String) : Option Nat :=
  let ds := match s.toList with
    | '+' :: rest => rest
    | cs => cs
  if ds.isEmpty || !ds.all Text.isAsciiDigit then none
  else
    let n := digitsValue ds
    if n < UInt64.size then some n else none

/-- The whole number of sixty-four bits with a sign that a text stands for; a plus in front is
    allowed. -/
def readInt64? (s : String) : Option Int64 :=
  let (negative, ds) := readSign s.toList
  if ds.isEmpty || !ds.all Text.isAsciiDigit then none
  else
    let n : Int := if negative then -(digitsValue ds : Int) else digitsValue ds
    if Int64.minValue.toInt ≤ n ∧ n ≤ Int64.maxValue.toInt then some (Int64.ofInt n) else none

end Logbook.Decimal
