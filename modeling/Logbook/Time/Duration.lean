import Logbook.Decimal.Read

set_option autoImplicit false

/-! # Durations

A duration is a sequence of numbers, each with a unit, such as `1h30m` or `1.5d`; a minus in front
negates the whole. Its length is summed in doubles and cut to whole nanoseconds. -/

namespace Logbook.Time

/-- Nanoseconds in a unit. -/
def unitNanos? (unit : List Char) : Option Float :=
  match String.ofList unit with
  | "ns" => some 1.0
  | "us" | "µs" => some 1e3
  | "ms" => some 1e6
  | "s" => some 1e9
  | "m" => some (60.0 * 1e9)
  | "h" => some (3600.0 * 1e9)
  | "d" => some (86400.0 * 1e9)
  | "w" => some (7.0 * 86400.0 * 1e9)
  | "y" => some (365.0 * 86400.0 * 1e9)
  | _ => none

/-- Characters of which the number of a duration consists. -/
def isNumberChar (c : Char) : Bool :=
  Text.isAsciiDigit c || c = '.'

/-- Adds up numbers with units; `fuel` bounds how many there are. -/
def sumUnits : (fuel : Nat) → List Char → (total : Float) → Option Float
  | _, [], total => some total
  | 0, _ :: _, _ => none
  | fuel + 1, cs, total => do
    let (number, rest) := cs.span isNumberChar
    if number.isEmpty then none
    else
      let n ← Decimal.readUnsigned? false number
      let (unit, rest) := rest.span (!isNumberChar ·)
      let nanos ← unitNanos? unit
      sumUnits fuel rest (total + n * nanos)

/-- The least double above every number of nanoseconds. -/
def nanosBound : Float := 9223372036854775808.0

/-- The length of a duration in nanoseconds. -/
def parseDuration? (s : String) : Option Int64 := do
  let cs := Text.trimChars s.toList
  let (negative, rest) := match cs with
    | '-' :: rest => (true, rest)
    | rest => (false, rest)
  if rest.isEmpty then none
  else
    let total ← sumUnits rest.length rest 0.0
    if !total.isFinite || nanosBound < total then none
    else
      let nanos := Decimal.toInt64 total
      return if negative then -nanos else nanos

/-! ## Writing -/

/-- A number of units with the decimal places of what is left over, given in `places` digits. -/
def renderUnits (whole part places : Nat) (unit : String) : String :=
  let ds := Nat.toDigits 10 part
  let padded := List.replicate (places - ds.length) '0' ++ ds
  let kept := (padded.reverse.dropWhile (· == '0')).reverse
  toString whole ++ (if part = 0 then "" else "." ++ String.ofList kept) ++ unit

/-- A length of time in the largest unit, seconds at most, of which it has one. -/
def renderDuration (nanos : Nat) : String :=
  if 1000000000 ≤ nanos then renderUnits (nanos / 1000000000) (nanos % 1000000000) 9 "s"
  else if 1000000 ≤ nanos then renderUnits (nanos / 1000000) (nanos % 1000000) 6 "ms"
  else if 1000 ≤ nanos then renderUnits (nanos / 1000) (nanos % 1000) 3 "µs"
  else renderUnits nanos 0 0 "ns"

end Logbook.Time
