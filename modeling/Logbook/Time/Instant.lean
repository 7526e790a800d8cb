import Logbook.Row
import Logbook.Time.Calendar
import Logbook.Time.Duration
import Logbook.Json.Basic

set_option autoImplicit false

/-! # Points in time

Times are nanoseconds since 1970, UTC. They are written as dates with a clock in UTC, with no more
of the fraction than needed in groups of three digits. Read are dates with a clock and an offset,
dates with a clock in UTC, dates, seconds since 1970, `now`, and durations, which stand for the time
that long ago. -/

namespace Logbook.Time

/-! ## Writing -/

/-- A number with at least `width` digits. -/
def padded (width : Nat) (n : Nat) : List Char :=
  let ds := Nat.toDigits 10 n
  List.replicate (width - ds.length) '0' ++ ds

/-- The fraction of a second: nothing, milliseconds, microseconds or nanoseconds. -/
def renderFraction (nano : Nat) : List Char :=
  if nano = 0 then []
  else if nano % 1000000 = 0 then '.' :: padded 3 (nano / 1000000)
  else if nano % 1000 = 0 then '.' :: padded 6 (nano / 1000)
  else '.' :: padded 9 nano

/-- The text of a time. -/
def render (t : Timestamp) : String :=
  let days := t.toInt / nanosPerDay
  let date := Date.ofDays days
  let nanos := (t.toInt - days * nanosPerDay).toNat
  let seconds := nanos / 1000000000
  String.ofList <|
    padded 4 date.year.toNat ++ '-' :: padded 2 date.month.toNat ++ '-' :: padded 2 date.day.toNat
      ++ 'T' :: padded 2 (seconds / 3600) ++ ':' :: padded 2 (seconds / 60 % 60)
      ++ ':' :: padded 2 (seconds % 60) ++ renderFraction (nanos % 1000000000) ++ ['Z']

/-- The seconds since 1970: a whole number if the time is one, else a double. -/
def unixSeconds (t : Timestamp) : Json :=
  if t.toInt % nanosPerSecond = 0 then .int (t.toInt / nanosPerSecond)
  else .float (t.toFloat / 1e9)

/-! ## Reading -/

/-- Between `least` and `most` digits at the front of a text, as many as there are. -/
def takeNumber? (least most : Nat) (cs : List Char) : Option (Int × List Char) :=
  let ds := (cs.takeWhile Text.isAsciiDigit).take most
  if ds.length < least then none else some (Decimal.digitsValue ds, cs.drop ds.length)

def takeChar? (c : Char) : List Char → Option (List Char)
  | [] => none
  | d :: rest => if c = d then some rest else none

/-- A fraction of a second after its point. Digits after the ninth do not count. -/
def takeNanos? (cs : List Char) : Option (Int × List Char) :=
  let ds := cs.takeWhile Text.isAsciiDigit
  if ds.isEmpty then none
  else
    let kept := ds.take 9
    some (Decimal.digitsValue kept * Nat.pow 10 (9 - kept.length), cs.dropWhile Text.isAsciiDigit)

/-- An optional fraction of a second with its point. -/
def takeFraction? : List Char → Option (Int × List Char)
  | '.' :: rest => takeNanos? rest
  | cs => some (0, cs)

/-- An offset from UTC in seconds. -/
def takeOffset? : List Char → Option (Int × List Char)
  | [] => none
  | c :: rest =>
    if c = 'Z' ∨ c = 'z' then some (0, rest)
    else if c = '+' ∨ c = '-' ∨ c = '\u2212' then do
      let (hours, rest) ← takeNumber? 2 2 rest
      let rest ← takeChar? ':' rest
      let (minutes, rest) ← takeNumber? 2 2 rest
      if 23 < hours ∨ 59 < minutes then none
      else
        let seconds := hours * 3600 + minutes * 60
        return (if c = '+' then seconds else -seconds, rest)
    else none

/-- The time of a date and clock that the calendar has, unless it is out of range. -/
def ofParts? (date : Date) (clock : Clock) (offset : Int) : Option Int :=
  if date.isValid && clock.isValid then
    some (date.toDays * nanosPerDay + clock.toNanos - offset * nanosPerSecond)
  else none

/-- A date and clock of fixed width with an offset, in nanoseconds since 1970. -/
def readOffsetTime? (cs : List Char) : Option Int := do
  let (year, cs) ← takeNumber? 4 4 cs
  let cs ← takeChar? '-' cs
  let (month, cs) ← takeNumber? 2 2 cs
  let cs ← takeChar? '-' cs
  let (day, cs) ← takeNumber? 2 2 cs
  let cs ← match cs with
    | c :: rest => if c = 'T' ∨ c = 't' ∨ c = ' ' then some rest else none
    | [] => none
  let (hour, cs) ← takeNumber? 2 2 cs
  let cs ← takeChar? ':' cs
  let (minute, cs) ← takeNumber? 2 2 cs
  let cs ← takeChar? ':' cs
  let (second, cs) ← takeNumber? 2 2 cs
  let (nano, cs) ← takeFraction? cs
  let (offset, cs) ← takeOffset? cs
  if cs.isEmpty then ofParts? ⟨year, month, day⟩ ⟨hour, minute, second, nano⟩ offset else none

/-- A number of at most `most` digits after optional white space. -/
def takeLoose? (most : Nat) (cs : List Char) : Option (Int × List Char) :=
  takeNumber? 1 most (cs.dropWhile Text.isBlank)

/-- A year after optional white space: four digits at most, or a sign and any number of digits. -/
def takeYear? (cs : List Char) : Option (Int × List Char) :=
  match cs.dropWhile Text.isBlank with
  | '-' :: rest => (takeNumber? 1 rest.length rest).map fun (y, rest) => (-y, rest)
  | '+' :: rest => takeNumber? 1 rest.length rest
  | rest => takeNumber? 1 4 rest

/-- A date without fixed widths, at the front of a text. -/
def takeDate? (cs : List Char) : Option (Date × List Char) := do
  let (year, cs) ← takeYear? cs
  let cs ← takeChar? '-' cs
  let (month, cs) ← takeLoose? 2 cs
  let cs ← takeChar? '-' cs
  let (day, cs) ← takeLoose? 2 cs
  return (⟨year, month, day⟩, cs)

/-- A date and clock in UTC without fixed widths. -/
def readDateTime? (cs : List Char) : Option Int := do
  let (date, cs) ← takeDate? cs
  let cs ← takeChar? 'T' cs
  let (hour, cs) ← takeLoose? 2 cs
  let cs ← takeChar? ':' cs
  let (minute, cs) ← takeLoose? 2 cs
  let cs ← takeChar? ':' cs
  let (second, cs) ← takeLoose? 2 cs
  let (nano, cs) ← takeFraction? cs
  if cs.isEmpty then ofParts? date ⟨hour, minute, second, nano⟩ 0 else none

/-- A date without fixed widths: its midnight. -/
def readDate? (cs : List Char) : Option Int := do
  let (date, cs) ← takeDate? cs
  if cs.isEmpty then ofParts? date ⟨0, 0, 0, 0⟩ 0 else none

/-- The time with this number, if it is in range. -/
def ofInt? (n : Int) : Option Timestamp :=
  if Int64.minValue.toInt ≤ n ∧ n ≤ Int64.maxValue.toInt then some (Int64.ofInt n) else none

/-- Seconds since 1970 as a time. -/
def ofSeconds? (seconds : Float) : Option Timestamp :=
  if seconds.isFinite && seconds.abs < nanosBound / 1e9 then
    some (Decimal.toInt64 (seconds * 1e9).round)
  else none

/-- The text without this word at its front, or as it is. -/
def withoutFront (word cs : List Char) : List Char :=
  if word.isPrefixOf cs then cs.drop word.length else cs

/-- The time a text stands for. The first way of reading that accepts the text decides. -/
def parse? (s : String) (now : Timestamp) : Option Timestamp :=
  let cs := Text.trimChars s.toList
  if cs.isEmpty then none
  else if cs == "now".toList then some now
  else match readOffsetTime? cs with
  | some n => ofInt? n
  | none => match readDateTime? cs with
    | some n => ofInt? n
    | none => match readDate? cs with
      | some n => ofInt? n
      | none => match Decimal.read? (String.ofList cs) with
        | some seconds => ofSeconds? seconds
        | none => do
          let ago ← parseDuration? (String.ofList (withoutFront "now-".toList cs))
          ofInt? (now.toInt - ago.toInt)

end Logbook.Time
