import Logbook.Decimal.Binary
import Logbook.Row

set_option autoImplicit false

/-! # Times as bare numbers

Clients write a time as a number since 1970 without naming its unit. Its magnitude tells: numbers
below `2 ^ 32` are seconds, below a thousand times that milliseconds, then microseconds, and
everything beyond is nanoseconds. Zero says that there is no time. -/

namespace Logbook.Time

/-- Magnitudes below this are seconds. -/
def secondsBound : Nat := UInt32.size

/-- Nanoseconds in the unit in which a number of this magnitude counts. -/
def unitOf (magnitude : Nat) : Int64 :=
  if magnitude < secondsBound then 1000000000
  else if magnitude < secondsBound * 1000 then 1000000
  else if magnitude < secondsBound * 1000000 then 1000
  else 1

/-- The time a whole number stands for. -/
def ofWhole (n : Int64) : Option Timestamp :=
  if n = 0 then none else some (n * unitOf n.toInt.natAbs)

/-- Nanoseconds in the unit in which a double of this magnitude counts. -/
def unitOfFloat (magnitude : Float) : Float :=
  if magnitude < 4294967296.0 then 1e9
  else if magnitude < 4294967296.0 * 1e3 then 1e6
  else if magnitude < 4294967296.0 * 1e6 then 1e3
  else 1.0

/-- The time a double stands for: the nearest nanosecond, or the nearest time there is. -/
def ofFloat (x : Float) : Option Timestamp :=
  if x == 0.0 then none else some (Decimal.toInt64 (x * unitOfFloat x.abs).round)

end Logbook.Time
