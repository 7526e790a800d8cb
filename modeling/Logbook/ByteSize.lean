import Logbook.Decimal.Read
import Logbook.Text.Class

set_option autoImplicit false

/-! # Sizes

A number of bytes as a text: a count and, perhaps, a unit. -/

namespace Logbook.ByteSize

/-- The bytes in a unit. -/
def unit? : String → Option Nat
  | "" | "B" => some 1
  | "KB" => some 1000
  | "MB" => some (1000 * 1000)
  | "GB" => some (1000 * 1000 * 1000)
  | "KiB" => some 1024
  | "MiB" => some (1024 * 1024)
  | "GiB" => some (1024 * 1024 * 1024)
  | _ => none

/-- Reads a size of sixty-four bits. Blanks may stand around it and before the unit. -/
def read? (s : String) : Option Nat := do
  let cs := Text.trimChars s.toList
  let n ← Decimal.readUInt64? (String.ofList (cs.takeWhile Text.isAsciiDigit))
  let u ← unit? (String.ofList (Text.trimChars (cs.dropWhile Text.isAsciiDigit)))
  if n * u < UInt64.size then return n * u else none

end Logbook.ByteSize
