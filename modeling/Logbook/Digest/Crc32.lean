import Logbook.Bytes

set_option autoImplicit false

/-! # CRC-32

The cyclic redundancy check with the reflected polynomial `0xEDB88320`, all ones at the start and
inverted at the end. The register is shifted one bit at a time. -/

namespace Logbook.Crc32

/-- The generator polynomial, least significant bit first. -/
def polynomial : UInt32 := 0xEDB88320

/-- Shifts one bit out of the register and divides by the polynomial if it was set. -/
def shiftBit (register : UInt32) : UInt32 :=
  if register &&& 1 = 1 then (register >>> 1) ^^^ polynomial else register >>> 1

/-- Shifts `n` bits out of the register. -/
def shiftBits : Nat → UInt32 → UInt32
  | 0, register => register
  | n + 1, register => shiftBits n (shiftBit register)

/-- Takes one byte into the register. -/
def step (register : UInt32) (byte : UInt8) : UInt32 :=
  shiftBits 8 (register ^^^ byte.toUInt32)

/-- The checksum of a byte string. -/
def checksum (bytes : Bytes) : UInt32 :=
  bytes.foldl step 0xFFFFFFFF ^^^ 0xFFFFFFFF

end Logbook.Crc32
