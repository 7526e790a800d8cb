import Logbook.Bytes

set_option autoImplicit false

/-! # Adler-32

Two sums modulo the largest prime below `2 ^ 16`: one of the bytes, one of the first sum after each
byte. -/

namespace Logbook.Adler32

def modulus : Nat := 65521

/-- The two sums after one more byte. -/
def step (sums : Nat × Nat) (b : UInt8) : Nat × Nat :=
  let a := (sums.1 + b.toNat) % modulus
  (a, (sums.2 + a) % modulus)

/-- The checksum of a byte string. -/
def checksum (b : Bytes) : Nat :=
  let sums := b.foldl step (1, 0)
  sums.2 * 65536 + sums.1

end Logbook.Adler32
