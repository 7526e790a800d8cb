import Logbook.Bytes

set_option autoImplicit false

/-! # Bit streams

Compressed data is a stream of bits that fills every byte from its low end. Numbers come with their
low bit first. -/

namespace Logbook.Deflate

/-- Why compressed data is refused: it ends too early, or no data can look like this. -/
inductive Fault where
  | truncated
  | corrupt
  deriving DecidableEq, Repr

/-- The bits of a byte string from a place on: the first `used` bits of the first byte are behind
    it. -/
structure Bits where
  bytes : Bytes
  used : Nat
  deriving Repr

namespace Bits

def ofBytes (b : Bytes) : Bits := ⟨b, 0⟩

/-- How many bits are left at most. -/
def size (s : Bits) : Nat :=
  s.bytes.length * 8

/-- The next bit, as a number. -/
def readBit (s : Bits) : Except Fault (Nat × Bits) :=
  match s.bytes with
  | [] => .error .truncated
  | b :: rest =>
    .ok ((b.toNat >>> s.used) % 2, if s.used < 7 then ⟨b :: rest, s.used + 1⟩ else ⟨rest, 0⟩)

/-- The number in the next `width` bits. -/
def read : (width : Nat) → Bits → Except Fault (Nat × Bits)
  | 0, s => .ok (0, s)
  | width + 1, s => do
    let (low, s) ← readBit s
    let (high, s) ← read width s
    return (low + 2 * high, s)

/-- The bytes that follow, without what is left of a byte that has been begun. -/
def toBytes (s : Bits) : Bytes :=
  if s.used = 0 then s.bytes else s.bytes.drop 1

end Bits

end Logbook.Deflate
