import Logbook.Bytes

set_option autoImplicit false

/-! # Variable-length numbers

An unsigned number below `2 ^ 64` is written seven bits to a byte, least significant group first;
the high bit of a byte says that another follows. -/

namespace Logbook.Varint

/-- The shortest encoding of a number. -/
def encode (n : Nat) : Bytes :=
  if n < 128 then [UInt8.ofNat n] else UInt8.ofNat (n % 128 + 128) :: encode (n / 128)
termination_by n
decreasing_by omega

/-- What reading a number at the front of a byte string comes to. -/
inductive Outcome where
  /-- A number, and the bytes after it. -/
  | value (n : Nat) (rest : Bytes)
  /-- The bytes end inside the number. -/
  | ended
  /-- More than ten bytes. -/
  | overlong
  deriving DecidableEq, Repr

/-- Reads on, with `index` groups already read into `acc`. Bits beyond the sixty-fourth are lost. -/
def readFrom : Bytes → (index acc : Nat) → Outcome
  | [], _, _ => .ended
  | b :: rest, index, acc =>
    if 10 ≤ index then .overlong
    else
      let acc := (acc + (b.toNat % 128) <<< (7 * index)) % UInt64.size
      if b.toNat < 128 then .value acc rest else readFrom rest (index + 1) acc

/-- Reads the number at the front of a byte string. -/
def read (b : Bytes) : Outcome :=
  readFrom b 0 0

theorem length_lt_of_readFrom {b : Bytes} {index acc n : Nat} {rest : Bytes}
    (h : readFrom b index acc = .value n rest) : rest.length < b.length := by
  induction b generalizing index acc with
  | nil => simp [readFrom] at h
  | cons x b ih =>
    simp only [readFrom] at h
    split at h
    · contradiction
    · split at h
      · cases h; simp
      · exact Nat.lt_succ_of_lt (ih h)

theorem length_lt_of_read {b : Bytes} {n : Nat} {rest : Bytes} (h : read b = .value n rest) :
    rest.length < b.length :=
  length_lt_of_readFrom h

end Logbook.Varint
