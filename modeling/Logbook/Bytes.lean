set_option autoImplicit false

/-! # Byte strings

Encoded rows, journal files and request bodies are lists of bytes. This module holds the two
ways a value becomes bytes that every format shares: fixed-width big-endian numbers and UTF-8. -/

namespace Logbook

/-- A byte string, first byte first. -/
abbrev Bytes := List UInt8

namespace Bytes

/-- The number whose base-256 digits are the given bytes, most significant first. -/
def toNatBE (b : Bytes) : Nat :=
  b.foldl (fun acc byte => acc * 256 + byte.toNat) 0

/-- The last `width` base-256 digits of a number, most significant first. -/
def ofNatBE : (width : Nat) → Nat → Bytes
  | 0, _ => []
  | width + 1, n => ofNatBE width (n / 256) ++ [UInt8.ofNat (n % 256)]

/-- The UTF-8 encoding of a text. -/
def ofString (s : String) : Bytes :=
  s.toByteArray.data.toList

/-- The text with this UTF-8 encoding, if there is one. -/
def toString? (b : Bytes) : Option String :=
  String.fromUTF8? ⟨b.toArray⟩

/-- Every text is read back from its encoding. -/
theorem toString?_ofString (s : String) : toString? (ofString s) = some s := by
  have h : (⟨(ofString s).toArray⟩ : ByteArray) = s.toByteArray := by simp [ofString]
  unfold toString? String.fromUTF8?
  rw [h]
  simp [s.isValidUTF8, String.fromUTF8]

theorem length_ofString (s : String) : (ofString s).length = s.utf8ByteSize := rfl

theorem length_ofNatBE (width n : Nat) : (ofNatBE width n).length = width := by
  induction width generalizing n with
  | zero => rfl
  | succ width ih => simp [ofNatBE, ih]

/-- One byte as two lowercase hexadecimal digits. -/
def hexByte (b : UInt8) : List Char :=
  [Nat.digitChar (b.toNat / 16), Nat.digitChar (b.toNat % 16)]

/-- A byte string as lowercase hexadecimal text. -/
def toHex (b : Bytes) : String :=
  String.ofList (b.flatMap hexByte)

/-- The bytes that ASCII counts as white space: tab, line feed, form feed, carriage return and
    space. -/
def isAsciiBlank (b : UInt8) : Bool :=
  b = 9 || b = 10 || b = 12 || b = 13 || b = 32

end Bytes

end Logbook
