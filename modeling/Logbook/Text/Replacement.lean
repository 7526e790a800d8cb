import Logbook.Bytes

set_option autoImplicit false

/-! # UTF-8 with replacement

Every byte string has a text: where bytes are no UTF-8, each longest front of a character that
breaks off stands for one replacement character, and so does each byte that can start none. -/

namespace Logbook.Text

/-- What stands for bytes that are no text. -/
def replacement : Char := '\uFFFD'

/-- A character whose last bytes are still to come. -/
structure OpenChar where
  /-- The bits of the bytes so far. -/
  bits : Nat
  /-- How many bytes are to come. -/
  missing : Nat
  /-- The least and the greatest byte that may come next. -/
  low : UInt8
  high : UInt8
  deriving DecidableEq, Repr

namespace OpenChar

/-- Lead bytes with what has to follow them. The bounds of the second byte keep out spellings that
    are too long, surrogates and numbers beyond the last character. -/
def ofLead? (b : UInt8) : Option OpenChar :=
  if 0xC2 ≤ b && b ≤ 0xDF then some ⟨b.toNat - 0xC0, 1, 0x80, 0xBF⟩
  else if 0xE0 ≤ b && b ≤ 0xEF then
    some ⟨b.toNat - 0xE0, 2, if b = 0xE0 then 0xA0 else 0x80, if b = 0xED then 0x9F else 0xBF⟩
  else if 0xF0 ≤ b && b ≤ 0xF4 then
    some ⟨b.toNat - 0xF0, 3, if b = 0xF0 then 0x90 else 0x80, if b = 0xF4 then 0x8F else 0xBF⟩
  else none

/-- Takes one more byte: the character if it is the last, or what is still open. -/
def push (p : OpenChar) (b : UInt8) : Char ⊕ OpenChar :=
  let bits := p.bits * 64 + b.toNat % 64
  if p.missing ≤ 1 then .inl (Char.ofNat bits) else .inr ⟨bits, p.missing - 1, 0x80, 0xBF⟩

end OpenChar

/-- Reads a byte that starts a character. The characters read so far come last first. -/
def startChar (out : List Char) (b : UInt8) : List Char × Option OpenChar :=
  if b < 0x80 then (Char.ofNat b.toNat :: out, none)
  else match OpenChar.ofLead? b with
    | some p => (out, some p)
    | none => (replacement :: out, none)

/-- Reads a byte. -/
def readByte : List Char × Option OpenChar → UInt8 → List Char × Option OpenChar
  | (out, none), b => startChar out b
  | (out, some p), b =>
    if p.low ≤ b && b ≤ p.high then
      match p.push b with
      | .inl c => (c :: out, none)
      | .inr p => (out, some p)
    else startChar (replacement :: out) b

/-- The text of bytes. -/
def ofBytes (b : Bytes) : String :=
  match b.foldl readByte ([], none) with
  | (out, none) => String.ofList out.reverse
  | (out, some _) => String.ofList (replacement :: out).reverse

end Logbook.Text
