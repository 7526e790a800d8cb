import Logbook.Json.Reader
import Logbook.Pieces
import Logbook.Text.Replacement

set_option autoImplicit false

/-! # Forms

Arguments are names with values. In a query string and in the body of a form they stand between
ampersands, each name before the first equals sign of its piece. A plus sign is a space, and a
percent sign before two hexadecimal digits makes a byte of them; anywhere else it stands for
itself. -/

namespace Logbook

/-- The arguments of a request: names with values, in order. -/
abbrev Args := List (String × String)

namespace Http.Form

/-! ## Reading -/

/-- The value of a hexadecimal digit. -/
def hexValue? (b : UInt8) : Option Nat :=
  if b < 0x80 then Json.hexValue? (Char.ofNat b.toNat) else none

/-- The bytes that a piece stands for. -/
def unescape : Bytes → Bytes
  | 0x25 :: a :: b :: rest =>
    match hexValue? a, hexValue? b with
    | some h, some l => UInt8.ofNat (16 * h + l) :: unescape rest
    | _, _ => 0x25 :: unescape (a :: b :: rest)
  | 0x2B :: rest => 0x20 :: unescape rest
  | b :: rest => b :: unescape rest
  | [] => []
  termination_by b => b.length

/-- The name and the value in a piece; without an equals sign the value is empty. -/
def readPair (piece : Bytes) : String × String :=
  let isName (b : UInt8) : Bool := b != 0x3D
  (Text.ofBytes (unescape (piece.takeWhile isName)),
    Text.ofBytes (unescape ((piece.dropWhile isName).drop 1)))

/-- The arguments of a form. Empty pieces count for nothing. -/
def read (form : Bytes) : Args :=
  ((pieces 0x26 form).filter (!·.isEmpty)).map readPair

/-! ## Writing -/

/-- Whether a byte stands for itself. -/
def isPlain (b : UInt8) : Bool :=
  b < 0x80 && ((Char.ofNat b.toNat).isAlphanum || b == 0x2A || b == 0x2D || b == 0x2E || b == 0x5F)

/-- The form of a byte. -/
def escapeByte (b : UInt8) : List Char :=
  if b = 0x20 then ['+']
  else if isPlain b then [Char.ofNat b.toNat]
  else '%' :: (Bytes.hexByte b).map Char.toUpper

/-- The form of a text. -/
def escape (s : String) : String :=
  String.ofList ((Bytes.ofString s).flatMap escapeByte)

/-- The form of arguments. -/
def render (args : Args) : String :=
  "&".intercalate (args.map fun (name, value) => escape name ++ "=" ++ escape value)

end Http.Form

end Logbook
