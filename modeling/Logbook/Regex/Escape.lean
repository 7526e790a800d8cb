import Logbook.Regex.Flags

set_option autoImplicit false

/-! # Escapes in a pattern

What may follow a backslash: a character by its number, a letter for a class of characters, a
property by its name, a place in the text, or a character that would otherwise have a meaning of its
own. -/

namespace Logbook.Regex

/-- What an escape or a single character stands for. -/
inductive Atom where
  /-- A character; `byte` if it was written as two hexadecimal digits. -/
  | literal (c : Char) (byte : Bool)
  | letter (k : Letter) (negated : Bool)
  | property (p : Property) (negated : Bool)
  | look (l : Look)
  deriving Repr

def hexValue? (c : Char) : Option Nat :=
  if '0' ≤ c ∧ c ≤ '9' then some (c.toNat - 48)
  else if 'a' ≤ c ∧ c ≤ 'f' then some (c.toNat - 87)
  else if 'A' ≤ c ∧ c ≤ 'F' then some (c.toNat - 55)
  else none

/-- The character with this number, if there is one. -/
def charOfNat? (n : Nat) : Option Char :=
  if n < 0xD800 ∨ (0xDFFF < n ∧ n < 0x110000) then some (Char.ofNat n) else none

/-- Exactly `n` hexadecimal digits. -/
def readHexDigits (verbose : Bool) : (n : Nat) → (value : Nat) → List Char →
    Option (Nat × List Char)
  | 0, value, cs => some (value, cs)
  | _ + 1, _, [] => none
  | n + 1, value, c :: rest => do
    let d ← hexValue? c
    readHexDigits verbose n (value * 16 + d) (skipBlanks verbose rest)

/-- Hexadecimal digits up to a closing brace. `fuel` bounds their number. -/
def readHexBraced (verbose : Bool) : (fuel count value : Nat) → List Char →
    Option (Nat × List Char)
  | 0, _, _, _ => none
  | _, _, _, [] => none
  | fuel + 1, count, value, c :: rest =>
    if c = '}' then if count = 0 then none else some (value, skipBlanks verbose rest)
    else do
      let d ← hexValue? c
      readHexBraced verbose fuel (count + 1) (value * 16 + d) (skipBlanks verbose rest)

/-- The character number after `\x`, `\u` or `\U`; `digits` is its fixed length. -/
def readHex (verbose : Bool) (digits : Nat) (cs : List Char) : Option (Atom × List Char) := do
  match skipBlanks verbose cs with
  | '{' :: rest =>
    let (n, rest) ← readHexBraced verbose (rest.length + 1) 0 0 (skipBlanks verbose rest)
    let c ← charOfNat? n
    return (.literal c false, rest)
  | cs =>
    let (n, rest) ← readHexDigits verbose digits 0 cs
    let c ← charOfNat? n
    return (.literal c (digits = 2), rest)

/-- The characters up to a closing brace, white space dropped in verbose patterns. -/
def readBraced (verbose : Bool) : (fuel : Nat) → List Char → Option (List Char × List Char)
  | 0, _ => none
  | _, [] => none
  | fuel + 1, c :: rest =>
    if c = '}' then some ([], rest)
    else do
      let (name, rest) ← readBraced verbose fuel (skipBlanks verbose rest)
      return (c :: name, rest)

/-- Splits at the first occurrence of a word. -/
def splitAtWord (word : List Char) : List Char → Option (List Char × List Char)
  | [] => none
  | c :: rest =>
    if word.isPrefixOf (c :: rest) then some ([], (c :: rest).drop word.length)
    else (splitAtWord word rest).map fun (a, b) => (c :: a, b)

/-- The property a text between braces names, and whether it is negated. -/
def propertyOfText? (name : List Char) : Option (Property × Bool) :=
  match splitAtWord "!=".toList name with
  | some (n, v) => (Property.ofNameValue? n v).map (·, true)
  | none =>
    match splitAtWord ":".toList name with
    | some (n, v) => (Property.ofNameValue? n v).map (·, false)
    | none =>
      match splitAtWord "=".toList name with
      | some (n, v) => (Property.ofNameValue? n v).map (·, false)
      | none => (Property.ofName? name).map (·, false)

/-- The property after `\p` or `\P`. -/
def readProperty (verbose negated : Bool) (cs : List Char) : Option (Atom × List Char) :=
  match skipBlanks verbose cs with
  | '{' :: rest => do
    let (name, rest) ← readBraced verbose (rest.length + 1) (skipBlanks verbose rest)
    let (p, unequal) ← propertyOfText? name
    return (.property p (negated != unequal), rest)
  | c :: rest =>
    if c = '\\' then none
    else (Property.ofName? [c]).map fun p => (.property p negated, skipBlanks verbose rest)
  | [] => none

/-- Characters with a meaning of their own, which an escape takes away. -/
def isMeta (c : Char) : Bool :=
  "\\.+*?()|[]\x7b\x7d^$#&-~".toList.contains c

/-- ASCII characters that an escape leaves as they are. -/
def isPlainEscape (c : Char) : Bool :=
  isMeta c || (c.toNat < 128 && !Text.isAsciiAlpha c && !Text.isAsciiDigit c && c ≠ '<' && c ≠ '>')

def isBoundaryChar (c : Char) : Bool :=
  Text.isAsciiAlpha c || c = '-'

/-- The letters up to the brace that closes a named word boundary. -/
def readBoundaryName (verbose : Bool) : (fuel : Nat) → List Char →
    Option (List Char × List Char)
  | 0, _ => none
  | _, [] => none
  | fuel + 1, c :: rest =>
    if isBoundaryChar c then do
      let (name, rest) ← readBoundaryName verbose fuel (skipBlanks verbose rest)
      return (c :: name, rest)
    else if c = '}' then some ([], rest)
    else none

/-- What follows `\b`: a name in braces, or nothing that belongs to it. -/
def readBoundary (f : Flags) (cs : List Char) : Option (Atom × List Char) :=
  let plain := some (Atom.look (.wordBoundary f.unicode), cs)
  match cs with
  | '{' :: rest =>
    match skipBlanks f.verbose rest with
    | [] => none
    | c :: rest =>
      if !isBoundaryChar c then plain
      else do
        let (name, rest) ← readBoundaryName f.verbose (rest.length + 2) (c :: rest)
        match String.ofList name with
        | "start" => return (.look (.wordStart f.unicode), rest)
        | "end" => return (.look (.wordEnd f.unicode), rest)
        | "start-half" => return (.look (.wordStartHalf f.unicode), rest)
        | "end-half" => return (.look (.wordEndHalf f.unicode), rest)
        | _ => none
  | _ => plain

/-- What follows a backslash. -/
def readEscape (f : Flags) : List Char → Option (Atom × List Char)
  | [] => none
  | c :: rest =>
    let letter (k : Letter) (negated : Bool) := some (Atom.letter k negated, rest)
    let char (n : Nat) := some (Atom.literal (Char.ofNat n) false, rest)
    let look (l : Look) := some (Atom.look l, rest)
    if Text.isAsciiDigit c then none
    else if isPlainEscape c then some (.literal c false, rest)
    else if c = 'x' then readHex f.verbose 2 rest
    else if c = 'u' then readHex f.verbose 4 rest
    else if c = 'U' then readHex f.verbose 8 rest
    else if c = 'p' then readProperty f.verbose false rest
    else if c = 'P' then readProperty f.verbose true rest
    else if c = 'd' then letter .digit false
    else if c = 'D' then letter .digit true
    else if c = 's' then letter .space false
    else if c = 'S' then letter .space true
    else if c = 'w' then letter .word false
    else if c = 'W' then letter .word true
    else if c = 'a' then char 7
    else if c = 'f' then char 12
    else if c = 't' then char 9
    else if c = 'n' then char 10
    else if c = 'r' then char 13
    else if c = 'v' then char 11
    else if c = 'A' then look .textStart
    else if c = 'z' then look .textEnd
    else if c = 'b' then readBoundary f rest
    else if c = 'B' then look (.notWordBoundary f.unicode)
    else if c = '<' then look (.wordStart f.unicode)
    else if c = '>' then look (.wordEnd f.unicode)
    else none

end Logbook.Regex
