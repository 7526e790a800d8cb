import Logbook.Regex.Basic

set_option autoImplicit false

/-! # Flags and white space of a pattern

The flags that a place of a pattern is read under. They decide what a character or an escape stands
for, and whether white space and comments are skipped. -/

namespace Logbook.Regex

/-- The flags in force at a place of the pattern. -/
structure Flags where
  ignoreCase : Bool := false
  multiLine : Bool := false
  dotAll : Bool := false
  unicode : Bool := true
  crlf : Bool := false
  /-- White space and comments in the pattern are skipped. -/
  verbose : Bool := false
  deriving DecidableEq, Repr

def Flags.mode (f : Flags) : ClassMode := ⟨f.unicode, f.ignoreCase⟩

/-! ## White space -/

/-- Drops white space and comments from `#` to the end of the line. -/
def dropBlanks : List Char → (inComment : Bool) → List Char
  | [], _ => []
  | c :: rest, true => dropBlanks rest (c ≠ '\n')
  | c :: rest, false =>
    if Text.isBlank c then dropBlanks rest false
    else if c = '#' then dropBlanks rest true
    else c :: rest

def skipBlanks (verbose : Bool) (cs : List Char) : List Char :=
  if verbose then dropBlanks cs false else cs

/-- The next character behind white space, for a look ahead. This passes over the `#` of a comment,
    but not over the comment: the first of its characters that is not white space is the next. -/
def peekBlanks? (verbose : Bool) (cs : List Char) : Option Char :=
  if verbose then
    match cs.dropWhile Text.isBlank with
    | '#' :: rest => (rest.dropWhile Text.isBlank).head?
    | rest => rest.head?
  else cs.head?

end Logbook.Regex
