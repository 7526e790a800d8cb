import Logbook.Json.Basic
import Logbook.Decimal.Read

set_option autoImplicit false

/-! # Reading JSON

A text is read in one pass from the left. Arrays and objects may be nested 127 deep. Whole numbers
that fit into sixty-four bits are exact. Any other number is a double: of its digits the first ones
that fit into sixty-four bits count, and each of the steps "to a double" and "times or divided by a
power of ten" rounds once. A number beyond all doubles is an error, like a surrogate that stands
alone. -/

namespace Logbook.Json

def isSpace (c : Char) : Bool :=
  c = ' ' || c = '\n' || c = '\t' || c = '\r'

def skipSpace (cs : List Char) : List Char :=
  cs.dropWhile isSpace

/-! ## Numbers -/

/-- The double nearest to a power of ten. -/
def powerOfTen (k : Nat) : Float :=
  Decimal.nearestDecimal false 1 k

/-- `x` times `10 ^ exponent`, dividing when the exponent is negative. The largest power of ten in
    use is the three hundred and eighth, so that a smaller exponent takes several steps. -/
def scale : (fuel : Nat) → Float → Int → Option Float
  | 0, x, _ => some x
  | fuel + 1, x, exponent =>
    if exponent.natAbs ≤ 308 then
      if 0 ≤ exponent then
        let y := x * powerOfTen exponent.natAbs
        if y.isInf then none else some y
      else some (x / powerOfTen exponent.natAbs)
    else if x == 0.0 then some x
    else if 0 ≤ exponent then none
    else scale fuel (x / powerOfTen 308) (exponent + 308)

/-- The double with these digits and exponent. Exponents are bounded so that more steps than are
    left would leave nothing of the number. -/
def floatOfParts (negative : Bool) (digits : Nat) (exponent : Int) : Option Float := do
  let x ← scale 8 (UInt64.ofNat digits).toFloat (max exponent (-1500))
  return if negative then -x else x

/-- Adds digits to a number while it fits into sixty-four bits: the number, how many digits were
    added, and the digits that were not. -/
def takeDigits : List Char → (n count : Nat) → Nat × Nat × List Char
  | [], n, count => (n, count, [])
  | d :: rest, n, count =>
    let next := n * 10 + (d.toNat - 48)
    if next < UInt64.size then takeDigits rest next (count + 1) else (n, count, d :: rest)

/-- Reads the exponent after its mark. An exponent beyond thirty-one bits leaves nothing of the
    number or has no double. -/
def readExponent (negative : Bool) (digits : Nat) (exponent : Int) (cs : List Char) :
    Option (Json × List Char) := do
  let (below, cs) := Decimal.readSign cs
  let (ds, cs) := Decimal.spanDigits cs
  if ds.isEmpty then none
  else
    let e := Decimal.digitsValue ds
    if 1 <<< 31 ≤ e then
      if digits ≠ 0 && !below then none else return (.float (if negative then -0.0 else 0.0), cs)
    else
      let x ← floatOfParts negative digits (if below then exponent - e else exponent + e)
      return (.float x, cs)

/-- Whether a character marks an exponent. -/
def isExponentMark (c : Char) : Bool :=
  c = 'e' || c = 'E'

/-- Reads what follows the digits before the point. -/
def readFraction (negative : Bool) (digits : Nat) (exponent : Int) (whole : Bool)
    (cs : List Char) : Option (Json × List Char) :=
  match cs with
  | '.' :: rest =>
    let (ds, rest) := Decimal.spanDigits rest
    if ds.isEmpty then none
    else
      let (digits, count, _) := takeDigits ds digits 0
      -- A number without room for its first decimal place has an empty fraction.
      let exponent := exponent - count
      match rest with
      | c :: after =>
        if isExponentMark c then readExponent negative digits exponent after
        else (floatOfParts negative digits exponent).map fun x => (.float x, rest)
      | [] => (floatOfParts negative digits exponent).map fun x => (.float x, [])
  | c :: rest =>
    if isExponentMark c then readExponent negative digits exponent rest
    else if whole then ofWhole c rest
    else (floatOfParts negative digits exponent).map fun x => (.float x, cs)
  | [] =>
    if whole then (wholeNumber negative digits, []) |> some
    else (floatOfParts negative digits exponent).map fun x => (.float x, [])
where
  /-- A number without fraction and exponent. -/
  wholeNumber (negative : Bool) (digits : Nat) : Json :=
    if !negative then .int digits
    else if digits = 0 || 1 <<< 63 < digits then .float (-(UInt64.ofNat digits).toFloat)
    else .int (-digits)
  ofWhole (c : Char) (rest : List Char) : Option (Json × List Char) :=
    some (wholeNumber negative digits, c :: rest)

/-- Reads a number. -/
def readNumber (cs : List Char) : Option (Json × List Char) :=
  let (negative, cs) := match cs with
    | '-' :: rest => (true, rest)
    | cs => (false, cs)
  let (ds, rest) := Decimal.spanDigits cs
  match ds with
  | [] => none
  | '0' :: _ :: _ => none
  | ds =>
    let (digits, _, dropped) := takeDigits ds 0 0
    readFraction negative digits dropped.length dropped.isEmpty rest

/-! ## Strings -/

/-- The value of a hexadecimal digit of either case. -/
def hexValue? (c : Char) : Option Nat :=
  if '0' ≤ c ∧ c ≤ '9' then some (c.toNat - 48)
  else if 'a' ≤ c ∧ c ≤ 'f' then some (c.toNat - 87)
  else if 'A' ≤ c ∧ c ≤ 'F' then some (c.toNat - 55)
  else none

/-- The value of four hexadecimal digits. -/
def hex4? (a b c d : Char) : Option Nat := do
  return (((← hexValue? a) * 16 + (← hexValue? b)) * 16 + (← hexValue? c)) * 16 + (← hexValue? d)

/-- The character that a backslash and this character stand for. -/
def simpleEscape? (c : Char) : Option Char :=
  if c = '"' || c = '\\' || c = '/' then some c
  else if c = 'b' then some (Char.ofNat 8)
  else if c = 'f' then some (Char.ofNat 12)
  else if c = 'n' then some '\n'
  else if c = 'r' then some '\r'
  else if c = 't' then some '\t'
  else none

def isHighSurrogate (n : Nat) : Bool := 0xD800 ≤ n && n < 0xDC00

def isLowSurrogate (n : Nat) : Bool := 0xDC00 ≤ n && n < 0xE000

/-- Reads a string up to its closing quote; `out` holds the characters read so far, last first. -/
def readString : List Char → (out : List Char) → Option (String × List Char)
  | [], _ => none
  | '"' :: rest, out => some (String.ofList out.reverse, rest)
  | '\\' :: 'u' :: a :: b :: c :: d :: '\\' :: 'u' :: e :: f :: g :: h :: rest, out =>
    match hex4? a b c d with
    | none => none
    | some n =>
      if isHighSurrogate n then
        match hex4? e f g h with
        | none => none
        | some m =>
          if isLowSurrogate m then
            readString rest (Char.ofNat (0x10000 + (n - 0xD800) * 1024 + (m - 0xDC00)) :: out)
          else none
      else if isLowSurrogate n then none
      else readString ('\\' :: 'u' :: e :: f :: g :: h :: rest) (Char.ofNat n :: out)
  | '\\' :: 'u' :: a :: b :: c :: d :: rest, out =>
    match hex4? a b c d with
    | none => none
    | some n =>
      if isHighSurrogate n || isLowSurrogate n then none
      else readString rest (Char.ofNat n :: out)
  | '\\' :: c :: rest, out =>
    match simpleEscape? c with
    | some c => readString rest (c :: out)
    | none => none
  | c :: rest, out => if c.toNat < 32 || c = '\\' then none else readString rest (c :: out)

/-! ## Values -/

/-- The text after a word at its front. -/
def dropWord? : (word cs : List Char) → Option (List Char)
  | [], cs => some cs
  | w :: word, c :: cs => if w = c then dropWord? word cs else none
  | _ :: _, [] => none

mutual

/-- Reads a value. `depth` is how many more levels of nesting are allowed; `fuel` bounds the number
    of steps and never runs out before the text does. -/
def readValue : (fuel depth : Nat) → List Char → Option (Json × List Char)
  | 0, _, _ => none
  | fuel + 1, depth, cs =>
    match skipSpace cs with
    | [] => none
    | 'n' :: rest => (dropWord? "ull".toList rest).map (Json.null, ·)
    | 't' :: rest => (dropWord? "rue".toList rest).map (Json.bool true, ·)
    | 'f' :: rest => (dropWord? "alse".toList rest).map (Json.bool false, ·)
    | '"' :: rest => (readString rest []).map fun (s, rest) => (.str s, rest)
    | '[' :: rest =>
      if depth ≤ 1 then none
      else match skipSpace rest with
        | ']' :: rest => some (.arr [], rest)
        | _ => (readItems fuel (depth - 1) rest).map fun (vs, rest) => (.arr vs, rest)
    | '{' :: rest =>
      if depth ≤ 1 then none
      else match skipSpace rest with
        | '}' :: rest => some (.obj [], rest)
        | _ => (readMembers fuel (depth - 1) rest).map fun (ms, rest) => (.obj ms, rest)
    | c :: rest => if c = '-' || Text.isAsciiDigit c then readNumber (c :: rest) else none

/-- Reads the items of an array up to its closing bracket. -/
def readItems : (fuel depth : Nat) → List Char → Option (List Json × List Char)
  | 0, _, _ => none
  | fuel + 1, depth, cs => do
    let (v, rest) ← readValue fuel depth cs
    match skipSpace rest with
    | ',' :: rest =>
      let (vs, rest) ← readItems fuel depth rest
      return (v :: vs, rest)
    | ']' :: rest => return ([v], rest)
    | _ => none

/-- Reads the members of an object up to its closing brace. -/
def readMembers : (fuel depth : Nat) → List Char → Option (List (String × Json) × List Char)
  | 0, _, _ => none
  | fuel + 1, depth, cs =>
    match skipSpace cs with
    | '"' :: rest => do
      let (key, rest) ← readString rest []
      match skipSpace rest with
      | ':' :: rest =>
        let (v, rest) ← readValue fuel depth rest
        match skipSpace rest with
        | ',' :: rest =>
          let (ms, rest) ← readMembers fuel depth rest
          return ((key, v) :: ms, rest)
        | '}' :: rest => return ([(key, v)], rest)
        | _ => none
      | _ => none
    | _ => none

end

/-- Levels of nesting, the value itself included, that are one too many. -/
def maxDepth : Nat := 128

/-- The value that a text consists of, apart from blanks around it. -/
def parse? (cs : List Char) : Option Json := do
  let (v, rest) ← readValue (2 * cs.length + 2) maxDepth cs
  if (skipSpace rest).isEmpty then return v else none

end Logbook.Json
