import Logbook.Json.Reader
import Logbook.Pieces
import Logbook.Time.Instant
import Logbook.Toml.Basic

set_option autoImplicit false

/-! # Texts, numbers and times in TOML

A text stands between quotes or apostrophes, one or three of them. Only between quotes does a
backslash have a meaning, and only between three of either may a text span lines. Everything else
that has no brackets is told by its spelling. -/

namespace Logbook.Toml

/-! ## Texts -/

/-- Whether a character may stand for itself: none that controls a device but the tab. -/
def isPlain (c : Char) : Bool :=
  c = '\t' || (32 ≤ c.toNat && c.toNat ≠ 127)

def isSpace (c : Char) : Bool :=
  c = ' ' || c = '\t'

/-- The text behind a line end. -/
def dropLineEnd? : List Char → Option (List Char)
  | '\n' :: rest => some rest
  | '\r' :: '\n' :: rest => some rest
  | _ => none

/-- The character with the number that hexadecimal digits spell. -/
def charOfHex? (ds : List Char) : Option Char := do
  let n ← ds.foldlM (fun n d => do return n * 16 + (← Json.hexValue? d)) 0
  if n.isValidChar then return Char.ofNat n else none

/-- What a backslash and the text behind it stand for. -/
def readEscape? : List Char → Option (Char × List Char)
  | 'u' :: a :: b :: c :: d :: rest => do return (← charOfHex? [a, b, c, d], rest)
  | 'U' :: a :: b :: c :: d :: e :: f :: g :: h :: rest => do
    return (← charOfHex? [a, b, c, d, e, f, g, h], rest)
  | c :: rest => if c = '/' then none else do return (← Json.simpleEscape? c, rest)
  | [] => none

/-- The text behind a backslash at the end of a line, without the blanks it swallows. -/
def dropFold? (cs : List Char) : Option (List Char) :=
  (dropLineEnd? (cs.dropWhile isSpace)).map
    (·.dropWhile fun c => isSpace c || c = '\n' || c = '\r')

/-- Reads a text up to its closing quotes: three in a text that spans lines, which may have two more
    in front of them, else one. -/
def readText (quote : Char) (spansLines : Bool) :
    (fuel : Nat) → List Char → (out : List Char) → Option (String × List Char)
  | 0, _, _ => none
  | fuel + 1, cs, out =>
    let run := (cs.takeWhile (· == quote)).length
    if spansLines && 3 ≤ run then
      let n := min run 5
      some (String.ofList (List.replicate (n - 3) quote ++ out).reverse, cs.drop n)
    else match cs with
    | [] => none
    | c :: rest =>
      if c = quote && !spansLines then some (String.ofList out.reverse, rest)
      else if c = '\\' && quote = '"' then
        match if spansLines then dropFold? rest else none with
        | some rest => readText quote spansLines fuel rest out
        | none => do
          let (c, rest) ← readEscape? rest
          readText quote spansLines fuel rest (c :: out)
      else if spansLines && (dropLineEnd? cs).isSome then
        readText quote spansLines fuel ((dropLineEnd? cs).getD []) ('\n' :: out)
      else if isPlain c then readText quote spansLines fuel rest (c :: out)
      else none

/-- Reads a text within a line, its first quote being gone. -/
def readShortText (quote : Char) (cs : List Char) : Option (String × List Char) :=
  readText quote false (cs.length + 1) cs []

/-- Reads a text behind three quotes. A line end right behind them does not count. -/
def readLongText (quote : Char) (cs : List Char) : Option (String × List Char) :=
  let cs := (dropLineEnd? cs).getD cs
  readText quote true (cs.length + 1) cs []

/-! ## Numbers -/

/-- Digits without the underscores between them. -/
def digits? (isDigit : Char → Bool) (cs : List Char) : Option (List Char) :=
  let ps := pieces '_' cs
  if ps.all fun p => !p.isEmpty && p.all isDigit then some ps.flatten else none

/-- The digits of a decimal number, which does not start with zero unless it is zero. -/
def decimalDigits? (cs : List Char) : Option (List Char) := do
  let ds ← digits? Text.isAsciiDigit cs
  if ds.head? = some '0' && 1 < ds.length then none else return ds

/-- A whole number of sixty-four bits with a sign. -/
def int? (n : Int) : Option Toml :=
  if Int64.minValue.toInt ≤ n ∧ n ≤ Int64.maxValue.toInt then some (.int n) else none

/-- Reads a whole number in another base. -/
def readBased? (base : Nat) (cs : List Char) : Option Toml := do
  let isDigit (c : Char) : Bool := ((Json.hexValue? c).map fun d => decide (d < base)).getD false
  let ds ← digits? isDigit cs
  int? (ds.foldl (fun n d => n * base + (Json.hexValue? d).getD 0) 0 : Nat)

/-- Reads a decimal number without its sign. -/
def readDecimal? (negative : Bool) (cs : List Char) : Option Toml := do
  let whole := cs.takeWhile fun c => Text.isAsciiDigit c || c = '_'
  let ds ← decimalDigits? whole
  match cs.drop whole.length with
  | [] => int? (if negative then -(Decimal.digitsValue ds : Int) else Decimal.digitsValue ds)
  | rest => do
    let isMark (c : Char) : Bool := c = 'e' || c = 'E'
    let fraction := rest.takeWhile (!isMark ·)
    let power := rest.dropWhile (!isMark ·)
    let fraction ← match fraction with
      | [] => pure []
      | '.' :: fs => (digits? Text.isAsciiDigit fs).map ('.' :: ·)
      | _ => none
    let power ← match power with
      | [] => pure []
      | _ :: p =>
        let (minus, p) := Decimal.readSign p
        (digits? Text.isAsciiDigit p).map fun p => 'e' :: (if minus then '-' :: p else p)
    let x ← Decimal.read? (String.ofList (ds ++ fraction ++ power))
    if x.isFinite then return .float (if negative then -x else x) else none

/-- Reads a number without its sign. -/
def readUnsigned? (negative : Bool) (cs : List Char) : Option Toml :=
  if cs == "inf".toList then some (.float (Decimal.infinity negative))
  else if cs == "nan".toList then some (.float (0.0 / 0.0))
  else readDecimal? negative cs

/-! ## Times -/

/-- The text behind a time of day. -/
def dropClock? (cs : List Char) : Option (List Char) := do
  let (hour, cs) ← Time.takeNumber? 2 2 cs
  let cs ← Time.takeChar? ':' cs
  let (minute, cs) ← Time.takeNumber? 2 2 cs
  let cs ← Time.takeChar? ':' cs
  let (second, cs) ← Time.takeNumber? 2 2 cs
  let (nano, cs) ← Time.takeFraction? cs
  if (⟨hour, minute, second, nano⟩ : Time.Clock).isValid then return cs else none

/-- The text behind a date. -/
def dropDate? (cs : List Char) : Option (List Char) := do
  let (year, cs) ← Time.takeNumber? 4 4 cs
  let cs ← Time.takeChar? '-' cs
  let (month, cs) ← Time.takeNumber? 2 2 cs
  let cs ← Time.takeChar? '-' cs
  let (day, cs) ← Time.takeNumber? 2 2 cs
  if (⟨year, month, day⟩ : Time.Date).isValid then return cs else none

/-- Whether a text is a time: a date, a time of day, or both with or without an offset. -/
def isTime (cs : List Char) : Bool :=
  match dropDate? cs with
  | none => dropClock? cs == some []
  | some [] => true
  | some (c :: rest) =>
    (c = 'T' || c = 't' || c = ' ') &&
      match dropClock? rest with
      | none => false
      | some [] => true
      | some offset => ((Time.takeOffset? offset).map (·.2)) == some []

/-! ## Words -/

/-- Whether a character may stand in a word. -/
def isWordChar (c : Char) : Bool :=
  c.isAlphanum || c = '_' || c = '+' || c = '-' || c = '.' || c = ':'

/-- What a word stands for. -/
def ofWord? (cs : List Char) : Option Toml :=
  if cs == "true".toList then some (.bool true)
  else if cs == "false".toList then some (.bool false)
  else if isTime cs then some (.time (String.ofList cs))
  else match cs with
  | '0' :: 'x' :: ds => readBased? 16 ds
  | '0' :: 'o' :: ds => readBased? 8 ds
  | '0' :: 'b' :: ds => readBased? 2 ds
  | '+' :: rest => readUnsigned? false rest
  | '-' :: rest => readUnsigned? true rest
  | _ => readUnsigned? false cs

/-- Reads a word. A date may be followed by a blank and a time of day. -/
def readWord (cs : List Char) : Option (Toml × List Char) := do
  let word := cs.takeWhile isWordChar
  let rest := cs.drop word.length
  let time := match rest with
    | ' ' :: after => if dropDate? word == some [] then ' ' :: after.takeWhile isWordChar else []
    | _ => []
  match if isTime (word ++ time) then time else [] with
  | [] => return (← ofWord? word, rest)
  | time => return (← ofWord? (word ++ time), rest.drop time.length)

end Logbook.Toml
