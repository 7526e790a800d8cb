import Logbook.Regex.Property

set_option autoImplicit false

/-! # Regular expressions

An expression is built from classes of characters and tests of the surroundings. Greediness and
groups do not occur: the only question asked of an expression is whether it matches somewhere, and
neither has a say in it. -/

namespace Logbook.Regex

/-! ## Classes of characters -/

/-- The classes that have a letter of their own. -/
inductive Letter where
  | digit
  | space
  | word
  deriving DecidableEq, Repr

/-- The classes that are written between colons. All are classes of ASCII characters. -/
inductive Posix where
  | alnum | alpha | ascii | blank | cntrl | digit | graph | lower | print | punct | space | upper
  | word | xdigit
  deriving DecidableEq, Repr

/-- A set of characters as it is written. -/
inductive ClassSet where
  | empty
  | range (lo hi : Char)
  | letter (kind : Letter) (negated : Bool)
  | posix (kind : Posix) (negated : Bool)
  | property (p : Property) (negated : Bool)
  | union (a b : ClassSet)
  | inter (a b : ClassSet)
  | diff (a b : ClassSet)
  | symmDiff (a b : ClassSet)
  | bracket (negated : Bool) (a : ClassSet)
  deriving DecidableEq, Repr

/-- How a class is read: over all characters or over ASCII, and with or without regard to case. -/
structure ClassMode where
  unicode : Bool
  ignoreCase : Bool
  deriving DecidableEq, Repr

namespace Posix

def holds (k : Posix) (c : Char) : Bool :=
  let n := c.toNat
  let digit := 48 ≤ n && n ≤ 57
  let upper := 65 ≤ n && n ≤ 90
  let lower := 97 ≤ n && n ≤ 122
  let graph := 33 ≤ n && n ≤ 126
  let space := n = 32 || (9 ≤ n && n ≤ 13)
  match k with
  | .alnum => digit || upper || lower
  | .alpha => upper || lower
  | .ascii => n ≤ 127
  | .blank => n = 9 || n = 32
  | .cntrl => n ≤ 31 || n = 127
  | .digit => digit
  | .graph => graph
  | .lower => lower
  | .print => 32 ≤ n && n ≤ 126
  | .punct => graph && !(digit || upper || lower)
  | .space => space
  | .upper => upper
  | .word => digit || upper || lower || n = 95
  | .xdigit => digit || (65 ≤ n && n ≤ 70) || (97 ≤ n && n ≤ 102)

def name : Posix → String
  | .alnum => "alnum" | .alpha => "alpha" | .ascii => "ascii" | .blank => "blank"
  | .cntrl => "cntrl" | .digit => "digit" | .graph => "graph" | .lower => "lower"
  | .print => "print" | .punct => "punct" | .space => "space" | .upper => "upper"
  | .word => "word" | .xdigit => "xdigit"

def all : List Posix :=
  [.alnum, .alpha, .ascii, .blank, .cntrl, .digit, .graph, .lower, .print, .punct, .space, .upper,
    .word, .xdigit]

end Posix

/-- Letters, marks, decimal digits, connectors and joiners. -/
def isWordChar (c : Char) : Bool :=
  if c.toNat < 128 then Posix.word.holds c
  else
    let category := Text.Category.of c
    category.isMark || category == .decimalNumber || category == .connectorPunctuation
      || c.toNat = 0x200c || c.toNat = 0x200d || Text.isAlphabetic c

def Letter.holds (unicode : Bool) (k : Letter) (c : Char) : Bool :=
  match k, unicode with
  | .digit, true => Text.Category.of c == .decimalNumber
  | .digit, false => Posix.digit.holds c
  | .space, true => Text.isBlank c
  | .space, false => Posix.space.holds c
  | .word, true => isWordChar c
  | .word, false => Posix.word.holds c

namespace ClassSet

/-- The characters that count as the same as one. -/
def alike (m : ClassMode) (c : Char) : List Char :=
  if m.ignoreCase then if m.unicode then Text.orbit c else Text.asciiOrbit c else [c]

/-- Whether a character belongs to a class. Case is disregarded in what is negated before the
    negation, and in both sides of an operation before the operation. -/
def contains (m : ClassMode) : ClassSet → Char → Bool
  | .empty, _ => false
  | .range lo hi, c => lo ≤ c && c ≤ hi
  | .letter k negated, c => k.holds m.unicode c != negated
  | .posix k negated, c => (alike m c).any k.holds != negated
  | .property p negated, c => (alike m c).any p.holds != negated
  | .union a b, c => contains m a c || contains m b c
  | .inter a b, c => (alike m c).any (contains m a) && (alike m c).any (contains m b)
  | .diff a b, c => (alike m c).any (contains m a) && !(alike m c).any (contains m b)
  | .symmDiff a b, c => (alike m c).any (contains m a) != (alike m c).any (contains m b)
  | .bracket negated a, c => (alike m c).any (contains m a) != negated

end ClassSet

/-! ## Tests of the surroundings -/

/-- What a place in a text can be asked for. -/
inductive Look where
  | textStart
  | textEnd
  /-- The start of a line; with `crlf` a carriage return ends lines too. -/
  | lineStart (crlf : Bool)
  | lineEnd (crlf : Bool)
  | wordBoundary (unicode : Bool)
  | notWordBoundary (unicode : Bool)
  | wordStart (unicode : Bool)
  | wordEnd (unicode : Bool)
  | wordStartHalf (unicode : Bool)
  | wordEndHalf (unicode : Bool)
  deriving DecidableEq, Repr

/-- Whether a place has the wanted surroundings: the characters before and after it. -/
def Look.holds (l : Look) (before after : Option Char) : Bool :=
  let isWord (unicode : Bool) (c : Option Char) : Bool :=
    c.any fun c => Letter.word.holds unicode c
  match l with
  | .textStart => before.isNone
  | .textEnd => after.isNone
  | .lineStart false => before.isNone || before == some '\n'
  | .lineStart true =>
    before.isNone || before == some '\n' || (before == some '\r' && after != some '\n')
  | .lineEnd false => after.isNone || after == some '\n'
  | .lineEnd true =>
    after.isNone || after == some '\r' || (after == some '\n' && before != some '\r')
  | .wordBoundary u => isWord u before != isWord u after
  | .notWordBoundary u => isWord u before == isWord u after
  | .wordStart u => !isWord u before && isWord u after
  | .wordEnd u => isWord u before && !isWord u after
  | .wordStartHalf u => !isWord u before
  | .wordEndHalf u => !isWord u after

end Regex

/-! ## Expressions -/

/-- A regular expression. -/
inductive Regex where
  | empty
  | chars (mode : Regex.ClassMode) (set : Regex.ClassSet)
  | look (l : Regex.Look)
  | seq (a b : Regex)
  | alt (a b : Regex)
  /-- At least `least` times, and at most `most` times if that is given. -/
  | repeated (least : Nat) (most : Option Nat) (a : Regex)
  deriving DecidableEq, Repr

namespace Regex

/-! ## Matching

A set of places in a text of `n` characters is a list of `n + 1` booleans. Each expression maps the
set of places where its match may start to the set of places where it may then end. -/

/-- A set of places, one boolean for each place of a text. -/
abbrev Places := List Bool

/-- The characters before and after each place of a text. -/
def surroundings (before : Option Char) : List Char → List (Option Char × Option Char)
  | [] => [(before, none)]
  | c :: rest => (before, some c) :: surroundings (some c) rest

/-- The places one character after a place of the set, if the character between is accepted. -/
def advance (accept : Char → Bool) (text : List Char) (starts : Places) : Places :=
  false :: List.zipWith (fun b c => b && accept c) starts text

def either (a b : Places) : Places :=
  List.zipWith (· || ·) a b

/-- Adds to a set the places reached from it by ever more steps, until there is nothing new. -/
def saturate (step : Places → Places) : (fuel : Nat) → Places → Places
  | 0, s => s
  | fuel + 1, s =>
    let next := either s (step s)
    if next == s then s else saturate step fuel next

/-- The places reached by exactly `n` steps. -/
def stepTimes (step : Places → Places) : (n : Nat) → Places → Places
  | 0, s => s
  | n + 1, s => if s.contains true then stepTimes step n (step s) else s

/-- The places reached by at most `n` steps from `s`, together with those in `all`. -/
def stepUpTo (step : Places → Places) : (n : Nat) → (s all : Places) → Places
  | 0, _, all => all
  | n + 1, s, all =>
    let next := step s
    if next.contains true then stepUpTo step n next (either all next) else all

/-- The places where a match may end that starts at one of the given places. -/
def ends (text : List Char) : Regex → Places → Places
  | .empty, s => s
  | .chars mode set, s => advance (set.contains mode) text s
  | .look l, s =>
    List.zipWith (fun b (around : Option Char × Option Char) => b && l.holds around.1 around.2) s
      (surroundings none text)
  | .seq a b, s => ends text b (ends text a s)
  | .alt a b, s => either (ends text a s) (ends text b s)
  | .repeated least most a, s =>
    let s := stepTimes (ends text a) least s
    match most with
    | none => saturate (ends text a) (text.length + 1) s
    | some most => stepUpTo (ends text a) (most - least) s s

/-- Whether the expression matches somewhere in a text. -/
def isMatch (r : Regex) (text : String) : Bool :=
  let cs := text.toList
  (ends cs r (List.replicate (cs.length + 1) true)).contains true

end Regex

end Logbook
