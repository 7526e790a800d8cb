import Logbook.Deflate.Bits

set_option autoImplicit false

/-! # Prefix codes

A code is given by the length of every symbol's code word. Code words of one length are consecutive
numbers in the order of their symbols, and shorter words come before longer ones. -/

namespace Logbook.Deflate

structure PrefixCode where
  /-- How many code words have each length, from one on. -/
  counts : List Nat
  /-- The symbols in the order of their code words. -/
  symbols : Array Nat
  deriving Repr

namespace PrefixCode

/-- The longest code word. -/
def maxLength : Nat := 15

/-- The symbols whose code words have this length. -/
def symbolsOfLength (lengths : List Nat) (length : Nat) : List Nat :=
  (lengths.zipIdx.filter (·.1 == length)).map (·.2)

/-- The code with these lengths of code words; zero for a symbol without one. -/
def ofLengths (lengths : List Nat) : PrefixCode :=
  let groups := (List.range maxLength).map fun n => symbolsOfLength lengths (n + 1)
  ⟨groups.map List.length, groups.flatten.toArray⟩

/-- The share of all words of the longest length that begin with a code word. -/
def covered : (counts : List Nat) → Nat
  | [] => 0
  | count :: rest => count <<< rest.length + covered rest

/-- Whether every sequence of bits begins with exactly one code word. -/
def isComplete (c : PrefixCode) : Bool :=
  covered c.counts == 1 <<< maxLength

/-- Whether there is at most one code word. -/
def isTrivial (c : PrefixCode) : Bool :=
  c.symbols.size ≤ 1

/-- Looks for a code word among those of the lengths that are left: `code` holds the bits read so
    far, `first` is the first word of the length before, doubled, and `index` is how many words were
    shorter. -/
def readFrom (symbols : Array Nat) : (counts : List Nat) → (code first index : Nat) → Bits →
    Except Fault (Nat × Bits)
  | [], _, _, _, _ => .error .corrupt
  | count :: counts, code, first, index, s => do
    let (bit, s) ← s.readBit
    let code := 2 * code + bit
    if code < first + count then return (symbols.getD (index + (code - first)) 0, s)
    else readFrom symbols counts code (2 * (first + count)) (index + count) s

/-- The symbol whose code word comes next. -/
def read (c : PrefixCode) (s : Bits) : Except Fault (Nat × Bits) :=
  readFrom c.symbols c.counts 0 0 0 s

end PrefixCode

end Logbook.Deflate
