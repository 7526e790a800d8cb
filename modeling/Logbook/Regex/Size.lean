import Logbook.Regex.Basic

set_option autoImplicit false

/-! # The size of an expression

What the automaton of an expression takes in memory, of which an expression may take ten megabytes.
The size is an estimate: a repetition costs as much as its copies. -/

namespace Logbook.Regex

/-- Largest size of an expression in bytes of its automaton. -/
def sizeLimit : Nat := 10485760

/-- Bytes that one character of a class takes in the automaton: a state for each byte of a single
    character, and more for a class that spans many. -/
def ClassSet.size (m : ClassMode) : ClassSet → Nat
  | .empty => 32
  | .range lo hi => if lo = hi then 32 * lo.utf8Size else if hi.toNat < 128 then 32 else 320
  | .letter .digit _ => if m.unicode then 6000 else 40
  | .letter .space _ => if m.unicode then 700 else 64
  | .letter .word _ => if m.unicode then 55000 else 64
  | .posix _ _ => 64
  | .property _ _ => 20000
  | .union a b => a.size m + b.size m
  | .inter a b => a.size m + b.size m
  | .diff a b => a.size m + b.size m
  | .symmDiff a b => a.size m + b.size m
  | .bracket negated a => a.size m + if negated then 320 else 0

/-- Bytes that the automaton of an expression takes. -/
def size : Regex → Nat
  | .empty => 0
  | .chars m set => set.size m
  | .look _ => 32
  | .seq a b => a.size + b.size
  | .alt a b => a.size + b.size + 32
  | .repeated least most a =>
    match most with
    | none => (max least 1) * a.size + 32
    | some most => least * a.size + (most - least) * (a.size + 32)

end Logbook.Regex
