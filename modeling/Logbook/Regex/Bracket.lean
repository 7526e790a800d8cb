import Logbook.Regex.Escape

set_option autoImplicit false

/-! # Classes in brackets

A class lists characters, ranges, escapes, named classes between colons and further classes. Members
that stand side by side are joined; `&&`, `--` and `~~` between lists meet, subtract and take what is
in one of both, from left to right and with equal strength. -/

namespace Logbook.Regex

/-- A class with the depth of its nesting. -/
structure SetNode where
  set : ClassSet
  depth : Nat
  deriving Repr

/-- The union of the items of a class, which come last first. -/
def unionOf : List SetNode → SetNode
  | [] => ⟨.empty, 0⟩
  | [n] => n
  | items =>
    ⟨items.foldl (fun acc n => .union n.set acc) .empty,
      1 + items.foldl (fun d n => max d n.depth) 0⟩

/-- The operations on classes. -/
inductive SetOp where
  | inter
  | diff
  | symmDiff
  deriving Repr

/-- Applies the operation that waits for its second side, if there is one. -/
def applyOp (waiting : Option (SetOp × SetNode)) (right : SetNode) : SetNode :=
  match waiting with
  | none => right
  | some (op, left) =>
    let depth := 1 + max left.depth right.depth
    match op with
    | .inter => ⟨.inter left.set right.set, depth⟩
    | .diff => ⟨.diff left.set right.set, depth⟩
    | .symmDiff => ⟨.symmDiff left.set right.set, depth⟩

/-- A single member of a class: an escape or a character. -/
def readClassAtom (f : Flags) : List Char → Option (Atom × List Char)
  | [] => none
  | '\\' :: rest => readEscape f rest
  | c :: rest => some (.literal c false, rest)

/-- Whether a character can stand in a class; over ASCII only ASCII characters and bytes can. -/
def literalAllowed (f : Flags) (c : Char) (byte : Bool) : Bool :=
  f.unicode || byte || c.toNat < 128

def setOfAtom? (f : Flags) : Atom → Option ClassSet
  | .literal c byte => if literalAllowed f c byte then some (.range c c) else none
  | .letter k negated => some (.letter k negated)
  | .property p negated => if f.unicode then some (.property p negated) else none
  | .look _ => none

/-- A class between colons, such as `[:alpha:]`, after its opening bracket. -/
def readPosix? (cs : List Char) : Option (ClassSet × List Char) :=
  match cs with
  | ':' :: rest =>
    let (negated, rest) := match rest with
      | '^' :: rest => (true, rest)
      | rest => (false, rest)
    let name := rest.takeWhile (· ≠ ':')
    match rest.drop name.length with
    | ':' :: ']' :: after =>
      (Posix.all.find? (·.name == String.ofList name)).map fun k => (.posix k negated, after)
    | _ => none
  | _ => none

/-- A member of a class or a range of characters. -/
def readClassRange (f : Flags) (cs : List Char) : Option (ClassSet × List Char) := do
  let (first, rest) ← readClassAtom f cs
  match skipBlanks f.verbose rest with
  | [] => none
  | '-' :: after =>
    let next := peekBlanks? f.verbose after
    if next = some ']' ∨ next = some '-' then
      return (← setOfAtom? f first, '-' :: after)
    else
      let (second, rest) ← readClassAtom f (skipBlanks f.verbose after)
      match first, second with
      | .literal lo b, .literal hi b' =>
        if lo ≤ hi ∧ literalAllowed f lo b ∧ literalAllowed f hi b' then
          return (.range lo hi, rest)
        else none
      | _, _ => none
  | rest => return (← setOfAtom? f first, rest)

/-- The opening of a class after its bracket: whether it is negated, the hyphens or the bracket that
    are members because they come first, and the rest. -/
def readClassOpen (verbose : Bool) (cs : List Char) : Bool × List SetNode × List Char :=
  let cs := skipBlanks verbose cs
  let (negated, cs) := match cs with
    | '^' :: rest => (true, skipBlanks verbose rest)
    | cs => (false, cs)
  let (hyphens, cs) := hyphensOf cs.length cs
  match hyphens, cs with
  | 0, ']' :: rest => (negated, [⟨.range ']' ']', 0⟩], skipBlanks verbose rest)
  | n, cs => (negated, List.replicate n ⟨.range '-' '-', 0⟩, cs)
where
  hyphensOf : (fuel : Nat) → List Char → Nat × List Char
    | 0, cs => (0, cs)
    | fuel + 1, '-' :: rest =>
      let (n, rest) := hyphensOf fuel (skipBlanks verbose rest)
      (n + 1, rest)
    | _, cs => (0, cs)

/-- Reads a class after its opening up to its closing bracket. `items` are the members since the
    last operation, last first. -/
def readClassBody (f : Flags) : (fuel : Nat) → (waiting : Option (SetOp × SetNode)) →
    (items : List SetNode) → List Char → Option (SetNode × List Char)
  | 0, _, _, _ => none
  | fuel + 1, waiting, items, cs =>
    match skipBlanks f.verbose cs with
    | [] => none
    | '[' :: rest =>
      match readPosix? rest with
      | some (set, rest) => readClassBody f fuel waiting (⟨set, 0⟩ :: items) rest
      | none => do
        let (negated, first, rest) := readClassOpen f.verbose rest
        let (inner, rest) ← readClassBody f fuel none first rest
        readClassBody f fuel waiting (⟨.bracket negated inner.set, 1 + inner.depth⟩ :: items) rest
    | ']' :: rest => some (applyOp waiting (unionOf items), rest)
    | '&' :: '&' :: rest =>
      readClassBody f fuel (some (.inter, applyOp waiting (unionOf items))) [] rest
    | '-' :: '-' :: rest =>
      readClassBody f fuel (some (.diff, applyOp waiting (unionOf items))) [] rest
    | '~' :: '~' :: rest =>
      readClassBody f fuel (some (.symmDiff, applyOp waiting (unionOf items))) [] rest
    | cs => do
      let (set, rest) ← readClassRange f cs
      readClassBody f fuel waiting (⟨set, 0⟩ :: items) rest

end Logbook.Regex
