import Logbook.Regex.Bracket
import Logbook.Regex.Group
import Logbook.Regex.Size

set_option autoImplicit false

/-! # Reading regular expressions

The syntax has groups, alternation, counted and uncounted repetition, classes with set operations,
escapes and flags. There are no references to groups and no patterns that look ahead or behind.
Flags are resolved while reading, so that an expression says by itself what it matches. A pattern
may be nested 250 levels deep. -/

namespace Logbook.Regex

/-- Why a text is not an expression. -/
inductive Error where
  | invalid
  | tooLarge
  deriving DecidableEq, Repr

def Error.message : Error → String
  | .invalid => "regex parse error"
  | .tooLarge => s!"Compiled regex exceeds size limit of {sizeLimit} bytes."

/-! ## Items -/

/-- An expression with the depth of its nesting. -/
structure Node where
  regex : Regex
  depth : Nat
  /-- Whether this is a setting of flags, which cannot be repeated. -/
  isFlags : Bool := false
  deriving Repr

/-- Whether a class over ASCII is one: it has no member beyond. -/
def isAsciiSet (f : Flags) (set : ClassSet) : Bool :=
  (List.range 128).all fun i => !set.contains f.mode (Char.ofNat (128 + i))

/-- The expression for one character of a class. -/
def nodeOfSet? (f : Flags) (set : ClassSet) (depth : Nat) : Option Node :=
  if f.unicode || isAsciiSet f set then some ⟨.chars f.mode set, depth, false⟩ else none

def nodeOfAtom? (f : Flags) : Atom → Option Node
  | .literal c byte =>
    if !f.unicode && byte && 128 ≤ c.toNat then none
    else some ⟨.chars f.mode (.bracket false (.range c c)), 0, false⟩
  | .letter k negated => nodeOfSet? f (.letter k negated) 0
  | .property p negated => if f.unicode then nodeOfSet? f (.property p negated) 0 else none
  | .look l => some ⟨.look l, 0, false⟩

/-- Any character, or any but those that end a line. -/
def nodeOfDot? (f : Flags) : Option Node :=
  let lineEnds : ClassSet :=
    if f.dotAll then .empty
    else if f.crlf then .union (.range '\r' '\r') (.range '\n' '\n')
    else .range '\n' '\n'
  if f.unicode then some ⟨.chars ⟨true, false⟩ (.bracket true lineEnds), 0, false⟩ else none

/-- The items of a sequence, which come last first, as one expression. -/
def sequenceOf : List Node → Node
  | [] => ⟨.empty, 0, false⟩
  | [n] => { n with isFlags := false }
  | items =>
    ⟨items.foldl (fun acc n => .seq n.regex acc) .empty,
      1 + items.foldl (fun d n => max d n.depth) 0, false⟩

/-- The branches of an alternation, which come last first, as one expression. -/
def alternationOf : List Node → Node
  | [] => ⟨.empty, 0, false⟩
  | [n] => n
  | n :: rest =>
    ⟨rest.foldl (fun acc n => .alt n.regex acc) n.regex,
      1 + rest.foldl (fun d n => max d n.depth) n.depth, false⟩

/-- Repeats the last item. -/
def repeatLast (least : Nat) (most : Option Nat) : List Node → Option (List Node)
  | [] => none
  | n :: rest =>
    if n.isFlags then none else some (⟨.repeated least most n.regex, n.depth + 1, false⟩ :: rest)

/-! ## Counts -/

/-- A count with white space around it. -/
def readCount (verbose : Bool) (cs : List Char) : Option (Nat × List Char) :=
  let cs := cs.dropWhile Text.isBlank
  let rec digits : (fuel value count : Nat) → List Char → Nat × Nat × List Char
    | 0, value, count, cs => (value, count, cs)
    | _, value, count, [] => (value, count, [])
    | fuel + 1, value, count, c :: rest =>
      if Text.isAsciiDigit c then
        digits fuel (value * 10 + (c.toNat - 48)) (count + 1) (skipBlanks verbose rest)
      else (value, count, c :: rest)
  let (value, count, rest) := digits cs.length 0 0 cs
  if count = 0 ∨ UInt32.size ≤ value then none
  else some (value, skipBlanks verbose (rest.dropWhile Text.isBlank))

/-- A question mark, which makes a repetition lazy, if there is one. -/
def dropLazy : List Char → List Char
  | '?' :: rest => rest
  | cs => cs

/-- The counts of a repetition after its opening brace. -/
def readCounts (verbose : Bool) (cs : List Char) : Option (Nat × Option Nat × List Char) := do
  let (least, rest) ← readCount verbose (skipBlanks verbose cs)
  let (most, rest) ← match rest with
    | ',' :: rest =>
      match skipBlanks verbose rest with
      | '}' :: rest => some (none, '}' :: rest)
      | rest => (readCount verbose rest).map fun (n, rest) => (some n, rest)
    | rest => some (some least, rest)
  match rest with
  | '}' :: rest =>
    if most.any (· < least) then none
    else return (least, most, dropLazy (skipBlanks verbose rest))
  | _ => none

/-! ## Sequences and alternatives -/

mutual

/-- Reads alternatives up to the end of the group or the pattern. -/
def readAlternation : (fuel : Nat) → (branches : List Node) → State → Option (Node × State)
  | 0, _, _ => none
  | fuel + 1, branches, s => do
    let (n, s) ← readSequence fuel [] s
    match s.rest with
    | '|' :: rest => readAlternation fuel (n :: branches) { s with rest }
    | _ => return (alternationOf (n :: branches), s)

/-- Reads items up to a vertical bar, the end of the group or the end of the pattern. -/
def readSequence : (fuel : Nat) → (items : List Node) → State → Option (Node × State)
  | 0, _, _ => none
  | fuel + 1, items, s =>
    let f := s.flags
    match skipBlanks f.verbose s.rest with
    | [] => some (sequenceOf items, { s with rest := [] })
    | '|' :: rest => some (sequenceOf items, { s with rest := '|' :: rest })
    | ')' :: rest => some (sequenceOf items, { s with rest := ')' :: rest })
    | '(' :: rest => do
      match ← readGroupOpen s rest with
      | .flags s => readSequence fuel (⟨.empty, 0, true⟩ :: items) s
      | .group inner =>
        let (n, after) ← readAlternation fuel [] inner
        match after.rest with
        | ')' :: rest =>
          readSequence fuel (⟨n.regex, n.depth + 1, false⟩ :: items) { after with rest, flags := f }
        | _ => none
    | '[' :: rest => do
      let (negated, first, rest) := readClassOpen f.verbose rest
      let (inner, rest) ← readClassBody f (2 * rest.length + 2) none first rest
      let n ← nodeOfSet? f (.bracket negated inner.set) (inner.depth + 1)
      readSequence fuel (n :: items) { s with rest }
    | '?' :: rest => do
      readSequence fuel (← repeatLast 0 (some 1) items) { s with rest := dropLazy rest }
    | '*' :: rest => do
      readSequence fuel (← repeatLast 0 none items) { s with rest := dropLazy rest }
    | '+' :: rest => do
      readSequence fuel (← repeatLast 1 none items) { s with rest := dropLazy rest }
    | '{' :: rest => do
      let (least, most, rest) ← readCounts f.verbose rest
      readSequence fuel (← repeatLast least most items) { s with rest }
    | '\\' :: rest => do
      let (a, rest) ← readEscape f rest
      readSequence fuel ((← nodeOfAtom? f a) :: items) { s with rest }
    | '.' :: rest => do readSequence fuel ((← nodeOfDot? f) :: items) { s with rest }
    | '^' :: rest =>
      let l := if f.multiLine then Look.lineStart f.crlf else .textStart
      readSequence fuel (⟨.look l, 0, false⟩ :: items) { s with rest }
    | '$' :: rest =>
      let l := if f.multiLine then Look.lineEnd f.crlf else .textEnd
      readSequence fuel (⟨.look l, 0, false⟩ :: items) { s with rest }
    | c :: rest => do
      readSequence fuel ((← nodeOfAtom? f (.literal c false)) :: items) { s with rest }

end

/-- Levels of nesting that a pattern may have. -/
def nestLimit : Nat := 250

/-- The expression that a pattern stands for. -/
def parse (pattern : String) : Except Error Regex :=
  let cs := pattern.toList
  match readAlternation (2 * cs.length + 2) [] ⟨cs, {}, []⟩ with
  | none => .error .invalid
  | some (n, s) =>
    if !s.rest.isEmpty || nestLimit < n.depth then .error .invalid
    else if sizeLimit < n.regex.size then .error .tooLarge
    else .ok n.regex

end Logbook.Regex
