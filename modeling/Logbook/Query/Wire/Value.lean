import Logbook.Json.Basic
import Logbook.Time.Instant

set_option autoImplicit false

/-! # Values in messages between nodes

Reading takes the members of an object in any order and ignores those it does not know, but refuses
a known member that is repeated; it also takes the members as an array in their order. A choice is
its name as a text, or an object whose one member has that name. -/

namespace Logbook

namespace Wire

/-! ## Reading values -/

/-- The members of a value with these names, given as an object or as an array. The last `optional`
    names need not be there. -/
def members? (names : List String) (optional : Nat) : Json → Option (List (String × Json))
  | .obj ms => some ms
  | .arr vs =>
    if vs.length ≤ names.length ∧ names.length ≤ vs.length + optional then some (names.zip vs)
    else none
  | _ => none

/-- The value of a member that must be there once. -/
def required? {α : Type} (ms : List (String × α)) (key : String) : Option α :=
  match ms.filter (·.1 == key) with
  | [(_, v)] => some v
  | _ => none

/-- The value of a member that may be there once: `null` if it is not. -/
def optional? (ms : List (String × Json)) (key : String) : Option Json :=
  match ms.filter (·.1 == key) with
  | [] => some .null
  | [(_, v)] => some v
  | _ => none

def text? : Json → Option String
  | .str s => some s
  | _ => none

def bool? : Json → Option Bool
  | .bool b => some b
  | _ => none

/-- A count of sixty-four bits. -/
def count? : Json → Option Nat
  | .int n => if 0 ≤ n ∧ n < UInt64.size then some n.toNat else none
  | _ => none

def time? : Json → Option Int64
  | .int n => Time.ofInt? n
  | _ => none

/-- The double nearest to a whole number of sixty-four bits. -/
def floatOfInt (n : Int) : Float :=
  if 0 ≤ n then (UInt64.ofNat n.toNat).toFloat else (Int64.ofInt n).toFloat

def float? : Json → Option Float
  | .int n => some (floatOfInt n)
  | .float x => some x
  | _ => none

/-- A value or `null`. -/
def nullable? {α : Type} (read : Json → Option α) : Json → Option (Option α)
  | .null => some none
  | v => (read v).map some

def list? {α : Type} (read : Json → Option α) : Json → Option (List α)
  | .arr vs => vs.mapM read
  | _ => none

/-- The name of a choice that carries no value. -/
def choice? : Json → Option String
  | .str s => some s
  | .obj [(s, .null)] => some s
  | _ => none

/-- The name of a choice that carries no value, inside a tagged value, where an empty object counts
    as no value too. -/
def innerChoice? : Json → Option String
  | .obj [(s, .obj [])] => some s
  | v => choice? v

/-! ## Writing values -/

def ofTime (t : Int64) : Json := .int t.toInt

def ofCount (n : Nat) : Json := .int n

/-- A number; one that is not finite has no form. -/
def ofFloat (x : Float) : Json :=
  if x.isFinite then .float x else .null

def ofTexts (ss : List String) : Json := .arr (ss.map .str)

/-- A member that is left out if it has no value. -/
def optionalMember {α : Type} (key : String) (write : α → Json) :
    Option α → List (String × Json)
  | some x => [(key, write x)]
  | none => []

end Wire

end Logbook
