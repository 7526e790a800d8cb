import Logbook.Decimal.Layout

set_option autoImplicit false

/-! # JSON values

Values keep the members of an object in the order in which they were written, repeated keys
included. Whole numbers and other numbers are told apart: a whole number is exact, any other number
is a double. -/

namespace Logbook

inductive Json where
  | null
  | bool (b : Bool)
  | int (n : Int)
  | float (x : Float)
  | str (s : String)
  | arr (items : List Json)
  | obj (members : List (String × Json))
  deriving Inhabited

namespace Json

/-- The items of an array. -/
def items? : Json → Option (List Json)
  | .arr items => some items
  | _ => none

/-- The members of an object. -/
def members? : Json → Option (List (String × Json))
  | .obj members => some members
  | _ => none

/-- Writes a member into an object: over the value of the first member with that key, else at the
    end. -/
def putMember {α : Type} : List (String × α) → String → α → List (String × α)
  | [], key, value => [(key, value)]
  | (k, v) :: rest, key, value =>
    if k = key then (k, value) :: rest else (k, v) :: putMember rest key value

/-- The value of the first member with that key. -/
def member? {α : Type} (members : List (String × α)) (key : String) : Option α :=
  (members.find? (·.1 == key)).map (·.2)

mutual

/-- The value with the repeated keys of every object resolved: first position, last value. -/
def resolve : Json → Json
  | .arr items => .arr (resolveItems items)
  | .obj members => .obj (resolveMembers members [])
  | v => v

def resolveItems : List Json → List Json
  | [] => []
  | v :: rest => resolve v :: resolveItems rest

/-- Puts the members, resolved, into the object `out`. -/
def resolveMembers : List (String × Json) → (out : List (String × Json)) → List (String × Json)
  | [], out => out
  | (key, v) :: rest, out => resolveMembers rest (putMember out key (resolve v))

end

end Json

end Logbook
