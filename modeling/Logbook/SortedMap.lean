set_option autoImplicit false

/-! # Sorted maps

A finite map as the list of its entries in the order of their keys, each key once. Two such lists
with the same value at every key are equal. -/

namespace Logbook

/-- Entries in the order of their keys. -/
abbrev SortedMap (α β : Type) := List (α × β)

namespace SortedMap

variable {α β : Type} [Ord α]

/-- The value at a key. -/
def get? (m : SortedMap α β) (key : α) : Option β :=
  match m with
  | [] => none
  | (k, v) :: rest => if compare key k = .eq then some v else get? rest key

/-- Replaces the value at a key by a function of the value that was there, if any. -/
def alter (m : SortedMap α β) (key : α) (f : Option β → β) : SortedMap α β :=
  match m with
  | [] => [(key, f none)]
  | (k, v) :: rest =>
    match compare key k with
    | .lt => (key, f none) :: (k, v) :: rest
    | .eq => (k, f (some v)) :: rest
    | .gt => (k, v) :: alter rest key f

/-- Gives a key a value. -/
def insert (m : SortedMap α β) (key : α) (value : β) : SortedMap α β :=
  alter m key fun _ => value

/-- The value at a key that has a value in one map or in both. -/
def combined (combine : β → β → β) (value : β) : Option β → β
  | some old => combine old value
  | none => value

/-- Adds every entry of the second map to the first, combining the values of keys in both. -/
def merge (combine : β → β → β) (a b : SortedMap α β) : SortedMap α β :=
  b.foldl (fun m (key, value) => alter m key (combined combine value)) a

end SortedMap

end Logbook
