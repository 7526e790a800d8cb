set_option autoImplicit false

/-! # Paths of keys

A value inside nested maps is told by the keys that lead to it. -/

namespace Logbook

/-- Values told by their keys, all of them below one more key. -/
def below {α : Type} (key : String) (values : List (List String × α)) :
    List (List String × α) :=
  values.map fun v => (key :: v.1, v.2)

/-- The keys of a path, joined by points. -/
def dotted (path : List String) : String :=
  ".".intercalate path

theorem dotted_singleton (key : String) : dotted [key] = key :=
  String.intercalate_singleton

/-- It does not matter whether two keys have been joined before. -/
theorem dotted_join_cons (outer inner : String) (path : List String) :
    dotted ((outer ++ "." ++ inner) :: path) = dotted (outer :: inner :: path) := by
  rw [dotted, dotted, String.intercalate_cons_append, String.intercalate_cons_cons]

end Logbook
