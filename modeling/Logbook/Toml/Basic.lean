set_option autoImplicit false

/-! # TOML values

The values of a configuration document, and the tables that are built while it is read. A table that
has been defined is not defined again: `Entries.descend` follows the rules on which tables a header
or a dotted key may still extend. -/

namespace Logbook

/-- A value. Times are kept as they are written. -/
inductive Toml where
  | text (s : String)
  | int (n : Int)
  | float (x : Float)
  | bool (b : Bool)
  | time (s : String)
  | arr (items : List Toml)
  | table (entries : List (String × Toml))
  deriving Inhabited

namespace Toml

/-- How a table came about. -/
inductive Origin where
  /-- On the way to another table's header. -/
  | passing
  /-- By a dotted key. -/
  | dotted
  /-- By a header of its own. -/
  | header
  deriving DecidableEq, Repr

/-- What a key stands for while a document is read. -/
inductive Item where
  /-- Anything that is written behind an equals sign. -/
  | value (v : Toml)
  | table (origin : Origin) (entries : List (String × Item))
  /-- Tables under one header in double brackets. -/
  | tables (list : List (List (String × Item)))

/-- Keys with their items, in order. -/
abbrev Entries := List (String × Item)

namespace Entries

def get? (es : Entries) (key : String) : Option Item :=
  (es.find? (·.1 == key)).map (·.2)

/-- Sets the item of a key. -/
def put (es : Entries) (key : String) (item : Item) : Entries :=
  if es.any (·.1 == key) then es.map fun e => if e.1 == key then (key, item) else e
  else es ++ [(key, item)]

/-- Changes the table at a path. Tables that are not there come about on the way; values cannot be
    extended, and a dotted key does not extend a table that has a header. -/
def descend (origin : Origin) (f : Entries → Option Entries) :
    List String → Entries → Option Entries
  | [], es => f es
  | key :: path, es =>
    match es.get? key with
    | none => (descend origin f path []).map fun sub => es.put key (.table origin sub)
    | some (.value _) => none
    | some (.table .header sub) =>
      if origin = .dotted then none
      else (descend origin f path sub).map fun sub => es.put key (.table .header sub)
    | some (.table o sub) => (descend origin f path sub).map fun sub => es.put key (.table o sub)
    | some (.tables list) =>
      (descend origin f path (list.getLast?.getD [])).map fun last =>
        es.put key (.tables (list.dropLast ++ [last]))

/-- Whether the last table on a path is one that dotted keys made, so that they may add to it. -/
def isDotted : List String → Entries → Bool
  | [], _ => true
  | [key], es =>
    match es.get? key with
    | none | some (.table .dotted _) => true
    | _ => false
  | key :: path, es =>
    match es.get? key with
    | some (.table _ sub) => isDotted path sub
    | some (.tables list) => isDotted path (list.getLast?.getD [])
    | _ => true

/-- Adds a value under a key, the last of a dotted path. -/
def addValue (path : List String) (v : Toml) (es : Entries) : Option Entries := do
  let key ← path.getLast?
  if isDotted path.dropLast es then
    descend .dotted
      (fun sub => if (sub.get? key).isSome then none else some (sub.put key (.value v)))
      path.dropLast es
  else none

/-- Defines a table by its header. -/
def addTable (path : List String) (es : Entries) : Option Entries := do
  let key ← path.getLast?
  descend .passing
    (fun sub =>
      match sub.get? key with
      | none => some (sub.put key (.table .header []))
      | some (.table .passing inner) => some (sub.put key (.table .header inner))
      | some _ => none)
    path.dropLast es

/-- Adds a table under a header in double brackets. -/
def addToTables (path : List String) (es : Entries) : Option Entries := do
  let key ← path.getLast?
  descend .passing
    (fun sub =>
      match sub.get? key with
      | none => some (sub.put key (.tables [[]]))
      | some (.tables list) => some (sub.put key (.tables (list ++ [[]])))
      | some _ => none)
    path.dropLast es

mutual

/-- The value that an item comes to. -/
def itemValue : Item → Toml
  | .value v => v
  | .table _ es => .table (entryValues es)
  | .tables list => .arr (tableValues list)

def entryValues : List (String × Item) → List (String × Toml)
  | [] => []
  | (key, item) :: rest => (key, itemValue item) :: entryValues rest

def tableValues : List (List (String × Item)) → List Toml
  | [] => []
  | es :: rest => .table (entryValues es) :: tableValues rest

end

end Entries

end Toml

end Logbook
