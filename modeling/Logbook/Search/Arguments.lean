import Logbook.Http.Form
import Logbook.Search.Run
import Logbook.Text.Quoted

set_option autoImplicit false

/-! # Arguments of queries

What the arguments of a request say about a query. An argument without a value is as good as none,
and of several with one name the first counts; only filters add up. -/

namespace Logbook.Args

/-- The values of an argument that are not empty. -/
def values (args : Args) (name : String) : List String :=
  args.filterMap fun (key, value) => if key == name && value != "" then some value else none

def value? (args : Args) (name : String) : Option String :=
  (args.values name).head?

/-- The failure to read an argument. -/
def unreadable (name value reason : String) : SearchError :=
  .badParam ("cannot parse " ++ name ++ "=" ++ Text.quoted value ++ reason)

/-- Reads the value of an argument that may be missing. -/
def read? {α : Type} (args : Args) (name : String) (read : String → Except SearchError α) :
    Except SearchError (Option α) :=
  match args.value? name with
  | none => .ok none
  | some value => (read value).map some

def time? (args : Args) (name : String) (now : Timestamp) :
    Except SearchError (Option Timestamp) :=
  args.read? name fun value =>
    match Time.parse? value now with
    | some t => .ok t
    | none => .error (unreadable name value "")

def count? (args : Args) (name : String) : Except SearchError (Option Nat) :=
  args.read? name fun value =>
    match Decimal.readUInt64? value with
    | some n => .ok n
    | none => .error (unreadable name value ": want a non-negative integer")

/-- The nanoseconds of a positive duration. -/
def duration? (args : Args) (name : String) : Except SearchError (Option Int64) :=
  args.read? name fun value =>
    match Time.parseDuration? value with
    | some d => if 0 < d then .ok d else .error (unreadable name value "")
    | none => .error (unreadable name value "")

/-- Whether a switch is on: it has a value that does not deny it. -/
def flag (args : Args) (name : String) : Bool :=
  match args.value? name with
  | none => false
  | some value => value != "0" && String.ofList (value.toList.map Char.toLower) != "false"

/-- How long the query may take, in nanoseconds. -/
def timeout (args : Args) (default : Nat) : Except SearchError Nat := do
  return ((← args.duration? "timeout").map fun d => d.toInt.toNat).getD default

/-- Narrows a query by one more filter, itself a query without pipes. -/
def narrow (now : Timestamp) (q : Query) (extra : String) : Except SearchError Query := do
  let other ← (Query.parse extra now).mapError SearchError.parse
  if other.pipes.isEmpty then return q.addFilter other.filter
  else throw (.badParam ("extra_filters=" ++ Text.quoted extra ++ " must not contain pipes"))

/-- The query with its extra filters and the bounds of its times. -/
def query (args : Args) (now : Timestamp) : Except SearchError Query := do
  let some text := args.value? "query" | throw (.badParam "missing \x60query\x60 arg")
  let q ← (Query.parse text now).mapError SearchError.parse
  let q ← (args.values "extra_filters").foldlM (narrow now) q
  let lo ← args.time? "start" now
  let hi ← args.time? "end" now
  return q.addTimeRange (lo.getD Int64.minValue) (hi.getD Int64.maxValue)

end Logbook.Args
