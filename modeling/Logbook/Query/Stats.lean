import Logbook.SortedMap
import Logbook.Query.Row

set_option autoImplicit false

/-! # Statistics

Rows fall into groups by some of their fields, and each function keeps one state for each group.
States of different sets of rows are merged into the state of all of them, so that the rows may be
spread over any number of nodes. Products and sums that do not fit in sixty-four bits wrap around
here; what a build does that checks them is told in `Logbook.Query.Overflow`. -/

namespace Logbook

/-! ## Functions -/

inductive StatsKind where
  | count | countUniq | sum | min | max | avg
  deriving DecidableEq, Repr

namespace StatsKind

def name : StatsKind → String
  | .count => "count"
  | .countUniq => "count_uniq"
  | .sum => "sum"
  | .min => "min"
  | .max => "max"
  | .avg => "avg"

def all : List StatsKind := [.count, .countUniq, .sum, .min, .max, .avg]

/-- The function of that name, in any case. -/
def ofName? (name : String) : Option StatsKind :=
  let name := String.ofList (name.toList.map Char.toLower)
  all.find? (·.name == name)

end StatsKind

/-- A function over fields, or over whole rows if there are none, and the name of its result. -/
structure StatsFunc where
  kind : StatsKind
  fields : List String
  result : String
  deriving DecidableEq, Repr

namespace StatsFunc

/-- The function with these arguments, under its own text as name. A star stands for no field. -/
def ofArgs (kind : StatsKind) (args : List String) : StatsFunc :=
  let fields := args.filter (· != "*")
  let shown := if fields.isEmpty then "*" else String.intercalate ", " fields
  { kind, fields, result := kind.name ++ "(" ++ shown ++ ")" }

/-- The number a value stands for, if it is finite. -/
def finite? (value : String) : Option Float :=
  match Decimal.read? (Text.trim value) with
  | some x => if x.isFinite then some x else none
  | none => none

/-- The numbers that a row has in the fields of the function. -/
def numbers (f : StatsFunc) (row : QueryRow) : List Float :=
  (f.fields.filterMap row.get?).filterMap finite?

end StatsFunc

/-- A field to group by; `step` cuts time into windows of that many nanoseconds. -/
structure ByField where
  name : String
  step : Option Int64
  deriving DecidableEq, Repr

/-- Functions over the groups of rows. -/
structure StatsPipe where
  groupBy : List ByField
  funcs : List StatsFunc
  deriving DecidableEq, Repr

namespace StatsPipe

/-- The start of the window of `step` nanoseconds that a time lies in. It wraps around where there is
    no such time, as it does in a build without overflow checks. -/
def windowStart (t : Timestamp) (step : Int64) : Timestamp :=
  Int64.ofInt (t.toInt / step.toInt * step.toInt)

/-- The part of a row's group that comes from one field. -/
def keyOf (b : ByField) (row : QueryRow) : String :=
  match b.step with
  | some step =>
    if b.name = timeName ∧ 0 < step then
      match row.timestamp with
      | some t => Time.render (windowStart t step)
      | none => ""
    else row.value b.name
  | none => row.value b.name

/-- The group a row falls into. -/
def groupKey (p : StatsPipe) (row : QueryRow) : List String :=
  p.groupBy.map (keyOf · row)

/-- Groups by windows of time first, and by the other fields as before. -/
def setTimeStep (p : StatsPipe) (step : Int64) : StatsPipe :=
  { p with groupBy := ⟨timeName, some step⟩ :: p.groupBy.filter (·.name != timeName) }

end StatsPipe

/-! ## States -/

/-- Why partial results cannot be combined. -/
inductive MergeError where
  | kind (want got : String)
  | state (want got : StatsKind)
  | arity (want got : Nat)
  deriving DecidableEq, Repr

def MergeError.message : MergeError → String
  | .kind want got => s!"cannot merge a {got} partial result into a {want} result"
  | .state want got => s!"cannot merge a {got.name} stats state into a {want.name} stats state"
  | .arity want got => s!"stats group has {got} states, expected {want}"

/-- What a function remembers of the rows of a group. -/
inductive StatsState where
  | count (n : Nat)
  /-- The distinct values, in order. -/
  | countUniq (values : SortedMap (List String) Unit)
  | sum (x : Option Float)
  | min (x : Option Float)
  | max (x : Option Float)
  | avg (total : Float) (n : Nat)
  deriving Inhabited

namespace StatsState

/-- Counts are kept in sixty-four bits. A sum wraps around, as it does in a build without overflow
    checks. -/
def addCounts (a b : Nat) : Nat :=
  (a + b) % UInt64.size

/-- The lesser of two numbers; a number that is none gives way. -/
def lesser (x y : Float) : Float :=
  if x.isNaN then y else if y < x then y else x

/-- The greater of two numbers; a number that is none gives way. -/
def greater (x y : Float) : Float :=
  if x.isNaN then y else if y > x then y else x

/-- The state before any row. -/
def initial : StatsKind → StatsState
  | .count => .count 0
  | .countUniq => .countUniq []
  | .sum => .sum none
  | .min => .min none
  | .max => .max none
  | .avg => .avg 0.0 0

def kind : StatsState → StatsKind
  | .count _ => .count
  | .countUniq _ => .countUniq
  | .sum _ => .sum
  | .min _ => .min
  | .max _ => .max
  | .avg _ _ => .avg

/-- Combines with a number if there is one already. -/
def combine (f : Float → Float → Float) : Option Float → Option Float → Option Float
  | some x, some y => some (f x y)
  | x, none => x
  | none, y => y

def insertValue (values : SortedMap (List String) Unit) (v : List String) :
    SortedMap (List String) Unit :=
  SortedMap.insert values v ()

/-- What a row counts as among distinct values: the values of the fields, or everything in it. -/
def uniqueKey (f : StatsFunc) (row : QueryRow) : List String :=
  if f.fields.isEmpty then row.fields.map fun g => g.name ++ "=" ++ g.value
  else f.fields.map row.value

/-- Whether a row counts: if one of the fields has a value, or at all if there are no fields. -/
def counts (f : StatsFunc) (row : QueryRow) : Bool :=
  f.fields.isEmpty || f.fields.any (fun name => row.value name != "")

/-- Takes a row into the state. -/
def add (s : StatsState) (f : StatsFunc) (row : QueryRow) : StatsState :=
  match s with
  | .count n =>
    if counts f row then .count (addCounts n 1) else .count n
  | .countUniq values =>
    let key := uniqueKey f row
    if key.any (· != "") then .countUniq (insertValue values key) else .countUniq values
  | .sum x => .sum ((f.numbers row).foldl (fun x v => some (x.getD 0.0 + v)) x)
  | .min x => .min ((f.numbers row).foldl (fun x v => combine lesser x (some v)) x)
  | .max x => .max ((f.numbers row).foldl (fun x v => combine greater x (some v)) x)
  | .avg total n =>
    let numbers := f.numbers row
    .avg (numbers.foldl (· + ·) total) (addCounts n numbers.length)

/-- The state of the rows of both states together. -/
def merge (a b : StatsState) : Except MergeError StatsState :=
  match a, b with
  | .count n, .count m => .ok (.count (addCounts n m))
  | .countUniq vs, .countUniq ws =>
    .ok (.countUniq (SortedMap.merge (fun _ _ => ()) vs ws))
  | .sum x, .sum y => .ok (.sum (combine (· + ·) x y))
  | .min x, .min y => .ok (.min (combine lesser x y))
  | .max x, .max y => .ok (.max (combine greater x y))
  | .avg s n, .avg t m => .ok (.avg (s + t) (addCounts n m))
  | a, b => .error (.state a.kind b.kind)

/-- Numbers below this bound that are whole are written without a point. -/
def wholeBound : Float := 1e15

/-- The text of a number. -/
def renderNumber (x : Float) : String :=
  if x.isFinite && x == x.floor && x.abs < wholeBound then toString (Decimal.toInt64 x).toInt
  else Decimal.Layout.plain.render x

/-- The text of the result. -/
def render : StatsState → String
  | .count n => toString n
  | .countUniq values => toString values.length
  | .sum x | .min x | .max x => (x.map renderNumber).getD "NaN"
  | .avg total n =>
    if n = 0 then "NaN" else renderNumber (total / (UInt64.ofNat n).toFloat)

end StatsState

/-! ## Groups -/

/-- The states of every group, in the order of the groups. -/
abbrev PartialStats := SortedMap (List String) (List StatsState)

namespace PartialStats

/-- Takes a row into each state of a group. -/
def addToStates : List StatsState → List StatsFunc → QueryRow → List StatsState
  | s :: states, f :: funcs, row => s.add f row :: addToStates states funcs row
  | states, _, _ => states

/-- Takes a row into the states of its group. -/
def addRow (p : PartialStats) (pipe : StatsPipe) (row : QueryRow) : PartialStats :=
  SortedMap.alter p (pipe.groupKey row) fun states =>
    addToStates (states.getD (pipe.funcs.map fun f => .initial f.kind)) pipe.funcs row

/-- Merges states one by one. Those before the first that does not fit are merged all the same. -/
def mergeStates : List StatsState → List StatsState → List StatsState × Option MergeError
  | a :: as, b :: bs =>
    match a.merge b with
    | .error e => (a :: as, some e)
    | .ok s =>
      let (rest, e) := mergeStates as bs
      (s :: rest, e)
  | as, _ => (as, none)

/-- Merges the states of one group into the groups. -/
def mergeGroup (p : PartialStats) (key : List String) (states : List StatsState) :
    PartialStats × Option MergeError :=
  match SortedMap.get? p key with
  | none => (SortedMap.insert p key states, none)
  | some old =>
    if old.length ≠ states.length then (p, some (.arity old.length states.length))
    else
      let (merged, e) := mergeStates old states
      (SortedMap.insert p key merged, e)

/-- Merges groups one after the other up to the first that does not fit. -/
def mergeGroups (p : PartialStats) : List (List String × List StatsState) →
    PartialStats × Option MergeError
  | [] => (p, none)
  | (key, states) :: rest =>
    match mergeGroup p key states with
    | (p, some e) => (p, some e)
    | (p, none) => mergeGroups p rest

/-- The groups of both results together. -/
def merge (a b : PartialStats) : Except MergeError PartialStats :=
  match mergeGroups a b with
  | (_, some e) => .error e
  | (p, none) => .ok p

/-- The row of one group: its key, then the results. -/
def renderGroup (pipe : StatsPipe) (key : List String) (states : List StatsState) : QueryRow where
  timestamp := (pipe.groupBy.zip key).foldl
    (fun t (b, k) => if b.name = timeName then Time.parse? k 0 else t) none
  fields := (pipe.groupBy.zip key).map (fun (b, k) => ⟨b.name, k⟩)
    ++ (pipe.funcs.zip states).map fun (f, s) => ⟨f.result, s.render⟩

/-- One row for each group. Without fields to group by there is a row even for no rows at all. -/
def finalize (p : PartialStats) (pipe : StatsPipe) : List QueryRow :=
  if p.isEmpty && pipe.groupBy.isEmpty then
    [renderGroup pipe [] (pipe.funcs.map fun f => .initial f.kind)]
  else p.map fun (key, states) => renderGroup pipe key states

end PartialStats

end Logbook
