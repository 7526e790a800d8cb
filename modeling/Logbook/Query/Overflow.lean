import Logbook.Query.Plan

set_option autoImplicit false

/-! # Overflow

Starts of windows and counts are kept in sixty-four bits. A build without overflow checks lets them
wrap around, and this is the build in whose words plans, topologies and nodes are described. A build
with overflow checks stops at the first product or sum that is out of range. Each function that
computes one, or calls a function that does, has a checked form here, whose outcome is either that
stop or a value. -/

namespace Logbook

/-- What a build with overflow checks stops at. -/
inductive Overflow where
  | add
  | multiply
  deriving DecidableEq, Repr

def Overflow.message : Overflow → String
  | .add => "attempt to add with overflow"
  | .multiply => "attempt to multiply with overflow"

/-- A computation with overflow checks. -/
abbrev Checked (α : Type) := Except Overflow α

/-- A value whose counts fit in sixty-four bits. -/
def Checked.sum {α : Type} (fits : Bool) (value : α) : Checked α :=
  if fits then .ok value else .error .add

/-! ## Windows -/

namespace StatsPipe

/-- The start of the window of `step` nanoseconds that a time lies in. -/
def windowStart? (t : Timestamp) (step : Int64) : Checked Timestamp :=
  let start := t.toInt / step.toInt * step.toInt
  if Int64.minValue.toInt ≤ start ∧ start ≤ Int64.maxValue.toInt then .ok (Int64.ofInt start)
  else .error .multiply

/-- The time and the step of the window that a field puts a row in, if it does. -/
def window? (b : ByField) (row : QueryRow) : Option (Timestamp × Int64) := do
  let step ← b.step
  let t ← row.timestamp
  if b.name = timeName ∧ 0 < step then some (t, step) else none

/-- The part of a row's group that comes from one field. -/
def keyOf? (b : ByField) (row : QueryRow) : Checked String :=
  match window? b row with
  | some (t, step) => (windowStart? t step).map Time.render
  | none => .ok (keyOf b row)

/-- The group a row falls into. -/
def groupKey? (p : StatsPipe) (row : QueryRow) : Checked (List String) :=
  p.groupBy.mapM (keyOf? · row)

end StatsPipe

/-! ## States -/

namespace StatsState

/-- The count in a state. -/
def tally : StatsState → Nat
  | .count n | .avg _ n => n
  | _ => 0

/-- By how much a row raises the count in a state. -/
def gain (s : StatsState) (f : StatsFunc) (row : QueryRow) : Nat :=
  match s with
  | .count _ => if counts f row then 1 else 0
  | .avg .. => (f.numbers row).length
  | _ => 0

end StatsState

namespace PartialStats

/-- Whether the counts in the states of a group still fit when a row is taken in. -/
def takesRow (states : List StatsState) (funcs : List StatsFunc) (row : QueryRow) : Bool :=
  (states.zip funcs).all fun (s, f) => decide (s.tally + s.gain f row < UInt64.size)

/-- Takes a row into the states of its group. -/
def addRow? (p : PartialStats) (pipe : StatsPipe) (row : QueryRow) : Checked PartialStats := do
  let key ← pipe.groupKey? row
  let states := (SortedMap.get? p key).getD (pipe.funcs.map fun f => .initial f.kind)
  .sum (takesRow states pipe.funcs row) (p.addRow pipe row)

/-- Whether the counts of states fit when they are merged one by one. States of different kinds are
    not added, nor are those behind them. -/
def takesStates : List StatsState → List StatsState → Bool
  | a :: as, b :: bs =>
    a.kind != b.kind || (decide (a.tally + b.tally < UInt64.size) && takesStates as bs)
  | _, _ => true

/-- Merges the states of one group into the groups. -/
def mergeGroup? (p : PartialStats) (key : List String) (states : List StatsState) :
    Checked (PartialStats × Option MergeError) :=
  let old := (SortedMap.get? p key).getD []
  .sum (old.length != states.length || takesStates old states) (p.mergeGroup key states)

/-- Merges groups one after the other up to the first that does not fit. -/
def mergeGroups? (p : PartialStats) : List (List String × List StatsState) →
    Checked (PartialStats × Option MergeError)
  | [] => .ok (p, none)
  | (key, states) :: rest => do
    match ← mergeGroup? p key states with
    | (p, some e) => return (p, some e)
    | (p, none) => mergeGroups? p rest

/-- The groups of both results together. -/
def merge? (a b : PartialStats) : Checked (Except MergeError PartialStats) := do
  match ← mergeGroups? a b with
  | (_, some e) => return .error e
  | (p, none) => return .ok p

end PartialStats

/-! ## Facets -/

namespace PartialFacets

/-- How often a value of a field occurs. -/
def hitsOf (fields : SortedMap String (SortedMap String Nat)) (name value : String) : Nat :=
  (((SortedMap.get? fields name).bind (SortedMap.get? · value))).getD 0

/-- Counts the value of a field. -/
def addField? (pipe : FacetsPipe) (fields : SortedMap String (SortedMap String Nat)) (f : Field) :
    Checked (SortedMap String (SortedMap String Nat)) :=
  let hits := hitsOf fields f.name (takeChars f.value pipe.maxValueLength)
  .sum (f.value == "" || f.name == timeName || decide (hits + 1 < UInt64.size))
    (addField pipe fields f)

/-- Counts the fields of a row. -/
def addRow? (p : PartialFacets) (pipe : FacetsPipe) (row : QueryRow) : Checked PartialFacets := do
  let rows ← Checked.sum (decide (p.rows + 1 < UInt64.size)) (addHits p.rows 1)
  return ⟨rows, ← row.fields.foldlM (addField? pipe) p.fields⟩

/-- The counts of both sets of rows together. -/
def merge? (a b : PartialFacets) : Checked PartialFacets :=
  let fits := b.fields.all fun (name, values) =>
    values.all fun (value, hits) => decide (hitsOf a.fields name value + hits < UInt64.size)
  .sum (decide (a.rows + b.rows < UInt64.size) && fits) (a.merge b)

end PartialFacets

/-! ## Queries -/

namespace Pipe

def applied? (p : Pipe) (rows : List QueryRow) : Checked (List QueryRow) :=
  match p with
  | .stats s => do
    return (← rows.foldlM (fun (acc : PartialStats) row => acc.addRow? s row) []).finalize s
  | .facets f => do
    return (← rows.foldlM (fun (acc : PartialFacets) row => acc.addRow? f row) .empty).finalize f
  | p => .ok (p.apply rows)

/-- Sends rows through pipes, one after the other. -/
def appliedAll? (ps : List Pipe) (rows : List QueryRow) : Checked (List QueryRow) :=
  ps.foldlM (fun rows p => p.applied? rows) rows

end Pipe

namespace RemoteQuery

/-- What the terminal pipe makes of the selected rows. -/
def collect? (q : RemoteQuery) (rows : List QueryRow) : Checked PartialResult :=
  match q.terminal with
  | some (.stats s) => do
    return .stats (← rows.foldlM (fun (acc : PartialStats) row => acc.addRow? s row) [])
  | some (.facets f) => do
    return .facets (← rows.foldlM (fun (acc : PartialFacets) row => acc.addRow? f row) .empty)
  | _ => .ok (q.collect rows)

/-- Runs the remote part against a store. -/
def run? (q : RemoteQuery) (s : Storage) : Checked PartialResult :=
  q.collect? ((s.search q.minTime q.maxTime).filterMap q.select?)

end RemoteQuery

namespace PartialResult

/-- The merged groups of partial results. -/
def mergeStats? (acc : PartialStats) : List PartialResult →
    Checked (Except MergeError PartialStats)
  | [] => .ok (.ok acc)
  | .stats groups :: rest => do
    match ← acc.merge? groups with
    | .ok acc => mergeStats? acc rest
    | .error e => return .error e
  | p :: _ => .ok (.error (.kind "stats" p.kindName))

/-- The merged counts of partial results. -/
def mergeFacets? (acc : PartialFacets) : List PartialResult →
    Checked (Except MergeError PartialFacets)
  | [] => .ok (.ok acc)
  | .facets counts :: rest => do mergeFacets? (← acc.merge? counts) rest
  | p :: _ => .ok (.error (.kind "facets" p.kindName))

/-- The rows that the local part starts from. -/
def merge? (terminal : Option Pipe) (partials : List PartialResult) :
    Checked (Except MergeError (List QueryRow)) :=
  match terminal with
  | some (.stats s) => do return (← mergeStats? [] partials).map (·.finalize s)
  | some (.facets f) => do return (← mergeFacets? .empty partials).map (·.finalize f)
  | _ => .ok (merge terminal partials)

end PartialResult

/-- Answers a plan from the partial results of the shards. -/
def Plan.finish? (p : Plan) (partials : List PartialResult) :
    Checked (Except MergeError (List QueryRow)) := do
  match ← PartialResult.merge? p.remote.terminal partials with
  | .ok rows => return .ok (← Pipe.appliedAll? p.locals rows)
  | .error e => return .error e

end Logbook
