import Logbook.Http.Message
import Logbook.Search.Arguments
import Logbook.Search.FacetGroups
import Logbook.Search.Series

set_option autoImplicit false

/-! # Searches

The four searches that a node offers: rows, facets, statistics at a time and statistics over a
range. Each turns the arguments of a request into a query, runs it on the topology and renders the
rows it comes to. -/

namespace Logbook

/-- A search that a node offers. -/
inductive SearchKind where
  | rows
  | facets
  | statsAt
  | statsOver
  deriving DecidableEq, Repr

/-- A search ready to run. -/
structure SearchPlan where
  query : Query
  /-- Nanoseconds that the query may take. -/
  timeout : Nat
  render : List QueryRow → Http.Response

namespace SearchPlan

/-- The type of a response that is one JSON value. -/
def jsonType : String := "application/json"

/-- The type of a response of JSON lines. -/
def linesType : String := "application/stream+json"

def ofJson (v : Json) : Http.Response :=
  .ofTyped jsonType v.render

/-- Rows as JSON lines. -/
def renderRows (rows : List QueryRow) : Http.Response :=
  .ofTyped linesType (String.join (rows.map fun row => row.toJsonLine ++ "\n"))

/-- The layout of the query's last statistics. -/
def layout (q : Query) : Except SearchError SampleLayout :=
  match q.lastStats? with
  | some s => .ok (.ofStats s)
  | none => .error missing
where
  missing : SearchError := .badParam "the query must contain a stats pipe"

/-- The rows of the query, as many as asked for. -/
def rows (args : Args) (now : Timestamp) (timeout : Nat) : Except SearchError SearchPlan := do
  let q ← args.query now
  let limit ← args.count? "limit"
  return {
    query := { q with pipes := q.pipes ++ (limit.map Pipe.limit).toList }
    timeout := ← args.timeout timeout
    render := renderRows }

/-- The facets of the rows that the query comes to. -/
def facets (args : Args) (now : Timestamp) (timeout : Nat) : Except SearchError SearchPlan := do
  let q ← args.query now
  let default : FacetsPipe := {}
  let pipe : FacetsPipe := {
    limit := (← args.count? "limit").getD default.limit
    maxValuesPerField := (← args.count? "max_values_per_field").getD default.maxValuesPerField
    maxValueLength := (← args.count? "max_value_len").getD default.maxValueLength
    keepConstFields := args.flag "keep_const_fields" }
  return {
    query := { q with pipes := q.pipes ++ [.facets pipe] }
    timeout := ← args.timeout timeout
    render := fun rows => ofJson (FacetGroup.listToJson (FacetGroup.ofRows rows)) }

/-- The statistics of all rows up to a time. -/
def statsAt (args : Args) (now : Timestamp) (timeout : Nat) : Except SearchError SearchPlan := do
  let time := (← args.time? "time" now).getD now
  let q := (← args.query now).addTimeRange Int64.minValue time
  let l ← layout q
  return {
    query := q
    timeout := ← args.timeout timeout
    render := fun rows => ofJson <| Series.listToJson "vector" <|
      (rows.flatMap l.samples).map (Series.sampleToJson time) }

/-- The time step unless another one is asked for: a minute. -/
def defaultStep : Int64 := 60000000000

/-- The statistics of the rows of each time step. -/
def statsOver (args : Args) (now : Timestamp) (timeout : Nat) : Except SearchError SearchPlan := do
  let step := (← args.duration? "step").getD defaultStep
  let q ← args.query now
  let q := if (args.value? "end").isNone then q.addTimeRange Int64.minValue now else q
  let some q := q.mapLastStats? (·.setTimeStep step) | throw layout.missing
  let l ← layout q
  return {
    query := q
    timeout := ← args.timeout timeout
    render := fun rows => ofJson <| Series.listToJson "matrix" <|
      (Series.ofRows l rows).map (·.toJson) }

/-- The search that arguments ask for. -/
def ofArgs : SearchKind → Args → Timestamp → (timeout : Nat) → Except SearchError SearchPlan
  | .rows => rows
  | .facets => facets
  | .statsAt => statsAt
  | .statsOver => statsOver

/-- Runs the search on a topology. -/
def run {σ : Type} (p : SearchPlan) (t : Topology σ) : Search σ Http.Response := do
  return p.render (← p.query.run t p.timeout)

end SearchPlan

end Logbook
