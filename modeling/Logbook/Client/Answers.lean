import Logbook.Client.Table
import Logbook.Decimal.Layout
import Logbook.Json.Writer
import Logbook.Query.Wire.Value

set_option autoImplicit false

/-! # Answers as tables

The JSON answers of a node as rows of a table: the values of facets with their hits, and the samples
of statistics with their times and labels. -/

namespace Logbook.Client

open Wire

/-! ## Facets -/

def facetHeader : List String := ["field", "value", "hits"]

/-- The rows of one field. -/
def facetRows? (v : Json) : Option (List (List String)) := do
  let ms ← members? ["field_name", "values"] 0 v
  let field ← text? (← required? ms "field_name")
  let row? (v : Json) : Option (List String) := do
    let ms ← members? ["field_value", "hits"] 0 v
    let hits ← count? (← required? ms "hits")
    return [field, ← text? (← required? ms "field_value"), toString hits]
  list? row? (← required? ms "values")

/-- The rows of an answer to a search for facets. -/
def allFacetRows? (v : Json) : Option (List (List String)) := do
  let ms ← members? ["facets"] 0 v
  return (← list? facetRows? (← required? ms "facets")).flatten

/-! ## Samples -/

def sampleHeader : List String := ["time", "name", "labels", "value"]

/-- The text of a value: a text as it is, anything else as JSON. -/
def plainText : Json → String
  | .str s => s
  | v => v.render

/-- The time of seconds since 1970. What is no number is shown as it is. -/
def renderTime (v : Json) : String :=
  match float? v with
  | some seconds => Time.render (Decimal.toInt64 (seconds * 1e9).round)
  | none => v.render

/-- A time and a value. -/
def sample? : Json → Option (Json × String)
  | .arr [time, .str value] => some (time, value)
  | _ => none

/-- The rows of one series. -/
def seriesRows? (v : Json) : Option (List (List String)) := do
  let ms ← members? ["metric", "value", "values"] 2 v
  let .obj labels ← required? ms "metric" | none
  let one ← nullable? sample? (← optional? ms "value")
  let many ← match ms.filter (·.1 == "values") with
    | [] => pure []
    | [(_, v)] => list? sample? v
    | _ => none
  let name := match Json.member? labels "__name__" with
    | some (.str s) => s
    | _ => ""
  let others := (labels.filter (·.1 != "__name__")).map fun (key, v) => key ++ "=" ++ plainText v
  return (one.toList ++ many).map fun (time, value) =>
    [renderTime time, name, ",".intercalate others, value]

/-- The rows of an answer to a search for statistics. -/
def allSampleRows? (v : Json) : Option (List (List String)) := do
  let ms ← members? ["data"] 0 v
  let data ← members? ["result"] 0 (← required? ms "data")
  return (← list? seriesRows? (← required? data "result")).flatten

end Logbook.Client
