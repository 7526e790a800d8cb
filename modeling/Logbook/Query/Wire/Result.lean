import Logbook.Query.Plan
import Logbook.Query.Wire.Value

set_option autoImplicit false

/-! # Partial results between nodes

The form in which a node answers the remote part of a query. The kind of a partial result is told by
a tag beside it, that of a state by a member around it. -/

namespace Logbook

open Wire

def Field.toJson (f : Field) : Json :=
  .obj [("name", .str f.name), ("value", .str f.value)]

def Field.ofJson? (v : Json) : Option Field := do
  let ms ← members? ["name", "value"] 0 v
  return ⟨← text? (← required? ms "name"), ← text? (← required? ms "value")⟩

namespace QueryRow

def toWire (r : QueryRow) : Json :=
  .obj (optionalMember "timestamp" ofTime r.timestamp
    ++ [("fields", .arr (r.fields.map Field.toJson))])

def ofWire? (v : Json) : Option QueryRow := do
  let ms ← members? ["timestamp", "fields"] 0 v
  return ⟨← nullable? time? (← optional? ms "timestamp"),
    ← list? Field.ofJson? (← required? ms "fields")⟩

end QueryRow

namespace StatsState

def toJson : StatsState → Json
  | .count n => .obj [("count", ofCount n)]
  | .countUniq values => .obj [("count_uniq", .arr (values.map fun v => ofTexts v.1))]
  | .sum x => .obj [("sum", (x.map ofFloat).getD .null)]
  | .min x => .obj [("min", (x.map ofFloat).getD .null)]
  | .max x => .obj [("max", (x.map ofFloat).getD .null)]
  | .avg total n => .obj [("avg", .obj [("sum", ofFloat total), ("count", ofCount n)])]

def ofJson? : Json → Option StatsState
  | .obj [("count", v)] => (count? v).map .count
  | .obj [("count_uniq", v)] => do
    let values ← list? (list? text?) v
    return .countUniq (values.foldl insertValue [])
  | .obj [("sum", v)] => (nullable? float? v).map .sum
  | .obj [("min", v)] => (nullable? float? v).map .min
  | .obj [("max", v)] => (nullable? float? v).map .max
  | .obj [("avg", v)] => do
    let ms ← members? ["sum", "count"] 0 v
    return .avg (← float? (← required? ms "sum")) (← count? (← required? ms "count"))
  | _ => none

end StatsState

namespace PartialStats

def groupToJson (g : List String × List StatsState) : Json :=
  .obj [("keys", ofTexts g.1), ("states", .arr (g.2.map StatsState.toJson))]

def toJson (p : PartialStats) : Json :=
  .arr (p.map groupToJson)

def groupOfJson? (v : Json) : Option (List String × List StatsState) := do
  let ms ← members? ["keys", "states"] 0 v
  return (← list? text? (← required? ms "keys"),
    ← list? StatsState.ofJson? (← required? ms "states"))

/-- Groups that are repeated are merged, if they can be. -/
def ofJson? (v : Json) : Option PartialStats := do
  match mergeGroups [] (← list? groupOfJson? v) with
  | (p, none) => some p
  | (_, some _) => none

end PartialStats

namespace PartialFacets

def toJson (p : PartialFacets) : Json :=
  .obj [("rows", ofCount p.rows),
    ("fields", .obj (p.fields.map fun (name, values) =>
      (name, .obj (values.map fun (value, hits) => (value, ofCount hits)))))]

/-- A map from an object; of repeated keys the last counts. -/
def mapOfJson? {α : Type} (read : Json → Option α) : Json → Option (SortedMap String α)
  | .obj ms => do
    let entries ← ms.mapM fun (key, v) => (read v).map (key, ·)
    return entries.foldl (fun m (key, x) => SortedMap.insert m key x) []
  | _ => none

def ofJson? (v : Json) : Option PartialFacets := do
  let ms ← members? ["rows", "fields"] 0 v
  return ⟨← count? (← required? ms "rows"),
    ← mapOfJson? (mapOfJson? count?) (← required? ms "fields")⟩

end PartialFacets

namespace PartialResult

def toJson : PartialResult → Json
  | .rows list => .obj [("kind", .str "rows"), ("data", .arr (list.map QueryRow.toWire))]
  | .stats groups => .obj [("kind", .str "stats"), ("data", groups.toJson)]
  | .facets counts => .obj [("kind", .str "facets"), ("data", counts.toJson)]

def ofJson? (v : Json) : Option PartialResult := do
  let ms ← members? ["kind", "data"] 0 v
  let data ← required? ms "data"
  match ← choice? (← required? ms "kind") with
  | "rows" => (list? QueryRow.ofWire? data).map .rows
  | "stats" => (PartialStats.ofJson? data).map .stats
  | "facets" => (PartialFacets.ofJson? data).map .facets
  | _ => none

end PartialResult

end Logbook
