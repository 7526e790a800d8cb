import Logbook.Query.Plan
import Logbook.Query.Wire.Filter

set_option autoImplicit false

/-! # Queries between nodes

The form in which a node sends the remote part of a query. The kind of a pipe is told by a tag among
its members. -/

namespace Logbook

open Wire

/-! ## Pipes -/

def SortKey.toJson (k : SortKey) : Json :=
  .obj [("field", .str k.field), ("desc", .bool k.desc)]

def SortKey.ofJson? (v : Json) : Option SortKey := do
  let ms ← members? ["field", "desc"] 0 v
  return ⟨← text? (← required? ms "field"), ← bool? (← required? ms "desc")⟩

def StatsKind.ofChoice? (v : Json) : Option StatsKind := do
  let name ← innerChoice? v
  StatsKind.all.find? (·.name == name)

def StatsFunc.toJson (f : StatsFunc) : Json :=
  .obj [("kind", .str f.kind.name), ("fields", ofTexts f.fields), ("result", .str f.result)]

def StatsFunc.ofJson? (v : Json) : Option StatsFunc := do
  let ms ← members? ["kind", "fields", "result"] 0 v
  return ⟨← StatsKind.ofChoice? (← required? ms "kind"), ← list? text? (← required? ms "fields"),
    ← text? (← required? ms "result")⟩

def ByField.toJson (b : ByField) : Json :=
  .obj (("name", .str b.name) :: optionalMember "step" ofTime b.step)

def ByField.ofJson? (v : Json) : Option ByField := do
  let ms ← members? ["name", "step"] 1 v
  return ⟨← text? (← required? ms "name"), ← nullable? time? (← optional? ms "step")⟩

namespace Pipe

def toJson : Pipe → Json
  | .filter f => .obj [("pipe", .str "filter"), ("filter", f.toJson)]
  | .fields names => .obj [("pipe", .str "fields"), ("fields", ofTexts names)]
  | .limit n => .obj [("pipe", .str "limit"), ("limit", ofCount n)]
  | .sort s =>
    .obj ([("pipe", .str "sort"), ("keys", .arr (s.keys.map SortKey.toJson)),
      ("desc", .bool s.desc)] ++ optionalMember "limit" ofCount s.limit)
  | .stats s =>
    .obj [("pipe", .str "stats"), ("by", .arr (s.groupBy.map ByField.toJson)),
      ("funcs", .arr (s.funcs.map StatsFunc.toJson))]
  | .facets f =>
    .obj [("pipe", .str "facets"), ("limit", ofCount f.limit),
      ("max_values_per_field", ofCount f.maxValuesPerField),
      ("max_value_len", ofCount f.maxValueLength), ("keep_const_fields", .bool f.keepConstFields)]

/-- The names of the members of a pipe with this tag, in their order, and how many at the end need
    not be there. -/
def memberNames : String → List String × Nat
  | "filter" => (["filter"], 0)
  | "fields" => (["fields"], 0)
  | "limit" => (["limit"], 0)
  | "sort" => (["keys", "desc", "limit"], 1)
  | "stats" => (["by", "funcs"], 0)
  | "facets" => (["limit", "max_values_per_field", "max_value_len", "keep_const_fields"], 0)
  | _ => ([], 0)

/-- The pipe with this tag and these members. -/
def ofMembers? (ms : List (String × Json)) : String → Option Pipe
  | "filter" => do return .filter (← (Filter.read (← required? ms "filter")).filter?)
  | "fields" => do return .fields (← list? text? (← required? ms "fields"))
  | "limit" => do return .limit (← count? (← required? ms "limit"))
  | "sort" => do
    return .sort ⟨← list? SortKey.ofJson? (← required? ms "keys"),
      ← bool? (← required? ms "desc"), ← nullable? count? (← optional? ms "limit")⟩
  | "stats" => do
    return .stats ⟨← list? ByField.ofJson? (← required? ms "by"),
      ← list? StatsFunc.ofJson? (← required? ms "funcs")⟩
  | "facets" => do
    return .facets ⟨← count? (← required? ms "limit"),
      ← count? (← required? ms "max_values_per_field"), ← count? (← required? ms "max_value_len"),
      ← bool? (← required? ms "keep_const_fields")⟩
  | _ => none

/-- The pipe that a value stands for. -/
def ofJson? : Json → Option Pipe
  | .obj ms => do ofMembers? ms (← text? (← required? ms "pipe"))
  | .arr (.str tag :: vs) => do
    let (names, optional) := memberNames tag
    ofMembers? (← members? names optional (.arr vs)) tag
  | _ => none

end Pipe

/-! ## Queries -/

def Query.toJson (q : Query) : Json :=
  .obj [("filter", q.filter.toJson), ("pipes", .arr (q.pipes.map Pipe.toJson))]

namespace RemoteQuery

def toJson (q : RemoteQuery) : Json :=
  .obj ([("filter", q.filter.toJson), ("pipes", .arr (q.pipes.map Pipe.toJson))]
    ++ optionalMember "terminal" Pipe.toJson q.terminal
    ++ [("min_ts", ofTime q.minTime), ("max_ts", ofTime q.maxTime)])

def ofJson? (v : Json) : Option RemoteQuery := do
  let ms ← members? ["filter", "pipes", "terminal", "min_ts", "max_ts"] 0 v
  return {
    filter := ← Filter.ofJson? (← required? ms "filter")
    pipes := ← list? Pipe.ofJson? (← required? ms "pipes")
    terminal := ← nullable? Pipe.ofJson? (← optional? ms "terminal")
    minTime := ← time? (← required? ms "min_ts")
    maxTime := ← time? (← required? ms "max_ts") }

end RemoteQuery

end Logbook
