import Logbook.Query.Filter
import Logbook.Query.Wire.Value

set_option autoImplicit false

/-! # Filters in messages between nodes

The kind of a filter is told by a tag among its members, that of a stream operation by a member
around its operand. A filter inside another is first read as a value, and only then as a filter,
which decides what its tag may look like. -/

namespace Logbook

open Wire

def CompareOp.name : CompareOp → String
  | .gt => "gt"
  | .gte => "gte"
  | .lt => "lt"
  | .lte => "lte"

def CompareOp.ofName? (s : String) : Option CompareOp :=
  [CompareOp.gt, .gte, .lt, .lte].find? (·.name == s)

def Pattern.ofJson? (v : Json) : Option Pattern := do
  match Pattern.ofSource (← text? v) with
  | .ok p => some p
  | .error _ => none

def StreamOp.toJson : StreamOp → Json
  | .eq x => .obj [("eq", .str x)]
  | .ne x => .obj [("ne", .str x)]
  | .re p => .obj [("re", .str p.source)]
  | .notRe p => .obj [("not_re", .str p.source)]

def StreamOp.ofJson? : Json → Option StreamOp
  | .obj [("eq", v)] => (text? v).map .eq
  | .obj [("ne", v)] => (text? v).map .ne
  | .obj [("re", v)] => (Pattern.ofJson? v).map .re
  | .obj [("not_re", v)] => (Pattern.ofJson? v).map .notRe
  | _ => none

def StreamMatcher.toJson (m : StreamMatcher) : Json :=
  .obj [("name", .str m.name), ("op", m.op.toJson)]

def StreamMatcher.ofJson? (v : Json) : Option StreamMatcher := do
  let ms ← members? ["name", "op"] 0 v
  return ⟨← text? (← required? ms "name"), ← StreamOp.ofJson? (← required? ms "op")⟩

namespace Filter

mutual

def toJson : Filter → Json
  | .all => .obj [("type", .str "all")]
  | .and fs => .obj [("type", .str "and"), ("filters", .arr (toJsonAll fs))]
  | .or fs => .obj [("type", .str "or"), ("filters", .arr (toJsonAll fs))]
  | .not f => .obj [("type", .str "not"), ("filter", toJson f)]
  | .phrase field words =>
    .obj [("type", .str "phrase"), ("field", .str field), ("phrase", .str words)]
  | .startsWith field start =>
    .obj [("type", .str "prefix"), ("field", .str field), ("prefix", .str start)]
  | .exact field value =>
    .obj [("type", .str "exact"), ("field", .str field), ("value", .str value)]
  | .isIn field values =>
    .obj [("type", .str "in"), ("field", .str field), ("values", ofTexts values)]
  | .regex field p =>
    .obj [("type", .str "regex"), ("field", .str field), ("regex", .str p.source)]
  | .range field op x =>
    .obj [("type", .str "range"), ("field", .str field), ("op", .str op.name),
      ("value", ofFloat x)]
  | .time lo hi => .obj [("type", .str "time"), ("min", ofTime lo), ("max", ofTime hi)]
  | .stream ms => .obj [("type", .str "stream"), ("matchers", .arr (ms.map StreamMatcher.toJson))]

def toJsonAll : List Filter → List Json
  | [] => []
  | f :: fs => toJson f :: toJsonAll fs

end

/-- The tags of filters, in their order. -/
def tags : List String :=
  ["all", "and", "or", "not", "phrase", "prefix", "exact", "in", "regex", "range", "time", "stream"]

/-- The tag of a filter inside a tagged value, where it may also be given by its place. -/
def innerTag? : Json → Option String
  | .int n => if 0 ≤ n then tags[n.toNat]? else none
  | v => text? v

/-- The names of the members of a filter with this tag, in their order. -/
def memberNames : String → List String
  | "and" | "or" => ["filters"]
  | "not" => ["filter"]
  | "phrase" => ["field", "phrase"]
  | "prefix" => ["field", "prefix"]
  | "exact" => ["field", "value"]
  | "in" => ["field", "values"]
  | "regex" => ["field", "regex"]
  | "range" => ["field", "op", "value"]
  | "time" => ["min", "max"]
  | "stream" => ["matchers"]
  | _ => []

/-- A value with what it is as a filter and as a list of filters. -/
structure Reading where
  value : Json
  filter? : Option Filter
  filters? : Option (List Filter)

/-- The filter with this tag and these members. -/
def ofMembers? (ms : List (String × Reading)) : String → Option Filter
  | "all" => some .all
  | "and" => do return .and (← (← required? ms "filters").filters?)
  | "or" => do return .or (← (← required? ms "filters").filters?)
  | "not" => do return .not (← (← required? ms "filter").filter?)
  | "phrase" => do return .phrase (← field) (← text? (← required? ms "phrase").value)
  | "prefix" => do return .startsWith (← field) (← text? (← required? ms "prefix").value)
  | "exact" => do return .exact (← field) (← text? (← required? ms "value").value)
  | "in" => do return .isIn (← field) (← list? text? (← required? ms "values").value)
  | "regex" => do return .regex (← field) (← Pattern.ofJson? (← required? ms "regex").value)
  | "range" => do
    let op ← CompareOp.ofName? (← innerChoice? (← required? ms "op").value)
    return .range (← field) op (← float? (← required? ms "value").value)
  | "time" => do
    return .time (← time? (← required? ms "min").value) (← time? (← required? ms "max").value)
  | "stream" => do
    return .stream (← list? StreamMatcher.ofJson? (← required? ms "matchers").value)
  | _ => none
where
  field : Option String := do text? (← required? ms "field").value

/-- The filter with these members, one of which is the tag. -/
def ofTagged? (tag? : Json → Option String) (ms : List (String × Reading)) : Option Filter := do
  ofMembers? ms (← tag? (← required? ms "type").value)

/-- The filter given as an array: the tag, then the members in their order. -/
def ofPositions? (tag? : Json → Option String) : List Reading → Option Filter
  | [] => none
  | tag :: rest => do
    let tag ← tag? tag.value
    let names := memberNames tag
    if names.length = rest.length then ofMembers? (names.zip rest) tag else none

mutual

/-- What a value inside a tagged value is as a filter and as a list of filters. -/
def read : Json → Reading
  | .arr vs =>
    let items := readItems vs
    ⟨.arr vs, ofPositions? innerTag? items, items.mapM (·.filter?)⟩
  | .obj ms => ⟨.obj ms, ofTagged? innerTag? (readMembers ms), none⟩
  | v => ⟨v, none, none⟩

def readItems : List Json → List Reading
  | [] => []
  | v :: vs => read v :: readItems vs

def readMembers : List (String × Json) → List (String × Reading)
  | [] => []
  | (key, v) :: ms => (key, read v) :: readMembers ms

end

/-- The filter that a value stands for. -/
def ofJson? : Json → Option Filter
  | .obj ms => ofTagged? text? (readMembers ms)
  | .arr vs => ofPositions? text? (readItems vs)
  | _ => none

end Filter

end Logbook
