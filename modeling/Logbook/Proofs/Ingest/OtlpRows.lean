import Logbook.Ingest.Format
import Logbook.Proofs.Ingest.KeyPaths
import Logbook.Proofs.Ingest.Reclassify

set_option autoImplicit false

/-! # The body wins

A log record becomes one row, and its body gives the last fields of that row. Since of equal names
the last counts when a row is classified, the stored row says what the body says, whatever resource,
scope and record say under the same name (**`Otlp.body_wins`**). -/

namespace Logbook

/-! ## Fields at the end of a row -/

/-- Without settings, a row is stored with what its last fields say, if they are worth keeping. -/
theorem Classifier.get?_apply_of_last? {row : DecodedRow} {front back : List Field}
    {name value : String} (hrow : row.fields = front ++ back)
    (hname : isReservedName name = false) (hback : ∀ f ∈ back, f.value ≠ "")
    (hlast : Field.last? back name = some value) (now : Timestamp) :
    (({} : Classifier).apply now row).get? name = some value := by
  have hkept : Field.last? (back.filter ({} : Classifier).keeps) name = some value := by
    have hkeeps : ∀ f ∈ back, f.name = name → ({} : Classifier).keeps f = true := fun f hf h =>
      keeps_iff.2 ⟨h ▸ hname, List.not_mem_nil, Or.inr (hback f hf)⟩
    rw [Field.last?_filter_congr (q := fun _ => true) hkeeps, List.filter_true, hlast]
  show Field.last? (({} : Classifier).fields row) name = some value
  rw [last?_fields, overridden_default, hrow, List.filter_append, Field.last?_append, hkept,
    Option.some_or, Option.some_or]

namespace Otlp

/-! ## Values below names -/

mutual

/-- The values inside a value that are no maps, in the order of the message, each with the keys that
    lead to it. -/
def AnyValue.leaves : AnyValue → List (List String × AnyValue)
  | .map entries => leavesOf entries
  | v => [([], v)]

/-- The values inside named values that are no maps, each with the keys that lead to it. -/
def leavesOf : Attributes → List (List String × AnyValue)
  | [] => []
  | (key, v) :: rest => below key v.leaves ++ leavesOf rest

end

/-- The name of a value below these keys. Before the first key that is not empty stands no point. -/
def pathName (path : List String) : String :=
  dotted (path.dropWhile (·.isEmpty))

/-- The fields of values that are no maps: one for each that has a text. -/
def leafFields (nameOf : List String → String) (leaves : List (List String × AnyValue)) :
    List Field :=
  (leaves.map fun leaf => ⟨nameOf leaf.1, leaf.2.render⟩).filter (·.value != "")

/-- The fields that named values are to give. -/
def flattened (attributes : Attributes) : List Field :=
  leafFields pathName (leavesOf attributes)

/-- The fields that a body is to give: those of its entries if it is a map, and the message else. -/
def produced : AnyValue → List Field
  | .map entries => flattened entries
  | v => [⟨msgName, v.render⟩].filter (·.value != "")

theorem joinNames_of_ne {outer : String} (h : outer ≠ "") (inner : String) :
    joinNames outer inner = outer ++ "." ++ inner :=
  if_neg (by simpa using h)

theorem foldl_joinNames_of_ne {outer : String} (h : outer ≠ "") (path : List String) :
    path.foldl joinNames outer = dotted (outer :: path) := by
  induction path generalizing outer with
  | nil => rw [dotted_singleton, List.foldl_nil]
  | cons key path ih =>
    have hjoined : outer ++ "." ++ key ≠ "" := by simp
    rw [List.foldl_cons, joinNames_of_ne h, ih hjoined, dotted_join_cons]

/-- Joining the keys of a path one after another gives its name. -/
theorem foldl_joinNames (path : List String) : path.foldl joinNames "" = pathName path := by
  induction path with
  | nil => rfl
  | cons key path ih =>
    rw [List.foldl_cons, show joinNames "" key = key from rfl]
    by_cases hkey : key = ""
    · rw [hkey, ih, pathName, pathName, List.dropWhile_cons_of_pos rfl]
    · rw [foldl_joinNames_of_ne hkey, pathName, List.dropWhile_cons_of_neg (by simpa using hkey)]

theorem leafFields_append (nameOf : List String → String)
    (as bs : List (List String × AnyValue)) :
    leafFields nameOf (as ++ bs) = leafFields nameOf as ++ leafFields nameOf bs := by
  rw [leafFields, List.map_append, List.filter_append]
  rfl

theorem leafFields_below (nameOf : List String → String) (key : String)
    (leaves : List (List String × AnyValue)) :
    leafFields nameOf (below key leaves)
      = leafFields (fun path => nameOf (key :: path)) leaves := by
  rw [leafFields, below, List.map_map]
  rfl

theorem field_eq (name : String) (v : AnyValue) :
    field name v = [⟨name, v.render⟩].filter (·.value != "") := by
  rw [field]
  by_cases h : v.render = "" <;> simp [h]

mutual

theorem flattenValue_eq (name : String) (v : AnyValue) :
    flattenValue name v = leafFields (·.foldl joinNames name) v.leaves := by
  cases v with
  | map entries => rw [flattenValue, AnyValue.leaves, flatten_eq name entries]
  | _ =>
    simp only [flattenValue, AnyValue.leaves, field_eq, leafFields, List.map_cons, List.map_nil,
      List.foldl_nil]

theorem flatten_eq (outer : String) (attributes : Attributes) :
    flatten outer attributes = leafFields (·.foldl joinNames outer) (leavesOf attributes) := by
  cases attributes with
  | nil => rfl
  | cons entry rest =>
    obtain ⟨key, v⟩ := entry
    rw [flatten, leavesOf, leafFields_append, leafFields_below, flattenValue_eq _ v,
      flatten_eq outer rest]
    rfl

end

theorem flatten_eq_flattened (attributes : Attributes) :
    flatten "" attributes = flattened attributes := by
  simp only [flatten_eq, foldl_joinNames, flattened]

theorem bodyFields_eq_produced (body : AnyValue) : bodyFields body = produced body := by
  cases body with
  | map entries => exact flatten_eq_flattened entries
  | _ => simp only [bodyFields, produced, field_eq]

theorem value_ne_of_mem_produced {body : AnyValue} {f : Field} (h : f ∈ produced body) :
    f.value ≠ "" := by
  cases body <;> exact bne_iff_ne.1 (List.mem_filter.1 h).2

/-! ## Records -/

/-- A log record with the attributes of its resource and its scope. -/
structure Source where
  resource : Attributes
  scope : Scope
  record : LogRecord

/-- The log records of a request in their order, each with what it stands below. -/
def LogsData.sources (logs : LogsData) : List Source :=
  logs.flatMap fun r => r.scopes.flatMap fun s => s.records.map fun record =>
    ⟨r.resource, s.scope, record⟩

def Source.toRow (source : Source) : DecodedRow :=
  source.record.toRow (flatten "" source.resource) source.scope

theorem LogsData.toRows_eq (logs : LogsData) : logs.toRows = logs.sources.map Source.toRow := by
  simp only [toRows, sources, List.map_flatMap, List.map_map]
  rfl

/-- What the row of a log record is: it has the stream fields of the record's resource, and once it
    is stored without settings, every name that the body gives has the last value that it gives. -/
structure RowOf (source : Source) (row : DecodedRow) : Prop where
  streamFields : row.streamFields = flattened source.resource
  body_last : ∀ now name value, isReservedName name = false →
    Field.last? (produced source.record.body) name = some value →
      (({} : Classifier).apply now row).get? name = some value

theorem rowOf_toRow (source : Source) : RowOf source source.toRow where
  streamFields := flatten_eq_flattened source.resource
  body_last now name value hname hlast := by
    have hback : ∃ front, source.toRow.fields = front ++ produced source.record.body := by
      rw [← bodyFields_eq_produced]
      refine ⟨flatten "" source.resource ++ (flatten "" source.record.attributes
        ++ source.scope.fields ++ nonEmptyField "trace_id" (Bytes.toHex source.record.traceId)
        ++ nonEmptyField "span_id" (Bytes.toHex source.record.spanId)
        ++ [⟨"severity", source.record.severity⟩]), ?_⟩
      simp [Source.toRow, LogRecord.toRow, DecodedRow.fields, LogRecord.fields]
    obtain ⟨front, hrow⟩ := hback
    exact Classifier.get?_apply_of_last? hrow hname (fun f hf => value_ne_of_mem_produced hf)
      hlast now

/-- **The body wins.** Every request that can be read becomes one row for each of its log records,
    in their order. -/
theorem body_wins {payload : Bytes} {logs : LogsData} (h : LogsData.read? payload = some logs) :
    ∃ rows, Format.opentelemetry.decode payload = .ok (rows, 0) ∧
      List.Forall₂ RowOf logs.sources rows := by
  refine ⟨logs.toRows, by simp only [Format.decode, h], ?_⟩
  rw [LogsData.toRows_eq, List.forall₂_map_right_iff, List.forall₂_same]
  exact fun source _ => rowOf_toRow source

/-- A record with an attribute and a body that claim the message, as its resource does. -/
def sampleSource : Source :=
  ⟨[(msgName, .text "r")], {},
    { body := .text "the body", attributes := [(msgName, .text "attribute")] }⟩

def samplePayload : Bytes :=
  [10, 52, 10, 13, 10, 11, 10, 4, 95, 109, 115, 103, 18, 3, 10, 1, 114, 18, 35, 18, 33, 42, 10, 10,
    8, 116, 104, 101, 32, 98, 111, 100, 121, 50, 19, 10, 4, 95, 109, 115, 103, 18, 11, 10, 9, 97,
    116, 116, 114, 105, 98, 117, 116, 101]

theorem body_over_attributes :
    ∃ row, Format.opentelemetry.decode samplePayload = .ok ([row], 0) ∧
      row.streamFields = [⟨msgName, "r"⟩] ∧
      (({} : Classifier).apply 7 row).get? msgName = some "the body" := by
  have hread : LogsData.read? samplePayload = some [⟨sampleSource.resource,
      [⟨sampleSource.scope, [sampleSource.record]⟩]⟩] := rfl
  obtain ⟨rows, hdecode, hrows⟩ := body_wins hread
  obtain ⟨row, rest, hrow, hrest, rfl⟩ := List.forall₂_cons_left_iff.1 hrows
  cases hrest
  refine ⟨row, hdecode, ?_, ?_⟩
  · rw [hrow.streamFields]
    decide +kernel
  · exact hrow.body_last 7 msgName "the body" (by decide) (by decide +kernel)

end Otlp

end Logbook
