import Logbook.Time.Instant
import Logbook.Json.Writer

set_option autoImplicit false

/-! # Rows of a query

The rows that flow through filters and pipes. A stored row enters with its time, stream identifier
and stream as fields in front; its time also rides beside the fields, so that sorting and bucketing
never read it back from text. -/

namespace Logbook

structure QueryRow where
  timestamp : Option Timestamp
  fields : List Field
  deriving DecidableEq, Repr, Inhabited

namespace QueryRow

/-- The row that stands for a stored row. -/
def ofStored (row : StoredRow) : QueryRow where
  timestamp := some row.timestamp
  fields :=
    ⟨timeName, Time.render row.timestamp⟩ :: ⟨streamIdName, row.streamId.toHex⟩
      :: ⟨streamName, row.stream.render⟩ :: ⟨msgName, row.message⟩
      :: row.fields.filter (·.name != msgName)

/-- The value of the first field of that name. -/
def get? (row : QueryRow) (name : String) : Option String :=
  Field.first? row.fields name

/-- The value of the first field of that name; a field that is not there reads as empty. -/
def value (row : QueryRow) (name : String) : String :=
  (row.get? name).getD ""

/-- Gives a field a value. -/
def set (row : QueryRow) (name value : String) : QueryRow :=
  { row with fields := Field.put row.fields ⟨name, value⟩ }

/-- The first field of that name, and the other fields with the last one moved into its place. -/
def takeField? (name : String) : List Field → Option (Field × List Field)
  | [] => none
  | f :: rest =>
    if f.name = name then
      match rest.getLast? with
      | none => some (f, [])
      | some l => some (f, l :: rest.dropLast)
    else (takeField? name rest).map fun (g, rest) => (g, f :: rest)

/-- Takes the named fields out, one for each time a name is listed. -/
def takeFields : (names : List String) → List Field → List Field
  | [], _ => []
  | name :: names, fields =>
    match takeField? name fields with
    | some (f, rest) => f :: takeFields names rest
    | none => takeFields names fields

/-- Keeps the named fields in the order of the names; the time stays only if it is named. -/
def project (row : QueryRow) (names : List String) : QueryRow where
  timestamp := if names.contains timeName then row.timestamp else none
  fields := takeFields names row.fields

/-- The fields as one JSON object, in row order. -/
def toJson (row : QueryRow) : Json :=
  .obj (row.fields.map fun f => (f.name, .str f.value))

/-- The fields as the text of one JSON object. -/
def toJsonLine (row : QueryRow) : String :=
  row.toJson.render

end QueryRow

end Logbook
