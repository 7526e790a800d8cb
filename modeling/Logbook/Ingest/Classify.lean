import Logbook.Row

set_option autoImplicit false

/-! # Classification

A decoded row becomes a stored row: one of its fields becomes the message, the request's extra
fields override its own, fields that are reserved, ignored or empty are dropped, and some of the
rest make up the stream. Classification never fails. -/

namespace Logbook

/-- The settings of a request that decide how its rows are classified. -/
structure Classifier where
  /-- Names of fields that may be the message, the first choice first. -/
  msgFields : List String := [msgName]
  /-- Names of the fields that make up the stream, or none to keep the stream of the decoder. -/
  streamFields : Option (List String) := none
  ignoreFields : List String := []
  extraFields : List Field := []
  deriving DecidableEq, Repr

namespace Classifier

/-- Renames the first field of a name. -/
def renameFirst (name newName : String) : List Field → List Field
  | [] => []
  | f :: rest => if f.name = name then { f with name := newName } :: rest
    else f :: renameFirst name newName rest

/-- Makes the first field of the first name that occurs the message. -/
def renameMessage (names : List String) (fields : List Field) : List Field :=
  match names.find? fun name => fields.any (·.name == name) with
  | some name => renameFirst name msgName fields
  | none => fields

/-- Whether a field stays: reserved and ignored names go, and so do empty values other than that of
    the message. -/
def keeps (c : Classifier) (f : Field) : Bool :=
  !isReservedName f.name && !c.ignoreFields.contains f.name && (f.name == msgName || f.value != "")

/-- The fields of the stored row, in order. -/
def fields (c : Classifier) (row : DecodedRow) : List Field :=
  let all := row.streamFields ++ renameMessage c.msgFields row.otherFields
  let kept := Field.dedup ((c.extraFields.foldl Field.put all).filter c.keeps)
  if kept.any (·.name == msgName) then kept else kept ++ [⟨msgName, ""⟩]

/-- The fields that make up the stream of a row with these fields. -/
def streamOf (c : Classifier) (row : DecodedRow) (fields : List Field) : Stream :=
  match c.streamFields with
  | none => .ofFields (row.streamFields.filter c.keeps)
  | some names => .ofFields (fields.filter fun f => names.contains f.name)

/-- Classifies a row. A row without a time gets `now`. -/
def apply (c : Classifier) (now : Timestamp) (row : DecodedRow) : StoredRow :=
  let fields := c.fields row
  .ofStream (row.timestamp.getD now) (c.streamOf row fields) fields

end Classifier

end Logbook
