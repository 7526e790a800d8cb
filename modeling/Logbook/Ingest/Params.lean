import Logbook.Http.Form
import Logbook.Ingest.Classify
import Logbook.Ingest.Error
import Logbook.Pieces
import Logbook.Text.Class

set_option autoImplicit false

/-! # Parameters of ingestion

Settings that every format shares, taken from the arguments of the request. A list is separated by
commas, and an argument that occurs again adds to its list. -/

namespace Logbook

/-- The settings of an ingestion request. -/
structure IngestParams where
  classifier : Classifier
  /-- Keys that may carry the time, the first choice first. -/
  timeFields : List String
  deriving DecidableEq, Repr

namespace IngestParams

/-- The items of a list argument. -/
def list (args : Args) (name : String) : List String :=
  let values := (args.filter (·.1 == name)).map (·.2)
  ((values.flatMap fun v => pieces ',' v.toList).map Text.trimChars).filterMap fun item =>
    if item.isEmpty then none else some (String.ofList item)

/-- A list, or another one if it is empty. -/
def orElse (items default : List String) : List String :=
  if items.isEmpty then default else items

/-- Reads an extra field, a name and a value around an equals sign. -/
def readExtra (item : String) : Except IngestError Field :=
  let cs := item.toList
  let name := Text.trimChars (cs.takeWhile (· != '='))
  match cs.dropWhile (· != '=') with
  | _ :: value =>
    if name.isEmpty then .error (missing item)
    else .ok ⟨String.ofList name, String.ofList (Text.trimChars value)⟩
  | [] => .error (missing item)
where
  missing (item : String) : IngestError :=
    .badParam "extra_fields" ("missing '=' in " ++ Text.quoted item ++ "; want name=value")

/-- The settings that arguments ask for. -/
def ofArgs (args : Args) : Except IngestError IngestParams := do
  let extraFields ← (list args "extra_fields").mapM readExtra
  let streamFields := list args "_stream_fields"
  return {
    classifier := {
      msgFields := orElse (list args "_msg_field") [msgName]
      streamFields := if streamFields.isEmpty then none else some streamFields
      ignoreFields := list args "ignore_fields"
      extraFields }
    timeFields := orElse (list args "_time_field") [timeName] }

end IngestParams

end Logbook
