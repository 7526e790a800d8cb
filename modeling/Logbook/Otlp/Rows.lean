import Logbook.Otlp.Message
import Logbook.Json.Writer
import Logbook.Row
import Logbook.Text.Base64

set_option autoImplicit false

/-! # Rows of OpenTelemetry logs

A log record is one row. The attributes of its resource are its stream fields; its own attributes,
its scope, its trace, its severity and then its body are its other fields. The body comes last, so
that it wins over fields of the same name. -/

namespace Logbook.Otlp

/-! ## Values as text -/

/-- The text of a double without exponent. -/
def renderDouble (x : Float) : String :=
  Decimal.Layout.plain.render x

mutual

/-- A value as part of a JSON text. A double that JSON cannot write is a string. -/
def AnyValue.toJson : AnyValue → Json
  | .absent => .null
  | .text s => .str s
  | .bool b => .bool b
  | .int n => .int n.toInt
  | .double x => if x.isFinite then .float x else .str (renderDouble x)
  | .bytes b => .str (Base64.encode b)
  | .array items => .arr (itemsToJson items)
  | .map entries => .obj (entriesToJson entries [])

def itemsToJson : List AnyValue → List Json
  | [] => []
  | v :: rest => v.toJson :: itemsToJson rest

/-- Puts entries into an object; of equal keys the last value counts. -/
def entriesToJson : Attributes → List (String × Json) → List (String × Json)
  | [], out => out
  | (key, v) :: rest, out => entriesToJson rest (Json.putMember out key v.toJson)

end

/-- A value as the value of a field. -/
def AnyValue.render : AnyValue → String
  | .absent => ""
  | .text s => s
  | .bool b => if b then "true" else "false"
  | .int n => toString n.toInt
  | .double x => renderDouble x
  | .bytes b => Base64.encode b
  | v => v.toJson.render

/-- The field of a value that is no map; there is none if its text is empty. -/
def field (name : String) (v : AnyValue) : List Field :=
  let text := v.render
  if text.isEmpty then [] else [⟨name, text⟩]

/-- A name below another one. -/
def joinNames (outer inner : String) : String :=
  if outer.isEmpty then inner else outer ++ "." ++ inner

mutual

/-- The fields of a value. Maps become fields whose names join the keys with points. -/
def flattenValue (name : String) : AnyValue → List Field
  | .map entries => flatten name entries
  | v => field name v

/-- The fields of named values below a name. -/
def flatten (outer : String) : Attributes → List Field
  | [] => []
  | (key, v) :: rest => flattenValue (joinNames outer key) v ++ flatten outer rest

end

/-! ## Records -/

/-- The text of a severity number. -/
def severityName (n : Int) : String :=
  if n < 1 ∨ 24 < n then "Unspecified"
  else
    let i := (n - 1).toNat
    let name := ["Trace", "Debug", "Info", "Warn", "Error", "Fatal"].getD (i / 4) ""
    if i % 4 = 0 then name else name ++ toString (i % 4 + 1)

/-- A field unless its value is empty. -/
def nonEmptyField (name value : String) : List Field :=
  if value.isEmpty then [] else [⟨name, value⟩]

/-- The fields of a body: the entries of a map, and any other value as the message. -/
def bodyFields : AnyValue → List Field
  | .map entries => flatten "" entries
  | v => field msgName v

def Scope.fields (s : Scope) : List Field :=
  nonEmptyField "scope.name" s.name ++ nonEmptyField "scope.version" s.version

/-- The severity, by its text or else by its number. -/
def LogRecord.severity (r : LogRecord) : String :=
  if r.severityText.isEmpty then severityName r.severityNumber else r.severityText

/-- The time of a record: when it happened or else when it was observed. -/
def LogRecord.timestamp (r : LogRecord) : Option Timestamp :=
  ([r.time, r.observedTime].find? (· != 0)).map fun n => Timestamp.clamp n

/-- All fields of a record that are no stream fields. -/
def LogRecord.fields (scope : Scope) (r : LogRecord) : List Field :=
  flatten "" r.attributes ++ scope.fields
    ++ nonEmptyField "trace_id" (Bytes.toHex r.traceId)
    ++ nonEmptyField "span_id" (Bytes.toHex r.spanId)
    ++ ⟨"severity", r.severity⟩ :: bodyFields r.body

def LogRecord.toRow (streamFields : List Field) (scope : Scope) (r : LogRecord) : DecodedRow :=
  ⟨r.timestamp, streamFields, r.fields scope⟩

def ResourceLogs.toRows (r : ResourceLogs) : List DecodedRow :=
  r.scopes.flatMap fun s => s.records.map (LogRecord.toRow (flatten "" r.resource) s.scope)

/-- The rows of a request, in the order of its records. -/
def LogsData.toRows (logs : LogsData) : List DecodedRow :=
  logs.flatMap ResourceLogs.toRows

end Logbook.Otlp
