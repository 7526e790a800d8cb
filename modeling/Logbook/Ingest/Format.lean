import Logbook.Ingest.Error
import Logbook.Ingest.JsonLines
import Logbook.Otlp.Rows

set_option autoImplicit false

/-! # Formats of ingestion

The formats in which rows arrive. Logs of OpenTelemetry and rows in the row codec are taken as a
whole or not at all; JSON lines are taken line by line. -/

namespace Logbook

/-- A format with what decoding needs to know. -/
inductive Format where
  | opentelemetry
  | jsonLines (timeFields : List String)
  | native
  deriving DecidableEq, Repr

namespace Format

def name : Format → String
  | .opentelemetry => "opentelemetry"
  | .jsonLines _ => "jsonline"
  | .native => "native"

/-- Decodes a payload: its rows, and how many lines were skipped. -/
def decode (format : Format) (payload : Bytes) : Except IngestError (List DecodedRow × Nat) :=
  match format with
  | .opentelemetry =>
    match Otlp.LogsData.read? payload with
    | some logs => .ok (logs.toRows, 0)
    | none => .error (.logs payload.length)
  | .jsonLines timeFields =>
    let decoded := JsonLines.decode timeFields payload
    .ok (decoded.rows, decoded.skipped.length)
  | .native =>
    match RowCodec.decodeAll payload with
    | .ok rows => .ok (rows, 0)
    | .error e => .error (.native payload.length e)

end Format

end Logbook
