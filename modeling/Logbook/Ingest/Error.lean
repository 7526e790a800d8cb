import Logbook.Cluster.NodeError
import Logbook.RowCodec
import Logbook.Text.Quoted

set_option autoImplicit false

/-! # Failures of ingestion

A request that fails stores nothing. -/

namespace Logbook

/-- Why an ingestion request fails. -/
inductive IngestError where
  | badParam (param message : String)
  | jsonLogs
  | logs (bytes : Nat)
  | native (bytes : Nat) (why : RowCodec.Error)
  | unsupportedEncoding (format encoding : String)
  | decompress (format encoding : String) (bytes : Nat)
  | body (format message : String)
  | tooLarge (format : String) (limit : Nat)
  | node (e : NodeError)
  deriving DecidableEq, Repr

namespace IngestError

def message : IngestError → String
  | .badParam param message => "cannot parse " ++ param ++ " query arg: " ++ message
  | .jsonLogs => "json encoding isn't supported for opentelemetry format. Use protobuf encoding"
  | .logs bytes => s!"cannot decode LogsData request from {bytes} bytes: malformed message"
  | .native bytes why => s!"cannot decode native request from {bytes} bytes: " ++ why.message
  | .unsupportedEncoding format encoding =>
    "cannot decode " ++ format ++ " request: unsupported Content-Encoding "
      ++ Text.quoted encoding
  | .decompress format encoding bytes =>
    "cannot decompress " ++ format ++ " request with " ++ encoding
      ++ s!" from {bytes} bytes: malformed data"
  | .body format message => "cannot read " ++ format ++ " request body: " ++ message
  | .tooLarge format limit => format ++ s!" request body exceeds the limit of {limit} bytes"
  | .node e => e.message

/-- The status of a response that reports the failure. -/
def status : IngestError → Nat
  | .tooLarge .. => 413
  | .node e => e.status
  | _ => 400

end IngestError

end Logbook
