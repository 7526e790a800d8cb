import Logbook.Client.Answers
import Logbook.Client.Command
import Logbook.Client.Usage
import Logbook.Http.Form
import Logbook.Http.Status
import Logbook.Http.Transport
import Logbook.Json.Reader
import Logbook.Text.Class
import Logbook.Text.Replacement

set_option autoImplicit false

/-! # Running commands

A command is one request to a node. What the node answers is written out: rows as they come, facets
and statistics as tables. A command that fails says why and ends with code one, a command line that
cannot be read with code two. -/

namespace Logbook.Client

open Http (Request Response Transport)

/-- What a command leaves behind. -/
structure Outcome where
  code : Nat
  output : Bytes
  errors : String
  deriving DecidableEq, Repr

/-- What a command finds around it. -/
structure Surroundings where
  /-- The address in the environment. -/
  addr : Option String
  /-- What stands on the input. -/
  input : Bytes
  /-- The bytes of a file, or why there are none. -/
  file : String → Except String Bytes

namespace Outcome

/-- The outcome of a command line that is not carried out. -/
def ofRefusal (r : Refusal) : Outcome :=
  match r.why with
  | .help => ⟨0, Bytes.ofString (helpText r.command), ""⟩
  | .version => ⟨0, Bytes.ofString versionText, ""⟩
  | e => ⟨2, [], "error: " ++ e.message ++ "\n"⟩

def failure (reason : String) : Outcome := ⟨1, [], "Error: " ++ reason ++ "\n"⟩

/-- A table on the output. -/
def ofTable (header : List String) (rows : List (List String)) : Outcome :=
  ⟨0, Bytes.ofString (Table.render header rows ++ "\n"), ""⟩

/-- A remark beside the output. -/
def remark (s : String) : Outcome := ⟨0, [], s ++ "\n"⟩

end Outcome

/-! ## Requests -/

/-- An argument that is there if it has a value. -/
def argument (name : String) (value : Option String) : Args :=
  (value.map fun v => (name, v)).toList

def Bounds.args (b : Bounds) : Args :=
  argument "start" b.start ++ argument "end" b.stop

/-- A form that is posted. -/
def postForm (path : String) (args : Args) : Request :=
  ⟨"POST", path, "", [("content-type", "application/x-www-form-urlencoded")],
    Bytes.ofString (Http.Form.render args)⟩

namespace Payload

def path : Payload → String
  | .jsonLines => "/insert/jsonline"
  | .native => "/insert/native"
  | .otlp => "/insert/opentelemetry/v1/logs"

/-- Arguments that the format itself asks for. -/
def args : Payload → Args
  | .native => [("version", "v1")]
  | _ => []

def contentType : Payload → String
  | .jsonLines => "application/stream+json"
  | _ => "application/x-protobuf"

end Payload

namespace Command

/-- The bytes that a command sends. -/
def body (c : Command) (s : Surroundings) : Except String Bytes :=
  match c with
  | .ingest (some path) .. =>
    (s.file path).mapError fun why => "cannot read " ++ path ++ ": " ++ why
  | .ingest none .. => .ok s.input
  | _ => .ok []

/-- The request that a command comes to. -/
def request (c : Command) (body : Bytes) : Request :=
  match c with
  | .query q limit bounds =>
    postForm "/select/logsql/query"
      (("query", q) :: argument "limit" (limit.map toString) ++ bounds.args)
  | .facets q limit keep bounds =>
    postForm "/select/logsql/facets"
      (("query", q) :: argument "limit" (limit.map toString)
        ++ (if keep then [("keep_const_fields", "1")] else []) ++ bounds.args)
  | .stats q time => postForm "/select/logsql/stats_query" (("query", q) :: argument "time" time)
  | .statsRange q step bounds =>
    postForm "/select/logsql/stats_query_range" (("query", q) :: ("step", step) :: bounds.args)
  | .ingest _ payload stream message time =>
    ⟨"POST", payload.path,
      Http.Form.render (payload.args ++ argument "_stream_fields" stream
        ++ argument "_msg_field" message ++ argument "_time_field" time),
      [("content-type", payload.contentType)], body⟩
  | .flush => ⟨"GET", "/internal/force_flush", "", [], []⟩

/-- The outcome of a table that is read from an answer. -/
def tabulate (header : List String) (rows? : Json → Option (List (List String))) (r : Response) :
    Outcome :=
  match (Bytes.toString? r.body).bind fun s => (Json.parse? s.toList).bind rows? with
  | some rows => .ofTable header rows
  | none => .failure "error decoding response body"

/-- What a response to a command comes to. -/
def conclude (c : Command) (sent : Nat) (r : Response) : Outcome :=
  if !r.isSuccess then
    .failure (Http.renderStatus r.status ++ ": " ++ Text.trim (Text.ofBytes r.body))
  else match c with
  | .query .. => ⟨0, r.body, ""⟩
  | .facets .. => tabulate facetHeader allFacetRows? r
  | .stats .. | .statsRange .. => tabulate sampleHeader allSampleRows? r
  | .ingest .. => .remark s!"sent {sent} bytes"
  | .flush => .remark "flushed"

end Command

/-! ## Running -/

/-- The address of a node unless another is given. -/
def defaultAddr : String := "127.0.0.1:9428"

/-- The URL of the node that a command is for. -/
def baseUrl (addr : Option String) : String :=
  Http.urlOf (Http.trimSlashes (addr.getD defaultAddr))

/-- Runs a command line. -/
def run {σ : Type} (send : Transport σ) (s : Surroundings) (args : List String) :
    StateM σ Outcome := do
  match Invocation.read args with
  | .error r => return .ofRefusal r
  | .ok i =>
    match i.command.body s with
    | .error why => return .failure why
    | .ok body =>
      match ← send (baseUrl (i.addr.or s.addr)) (i.command.request body) with
      | .error e => return .failure e.message
      | .ok response => return i.command.conclude body.length response

end Logbook.Client
