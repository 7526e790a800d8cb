import Logbook.Http.MediaType
import Logbook.Ingest.Receive
import Logbook.Node.Config
import Logbook.Query.Document
import Logbook.Query.Wire.Result
import Logbook.Search.Endpoint

set_option autoImplicit false

/-! # The service of a node

A node answers requests for its endpoints. Which endpoints it has depends on its configuration:
those for rows and for queries may be switched off, and those that other nodes use are there if the
node has a store of its own. -/

namespace Logbook

/-- A node over a state that the storage nodes of its topology share. -/
structure Node (σ : Type) where
  config : NodeConfig
  topology : Topology σ
  /-- The node's own store, if it has one. -/
  store : Option (σ → Storage)

/-! ## Endpoints -/

/-- What a node can be asked for. -/
inductive Endpoint where
  | health
  | metrics
  | flush
  | canWrite
  | partialQuery
  | ingest (path : IngestPath)
  | search (kind : SearchKind)
  deriving DecidableEq, Repr

namespace Endpoint

/-- The endpoint at a path. -/
def ofPath? : String → Option Endpoint
  | "/health" => some .health
  | "/metrics" => some .metrics
  | "/internal/force_flush" => some .flush
  | "/internal/can_write" => some .canWrite
  | "/internal/select/query" => some .partialQuery
  | "/select/logsql/query" => some (.search .rows)
  | "/select/logsql/facets" => some (.search .facets)
  | "/select/logsql/stats_query" => some (.search .statsAt)
  | "/select/logsql/stats_query_range" => some (.search .statsOver)
  | path => (IngestPath.all.find? (·.target == path)).map .ingest

/-- The methods of requests for an endpoint. -/
def methods : Endpoint → List String
  | .health | .metrics | .canWrite => ["GET"]
  | .partialQuery | .ingest _ => ["POST"]
  | .flush | .search _ => ["GET", "POST"]

end Endpoint

namespace Node

variable {σ : Type}

/-- Whether the node has an endpoint. -/
def offers (n : Node σ) : Endpoint → Bool
  | .health | .metrics | .flush => true
  | .canWrite | .partialQuery | .ingest .forwarded => n.store.isSome
  | .ingest _ => n.config.insert
  | .search _ => n.config.select

/-- A request being served. -/
abbrev Serving (σ α : Type) := StateM (σ × Counters) α

/-! ## Answers -/

/-- The empty response of something done, or the failure of a storage node. -/
def answerCall (call : Call σ Unit) : Serving σ Http.Response := fun (world, counters) =>
  match call.run world with
  | (.ok _, world) => (.empty 200, (world, counters))
  | (.error e, world) => (.ofText e.status e.message, (world, counters))

/-- The response to a request for rows: there is nothing to say unless it fails. -/
def ingestResponse : Except IngestError Nat → Http.Response
  | .ok _ => .empty 200
  | .error e => .ofText e.status e.message

/-- Takes in the rows of a body that arrives in chunks. -/
def answerIngest (n : Node σ) (path : IngestPath) (now : Timestamp) (micros : Nat) (args : Args)
    (headers : Http.Headers) (chunks : List Body.Chunk) : Serving σ Http.Response := do
  return ingestResponse (← (Ingestion.serve n.topology path args headers chunks
    n.config.maxRequestSize now micros).run)

/-- The longest body of a form or of a JSON value, in bytes. -/
def maxDocumentSize : Nat := 2 * 1024 * 1024

/-- The arguments of a search: those of the target, then those of a form in the body. -/
def searchArgs (r : Http.Request) : Args :=
  let target := Http.Form.read (Bytes.ofString r.query)
  if r.method != "GET" && r.hasForm && r.body.length ≤ maxDocumentSize then
    target ++ Http.Form.read r.body
  else target

/-- The search that a request asks for. -/
def search (n : Node σ) (kind : SearchKind) (now : Timestamp) (r : Http.Request) :
    Search σ Http.Response := do
  let plan ← liftExcept (SearchPlan.ofArgs kind (searchArgs r) now n.config.timeout)
  plan.run n.topology

/-- Runs a search and counts it. -/
def answerSearch (n : Node σ) (kind : SearchKind) (now : Timestamp) (r : Http.Request) :
    Serving σ Http.Response := fun (world, counters) =>
  let counters := counters.countSearch
  match (n.search kind now r).run world with
  | (.ok response, world) => (response, (world, counters))
  | (.error e, world) => (.ofText e.status e.message, (world, counters.countFailedSearch))

/-- The remote part of a query that another node sends, run on the node's own store. -/
def answerPartial (store : σ → Storage) (world : σ) (r : Http.Request) : Http.Response :=
  if !r.hasJson then
    .ofText 415 "Expected request with \x60Content-Type: application/json\x60"
  else if maxDocumentSize < r.body.length then
    .ofText 413 "Failed to buffer the request body: length limit exceeded"
  else match RemoteQuery.ofBytes r.body with
  | .ok q => SearchPlan.ofJson (q.run (store world)).toJson
  | .error .malformed => .ofText 400 "Failed to parse the request body as JSON"
  | .error .unfit => .ofText 422 "Failed to deserialize the JSON body into the target type"

/-- The type of a report. -/
def reportType : String := "text/plain; version=0.0.4"

/-- The answer of an endpoint. -/
def answer (n : Node σ) (endpoint : Endpoint) (now : Timestamp) (micros : Nat)
    (r : Http.Request) : Serving σ Http.Response :=
  match endpoint with
  | .health => return .ofText 200 "OK"
  | .metrics => fun (world, counters) =>
    (.ofTyped reportType (counters.report (n.store.map fun store => (store world).stats)),
      (world, counters))
  | .flush => answerCall (n.topology.flush now)
  | .canWrite => answerCall n.topology.canWrite
  | .partialQuery => fun (world, counters) =>
    ((n.store.map fun store => answerPartial store world r).getD (.empty 404), (world, counters))
  | .ingest path =>
    n.answerIngest path now micros (Http.Form.read (Bytes.ofString r.query)) r.headers
      [.data r.body]
  | .search kind => n.answerSearch kind now r

/-- Serves a request that arrives at `now` and takes `micros` microseconds, as told by whoever has a
    clock. A request that only asks for what is allowed is always granted, and one for the head of a
    response is served as if it asked for all of it. -/
def handle (n : Node σ) (now : Timestamp) (micros : Nat) (r : Http.Request) :
    Serving σ Http.Response := do
  if r.method == "OPTIONS" then return .empty 200
  match (Endpoint.ofPath? r.path).filter n.offers with
  | none => return .empty 404
  | some endpoint =>
    if endpoint.methods.contains r.method then n.answer endpoint now micros r
    else if r.method == "HEAD" && endpoint.methods.contains "GET" then
      return { ← n.answer endpoint now micros r with body := [] }
    else return .empty 405

end Node

end Logbook
