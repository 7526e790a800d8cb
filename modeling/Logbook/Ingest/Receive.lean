import Logbook.Cluster.Topology
import Logbook.Http.Message
import Logbook.Ingest.Body
import Logbook.Ingest.Format
import Logbook.Ingest.Params
import Logbook.Node.Counters

set_option autoImplicit false

/-! # Taking rows in

Each path on which rows arrive has its handler, which counts and refuses a request that it cannot
understand. One that it runs asks all storage nodes whether they take writes, reads and decodes the
whole body, classifies the rows and writes them to the nodes they belong to. It succeeds once all
rows are stored; one that fails before the write stores nothing. -/

namespace Logbook

/-- A computation that takes rows in: it changes the state behind the storage nodes and the
    counters, and fails or succeeds. -/
abbrev Ingestion (σ α : Type) := ExceptT IngestError (StateM (σ × Counters)) α

/-- What a request asks for apart from its body. -/
structure IngestJob where
  format : Format
  classifier : Classifier
  /-- The longest body that is read, in bytes. -/
  limit : Nat
  deriving DecidableEq, Repr

namespace IngestJob

/-- A limit that no body reaches. -/
def unlimited : Nat := UInt64.size - 1

/-- Refuses rows that are not in the version of the row codec that this node reads. -/
def checkVersion (args : Args) : Except IngestError Unit :=
  let version := ((args.find? (·.1 == "version")).map (·.2)).getD ""
  match RowCodec.checkVersion version with
  | .ok _ => .ok ()
  | .error e => .error (.badParam "version" e.message)

/-- Whether a body is said to be JSON. -/
def saysJson (headers : Http.Headers) : Bool :=
  match Http.Headers.text? headers "content-type" with
  | some t => "application/json".toList.isPrefixOf ((Text.trim t).toList.map Char.toLower)
  | none => false

/-- The decoded rows of a body and how many of its lines were skipped. -/
def decodeBody (job : IngestJob) (headers : Http.Headers) (chunks : List Body.Chunk) :
    Except IngestError (List DecodedRow × Nat) := do
  let name := job.format.name
  let raw ← Body.read name job.limit (Http.Headers.text? headers "content-length") chunks
  let payload ← Body.decompress name job.limit (Http.Headers.text? headers "content-encoding") raw
  job.format.decode payload

end IngestJob

namespace Ingestion

variable {σ α : Type}

/-- A call to storage nodes as a part of taking rows in. -/
def ofCall (call : Call σ α) : Ingestion σ α :=
  ExceptT.mk fun (world, counters) =>
    let (result, world) := call.run world
    (result.mapError IngestError.node, (world, counters))

/-- Changes the counters. -/
def count (f : Counters → Counters) : Ingestion σ Unit :=
  modify fun (world, counters) => (world, f counters)

/-- Counts a request, and its failure if it fails. -/
def counted (path : IngestPath) (act : Ingestion σ α) : Ingestion σ α :=
  ExceptT.mk fun (world, counters) =>
    match act.run (world, counters.countRequest path) with
    | (.ok x, state) => (.ok x, state)
    | (.error e, (world, counters)) => (.error e, (world, counters.countError path))

/-- Takes in the rows of a body and gives their number. -/
def receive (t : Topology σ) (path : IngestPath) (job : IngestJob) (headers : Http.Headers)
    (chunks : List Body.Chunk) (now : Timestamp) : Ingestion σ Nat := do
  ofCall t.canWrite
  let (decoded, skipped) ← liftExcept (job.decodeBody headers chunks)
  count (Counters.countSkipped path skipped)
  let rows := decoded.map (job.classifier.apply now)
  ofCall (t.write rows)
  count (Counters.countRows path rows.length)
  return rows.length

/-- Counts a request, its failure if it fails, and the microseconds that it takes if it does not. -/
def timed (path : IngestPath) (micros : Nat) (act : Ingestion σ α) : Ingestion σ α := do
  let x ← counted path act
  count (Counters.countMicros path micros)
  return x

/-- Runs a request that takes `micros` microseconds. -/
def ingest (t : Topology σ) (path : IngestPath) (job : IngestJob) (headers : Http.Headers)
    (chunks : List Body.Chunk) (now : Timestamp) (micros : Nat) : Ingestion σ Nat :=
  timed path micros (receive t path job headers chunks now)

/-! ## Handlers -/

/-- Counts a request that is not run, and its failure. -/
def refuse (path : IngestPath) (e : IngestError) : Ingestion σ α := do
  count (Counters.countRequest path)
  count (Counters.countError path)
  throw e

/-- Refuses a request that fails a check. -/
def orRefuse (path : IngestPath) : Except IngestError α → Ingestion σ α
  | .ok x => return x
  | .error e => refuse path e

/-- The parameters that all formats share. -/
def commonParams (path : IngestPath) (args : Args) : Ingestion σ IngestParams :=
  orRefuse path (IngestParams.ofArgs args)

/-- Refuses rows in another version of the row codec than the one that this node reads. -/
def nativeVersion (path : IngestPath) (args : Args) : Ingestion σ Unit :=
  orRefuse path (IngestJob.checkVersion args)

/-- Serves a request on a path, which takes `micros` microseconds. Rows that another node forwards
    have been classified and bounded there. -/
def serve (t : Topology σ) (path : IngestPath) (args : Args) (headers : Http.Headers)
    (chunks : List Body.Chunk) (limit : Nat) (now : Timestamp) (micros : Nat) : Ingestion σ Nat :=
  match path with
  | .opentelemetry => do
    if IngestJob.saysJson headers then refuse .opentelemetry .jsonLogs
    else
      let p ← commonParams .opentelemetry args
      let job := { format := .opentelemetry, classifier := p.classifier, limit }
      ingest t .opentelemetry job headers chunks now micros
  | .jsonLines => do
    let p ← commonParams .jsonLines args
    let job := { format := .jsonLines p.timeFields, classifier := p.classifier, limit }
    ingest t .jsonLines job headers chunks now micros
  | .native => do
    nativeVersion .native args
    let p ← commonParams .native args
    let job := { format := .native, classifier := p.classifier, limit }
    ingest t .native job headers chunks now micros
  | .forwarded => do
    nativeVersion .forwarded args
    let job := { format := .native, classifier := {}, limit := IngestJob.unlimited }
    ingest t .forwarded job headers chunks now micros

end Ingestion

end Logbook
