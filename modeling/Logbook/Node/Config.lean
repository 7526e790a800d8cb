import Logbook.ByteSize
import Logbook.CommandLine
import Logbook.Node.ConfigFile
import Logbook.Text.Quoted
import Logbook.Time.Duration

set_option autoImplicit false

/-! # Configuration of a node

A node is configured by its command line and by a file, and where both speak the command line wins.
A node without storage nodes keeps rows itself; one with storage nodes passes rows and queries on to
them. Durations are in nanoseconds. -/

namespace Logbook

/-- What a node does. -/
inductive NodeRole where
  | storage
  | router
  deriving DecidableEq, Repr

structure NodeConfig where
  /-- The address on which the node listens. -/
  listen : String := "127.0.0.1:9428"
  /-- The directory of the node's own store. -/
  dataPath : String := "lh-data"
  retention : Nat := 7 * 86400 * 1000000000
  storageNodes : List String := []
  /-- Nodes that keep the same rows. -/
  replicas : Nat := 3
  /-- Whether rows are taken in. -/
  insert : Bool := true
  /-- Whether queries are answered. -/
  select : Bool := true
  maxRequestSize : Nat := 64 * 1024 * 1024
  readOnly : Bool := false
  maxDiskBytes : Nat := 0
  flushInterval : Nat := 1000 * 1000000
  /-- How long a query may take unless it says otherwise. -/
  timeout : Nat := 30000 * 1000000
  deriving DecidableEq, Repr, Inhabited

/-- Why a configuration is refused. -/
inductive ConfigError where
  | usage (e : CommandLine.UsageError)
  | unreadable (path : String)
  | invalid (flag value reason : String)
  deriving DecidableEq, Repr

def ConfigError.message : ConfigError → String
  | .usage e => e.message
  | .unreadable path => "cannot parse config file " ++ path ++ ": malformed document"
  | .invalid flag value reason => "invalid " ++ flag ++ "=" ++ Text.quoted value ++ ": " ++ reason

namespace NodeConfig

def role (c : NodeConfig) : NodeRole :=
  if c.storageNodes.isEmpty then .storage else .router

/-! ## The command line -/

def grammar : CommandLine.Grammar where
  flags := [⟨"http-listen-addr", .text⟩, ⟨"storage-data-path", .path⟩, ⟨"retention-period", .text⟩,
    ⟨"storage-node", .list⟩, ⟨"replication-factor", .count⟩, ⟨"insert-disable", .truth⟩,
    ⟨"select-disable", .truth⟩, ⟨"max-request-size", .text⟩, ⟨"read-only", .truth⟩,
    ⟨"config", .path⟩]
  plain := 0
  commands := []
  hasVersion := true

/-- The path of the file unless the command line gives another. -/
def defaultPath : String := "lhnode.toml"

/-- Nanoseconds in a millisecond. -/
def nanosPerMilli : Nat := 1000000

/-- Reads a retention. -/
def readRetention (s : String) : Except ConfigError Nat :=
  match Time.parseDuration? s with
  | some d => if 0 < d then .ok d.toInt.toNat else .error (bad s)
  | none => .error (bad s)
where
  bad (s : String) : ConfigError :=
    .invalid "retention-period" s "expected a positive duration such as 7d"

/-- Reads the longest body. -/
def readRequestSize (s : String) : Except ConfigError Nat :=
  match ByteSize.read? s with
  | some n => .ok n
  | none => .error (.invalid "max-request-size" s "expected a size such as 64MiB")

/-- Refuses a number of replicas that does not divide the nodes into shards. -/
def checkReplicas (nodes : List String) (replicas : Nat) : Except ConfigError Unit :=
  let invalid (reason : String) : Except ConfigError Unit :=
    .error (.invalid "replication-factor" (toString replicas) reason)
  if replicas = 0 then invalid "must be at least 1"
  else if nodes.length % replicas ≠ 0 then
    invalid s!"the {nodes.length} storage nodes cannot be split into groups of this size"
  else .ok ()

/-- The configuration of a command line over a file. -/
def resolve (args : CommandLine.Matches) (file : ConfigFile) : Except ConfigError NodeConfig := do
  let default : NodeConfig := {}
  let retention ← readRetention ((args.value? "retention-period").getD file.retention)
  let maxRequestSize ← match args.value? "max-request-size" with
    | some s => readRequestSize s
    | none => .ok file.maxRequestSize
  let storageNodes := ((args.all "storage-node").map Text.trim).filter (· != "")
  let replicas := (args.count? "replication-factor").getD default.replicas
  checkReplicas storageNodes replicas
  return {
    listen := (args.value? "http-listen-addr").getD default.listen
    dataPath := (args.value? "storage-data-path").getD default.dataPath
    retention, storageNodes, replicas, maxRequestSize
    insert := !args.isTrue "insert-disable"
    select := !args.isTrue "select-disable"
    readOnly := args.isTrue "read-only" || file.readOnly
    maxDiskBytes := file.maxDiskBytes
    flushInterval := max 1 file.flushIntervalMillis * nanosPerMilli
    timeout := max 1 file.timeoutMillis * nanosPerMilli }

/-- The configuration that a command line asks for. `fileAt` gives the text of a file that
    exists. -/
def load (args : List String) (fileAt : String → Option String) :
    Except ConfigError NodeConfig := do
  let args ← (grammar.read args).mapError ConfigError.usage
  let path := (args.value? "config").getD defaultPath
  let file ← match fileAt path with
    | none => .ok {}
    | some content =>
      match ConfigFile.read? content with
      | some file => .ok file
      | none => .error (.unreadable path)
  resolve args file

end NodeConfig

end Logbook
