import Logbook.Chunks
import Logbook.Cluster.NodeError
import Logbook.Query.Plan

set_option autoImplicit false

/-! # Topology

A topology is the set of storage nodes that keep the rows of a cluster. Consecutive nodes form a
shard and keep the same rows; a row belongs to the shard that its stream picks. Whatever changes
when a node is called is a state `σ`, the same for all nodes. Nodes are called one after another,
and the first failure ends a round of calls; what the calls before it have changed stays. -/

namespace Logbook

/-- A call to a storage node. -/
abbrev Call (σ α : Type) := ExceptT NodeError (StateM σ) α

/-- A storage node as a topology sees it. -/
structure Backend (σ : Type) where
  /-- Whether the node takes writes. -/
  canWrite : Call σ Unit
  /-- Stores rows: all of them, or none if it fails. -/
  addRows : List StoredRow → Call σ Unit
  /-- Runs the remote part of a query; `none` if the node never answers. -/
  query : RemoteQuery → Call σ (Option PartialResult)
  /-- Makes all stored rows visible to queries. -/
  flush : Timestamp → Call σ Unit

namespace Backend

/-- A store inside a state. -/
structure Slot (σ : Type) where
  get : σ → Storage
  set : σ → Storage → σ

/-- The name under which a process reports failures of its own store. -/
def localName : String := "local"

variable {σ : Type}

/-- Turns the outcome of a store into the outcome of a call. -/
def liftStore {α : Type} (name : String) : Except StoreError α → Call σ α
  | .ok x => pure x
  | .error e => throw (.ofStore name e)

/-- The store in a slot as a storage node. -/
def ofStore (slot : Slot σ) : Backend σ where
  canWrite := do liftStore localName (slot.get (← get)).canWrite
  addRows rows := do
    let s ← liftStore localName ((slot.get (← get)).add rows)
    modify (slot.set · s)
  query q := do return some (q.run (slot.get (← get)))
  flush now := modify fun state => slot.set state ((slot.get state).flush now).1

/-- A state that is one store. -/
def Slot.whole : Slot Storage := ⟨id, fun _ s => s⟩

/-- The store at an index of a list. -/
def Slot.at (i : Nat) : Slot (List Storage) := ⟨fun ss => ss.getD i default, fun ss s => ss.set i s⟩

end Backend

/-- Storage nodes by shard. The nodes of a shard keep the same rows. -/
structure Topology (σ : Type) where
  shards : List (List (Backend σ))

namespace Topology

variable {σ : Type}

/-- Every `replicas` consecutive nodes form a shard; the last shard may have fewer. -/
def ofBackends (backends : List (Backend σ)) (replicas : Nat) : Topology σ :=
  ⟨chunks (max 1 replicas) backends⟩

/-- The topology of a single store. -/
def single : Topology Storage :=
  ofBackends [.ofStore .whole] 1

/-- The topology of a list of `n` stores. -/
def stores (n replicas : Nat) : Topology (List Storage) :=
  ofBackends ((List.range n).map fun i => .ofStore (.at i)) replicas

/-- Asks every node whether it takes writes. -/
def canWrite (t : Topology σ) : Call σ Unit :=
  t.shards.flatten.forM (·.canWrite)

/-- The rows that belong to one of `n` shards. -/
def share (n i : Nat) (rows : List StoredRow) : List StoredRow :=
  rows.filter (·.streamId.shard n == i)

/-- Stores rows on every node of a shard, if there are any. -/
def writeShard (replicas : List (Backend σ)) (rows : List StoredRow) : Call σ Unit :=
  if rows.isEmpty then pure () else replicas.forM (·.addRows rows)

/-- Stores every row on all nodes of its shard. Rows of a shard keep their order. -/
def write (t : Topology σ) (rows : List StoredRow) : Call σ Unit :=
  t.shards.zipIdx.forM fun (replicas, i) => writeShard replicas (share t.shards.length i rows)

/-- Runs the remote part of a query on the first node of every shard. -/
def query (t : Topology σ) (q : RemoteQuery) : Call σ (List (Option PartialResult)) :=
  (t.shards.filterMap List.head?).mapM (·.query q)

/-- Makes all rows on all nodes visible to queries. -/
def flush (t : Topology σ) (now : Timestamp) : Call σ Unit :=
  t.shards.flatten.forM (·.flush now)

end Topology

end Logbook
