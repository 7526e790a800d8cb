import Logbook.Cluster.Topology
import Logbook.Query.Parser
import Logbook.Time.Duration

set_option autoImplicit false

/-! # Running queries

The remote part of a query runs on every shard, the partial results are merged and the local part
runs over them. A query has an answer over all shards or none at all. -/

namespace Logbook

/-- Why a query fails. -/
inductive SearchError where
  | parse (e : ParseError)
  | badParam (message : String)
  | timeout (nanos : Nat)
  | node (e : NodeError)
  | merge (e : MergeError)

namespace SearchError

def message : SearchError → String
  | .parse e => e.describe
  | .badParam message => message
  | .timeout nanos => "query timed out after " ++ Time.renderDuration nanos
  | .node e => e.message
  | .merge e => e.message

/-- The status of a response that reports the failure. -/
def status : SearchError → Nat
  | .parse _ | .badParam _ => 400
  | .timeout _ => 504
  | .node e => e.status
  | .merge _ => 502

end SearchError

/-- A search that may change the state behind the storage nodes and fails or answers. -/
abbrev Search (σ α : Type) := ExceptT SearchError (StateM σ) α

namespace Query

/-- Turns the failure of a node into the failure of a search. -/
def liftCall {σ α : Type} (call : Call σ α) : Search σ α :=
  ExceptT.adapt SearchError.node call

/-- All partial results, or a timeout if a node does not answer. -/
def gather (timeout : Nat) (partials : List (Option PartialResult)) :
    Except SearchError (List PartialResult) :=
  match partials.mapM id with
  | some ps => .ok ps
  | none => .error (.timeout timeout)

/-- Merges partial results and runs the local part. -/
def conclude (plan : Plan) (timeout : Nat) (partials : List (Option PartialResult)) :
    Except SearchError (List QueryRow) := do
  let ps ← gather timeout partials
  match plan.finish ps with
  | .ok rows => .ok rows
  | .error e => .error (.merge e)

/-- The rows that answer a query. -/
def run {σ : Type} (q : Query) (t : Topology σ) (timeout : Nat) : Search σ (List QueryRow) := do
  let plan := Plan.ofQuery q
  let partials ← liftCall (t.query plan.remote)
  liftExcept (conclude plan timeout partials)

end Query

end Logbook
