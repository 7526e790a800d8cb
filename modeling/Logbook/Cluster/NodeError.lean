import Logbook.Journal

set_option autoImplicit false

/-! # Failures of storage nodes

A storage node may refuse a write, be out of reach, answer with an error or with something that is
no answer. Each failure names the node. -/

namespace Logbook

/-- What went wrong at a storage node. -/
inductive NodeFault where
  | cannotWrite (message : String)
  | unreachable (message : String)
  | status (code : Nat) (message : String)
  | badResponse (message : String)
  | internal (message : String)
  deriving DecidableEq, Repr

/-- A failure at a storage node. -/
structure NodeError where
  node : String
  fault : NodeFault
  deriving DecidableEq, Repr

namespace NodeError

/-- The failure of the store on a node. -/
def ofStore (node : String) : StoreError → NodeError
  | .cannotWrite why => ⟨node, .cannotWrite why.message⟩
  | e => ⟨node, .internal e.message⟩

def message (e : NodeError) : String :=
  let subject := "storage node " ++ e.node
  match e.fault with
  | .cannotWrite message => subject ++ " cannot accept writes: " ++ message
  | .unreachable message => subject ++ " is unreachable: " ++ message
  | .status code message => subject ++ s!" responded with status {code}: " ++ message
  | .badResponse message =>
    "cannot decode response from " ++ subject ++ ": " ++ message
  | .internal message => subject ++ " failed: " ++ message

/-- The status of a response that reports the failure. -/
def status (e : NodeError) : Nat :=
  match e.fault with
  | .cannotWrite _ => 503
  | .internal _ => 500
  | _ => 502

end NodeError

end Logbook
