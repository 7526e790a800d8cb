import Logbook.Cluster.Topology
import Logbook.Http.Transport
import Logbook.Json.Reader
import Logbook.Query.Wire.Request
import Logbook.Query.Wire.Result
import Logbook.Text.Replacement

set_option autoImplicit false

/-! # Remote storage nodes

A storage node that is reached through its endpoints for other nodes. Rows travel in the row codec,
queries and partial results as JSON. -/

namespace Logbook

open Http (Request Response Transport)

namespace Backend

variable {σ : Type}

/-- The URL of a storage node. -/
def remoteUrl (addr : String) : String :=
  if Http.hasScheme addr then Http.trimSlashes addr else Http.urlOf addr

/-- The fault that a response reports, if it is none of success. -/
def faultOf? (r : Response) : Option NodeFault :=
  if r.isSuccess then none
  else if r.status = 503 then some (.cannotWrite (Text.ofBytes r.body))
  else some (.status r.status (Text.ofBytes r.body))

/-- Sends a request to a storage node and gives its response if that reports success. -/
def exchange (send : Transport σ) (addr : String) (r : Request) : Call σ Response := do
  match ← (send (remoteUrl addr) r : StateM σ _) with
  | .error e => throw ⟨addr, .unreachable e.message⟩
  | .ok response =>
    match faultOf? response with
    | some fault => throw ⟨addr, fault⟩
    | none => return response

def getRequest (path : String) : Request := ⟨"GET", path, "", [], []⟩

/-- The request that stores rows. -/
def insertRequest (rows : List StoredRow) : Request :=
  ⟨"POST", "/internal/insert", "version=" ++ RowCodec.version, [], RowCodec.encodeStored rows⟩

/-- The request that runs the remote part of a query. -/
def queryRequest (q : RemoteQuery) : Request :=
  ⟨"POST", "/internal/select/query", "", [("content-type", "application/json")],
    Bytes.ofString q.toJson.render⟩

/-- The partial result in a response. -/
def readPartial? (r : Response) : Option PartialResult :=
  ((Bytes.toString? r.body).bind fun s => Json.parse? s.toList).bind PartialResult.ofJson?

/-- A storage node at an address. -/
def remote (send : Transport σ) (addr : String) : Backend σ where
  canWrite := do let _ ← exchange send addr (getRequest "/internal/can_write")
  addRows rows := do let _ ← exchange send addr (insertRequest rows)
  query q := do
    match readPartial? (← exchange send addr (queryRequest q)) with
    | some p => return some p
    | none => throw ⟨addr, .badResponse "error decoding response body"⟩
  flush _ := do let _ ← exchange send addr (getRequest "/internal/force_flush")

end Backend

/-- The topology of storage nodes at these addresses. -/
def Topology.remote {σ : Type} (send : Transport σ) (addrs : List String) (replicas : Nat) :
    Topology σ :=
  .ofBackends (addrs.map (Backend.remote send)) replicas

end Logbook
