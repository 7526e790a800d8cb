import Logbook.Http.Message

set_option autoImplicit false

/-! # Transport

A request is sent to a server, which has a base URL, and is answered or gets no response. Whatever
servers change when they answer is a state `σ`. -/

namespace Logbook.Http

/-! ## Addresses -/

def hasScheme (addr : String) : Bool :=
  "http://".toList.isPrefixOf addr.toList || "https://".toList.isPrefixOf addr.toList

/-- The URL of an address. -/
def urlOf (addr : String) : String :=
  if hasScheme addr then addr else "http://" ++ addr

/-- A text without the slashes at its end. -/
def trimSlashes (s : String) : String :=
  String.ofList (s.toList.reverse.dropWhile (· == '/')).reverse

/-- What follows the server's URL in the URL of a request. -/
def Request.target (r : Request) : String :=
  if r.query.isEmpty then r.path else r.path ++ "?" ++ r.query

/-! ## Sending -/

/-- A request that got no response: where it was sent and why it did not arrive. -/
structure TransportError where
  url : String
  reason : String
  deriving DecidableEq, Repr

def TransportError.message (e : TransportError) : String :=
  "error sending request for url (" ++ e.url ++ "): error trying to connect: tcp connect error: "
    ++ e.reason

/-- How requests reach servers. -/
abbrev Transport (σ : Type) :=
  (server : String) → Request → StateM σ (Except TransportError Response)

namespace Transport

variable {σ : Type}

/-- The failure to reach a server. -/
def failure (server : String) (r : Request) (reason : String) : TransportError :=
  ⟨server ++ r.target, reason⟩

/-- Why nothing arrives without a network. -/
def noNetwork : String := "Network is unreachable (os error 101)"

/-- Why nothing arrives where no server listens. -/
def noServer : String := "Connection refused (os error 111)"

/-- No network: nothing arrives. -/
def down : Transport σ := fun server r => pure (.error (failure server r noNetwork))

/-- A server at a URL. -/
structure Server (σ : Type) where
  url : String
  handle : Request → StateM σ Response

/-- A network of these servers. -/
def ofServers (servers : List (Server σ)) : Transport σ := fun server r =>
  match servers.find? (·.url == server) with
  | some s => return .ok (← s.handle r)
  | none => pure (.error (failure server r noServer))

end Transport

end Logbook.Http
