import Logbook.Json.Reader
import Logbook.Query.Wire.Request

set_option autoImplicit false

/-! # Queries as documents

A query arrives as the bytes of a JSON document. A document is refused either because it is no JSON
or because it is no query; which of the two is told by what comes first, since a member is looked at
as soon as it has been read. What stands behind the value of a document does not count. -/

namespace Logbook

/-- Why a document is no query. -/
inductive DocumentFault where
  | malformed
  | unfit
  deriving DecidableEq, Repr

namespace RemoteQuery

open Wire

/-- Whether a value fits a member, whatever the others are. -/
def fitsMember (key : String) (v : Json) : Bool :=
  match key with
  | "filter" => (Filter.ofJson? v).isSome
  | "pipes" => (list? Pipe.ofJson? v).isSome
  | "terminal" => (nullable? Pipe.ofJson? v).isSome
  | "min_ts" | "max_ts" => (time? v).isSome
  | _ => true

def memberNames : List String := ["filter", "pipes", "terminal", "min_ts", "max_ts"]

/-- Whether the first character of a value shows that it does not fit a member. -/
def clashes (key : String) (c : Char) : Bool :=
  match key with
  | "pipes" => c == '{'
  | "min_ts" | "max_ts" => c == '{' || c == '['
  | _ => false

/-- Whether members that go wrong further on hold, before that, one that is repeated or does not
    fit. -/
def failsEarly : (fuel : Nat) → (seen : List String) → List Char → Bool
  | 0, _, _ => false
  | fuel + 1, seen, cs =>
    match Json.skipSpace cs with
    | '"' :: rest =>
      match Json.readString rest [] with
      | none => false
      | some (key, rest) =>
        if memberNames.contains key && seen.contains key then true
        else match Json.skipSpace rest with
        | ':' :: rest =>
          match Json.readValue (2 * rest.length + 2) (Json.maxDepth - 1) rest with
          | none => ((Json.skipSpace rest).head?.map (clashes key)).getD false
          | some (v, rest) =>
            if !fitsMember key v then true
            else match Json.skipSpace rest with
            | ',' :: rest => failsEarly fuel (key :: seen) rest
            | _ => false
        | _ => false
    | _ => false

/-- Reads the text of a query. -/
def ofText (cs : List Char) : Except DocumentFault RemoteQuery :=
  match Json.readValue (2 * cs.length + 2) Json.maxDepth cs with
  | some (v, _) =>
    match ofJson? v with
    | some q => .ok q
    | none => .error .unfit
  | none =>
    match Json.skipSpace cs with
    | '{' :: rest => .error (if failsEarly rest.length [] rest then .unfit else .malformed)
    | _ => .error .malformed

/-- Reads the bytes of a query. -/
def ofBytes (b : Bytes) : Except DocumentFault RemoteQuery :=
  match Bytes.toString? b with
  | some s => ofText s.toList
  | none => .error .malformed

end RemoteQuery

end Logbook
