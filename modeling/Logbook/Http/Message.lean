import Logbook.Bytes

set_option autoImplicit false

/-! # HTTP messages

A request names a method and a target, the target being a path and a query string. Headers are
looked up by name without regard to case. -/

namespace Logbook.Http

/-- Names with values, in order. -/
abbrev Headers := List (String × String)

namespace Headers

/-- The value of the first header of that name, given in lower case. -/
def get? (headers : Headers) (name : String) : Option String :=
  (headers.find? fun h => String.ofList (h.1.toList.map Char.toLower) == name).map (·.2)

/-- Whether a character may stand in the text of a header. -/
def isTextChar (c : Char) : Bool :=
  c = '\t' || (32 ≤ c.toNat && c.toNat < 127)

/-- The value of a header if it is plain text. -/
def text? (headers : Headers) (name : String) : Option String :=
  match get? headers name with
  | some v => if v.toList.all isTextChar then some v else none
  | none => none

end Headers

structure Request where
  method : String
  path : String
  /-- What follows the question mark of the target. -/
  query : String
  headers : Headers
  body : Bytes
  deriving Repr

namespace Request

/-- The request for a target, a path with a query string behind a question mark. What follows a
    number sign is not sent. -/
def ofTarget (method target : String) (headers : Headers) (body : Bytes) : Request :=
  let cs := target.toList.takeWhile (· != '#')
  let isPath (c : Char) : Bool := c != '?'
  { method, headers, body
    path := String.ofList (cs.takeWhile isPath)
    query := String.ofList ((cs.dropWhile isPath).drop 1) }

end Request

structure Response where
  status : Nat
  contentType : Option String
  body : Bytes
  deriving DecidableEq, Repr

namespace Response

/-- A response without content. -/
def empty (status : Nat) : Response := ⟨status, none, []⟩

def plainText : String := "text/plain; charset=utf-8"

/-- A text. -/
def ofText (status : Nat) (text : String) : Response :=
  ⟨status, some plainText, Bytes.ofString text⟩

/-- A text of another type. -/
def ofTyped (contentType text : String) : Response :=
  ⟨200, some contentType, Bytes.ofString text⟩

/-- Whether the request was served. -/
def isSuccess (r : Response) : Bool :=
  200 ≤ r.status && r.status < 300

end Response

end Logbook.Http
