set_option autoImplicit false

/-! # Status codes

The phrases that go with the codes of responses. -/

namespace Logbook.Http

/-- The phrase of a code. -/
def statusPhrase? : Nat → Option String
  | 200 => some "OK"
  | 400 => some "Bad Request"
  | 404 => some "Not Found"
  | 405 => some "Method Not Allowed"
  | 413 => some "Payload Too Large"
  | 415 => some "Unsupported Media Type"
  | 422 => some "Unprocessable Entity"
  | 500 => some "Internal Server Error"
  | 502 => some "Bad Gateway"
  | 503 => some "Service Unavailable"
  | 504 => some "Gateway Timeout"
  | _ => none

/-- A code with its phrase. -/
def renderStatus (code : Nat) : String :=
  toString code ++ " " ++ (statusPhrase? code).getD "<unknown status code>"

end Logbook.Http
