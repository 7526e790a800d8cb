import Logbook.Decimal.Read
import Logbook.Deflate.Source
import Logbook.Ingest.Error

set_option autoImplicit false

/-! # Request bodies

A body arrives in chunks and may be compressed. Both its length on the wire and the length of what
it inflates to are bounded, and reading stops at the bound. -/

namespace Logbook.Body

/-- A piece of a body, or the failure of the connection. -/
inductive Chunk where
  | data (bytes : Bytes)
  | failure (message : String)
  deriving DecidableEq, Repr

/-- Appends chunks to what has been read while it stays within the limit. -/
def collect (format : String) (limit : Nat) : (out : Bytes) → List Chunk → Except IngestError Bytes
  | out, [] => .ok out
  | _, .failure message :: _ => .error (.body format message)
  | out, .data b :: rest =>
    if limit < out.length + b.length then .error (.tooLarge format limit)
    else collect format limit (out ++ b) rest

/-- Reads a whole body. A declared length above the limit is refused before anything is read; one
    that is no number counts for nothing. -/
def read (format : String) (limit : Nat) (declared : Option String) (chunks : List Chunk) :
    Except IngestError Bytes :=
  match declared.bind Decimal.readUInt64? with
  | some n =>
    if limit < n then .error (.tooLarge format limit) else collect format limit [] chunks
  | none => collect format limit [] chunks

/-- Reads a source to its end. The one byte that is asked for beyond the limit shows that there are
    too many; where the source would fail behind it is not found out. The largest machine word is a
    limit as well: no memory holds as many bytes, so that it makes no difference whether the byte
    beyond it can be asked for. -/
def bounded (format encoding : String) (limit size : Nat) (s : Deflate.Source) :
    Except IngestError Bytes :=
  match (s.take (limit + 1)).toEnd? with
  | none => .error (.decompress format encoding size)
  | some out => if limit < out.length then .error (.tooLarge format limit) else .ok out

/-- The text in lower case where it has ASCII letters. -/
def asciiLower (s : String) : String :=
  String.ofList (s.toList.map Char.toLower)

/-- The name of an encoding; it is empty if there is none. -/
def encodingName (encoding : Option String) : String :=
  asciiLower (Text.trim (encoding.getD ""))

/-- What a body inflates to under the name of an encoding, and the name that reports have for it. -/
def source? (encoding : String) (body : Bytes) : Option (String × Deflate.Source) :=
  if encoding == "gzip" || encoding == "x-gzip" then some ("gzip", .ofGzip body)
  else if encoding == "deflate" then some ("deflate", .ofZlib body)
  else none

/-- Inflates a body as its encoding says. The length of a body without encoding is not looked at
    again. -/
def decompress (format : String) (limit : Nat) (encoding : Option String) (body : Bytes) :
    Except IngestError Bytes :=
  let encoding := encodingName encoding
  if encoding == "" || encoding == "identity" then .ok body
  else match source? encoding body with
    | some (name, s) => bounded format name limit body.length s
    | none => .error (.unsupportedEncoding format encoding)

end Logbook.Body
