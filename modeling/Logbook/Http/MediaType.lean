import Logbook.Http.Message
import Logbook.Pieces

set_option autoImplicit false

/-! # Media types

The type of a body: a type and a subtype around a slash, then parameters behind semicolons. Case
does not matter. A subtype may say behind its last plus sign what syntax it is written in. -/

namespace Logbook.Http

structure MediaType where
  type : String
  /-- The subtype without the suffix. -/
  subtype : String
  /-- What stands behind the last plus sign of the subtype. -/
  suffix : Option String
  deriving DecidableEq, Repr

namespace MediaType

/-- Whether a character may stand in a name. -/
def isTokenChar (c : Char) : Bool :=
  c.isAlphanum || "!#$%&'*+-.^_\x60|~".toList.contains c

def isToken (cs : List Char) : Bool :=
  !cs.isEmpty && cs.all isTokenChar

/-- Whether a text is quoted, a backslash guarding the character behind it. -/
def isQuotedRest : List Char → Bool
  | [] => false
  | ['"'] => true
  | '"' :: _ => false
  | '\\' :: c :: rest => Headers.isTextChar c && isQuotedRest rest
  | c :: rest => Headers.isTextChar c && isQuotedRest rest

/-- Whether a piece behind a semicolon is a parameter. Blanks in front do not count. -/
def isParameter (piece : List Char) : Bool :=
  let piece := piece.dropWhile (· == ' ')
  isToken (piece.takeWhile (· != '=')) &&
    match piece.dropWhile (· != '=') with
    | '=' :: '"' :: rest => isQuotedRest rest
    | '=' :: value => value.all isTokenChar
    | _ => false

/-- Whether what follows the subtype is a list of parameters; the last piece may be blank. -/
def areParameters (cs : List Char) : Bool :=
  match (pieces ';' cs).reverse with
  | last :: more => (last.all (· == ' ') || isParameter last) && more.all isParameter
  | [] => true

def lower (cs : List Char) : String :=
  String.ofList (cs.map Char.toLower)

/-- Reads a media type. -/
def read? (s : String) : Option MediaType :=
  let name := s.toList.takeWhile (· != ';')
  let parameters := (s.toList.dropWhile (· != ';')).drop 1
  let type := name.takeWhile (· != '/')
  let subtype := (name.dropWhile (· != '/')).drop 1
  if !isToken type || !isToken subtype || subtype.head? = some '+' || !areParameters parameters then
    none
  else match subtype.reverse.span (· != '+') with
    | (suffix, _ :: plain) => some ⟨lower type, lower plain.reverse, some (lower suffix.reverse)⟩
    | (_, []) => some ⟨lower type, lower subtype, none⟩

/-- Whether bodies of the type are JSON. -/
def isJson (m : MediaType) : Bool :=
  m.type == "application" && (m.subtype == "json" || m.suffix == some "json")

end MediaType

/-- Whether the body of a request is said to be JSON. -/
def Request.hasJson (r : Request) : Bool :=
  ((Headers.text? r.headers "content-type").bind MediaType.read?).any (·.isJson)

/-- The type of forms. -/
def formType : String := "application/x-www-form-urlencoded"

/-- Whether the body of a request is said to be a form. -/
def Request.hasForm (r : Request) : Bool :=
  match Headers.text? r.headers "content-type" with
  | some t => formType.toList.isPrefixOf t.toList
  | none => false

end Logbook.Http
