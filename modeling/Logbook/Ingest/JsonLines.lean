import Logbook.Json.Reader
import Logbook.Json.Writer
import Logbook.Pieces
import Logbook.Text.Quoted
import Logbook.Time.Epoch
import Logbook.Time.Instant

set_option autoImplicit false

/-! # JSON lines

A payload of one JSON object per line. Every line that is not blank is a row of its own or is
skipped with a reason; one bad line spoils no other. Nested objects become fields whose names join
the keys with points, arrays become the text of the array, and nulls and empty strings vanish. One
of the top-level keys may carry the time. -/

namespace Logbook.JsonLines

/-! ## Errors -/

/-- Why a value is no time. -/
inductive TimeError where
  | unsupportedText (s : String)
  | outOfRange (s : String)
  | unsupportedValue (v : Json)

def TimeError.message : TimeError → String
  | .unsupportedText s => "unsupported timestamp " ++ Text.quoted s
  | .outOfRange s => "timestamp " ++ Text.quoted s ++ " is out of range"
  | .unsupportedValue v => "unsupported timestamp " ++ v.render

/-- Values nested deeper than this fail the line; the values of top-level keys have depth one. -/
def maxDepth : Nat := 32

/-- Why a line is skipped. -/
inductive LineError where
  | malformed
  | notAnObject
  | tooDeep
  | badTime (key : String) (why : TimeError)

def LineError.message : LineError → String
  | .malformed => "cannot parse JSON: malformed text"
  | .notAnObject => "JSON line must be an object"
  | .tooDeep => s!"JSON nesting exceeds {maxDepth} levels"
  | .badTime key why => "cannot parse " ++ key ++ ": " ++ why.message

/-! ## Values -/

mutual

/-- Whether no value inside this one, itself included, lies too deep. -/
def fits (depth : Nat) : Json → Bool
  | .arr items => depth ≤ maxDepth && fitsItems (depth + 1) items
  | .obj members => depth ≤ maxDepth && fitsMembers (depth + 1) members
  | _ => depth ≤ maxDepth

def fitsItems (depth : Nat) : List Json → Bool
  | [] => true
  | v :: rest => fits depth v && fitsItems depth rest

def fitsMembers (depth : Nat) : List (String × Json) → Bool
  | [] => true
  | (_, v) :: rest => fits depth v && fitsMembers depth rest

end

mutual

/-- The fields that a value at this depth adds under a path. -/
def flatten (depth : Nat) (path : String) : Json → Except LineError (List Field)
  | .obj members =>
    if depth ≤ maxDepth then flattenMembers (depth + 1) path members else .error .tooDeep
  | v =>
    if fits depth v then .ok (leaf v) else .error .tooDeep
where
  /-- The field of a value that is no object. -/
  leaf : Json → List Field
    | .null => []
    | .str s => if s.isEmpty then [] else [⟨path, s⟩]
    | v => [⟨path, v.render⟩]

def flattenMembers (depth : Nat) (path : String) :
    List (String × Json) → Except LineError (List Field)
  | [] => .ok []
  | (key, v) :: rest => do
    let fields ← flatten depth (path ++ "." ++ key) v
    let more ← flattenMembers depth path rest
    return fields ++ more

end

/-- The time in a value; `none` leaves the row without one. -/
def readTime : Json → Except TimeError (Option Timestamp)
  | .null => .ok none
  | .int n =>
    match Time.ofInt? n with
    | some i => .ok (Time.ofWhole i)
    | none => .ok (Time.ofFloat (UInt64.ofNat n.toNat).toFloat)
  | .float x => .ok (Time.ofFloat x)
  | .str s =>
    let s := Text.trim s
    if s.isEmpty || s == "0" then .ok none
    else match Time.readOffsetTime? s.toList with
    | some n =>
      match Time.ofInt? n with
      | some t => .ok (some t)
      | none => .error (.outOfRange s)
    | none => match Decimal.readInt64? s with
      | some i => .ok (Time.ofWhole i)
      | none => match Decimal.read? s with
        | some x => if x.isFinite then .ok (Time.ofFloat x) else .error (.unsupportedText s)
        | none => .error (.unsupportedText s)
  | v => .error (.unsupportedValue v)

/-! ## Lines -/

/-- Adds one member of the object to the row. -/
def addMember (timeKey : Option String) (row : DecodedRow) (member : String × Json) :
    Except LineError DecodedRow :=
  if timeKey = some member.1 then
    match readTime member.2 with
    | .ok t => .ok { row with timestamp := t }
    | .error e => .error (.badTime member.1 e)
  else do
    let fields ← flatten 1 member.1 member.2
    return { row with otherFields := row.otherFields ++ fields }

/-- The row that an object stands for. The first of the time fields that is among its keys carries
    the time. -/
def ofMembers (timeFields : List String) (members : List (String × Json)) :
    Except LineError DecodedRow :=
  let timeKey := timeFields.find? fun key => members.any (·.1 == key)
  members.foldlM (addMember timeKey) ⟨none, [], []⟩

/-- The row of one line. -/
def readLine (timeFields : List String) (line : Bytes) : Except LineError DecodedRow :=
  match (Bytes.toString? line).bind fun s => Json.parse? s.toList with
  | none => .error .malformed
  | some v =>
    match v.resolve with
    | .obj members => ofMembers timeFields members
    | _ => .error .notAnObject

/-- A line that gave no row; lines count from one. -/
structure SkippedLine where
  line : Nat
  why : LineError

/-- What a payload comes to. -/
structure Decoded where
  rows : List DecodedRow
  skipped : List SkippedLine

/-- The line without the carriage return at its end. -/
def withoutReturn (line : Bytes) : Bytes :=
  if line.getLast? = some 13 then line.dropLast else line

/-- Decodes lines; `number` is the number of the first. -/
def decodeLines (timeFields : List String) : (number : Nat) → List Bytes → Decoded
  | _, [] => ⟨[], []⟩
  | number, line :: rest =>
    let after := decodeLines timeFields (number + 1) rest
    let line := withoutReturn line
    if line.all Bytes.isAsciiBlank then after
    else match readLine timeFields line with
    | .ok row => { after with rows := row :: after.rows }
    | .error e => { after with skipped := ⟨number, e⟩ :: after.skipped }

def decode (timeFields : List String) (payload : Bytes) : Decoded :=
  decodeLines timeFields 1 (pieces 10 payload)

end Logbook.JsonLines
