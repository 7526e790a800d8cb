import Logbook.Protobuf

set_option autoImplicit false

/-! # OpenTelemetry log messages

The messages of the OpenTelemetry protocol that carry logs: records grouped by the scope that wrote
them and the resource that the scope belongs to. Unknown fields are skipped. A field that occurs
again overrides a plain value and adds to a message. -/

namespace Logbook.Otlp

open Protobuf

/-- A value of an attribute or a body. -/
inductive AnyValue where
  | absent
  | text (s : String)
  | bool (b : Bool)
  | int (n : Int64)
  | double (x : Float)
  | bytes (b : Bytes)
  | array (items : List AnyValue)
  | map (entries : List (String × AnyValue))
  deriving Inhabited

/-- Named values, in the order of the message. -/
abbrev Attributes := List (String × AnyValue)

/-- One log record. -/
structure LogRecord where
  time : Nat := 0
  observedTime : Nat := 0
  severityNumber : Int := 0
  severityText : String := ""
  body : AnyValue := .absent
  attributes : Attributes := []
  traceId : Bytes := []
  spanId : Bytes := []
  deriving Inhabited

/-- What wrote a group of records. -/
structure Scope where
  name : String := ""
  version : String := ""
  attributes : Attributes := []
  deriving Inhabited

structure ScopeLogs where
  scope : Scope := {}
  records : List LogRecord := []
  deriving Inhabited

structure ResourceLogs where
  /-- The attributes of the resource. -/
  resource : Attributes := []
  scopes : List ScopeLogs := []
  deriving Inhabited

/-- The content of a request. -/
abbrev LogsData := List ResourceLogs

/-! ## Reading -/

/-- Takes the fields of a message into a value, one after another. -/
def fold {α : Type} (depth : Nat) (step : α → Entry → Option α) (start : α) (b : Bytes) :
    Option α := do
  (← readEntries depth b).foldlM step start

/-- Keeps a value over a field of an unknown number, which may be skipped if the message may hold
    another level. -/
def skip {α : Type} (depth : Nat) (x : α) : Option α :=
  if depth = 0 then none else some x

/-- A double with these bits. -/
def doubleOfBits (n : Nat) : Float :=
  Float.ofBits (UInt64.ofNat n)

/-- The plain value in a field of a value's message; `none` for other numbers and wrong kinds. -/
def plainValue? (e : Entry) : Option AnyValue :=
  match e.number with
  | 1 => e.payload.text?.map .text
  | 2 => e.payload.varint?.map fun n => .bool (n != 0)
  | 3 => e.payload.varint?.map fun n => .int (Int64.ofInt (signed UInt64.size n))
  | 4 => e.payload.fixed64?.map fun n => .double (doubleOfBits n)
  | 7 => e.payload.bytes?.map .bytes
  | _ => none

/-- Whether a value's message has a field of this number. -/
def isValueNumber (n : Nat) : Bool :=
  1 ≤ n && n ≤ 7

namespace AnyValue

/-- The items of an array, none for any other value. -/
def items : AnyValue → List AnyValue
  | .array items => items
  | _ => []

/-- The entries of a map, none for any other value. -/
def entries : AnyValue → Attributes
  | .map entries => entries
  | _ => []

mutual

/-- Reads a value on top of another. -/
def read : (depth : Nat) → AnyValue → Bytes → Option AnyValue
  | 0, v, b => fold 0 (fun _ e => plainValue? e) v b
  | depth + 1, v, b =>
    fold (depth + 1)
      (fun v e =>
        if e.number = 5 then do
          let content ← e.payload.bytes?
          let items ← readItems depth v.items content
          return .array items
        else if e.number = 6 then do
          let content ← e.payload.bytes?
          let entries ← readEntries depth v.entries content
          return .map entries
        else if isValueNumber e.number then plainValue? e
        else some v)
      v b

/-- Reads the items of an array after others. -/
def readItems : (depth : Nat) → List AnyValue → Bytes → Option (List AnyValue)
  | 0, items, b => if b.isEmpty then some items else none
  | depth + 1, items, b =>
    fold (depth + 1)
      (fun items e =>
        if e.number = 1 then do
          let content ← e.payload.bytes?
          let v ← read depth .absent content
          return items ++ [v]
        else some items)
      items b

/-- Reads the entries of a map after others. -/
def readEntries : (depth : Nat) → Attributes → Bytes → Option Attributes
  | 0, entries, b => if b.isEmpty then some entries else none
  | depth + 1, entries, b =>
    fold (depth + 1)
      (fun entries e =>
        if e.number = 1 then do
          let content ← e.payload.bytes?
          let entry ← readEntry depth content
          return entries ++ [entry]
        else some entries)
      entries b

/-- Reads a name with its value. -/
def readEntry : (depth : Nat) → Bytes → Option (String × AnyValue)
  | 0, b =>
    fold 0
      (fun (entry : String × AnyValue) e =>
        if e.number = 1 then e.payload.text?.map fun key => (key, entry.2) else none)
      ("", .absent) b
  | depth + 1, b =>
    fold (depth + 1)
      (fun entry e =>
        if e.number = 1 then e.payload.text?.map fun key => (key, entry.2)
        else if e.number = 2 then do
          let content ← e.payload.bytes?
          let v ← read depth entry.2 content
          return (entry.1, v)
        else some entry)
      ("", .absent) b

end

end AnyValue

/-- Adds the attribute in a field to others. -/
def addAttribute (depth : Nat) (attributes : Attributes) (p : Payload) : Option Attributes := do
  let content ← p.bytes?
  let entry ← AnyValue.readEntry (depth - 1) content
  return attributes ++ [entry]

/-- Takes a field into a record. -/
def LogRecord.addEntry (depth : Nat) (r : LogRecord) (e : Entry) : Option LogRecord :=
  match e.number with
  | 1 => e.payload.fixed64?.map fun n => { r with time := n }
  | 2 => e.payload.varint?.map fun n => { r with severityNumber := signed UInt32.size n }
  | 3 => e.payload.text?.map fun s => { r with severityText := s }
  | 5 => do
    let content ← e.payload.bytes?
    let body ← AnyValue.read (depth - 1) r.body content
    return { r with body }
  | 6 => (addAttribute depth r.attributes e.payload).map fun a => { r with attributes := a }
  | 7 => e.payload.varint?.map fun _ => r
  | 8 => e.payload.fixed32?.map fun _ => r
  | 9 => e.payload.bytes?.map fun b => { r with traceId := b }
  | 10 => e.payload.bytes?.map fun b => { r with spanId := b }
  | 11 => e.payload.fixed64?.map fun n => { r with observedTime := n }
  | _ => skip depth r

/-- Takes a field into a scope. -/
def Scope.addEntry (depth : Nat) (s : Scope) (e : Entry) : Option Scope :=
  match e.number with
  | 1 => e.payload.text?.map fun name => { s with name }
  | 2 => e.payload.text?.map fun version => { s with version }
  | 3 => (addAttribute depth s.attributes e.payload).map fun a => { s with attributes := a }
  | 4 => e.payload.varint?.map fun _ => s
  | _ => skip depth s

/-- Takes a field into the attributes of a resource. -/
def addResourceEntry (depth : Nat) (attributes : Attributes) (e : Entry) : Option Attributes :=
  match e.number with
  | 1 => addAttribute depth attributes e.payload
  | 2 => e.payload.varint?.map fun _ => attributes
  | _ => skip depth attributes

/-- Takes a field into the logs of a scope. -/
def ScopeLogs.addEntry (depth : Nat) (s : ScopeLogs) (e : Entry) : Option ScopeLogs :=
  match e.number with
  | 1 => do
    let content ← e.payload.bytes?
    let scope ← fold (depth - 1) (Scope.addEntry (depth - 1)) s.scope content
    return { s with scope }
  | 2 => do
    let content ← e.payload.bytes?
    let record ← fold (depth - 1) (LogRecord.addEntry (depth - 1)) {} content
    return { s with records := s.records ++ [record] }
  | 3 => e.payload.text?.map fun _ => s
  | _ => skip depth s

/-- Takes a field into the logs of a resource. -/
def ResourceLogs.addEntry (depth : Nat) (r : ResourceLogs) (e : Entry) : Option ResourceLogs :=
  match e.number with
  | 1 => do
    let content ← e.payload.bytes?
    let resource ← fold (depth - 1) (addResourceEntry (depth - 1)) r.resource content
    return { r with resource }
  | 2 => do
    let content ← e.payload.bytes?
    let scope ← fold (depth - 1) (ScopeLogs.addEntry (depth - 1)) {} content
    return { r with scopes := r.scopes ++ [scope] }
  | 3 => e.payload.text?.map fun _ => r
  | _ => skip depth r

/-- Takes a field into a request. -/
def LogsData.addEntry (depth : Nat) (logs : LogsData) (e : Entry) : Option LogsData :=
  match e.number with
  | 1 => do
    let content ← e.payload.bytes?
    let resource ← fold (depth - 1) (ResourceLogs.addEntry (depth - 1)) {} content
    return logs ++ [resource]
  | _ => skip depth logs

/-- Reads a request. -/
def LogsData.read? (b : Bytes) : Option LogsData :=
  fold maxDepth (LogsData.addEntry maxDepth) [] b

end Logbook.Otlp
