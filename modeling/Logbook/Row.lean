import Logbook.Stream

set_option autoImplicit false

/-! # Rows

A row passes through two shapes on its way into the store. A decoded row is what a client's payload
says: fields in two groups, and a time only if the payload carried one. A stored row has been
classified: it has a time, a stream, and the stream's tags among its fields. -/

namespace Logbook

/-- Nanoseconds since 1970, UTC. -/
abbrev Timestamp := Int64

/-- The time with this number, or the nearest one in range. -/
def Timestamp.clamp (n : Int) : Timestamp :=
  Int64.ofInt (max Int64.minValue.toInt (min Int64.maxValue.toInt n))

/-- A time with fields. -/
structure LogRow where
  timestamp : Timestamp
  fields : List Field
  deriving DecidableEq, Repr, Inhabited

/-- The value of the last field of that name. -/
def LogRow.get? (row : LogRow) (name : String) : Option String :=
  Field.last? row.fields name

/-- A row as a decoder yields it, with its stream fields in a group of their own. -/
structure DecodedRow where
  timestamp : Option Timestamp
  streamFields : List Field
  otherFields : List Field
  deriving DecidableEq, Repr, Inhabited

namespace DecodedRow

/-- The row whose first `streamLength` fields, or all if there are fewer, are its stream fields. -/
def ofPositional (timestamp : Option Timestamp) (fields : List Field) (streamLength : Nat) :
    DecodedRow :=
  ⟨timestamp, fields.take streamLength, fields.drop streamLength⟩

/-- All fields, the stream fields first. -/
def fields (row : DecodedRow) : List Field :=
  row.streamFields ++ row.otherFields

end DecodedRow

/-- A classified row. Its stream is named once, when the row is made. -/
structure StoredRow where
  timestamp : Timestamp
  fields : List Field
  stream : Stream
  streamId : StreamId := stream.id
  streamId_eq : streamId = stream.id := by rfl
  deriving DecidableEq, Repr

instance : Inhabited StoredRow := ⟨{ timestamp := 0, fields := [], stream := default }⟩

namespace StoredRow

def ofStream (timestamp : Timestamp) (stream : Stream) (fields : List Field) : StoredRow :=
  { timestamp, fields, stream }

/-- The value of the last field of that name. -/
def get? (row : StoredRow) (name : String) : Option String :=
  Field.last? row.fields name

/-- The message, empty for a row without one. -/
def message (row : StoredRow) : String :=
  (row.get? msgName).getD ""

/-- The stored row that a decoded row stands for: its stream fields are both the stream and
    ordinary fields, and `default` is its time if it has none. -/
def ofDecoded (row : DecodedRow) (default : Timestamp) : StoredRow :=
  ofStream (row.timestamp.getD default) (Stream.ofFields row.streamFields)
    (Field.dedup row.fields)

/-- The decoded shape of a stored row: the tags, and the fields that do not repeat a tag. -/
def toDecoded (row : StoredRow) : DecodedRow :=
  ⟨some row.timestamp, row.stream.tags, row.fields.filter fun f => !row.stream.tags.contains f⟩

end StoredRow

end Logbook
