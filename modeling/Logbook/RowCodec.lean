import Logbook.Row
import Logbook.Text.Quoted

set_option autoImplicit false

/-! # The row codec

The compact form in which rows are written to the journal and sent between nodes. A payload is its
rows one after another, with nothing around them. A row is the number of its stream fields, the
number of all its fields, the fields with the stream fields first, and eight bytes of time, where
zero says that the row has no time. -/

namespace Logbook.RowCodec

/-- The only version of the format. -/
def version : String := "v1"

/-! ## Errors -/

/-- The part of a row being read when an error arises. -/
inductive Part where
  | varint
  | fieldName
  | fieldValue
  | timestamp
  deriving DecidableEq, Repr

def Part.describe : Part → String
  | .varint => "varint"
  | .fieldName => "field name"
  | .fieldValue => "field value"
  | .timestamp => "timestamp"

/-- Why a payload is refused. Offsets count bytes of the payload and rows count from zero. -/
inductive Error where
  | truncated (offset row : Nat) (part : Part)
  | varint (offset row : Nat)
  | invalidUtf8 (offset row : Nat) (part : Part)
  | streamFieldsOverflow (row streamFields fields : Nat)
  | unsupportedVersion (version : String)
  deriving DecidableEq, Repr

def Error.message : Error → String
  | .truncated offset row part =>
    s!"unexpected end of data at offset {offset} while reading {part.describe} of row #{row}"
  | .varint offset row => s!"malformed varint at offset {offset} in row #{row}"
  | .invalidUtf8 offset row part =>
    s!"{part.describe} at offset {offset} in row #{row} is not valid UTF-8"
  | .streamFieldsOverflow row streamFields fields =>
    s!"row #{row} declares {streamFields} stream fields but carries only {fields} fields"
  | .unsupportedVersion version =>
    "unsupported native format version " ++ Text.quoted version ++ "; supported versions: v1"

/-- Accepts the one version there is. -/
def checkVersion (v : String) : Except Error Unit :=
  if v = version then .ok () else .error (.unsupportedVersion v)

/-! ## Writing -/

def encodeField (f : Field) : Bytes :=
  Stream.lengthPrefixed f.name ++ Stream.lengthPrefixed f.value

/-- A time as eight bytes, most significant first. -/
def encodeTimestamp (t : Timestamp) : Bytes :=
  Bytes.ofNatBE 8 t.toUInt64.toNat

def encode (row : DecodedRow) : Bytes :=
  Varint.encode row.streamFields.length ++ Varint.encode row.fields.length ++
    row.fields.flatMap encodeField ++ encodeTimestamp (row.timestamp.getD 0)

/-- A payload of rows. -/
def encodeAll (rows : List DecodedRow) : Bytes :=
  rows.flatMap encode

/-- A payload of stored rows, in their decoded shape. -/
def encodeStored (rows : List StoredRow) : Bytes :=
  encodeAll (rows.map StoredRow.toDecoded)

/-! ## Reading -/

/-- The bytes still to be read, and how many came before them. -/
structure Cursor where
  rest : Bytes
  offset : Nat
  deriving DecidableEq, Repr

def readVarint (row : Nat) (c : Cursor) : Except Error (Nat × Cursor) :=
  match Varint.read c.rest with
  | .value n rest => .ok (n, ⟨rest, c.offset + (c.rest.length - rest.length)⟩)
  | .ended => .error (.truncated (c.offset + c.rest.length) row .varint)
  | .overlong => .error (.varint c.offset row)

/-- The next `n` bytes. -/
def take (row n : Nat) (part : Part) (c : Cursor) : Except Error (Bytes × Cursor) :=
  if n ≤ c.rest.length then .ok (c.rest.take n, ⟨c.rest.drop n, c.offset + n⟩)
  else .error (.truncated c.offset row part)

/-- A text with its length in front. -/
def readText (row : Nat) (part : Part) (c : Cursor) : Except Error (String × Cursor) := do
  let (n, c) ← readVarint row c
  let (bytes, after) ← take row n part c
  match Bytes.toString? bytes with
  | some s => .ok (s, after)
  | none => .error (.invalidUtf8 c.offset row part)

def readField (row : Nat) (c : Cursor) : Except Error (Field × Cursor) := do
  let (name, c) ← readText row .fieldName c
  let (value, c) ← readText row .fieldValue c
  .ok (⟨name, value⟩, c)

/-- The next `n` fields. -/
def readFields (row : Nat) : (n : Nat) → Cursor → Except Error (List Field × Cursor)
  | 0, c => .ok ([], c)
  | n + 1, c => do
    let (f, c) ← readField row c
    let (fs, c) ← readFields row n c
    .ok (f :: fs, c)

/-- A time from its eight bytes; zero is no time. -/
def timestampOfBytes (b : Bytes) : Option Timestamp :=
  let t := (UInt64.ofNat (Bytes.toNatBE b)).toInt64
  if t = 0 then none else some t

def readRow (row : Nat) (c : Cursor) : Except Error (DecodedRow × Cursor) := do
  let (streamFields, c) ← readVarint row c
  let (count, c) ← readVarint row c
  if count < streamFields then .error (.streamFieldsOverflow row streamFields count)
  else
    let (fields, c) ← readFields row count c
    let (time, c) ← take row 8 .timestamp c
    .ok (.ofPositional (timestampOfBytes time) fields streamFields, c)

/-! Every row takes bytes away, so that a payload is read in finitely many steps. -/

theorem length_readVarint {row n : Nat} {c d : Cursor} (h : readVarint row c = .ok (n, d)) :
    d.rest.length < c.rest.length := by
  unfold readVarint at h
  split at h
  · next rest hr =>
    cases h
    exact Varint.length_lt_of_read hr
  · contradiction
  · contradiction

theorem length_take {row n : Nat} {part : Part} {b : Bytes} {c d : Cursor}
    (h : take row n part c = .ok (b, d)) : d.rest.length ≤ c.rest.length := by
  unfold take at h
  split at h
  · cases h; simp
  · contradiction

theorem length_readText {row : Nat} {part : Part} {s : String} {c d : Cursor}
    (h : readText row part c = .ok (s, d)) : d.rest.length ≤ c.rest.length := by
  simp only [readText, bind, Except.bind] at h
  split at h
  · contradiction
  · next p h1 =>
    split at h
    · contradiction
    · next q h2 =>
      split at h
      · cases h
        exact Nat.le_trans (length_take h2) (Nat.le_of_lt (length_readVarint h1))
      · contradiction

theorem length_readField {row : Nat} {f : Field} {c d : Cursor}
    (h : readField row c = .ok (f, d)) : d.rest.length ≤ c.rest.length := by
  simp only [readField, bind, Except.bind] at h
  split at h
  · contradiction
  · next p h1 =>
    split at h
    · contradiction
    · next q h2 =>
      cases h
      exact Nat.le_trans (length_readText h2) (length_readText h1)

theorem length_readFields {row n : Nat} {fs : List Field} {c d : Cursor}
    (h : readFields row n c = .ok (fs, d)) : d.rest.length ≤ c.rest.length := by
  induction n generalizing fs c with
  | zero => cases h; exact Nat.le_refl _
  | succ n ih =>
    simp only [readFields, bind, Except.bind] at h
    split at h
    · contradiction
    · next p h1 =>
      split at h
      · contradiction
      · next q h2 =>
        cases h
        exact Nat.le_trans (ih h2) (length_readField h1)

theorem length_readRow {row : Nat} {r : DecodedRow} {c d : Cursor}
    (h : readRow row c = .ok (r, d)) : d.rest.length < c.rest.length := by
  simp only [readRow, bind, Except.bind] at h
  split at h
  · contradiction
  · next p h1 =>
    split at h
    · contradiction
    · next q h2 =>
      split at h
      · contradiction
      · split at h
        · contradiction
        · next s h3 =>
          split at h
          · contradiction
          · next t h4 =>
            cases h
            have := length_readVarint h1
            have := length_readVarint h2
            have := length_readFields h3
            have := length_take h4
            omega

/-- All rows from the cursor on; `row` is the number of the next one. -/
def readRows (row : Nat) (c : Cursor) : Except Error (List DecodedRow) :=
  if c.rest = [] then .ok []
  else
    match _h : readRow row c with
    | .error e => .error e
    | .ok (r, d) =>
      match readRows (row + 1) d with
      | .error e => .error e
      | .ok rs => .ok (r :: rs)
termination_by c.rest.length
decreasing_by exact length_readRow _h

/-- The rows of a payload. One malformed row refuses the whole payload. -/
def decodeAll (payload : Bytes) : Except Error (List DecodedRow) :=
  readRows 0 ⟨payload, 0⟩

end Logbook.RowCodec
