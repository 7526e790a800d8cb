import Logbook.RowCodec
import Logbook.Digest.Crc32

set_option autoImplicit false

/-! # The journal

Accepted rows are appended to one file before a write is acknowledged. A record is the length of
its payload and the checksum of its payload, four bytes each, and the payload, which holds rows.
Opening a journal keeps the longest run of intact records at its start, so that an append cut short
by a crash leaves no trace. -/

namespace Logbook

/-! ## Errors -/

/-- Why a store refuses writes. -/
inductive Refusal where
  | readOnly
  | full (size limit : Nat)
  deriving DecidableEq, Repr

def Refusal.message : Refusal → String
  | .readOnly => "storage is in read-only mode"
  | .full size limit => s!"journal size {size} bytes reached the limit of {limit} bytes"

/-- Why a write fails. -/
inductive StoreError where
  | cannotWrite (why : Refusal)
  | recordTooLarge (size : Nat)
  deriving DecidableEq, Repr

namespace StoreError

def message : StoreError → String
  | .cannotWrite why => "cannot accept writes: " ++ why.message
  | .recordTooLarge size => s!"journal record of {size} bytes exceeds the 4 GiB record limit"

/-- Whether the same write may succeed later. -/
def isRetryable : StoreError → Bool
  | .cannotWrite _ => true
  | .recordTooLarge _ => false

end StoreError

/-- An open journal: the content of its file and, counted along, the length of it. -/
structure Journal where
  file : Bytes
  size : Nat
  deriving DecidableEq, Repr, Inhabited

namespace Journal

/-- Length of a record before its payload. -/
def headerSize : Nat := 8

/-- The largest payload a record can hold. -/
def maxPayload : Nat := UInt32.size - 1

/-! ## Records -/

/-- The record that holds a payload. -/
def record (payload : Bytes) : Bytes :=
  Bytes.ofNatBE 4 payload.length ++ Bytes.ofNatBE 4 (Crc32.checksum payload).toNat ++ payload

/-- The record that holds a payload, unless the payload is too large for one. -/
def frame (payload : Bytes) : Except StoreError Bytes :=
  if payload.length ≤ maxPayload then .ok (record payload)
  else .error (.recordTooLarge payload.length)

/-- The rows of the record at the front of a file and the bytes after it, if the record is whole,
    its checksum holds and its payload can be decoded. -/
def readRecord? (file : Bytes) : Option (List DecodedRow × Bytes) :=
  if file.length < headerSize then none
  else
    let length := Bytes.toNatBE (file.take 4)
    let checksum := Bytes.toNatBE ((file.drop 4).take 4)
    let body := file.drop headerSize
    if body.length < length then none
    else
      let payload := body.take length
      if (Crc32.checksum payload).toNat ≠ checksum then none
      else
        match RowCodec.decodeAll payload with
        | .ok rows => some (rows, body.drop length)
        | .error _ => none

theorem length_readRecord? {file rest : Bytes} {rows : List DecodedRow}
    (h : readRecord? file = some (rows, rest)) : rest.length < file.length := by
  simp only [readRecord?] at h
  split at h
  · contradiction
  · next hlen =>
    split at h
    · contradiction
    · split at h
      · contradiction
      · split at h
        · cases h
          simp only [List.length_drop, headerSize] at hlen ⊢
          omega
        · contradiction

/-! ## Replay -/

/-- The batches of the intact records at the start of a file, and the bytes after them. -/
def replay (file : Bytes) : List (List DecodedRow) × Bytes :=
  match _h : readRecord? file with
  | none => ([], file)
  | some (rows, rest) =>
    let (batches, tail) := replay rest
    (rows :: batches, tail)
termination_by file.length
decreasing_by exact length_readRecord? _h

/-- Opens the journal left in a file: the batches recorded so far, oldest first, and the journal cut
    to the records they came from. -/
def ofFile (file : Bytes) : Journal × List (List DecodedRow) :=
  let (batches, tail) := replay file
  let kept := file.length - tail.length
  (⟨file.take kept, kept⟩, batches)

/-! ## Writing -/

/-- The journal with one more record at its end. -/
def push (j : Journal) (record : Bytes) : Journal :=
  ⟨j.file ++ record, j.size + record.length⟩

/-- Appends one record. -/
def append (j : Journal) (payload : Bytes) : Except StoreError Journal := do
  let r ← frame payload
  return j.push r

/-- The journal that holds exactly these payloads. It replaces another one as a whole or, when a
    payload is too large, not at all. -/
def ofPayloads (payloads : List Bytes) : Except StoreError Journal := do
  let records ← payloads.mapM frame
  return ⟨records.flatten, records.foldl (fun size record => size + record.length) 0⟩

end Journal

end Logbook
