import Logbook.Bytes

set_option autoImplicit false

/-! # Protocol buffer messages

A message is a sequence of numbered fields in any order. This module takes a message apart into its
fields; what a field means is for the message's type to say. Groups are read only to be skipped.
Messages and groups may be nested to a limited depth. -/

namespace Logbook.Protobuf

/-- What a field holds. -/
inductive Payload where
  | varint (n : Nat)
  | fixed64 (n : Nat)
  | fixed32 (n : Nat)
  | bytes (b : Bytes)
  | group
  deriving DecidableEq, Repr

/-- A field of a message. -/
structure Entry where
  number : Nat
  payload : Payload
  deriving DecidableEq, Repr

/-- Messages inside messages that are allowed. -/
def maxDepth : Nat := 100

/-- Reads on in a number, with `index` groups of seven bits already read into `acc`. The tenth byte
    has room for one bit. -/
def readVarintFrom : Bytes → (index acc : Nat) → Option (Nat × Bytes)
  | [], _, _ => none
  | b :: rest, index, acc =>
    let acc := acc + (b.toNat % 128) <<< (7 * index)
    if 9 ≤ index then if b.toNat < 2 then some (acc, rest) else none
    else if b.toNat < 128 then some (acc, rest)
    else readVarintFrom rest (index + 1) acc

def readVarint (b : Bytes) : Option (Nat × Bytes) :=
  readVarintFrom b 0 0

/-- The first `n` bytes, and the rest. -/
def takeBytes (n : Nat) (b : Bytes) : Option (Bytes × Bytes) :=
  if n ≤ b.length then some (b.take n, b.drop n) else none

/-- The number whose base-256 digits are given, least significant first. -/
def toNatLE (b : Bytes) : Nat :=
  Bytes.toNatBE b.reverse

/-- The number and the kind of the field that comes next. -/
def readKey (b : Bytes) : Option ((Nat × Nat) × Bytes) := do
  let (key, rest) ← readVarint b
  if UInt32.size ≤ key ∨ key / 8 = 0 ∨ 5 < key % 8 then none
  else return ((key / 8, key % 8), rest)

/-- The kinds of fields. -/
def varintKind : Nat := 0
def fixed64Kind : Nat := 1
def bytesKind : Nat := 2
def groupStart : Nat := 3
def groupEnd : Nat := 4

/-- Reads what a field of a kind other than the group kinds holds. -/
def readPlain (kind : Nat) (b : Bytes) : Option (Payload × Bytes) :=
  if kind = varintKind then (readVarint b).map fun (n, rest) => (.varint n, rest)
  else if kind = fixed64Kind then (takeBytes 8 b).map fun (n, rest) => (.fixed64 (toNatLE n), rest)
  else if kind = bytesKind then do
    let (n, rest) ← readVarint b
    let (content, rest) ← takeBytes n rest
    return (.bytes content, rest)
  else if kind = groupStart ∨ kind = groupEnd then none
  else (takeBytes 4 b).map fun (n, rest) => (.fixed32 (toNatLE n), rest)

/-- Skips fields up to the end of the group of that number; each takes a byte at least. A group may
    hold fields only if it may hold another level. -/
def skipGroup : (fuel depth number : Nat) → Bytes → Option Bytes
  | 0, _, _, _ => none
  | fuel + 1, depth, number, b => do
    let ((inner, kind), rest) ← readKey b
    if kind = groupEnd then if inner = number then return rest else none
    else if depth = 0 then none
    else if kind = groupStart then
      let rest ← skipGroup fuel (depth - 1) inner rest
      skipGroup fuel depth number rest
    else
      let (_, rest) ← readPlain kind rest
      skipGroup fuel depth number rest

/-- Reads one field of a message that may hold `depth` more levels. -/
def readEntry (depth : Nat) (b : Bytes) : Option (Entry × Bytes) := do
  let ((number, kind), rest) ← readKey b
  if kind = groupStart then
    if depth = 0 then none
    else
      let rest ← skipGroup rest.length (depth - 1) number rest
      return (⟨number, .group⟩, rest)
  else
    let (payload, rest) ← readPlain kind rest
    return (⟨number, payload⟩, rest)

/-- Reads fields up to the end of the message; each takes a byte at least. -/
def readEntriesFrom (depth : Nat) : (fuel : Nat) → Bytes → Option (List Entry)
  | _, [] => some []
  | 0, _ :: _ => none
  | fuel + 1, b => do
    let (e, rest) ← readEntry depth b
    let es ← readEntriesFrom depth fuel rest
    return e :: es

/-- The fields of a message that may hold `depth` more levels. -/
def readEntries (depth : Nat) (b : Bytes) : Option (List Entry) :=
  readEntriesFrom depth b.length b

/-! ## Contents -/

namespace Payload

/-- The text of a field that must hold one. -/
def text? : Payload → Option String
  | .bytes b => Bytes.toString? b
  | _ => none

def bytes? : Payload → Option Bytes
  | .bytes b => some b
  | _ => none

def varint? : Payload → Option Nat
  | .varint n => some n
  | _ => none

def fixed64? : Payload → Option Nat
  | .fixed64 n => some n
  | _ => none

def fixed32? : Payload → Option Nat
  | .fixed32 n => some n
  | _ => none

end Payload

/-- The number nearest to zero that differs from `n` by a multiple of `size`. -/
def signed (size n : Nat) : Int :=
  Int.bmod n size

end Logbook.Protobuf
