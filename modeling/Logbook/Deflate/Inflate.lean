import Logbook.Deflate.PrefixCode

set_option autoImplicit false

/-! # Inflation

Compressed data is a sequence of blocks. A block holds bytes as they are, or symbols of two prefix
codes: one for bytes, the end of the block and the lengths of copies, one for how far back a copy
starts. Both codes are fixed, or they are written in front of the block with a third code. -/

namespace Logbook.Deflate

/-- What is known when inflation stops: the bytes so far, and the bits after the last block or why
    there are none. -/
structure Inflated where
  output : Array UInt8
  rest : Except Fault Bits

/-! ## Copies -/

/-- The lengths of copies: the shortest for each symbol from 257 on, and how many bits are added. -/
def lengthTable : List (Nat × Nat) :=
  [(3, 0), (4, 0), (5, 0), (6, 0), (7, 0), (8, 0), (9, 0), (10, 0), (11, 1), (13, 1), (15, 1),
    (17, 1), (19, 2), (23, 2), (27, 2), (31, 2), (35, 3), (43, 3), (51, 3), (59, 3), (67, 4),
    (83, 4), (99, 4), (115, 4), (131, 5), (163, 5), (195, 5), (227, 5), (258, 0)]

/-- How far back copies start: the least for each symbol, and how many bits are added. -/
def distanceTable : List (Nat × Nat) :=
  [(1, 0), (2, 0), (3, 0), (4, 0), (5, 1), (7, 1), (9, 2), (13, 2), (17, 3), (25, 3), (33, 4),
    (49, 4), (65, 5), (97, 5), (129, 6), (193, 6), (257, 7), (385, 7), (513, 8), (769, 8),
    (1025, 9), (1537, 9), (2049, 10), (3073, 10), (4097, 11), (6145, 11), (8193, 12), (12289, 12),
    (16385, 13), (24577, 13)]

/-- The number that an entry of a table and the bits after its symbol give. -/
def readEntry (table : List (Nat × Nat)) (index : Nat) (s : Bits) : Except Fault (Nat × Bits) :=
  match table[index]? with
  | none => .error .corrupt
  | some (least, width) => do
    let (extra, s) ← s.read width
    return (least + extra, s)

/-- Appends `length` bytes, each equal to the one `distance` before it. Before the first byte there
    are zeros. -/
def copy (distance : Nat) : (length : Nat) → Array UInt8 → Array UInt8
  | 0, out => out
  | length + 1, out =>
    copy distance length
      (out.push (if distance ≤ out.size then out.getD (out.size - distance) 0 else 0))

/-- The symbol that ends a block. -/
def endOfBlock : Nat := 256

/-- Reads the length and the distance of a copy whose length has this symbol. -/
def readCopy (distances : PrefixCode) (symbol : Nat) (s : Bits) :
    Except Fault ((Nat × Nat) × Bits) := do
  let (length, s) ← readEntry lengthTable (symbol - 257) s
  let (symbol, s) ← distances.read s
  let (distance, s) ← readEntry distanceTable symbol s
  return ((length, distance), s)

/-- Reads symbols up to the end of the block. Every symbol takes a bit at least. -/
def readSymbols (literals distances : PrefixCode) : (fuel : Nat) → Bits → Array UInt8 → Inflated
  | 0, _, out => ⟨out, .error .corrupt⟩
  | fuel + 1, s, out =>
    match literals.read s with
    | .error e => ⟨out, .error e⟩
    | .ok (symbol, s) =>
      if symbol < endOfBlock then
        readSymbols literals distances fuel s (out.push (UInt8.ofNat symbol))
      else if symbol = endOfBlock then ⟨out, .ok s⟩
      else match readCopy distances symbol s with
        | .error e => ⟨out, .error e⟩
        | .ok ((length, distance), s) =>
          readSymbols literals distances fuel s (copy distance length out)

/-! ## Blocks -/

def fixedLiterals : PrefixCode :=
  .ofLengths <| List.replicate 144 8 ++ List.replicate 112 9 ++ List.replicate 24 7
    ++ List.replicate 8 8

def fixedDistances : PrefixCode :=
  .ofLengths (List.replicate 32 5)

/-- The order in which the lengths of the third code are written. -/
def lengthOrder : List Nat :=
  [16, 17, 18, 0, 8, 7, 9, 6, 10, 5, 11, 4, 12, 3, 13, 2, 14, 1, 15]

/-- Reads `n` numbers of three bits. -/
def readTriples : (n : Nat) → Bits → Except Fault (List Nat × Bits)
  | 0, s => .ok ([], s)
  | n + 1, s => do
    let (length, s) ← s.read 3
    let (rest, s) ← readTriples n s
    return (length :: rest, s)

/-- Reads lengths of code words until there are `total`; `out` holds the last one first. A symbol
    is a length, or repeats the last length or zero. -/
def readLengths (code : PrefixCode) (total : Nat) :
    (fuel : Nat) → (out : List Nat) → Bits → Except Fault (List Nat × Bits)
  | fuel + 1, out, s =>
    if out.length < total then do
      let (symbol, s) ← code.read s
      if symbol < 16 then readLengths code total fuel (symbol :: out) s
      else if symbol = 16 then
        match out with
        | [] => .error .corrupt
        | last :: _ =>
          let (extra, s) ← s.read 2
          readLengths code total fuel (List.replicate (3 + extra) last ++ out) s
      else if symbol = 17 then
        let (extra, s) ← s.read 3
        readLengths code total fuel (List.replicate (3 + extra) 0 ++ out) s
      else
        let (extra, s) ← s.read 7
        readLengths code total fuel (List.replicate (11 + extra) 0 ++ out) s
    else if out.length = total then .ok (out.reverse, s)
    else .error .corrupt
  | 0, out, s => if out.length = total then .ok (out.reverse, s) else .error .corrupt

/-- Refuses a code that some bits are no word of, unless it has a single word or none. -/
def checkCode (c : PrefixCode) : Except Fault Unit :=
  if c.isComplete || c.isTrivial then .ok () else .error .corrupt

/-- Reads the two codes of a block. -/
def readCodes (s : Bits) : Except Fault ((PrefixCode × PrefixCode) × Bits) := do
  let (n, s) ← s.read 5
  let (m, s) ← s.read 5
  let (k, s) ← s.read 4
  let literals := n + 257
  let distances := m + 1
  if 286 < literals ∨ 30 < distances then .error .corrupt
  else
    let (triples, s) ← readTriples (k + 4) s
    let code := PrefixCode.ofLengths <|
      (List.range 19).map fun i => ((lengthOrder.zip triples).lookup i).getD 0
    if !code.isComplete then .error .corrupt
    else
      let (lengths, s) ← readLengths code (literals + distances) (literals + distances) [] s
      let literalCode := PrefixCode.ofLengths (lengths.take literals)
      let distanceCode := PrefixCode.ofLengths (lengths.drop literals)
      checkCode distanceCode
      checkCode literalCode
      return ((literalCode, distanceCode), s)

/-- A number of two bytes, the low one first. -/
def readShort : Bytes → Except Fault (Nat × Bytes)
  | a :: b :: rest => .ok (a.toNat + 256 * b.toNat, rest)
  | _ => .error .truncated

/-- Reads a block of bytes as they are: their number, the number's complement, and the bytes. -/
def readStored (s : Bits) (out : Array UInt8) : Inflated :=
  match (do
    let (length, rest) ← readShort s.toBytes
    let (complement, rest) ← readShort rest
    if length + complement = 65535 then return (length, rest) else .error Fault.corrupt) with
  | .error e => ⟨out, .error e⟩
  | .ok (length, rest) =>
    ⟨out ++ (rest.take length).toArray,
      if rest.length < length then .error .truncated else .ok (.ofBytes (rest.drop length))⟩

/-- Reads one block whose kind has been read. -/
def readBlock (kind : Nat) (s : Bits) (out : Array UInt8) : Inflated :=
  match kind with
  | 0 => readStored s out
  | 1 => readSymbols fixedLiterals fixedDistances (s.size + 1) s out
  | 2 =>
    match readCodes s with
    | .error e => ⟨out, .error e⟩
    | .ok ((literals, distances), s) => readSymbols literals distances (s.size + 1) s out
  | _ => ⟨out, .error .corrupt⟩

/-- Reads blocks up to the last. Every block takes three bits at least. -/
def readBlocks : (fuel : Nat) → Bits → Array UInt8 → Inflated
  | 0, _, out => ⟨out, .error .corrupt⟩
  | fuel + 1, s, out =>
    match s.read 3 with
    | .error e => ⟨out, .error e⟩
    | .ok (header, s) =>
      let block := readBlock (header / 2) s out
      if header % 2 = 1 then block
      else match block.rest with
        | .error _ => block
        | .ok s => readBlocks fuel s block.output

/-- Inflates the data at the front of a byte string. -/
def inflate (b : Bytes) : Inflated :=
  let s := Bits.ofBytes b
  readBlocks (s.size + 1) s #[]

end Logbook.Deflate
