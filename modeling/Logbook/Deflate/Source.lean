import Logbook.Deflate.Inflate
import Logbook.Digest.Adler32
import Logbook.Digest.Crc32

set_option autoImplicit false

/-! # Compressed payloads

Two wrappings of compressed data are in use. Each is seen as a source of bytes that in the end stops
or fails, so that a reader may stop asking before a failure shows. Bytes leave the inflater by full
windows; corrupt data takes the window it lies in with it. -/

namespace Logbook.Deflate

/-- The bytes that come out of a payload, and whether a failure follows them. -/
structure Source where
  bytes : Bytes
  fails : Bool
  deriving DecidableEq, Repr

namespace Source

/-- A failure at once. -/
def failed : Source := ⟨[], true⟩

/-- A source of which no more than `n` bytes are asked: it ends behind them, and what it would do
    then does not show. -/
def take (n : Nat) (s : Source) : Source :=
  if n ≤ s.bytes.length then ⟨s.bytes.take n, false⟩ else s

/-- All bytes up to the end of a source, if it does not fail before. -/
def toEnd? (s : Source) : Option Bytes :=
  if s.fails then none else some s.bytes

/-- Bytes that leave the inflater at once. -/
def windowSize : Nat := 32768

/-- The bytes that left the inflater before it met corrupt data. -/
def beforeCorruption (output : Array UInt8) : Bytes :=
  output.toList.take ((output.size - 1) / windowSize * windowSize)

/-- What an inflater that stopped at a fault yields. -/
def ofFault (output : Array UInt8) : Fault → Source
  | .truncated => ⟨output.toList, true⟩
  | .corrupt => ⟨beforeCorruption output, true⟩

/-! ## Zlib -/

/-- Two bytes in front name the method, a window of at most thirty-two kilobytes and no dictionary;
    together they are a multiple of thirty-one. -/
def isZlibHeader (method flags : UInt8) : Bool :=
  (method.toNat * 256 + flags.toNat) % 31 = 0 && method.toNat % 16 = 8 && method.toNat / 16 ≤ 7
    && flags.toNat / 32 % 2 = 0

/-- The source of a payload with its checksum behind it. The inflater itself compares the checksum,
    before the last window leaves it. -/
def ofZlib : Bytes → Source
  | method :: flags :: rest =>
    if isZlibHeader method flags then
      let r := inflate rest
      match r.rest with
      | .error e => ofFault r.output e
      | .ok s =>
        let checksum := s.toBytes.take 4
        if checksum.length < 4 then ofFault r.output .truncated
        else if Bytes.toNatBE checksum = Adler32.checksum r.output.toList then
          ⟨r.output.toList, false⟩
        else ofFault r.output .corrupt
    else failed
  | _ => failed

/-! ## Gzip -/

/-- The longest text in a header. -/
def maxHeaderText : Nat := 65535

/-- The bytes after the first `n`. -/
def dropExactly? (n : Nat) (b : Bytes) : Option Bytes :=
  if n ≤ b.length then some (b.drop n) else none

/-- The bytes after the zero byte that ends a text. -/
def dropText? (b : Bytes) : Option Bytes :=
  let text := b.takeWhile (· != 0)
  if maxHeaderText < text.length then none else dropExactly? (text.length + 1) b

/-- Reads a part of the header if its flag is set. -/
def dropIf? (present : Bool) (drop : Bytes → Option Bytes) (b : Bytes) : Option Bytes :=
  if present then drop b else some b

/-- The bytes after the header: its first ten bytes, then an extra field, a name, a comment and a
    checksum of the header, as its flags say. -/
def dropGzipHeader? (b : Bytes) : Option Bytes :=
  match b with
  | 0x1f :: 0x8b :: 8 :: flags :: _ => do
    let flag (i : Nat) : Bool := flags.toNat.testBit i
    let rest ← dropExactly? 10 b
    let rest ← dropIf? (flag 2)
      (fun
        | low :: high :: rest => dropExactly? (low.toNat + 256 * high.toNat) rest
        | _ => none) rest
    let rest ← dropIf? (flag 3) dropText? rest
    let rest ← dropIf? (flag 4) dropText? rest
    let header := b.take (b.length - rest.length)
    let rest ← dropIf? (flag 1)
      (fun
        | low :: high :: rest =>
          if low.toNat + 256 * high.toNat = (Crc32.checksum header).toNat % 65536 then some rest
          else none
        | _ => none) rest
    if 32 ≤ flags.toNat then none else return rest
  | _ => none

/-- Whether the eight bytes behind compressed data hold the checksum and the length of what comes
    out of it, low bytes first. -/
def gzipTrailerHolds (output trailer : Bytes) : Bool :=
  trailer.length = 8
    && Bytes.toNatBE (trailer.take 4).reverse = (Crc32.checksum output).toNat
    && Bytes.toNatBE (trailer.drop 4).reverse = output.length % UInt32.size

/-- The source of the first member of a payload. Its checksum is compared after its last byte. -/
def ofGzip (b : Bytes) : Source :=
  match dropGzipHeader? b with
  | none => failed
  | some rest =>
    let r := inflate rest
    match r.rest with
    | .error e => ofFault r.output e
    | .ok s =>
      let output := r.output.toList
      ⟨output, !gzipTrailerHolds output (s.toBytes.take 8)⟩

end Source

end Logbook.Deflate
