import Logbook.Field
import Logbook.Varint
import Logbook.Digest.Sha256

set_option autoImplicit false

/-! # Streams

A stream is a set of tags: fields with distinct names and non-empty values, kept in the order of
their names. Rows with equal tags belong to one stream. A stream is named by a hash of its tags,
and that name decides the shard that keeps its rows. -/

namespace Logbook

/-- The tags of a stream, sorted by name. -/
@[ext]
structure Stream where
  tags : List Field
  sorted : tags.Pairwise fun a b => a.name < b.name
  nonempty : ∀ tag ∈ tags, tag.value ≠ ""
  deriving DecidableEq, Repr

/-- The stream without tags. -/
instance : Inhabited Stream := ⟨⟨[], .nil, nofun⟩⟩

/-- The name of a stream: the first sixteen bytes of the hash of its tags. -/
structure StreamId where
  high : UInt64
  low : UInt64
  deriving DecidableEq, Repr, Inhabited

namespace StreamId

/-- Names are ordered as the numbers their bytes spell. -/
def le (a b : StreamId) : Bool :=
  a.high < b.high || (a.high == b.high && a.low ≤ b.low)

/-- The shard among `shards` that keeps the stream. -/
def shard (id : StreamId) (shards : Nat) : Nat :=
  id.high.toNat % shards

/-- The sixteen bytes of the name. -/
def toBytes (id : StreamId) : Bytes :=
  Bytes.ofNatBE 8 id.high.toNat ++ Bytes.ofNatBE 8 id.low.toNat

/-- The name as thirty-two hexadecimal digits. -/
def toHex (id : StreamId) : String :=
  Bytes.toHex id.toBytes

end StreamId

namespace Stream

/-- Fields in the order of their names. -/
def sortByName (fields : List Field) : List Field :=
  fields.mergeSort fun a b => a.name ≤ b.name

theorem sortByName_perm (fields : List Field) : (sortByName fields).Perm fields :=
  List.mergeSort_perm ..

/-- Fields with distinct names are sorted strictly. -/
theorem pairwise_sortByName {fields : List Field} (h : (Field.names fields).Nodup) :
    (sortByName fields).Pairwise fun a b => a.name < b.name := by
  have hle : (sortByName fields).Pairwise fun a b => decide (a.name ≤ b.name) = true :=
    List.pairwise_mergeSort
      (fun a b c hab hbc => by
        simp only [decide_eq_true_eq] at *
        exact String.le_trans hab hbc)
      (fun a b => by simpa using String.le_total a.name b.name) fields
  have hne : (sortByName fields).Pairwise fun a b => a.name ≠ b.name :=
    List.pairwise_map.1 (((sortByName_perm fields).map _).nodup_iff.2 h)
  refine (hle.and hne).imp fun {a b} hab => ?_
  have hab' : a.name ≤ b.name := by simpa using hab.1
  exact Std.lt_of_le_of_ne hab' hab.2

/-- The stream that rows with these stream fields belong to: empty values are dropped, then the
    last value of each name counts. -/
def ofFields (fields : List Field) : Stream where
  tags := sortByName (Field.dedup (fields.filter (·.value != "")))
  sorted := pairwise_sortByName (Field.nodup_names_dedup _)
  nonempty tag h := by
    have := Field.mem_of_mem_dedup ((sortByName_perm _).mem_iff.1 h)
    simpa using (List.mem_filter.1 this).2

/-- The value of a tag. -/
def get? (s : Stream) (name : String) : Option String :=
  Field.bisect? s.tags name

/-- A character inside the quoted value of a rendered tag. -/
def renderChar (c : Char) : List Char :=
  if c = '"' then ['\\', '"']
  else if c = '\\' then ['\\', '\\']
  else if c = '\n' then ['\\', 'n']
  else [c]

/-- A tag as `name="value"`. -/
def renderTag (tag : Field) : List Char :=
  tag.name.toList ++ '=' :: '"' :: (tag.value.toList.flatMap renderChar ++ ['"'])

/-- The tags between braces, separated by commas. -/
def render (s : Stream) : String :=
  String.ofList ('{' :: ((s.tags.map renderTag).intersperse [',']).flatten ++ ['}'])

/-- A text with its length in front. -/
def lengthPrefixed (s : String) : Bytes :=
  Varint.encode s.utf8ByteSize ++ Bytes.ofString s

/-- The bytes that are hashed: the name and value of each tag, each with its length in front. -/
def hashInput (s : Stream) : Bytes :=
  s.tags.flatMap fun tag => lengthPrefixed tag.name ++ lengthPrefixed tag.value

/-- The name of the stream. -/
def id (s : Stream) : StreamId :=
  let digest := Sha256.digest s.hashInput
  { high := (digest.a.toUInt64 <<< 32) ||| digest.b.toUInt64
    low := (digest.c.toUInt64 <<< 32) ||| digest.d.toUInt64 }

end Stream

end Logbook
