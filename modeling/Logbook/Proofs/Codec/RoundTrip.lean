import Mathlib.Tactic.Ring
import Logbook.RowCodec

set_option autoImplicit false

/-! # Reading back what was written

Every piece of the row codec is read back from its encoding, whatever bytes come after it: numbers
of fixed width (`Bytes.toNatBE_ofNatBE`), variable-length numbers (`Varint.read_encode`), texts,
fields, rows and at last whole payloads (`RowCodec.decodeAll_encodeAll`). The only row that comes
back changed is one with a time of zero, which the codec takes for no time
(`RowCodec.asRead`). Lengths must fit in sixty-four bits (`RowCodec.Fits`); they do in every payload
of less than `2 ^ 64` bytes. -/

namespace Logbook

/-! ## Numbers of fixed width -/

namespace Bytes

theorem toNatBE_append (a b : Bytes) :
    toNatBE (a ++ b) = toNatBE a * 256 ^ b.length + toNatBE b := by
  unfold toNatBE
  rw [List.foldl_append]
  generalize a.foldl (fun acc byte => acc * 256 + byte.toNat) 0 = n
  induction b generalizing n with
  | nil => simp
  | cons x b ih =>
    simp only [List.foldl_cons, List.length_cons]
    rw [ih (n * 256 + x.toNat), ih (0 * 256 + x.toNat), pow_succ]
    ring

theorem toNatBE_ofNatBE {width n : Nat} (h : n < 256 ^ width) :
    toNatBE (ofNatBE width n) = n := by
  induction width generalizing n with
  | zero =>
    have hn : n = 0 := by simpa using h
    subst hn
    rfl
  | succ width ih =>
    have hdiv : n / 256 < 256 ^ width := by
      rw [Nat.div_lt_iff_lt_mul (by decide), ← pow_succ]
      exact h
    have hbyte : (UInt8.ofNat (n % 256)).toNat = n % 256 := by
      rw [UInt8.toNat_ofNat']
      omega
    rw [ofNatBE, toNatBE_append, ih hdiv]
    simp only [List.length_singleton, pow_one, toNatBE, List.foldl_cons, List.foldl_nil, hbyte]
    omega

end Bytes

/-! ## Variable-length numbers -/

namespace Varint

theorem encode_of_lt {n : Nat} (h : n < 128) : encode n = [UInt8.ofNat n] := by
  rw [encode, if_pos h]

theorem encode_of_ge {n : Nat} (h : 128 ≤ n) :
    encode n = UInt8.ofNat (n % 128 + 128) :: encode (n / 128) := by
  rw [encode, if_neg (Nat.not_lt.2 h)]

theorem length_encode_pos (n : Nat) : 0 < (encode n).length := by
  rw [encode]
  split <;> simp

/-- Reading on after `index` groups adds the number that the rest of the encoding stands for. -/
theorem readFrom_encode (n index acc : Nat) (rest : Bytes) (hindex : index < 10)
    (hfits : acc + n * 2 ^ (7 * index) < 2 ^ 64) :
    readFrom (encode n ++ rest) index acc = .value (acc + n * 2 ^ (7 * index)) rest := by
  induction n using Nat.strongRecOn generalizing index acc with
  | ind n ih =>
    by_cases hn : n < 128
    · have hbyte : (UInt8.ofNat n).toNat = n := by
        rw [UInt8.toNat_ofNat']
        omega
      rw [encode_of_lt hn]
      simp only [List.cons_append, List.nil_append, readFrom, hbyte, Nat.mod_eq_of_lt hn,
        Nat.shiftLeft_eq, if_pos hn, if_neg (Nat.not_le.2 hindex)]
      rw [Nat.mod_eq_of_lt (show _ < UInt64.size from hfits)]
    · have hge : 128 ≤ n := Nat.not_lt.1 hn
      have hbyte : (UInt8.ofNat (n % 128 + 128)).toNat = n % 128 + 128 := by
        rw [UInt8.toNat_ofNat']
        omega
      have hlow : (n % 128 + 128) % 128 = n % 128 := by omega
      have hpow : 2 ^ (7 * (index + 1)) = 128 * 2 ^ (7 * index) := by
        rw [Nat.mul_succ, pow_add]
        omega
      -- the group read here and the groups that follow add up to `n`
      have hsum : n % 128 * 2 ^ (7 * index) + n / 128 * 2 ^ (7 * (index + 1))
          = n * 2 ^ (7 * index) := by
        rw [hpow, ← Nat.mul_assoc, ← Nat.add_mul, Nat.mul_comm (n / 128), Nat.mod_add_div]
      -- ten groups hold sixty-four bits, so a number that goes on has not come to the last
      have hnext : index + 1 < 10 := by
        by_contra hle
        have hone : 1 ≤ n / 128 := (Nat.one_le_div_iff (by decide)).2 hge
        have hbig : 2 ^ 64 ≤ 2 ^ (7 * (index + 1)) := Nat.pow_le_pow_right (by decide) (by omega)
        have := Nat.mul_le_mul hone hbig
        omega
      have hacc : acc + n % 128 * 2 ^ (7 * index) < UInt64.size :=
        show _ < 2 ^ 64 by omega
      rw [encode_of_ge hge, List.cons_append, readFrom, if_neg (Nat.not_le.2 hindex)]
      simp only [hbyte, hlow, Nat.shiftLeft_eq, Nat.mod_eq_of_lt hacc,
        if_neg (show ¬ n % 128 + 128 < 128 by omega)]
      rw [ih (n / 128) (by omega) (index + 1) _ hnext (by omega)]
      congr 1
      omega

theorem read_encode {n : Nat} (rest : Bytes) (h : n < 2 ^ 64) :
    read (encode n ++ rest) = .value n rest := by
  have := readFrom_encode n 0 0 rest (by decide) (by simpa using h)
  simpa [read] using this

end Varint

namespace RowCodec

/-! ## Texts and fields -/

theorem readVarint_encode {n : Nat} (row offset : Nat) (rest : Bytes) (h : n < 2 ^ 64) :
    readVarint row ⟨Varint.encode n ++ rest, offset⟩
      = .ok (n, ⟨rest, offset + (Varint.encode n).length⟩) := by
  simp [readVarint, Varint.read_encode rest h]

theorem take_append (row offset : Nat) (part : Part) (b rest : Bytes) :
    take row b.length part ⟨b ++ rest, offset⟩ = .ok (b, ⟨rest, offset + b.length⟩) := by
  simp [take]

theorem readText_lengthPrefixed {s : String} (row offset : Nat) (part : Part) (rest : Bytes)
    (h : s.utf8ByteSize < 2 ^ 64) :
    readText row part ⟨Stream.lengthPrefixed s ++ rest, offset⟩
      = .ok (s, ⟨rest, offset + (Stream.lengthPrefixed s).length⟩) := by
  have htake := take_append row (offset + (Varint.encode s.utf8ByteSize).length) part
    (Bytes.ofString s) rest
  rw [Bytes.length_ofString] at htake
  simp only [readText, Stream.lengthPrefixed, List.append_assoc, readVarint_encode row offset _ h,
    bind, Except.bind, htake, Bytes.toString?_ofString, List.length_append, Bytes.length_ofString,
    Nat.add_assoc]

/-- Both texts of a field have lengths that fit in sixty-four bits. -/
def FieldFits (f : Field) : Prop :=
  f.name.utf8ByteSize < 2 ^ 64 ∧ f.value.utf8ByteSize < 2 ^ 64

theorem readField_encodeField {f : Field} (row offset : Nat) (rest : Bytes) (h : FieldFits f) :
    readField row ⟨encodeField f ++ rest, offset⟩
      = .ok (f, ⟨rest, offset + (encodeField f).length⟩) := by
  simp only [readField, encodeField, List.append_assoc, readText_lengthPrefixed row _ _ _ h.1,
    readText_lengthPrefixed row _ _ _ h.2, bind, Except.bind, List.length_append, Nat.add_assoc]

theorem readFields_encode {fs : List Field} (row offset : Nat) (rest : Bytes)
    (h : ∀ f ∈ fs, FieldFits f) :
    readFields row fs.length ⟨fs.flatMap encodeField ++ rest, offset⟩
      = .ok (fs, ⟨rest, offset + (fs.flatMap encodeField).length⟩) := by
  induction fs generalizing offset with
  | nil => rfl
  | cons f fs ih =>
    have hrest : ∀ g ∈ fs, FieldFits g := fun g hg => h g (List.mem_cons_of_mem _ hg)
    simp only [List.length_cons, readFields, List.flatMap_cons, List.append_assoc,
      readField_encodeField row offset _ (h f List.mem_cons_self), bind, Except.bind,
      ih _ hrest, List.length_append, Nat.add_assoc]

/-! ## Times -/

/-- The row as it comes back from its encoding: a time of zero stands for no time. -/
def asRead (row : DecodedRow) : DecodedRow :=
  { row with timestamp := row.timestamp.filter (· != 0) }

theorem length_encodeTimestamp (t : Timestamp) : (encodeTimestamp t).length = 8 :=
  Bytes.length_ofNatBE 8 _

theorem timestampOfBytes_encodeTimestamp (t : Option Timestamp) :
    timestampOfBytes (encodeTimestamp (t.getD 0)) = t.filter (· != 0) := by
  have hlt : (t.getD 0).toUInt64.toNat < 256 ^ 8 := UInt64.toNat_lt _
  simp only [timestampOfBytes, encodeTimestamp, Bytes.toNatBE_ofNatBE hlt, UInt64.ofNat_toNat,
    Int64.toInt64_toUInt64]
  cases t with
  | none => rfl
  | some t => by_cases ht : t = 0 <;> simp [Option.filter, ht]

/-! ## Rows -/

/-- Whether everything that an encoded row states the length of has a length that fits in sixty-four
    bits. -/
structure Fits (row : DecodedRow) : Prop where
  count : row.fields.length < 2 ^ 64
  field : ∀ f ∈ row.fields, FieldFits f

theorem readRow_encode {row : DecodedRow} (number offset : Nat) (rest : Bytes) (h : Fits row) :
    readRow number ⟨encode row ++ rest, offset⟩
      = .ok (asRead row, ⟨rest, offset + (encode row).length⟩) := by
  have hle : row.streamFields.length ≤ row.fields.length := by
    simp [DecodedRow.fields]
  have hstream : row.streamFields.length < 2 ^ 64 := Nat.lt_of_le_of_lt hle h.count
  have htime := take_append number
    (offset + ((Varint.encode row.streamFields.length).length
      + ((Varint.encode row.fields.length).length + (row.fields.flatMap encodeField).length)))
    .timestamp (encodeTimestamp (row.timestamp.getD 0)) rest
  rw [length_encodeTimestamp] at htime
  simp only [readRow, encode, List.append_assoc, readVarint_encode number _ _ hstream,
    readVarint_encode number _ _ h.count, readFields_encode number _ _ h.field, bind, Except.bind,
    if_neg (Nat.not_lt.2 hle), Nat.add_assoc, htime, timestampOfBytes_encodeTimestamp,
    List.length_append, length_encodeTimestamp]
  simp [DecodedRow.ofPositional, DecodedRow.fields, asRead]

theorem length_encode_pos (row : DecodedRow) : 0 < (encode row).length := by
  have := Varint.length_encode_pos row.streamFields.length
  simp only [encode, List.length_append]
  omega

/-! ## Payloads -/

theorem encodeAll_cons (row : DecodedRow) (rows : List DecodedRow) :
    encodeAll (row :: rows) = encode row ++ encodeAll rows := rfl

/-- Once one row is read, the rest of the payload decides. -/
theorem readRows_of_readRow {number : Nat} {c d : Cursor} {row : DecodedRow}
    (h : readRow number c = .ok (row, d)) :
    readRows number c = (readRows (number + 1) d).map (row :: ·) := by
  have hne : c.rest ≠ [] := by
    intro hnil
    have := length_readRow h
    simp [hnil] at this
  rw [readRows, if_neg hne]
  split
  · next e he =>
    rw [h] at he
    contradiction
  · next r d' he =>
    rw [h] at he
    cases he
    cases readRows (number + 1) d <;> rfl

theorem readRows_encodeAll {rows : List DecodedRow} (number offset : Nat)
    (h : ∀ row ∈ rows, Fits row) :
    readRows number ⟨encodeAll rows, offset⟩ = .ok (rows.map asRead) := by
  induction rows generalizing number offset with
  | nil =>
    rw [readRows]
    rfl
  | cons row rows ih =>
    have hrow := readRow_encode number offset (encodeAll rows) (h row List.mem_cons_self)
    have hrest := ih (number + 1) (offset + (encode row).length)
      fun r hr => h r (List.mem_cons_of_mem _ hr)
    rw [encodeAll_cons, readRows_of_readRow hrow, hrest]
    rfl

/-! ## Lengths fit in every payload that does -/

theorem length_encodeField_ge (f : Field) :
    1 + f.name.utf8ByteSize + f.value.utf8ByteSize ≤ (encodeField f).length := by
  have := Varint.length_encode_pos f.name.utf8ByteSize
  simp only [encodeField, Stream.lengthPrefixed, List.length_append, Bytes.length_ofString]
  omega

theorem length_flatMap_encodeField_ge (fs : List Field) :
    fs.length ≤ (fs.flatMap encodeField).length ∧
      ∀ f ∈ fs, (encodeField f).length ≤ (fs.flatMap encodeField).length := by
  induction fs with
  | nil => exact ⟨Nat.le_refl _, nofun⟩
  | cons f fs ih =>
    obtain ⟨hcount, hmem⟩ := ih
    have := length_encodeField_ge f
    simp only [List.flatMap_cons, List.length_append, List.length_cons]
    refine ⟨by omega, ?_⟩
    intro g hg
    rcases List.mem_cons.1 hg with rfl | hg
    · omega
    · have := hmem g hg
      omega

theorem fits_of_length_encode {row : DecodedRow} (h : (encode row).length < 2 ^ 64) :
    Fits row := by
  obtain ⟨hcount, hmem⟩ := length_flatMap_encodeField_ge row.fields
  simp only [encode, List.length_append] at h
  refine ⟨by omega, ?_⟩
  intro f hf
  have := hmem f hf
  have := length_encodeField_ge f
  exact ⟨by omega, by omega⟩

theorem length_encode_le_encodeAll {row : DecodedRow} {rows : List DecodedRow} (h : row ∈ rows) :
    (encode row).length ≤ (encodeAll rows).length := by
  induction rows with
  | nil => exact absurd h (by simp)
  | cons r rows ih =>
    simp only [encodeAll, List.flatMap_cons, List.length_append] at ih ⊢
    rcases List.mem_cons.1 h with rfl | h
    · omega
    · have := ih h
      omega

/-- A payload that is not too long for its lengths is read back. -/
theorem decodeAll_encodeAll_of_length {rows : List DecodedRow}
    (h : (encodeAll rows).length < 2 ^ 64) :
    decodeAll (encodeAll rows) = .ok (rows.map asRead) :=
  readRows_encodeAll 0 0 fun _ hr =>
    fits_of_length_encode (Nat.lt_of_le_of_lt (length_encode_le_encodeAll hr) h)

/-! ## Any rows -/

/-- Only a row with a time of zero comes back changed. -/
theorem asRead_eq (row : DecodedRow) :
    asRead row = if row.timestamp = some 0 then { row with timestamp := none } else row := by
  obtain ⟨timestamp, streamFields, otherFields⟩ := row
  cases timestamp with
  | none => rfl
  | some t => by_cases ht : t = 0 <;> simp [asRead, Option.filter, ht]

/-- **A payload is read back as the rows it was written from**, however many they are and whatever
    their texts, each with its stream fields in a group of their own. Only a time of zero is
    lost. -/
theorem decodeAll_encodeAll {rows : List DecodedRow} (h : ∀ row ∈ rows, Fits row) :
    decodeAll (encodeAll rows)
      = .ok (rows.map fun row =>
          if row.timestamp = some 0 then { row with timestamp := none } else row) := by
  rw [← funext asRead_eq]
  exact readRows_encodeAll 0 0 h

/-- A row without fields, a name that occurs in both groups, a value of two hundred bytes, whose
    length takes two, and texts that are empty or beyond ASCII. -/
def sampleRows : List DecodedRow :=
  [⟨some 0, [], []⟩,
    ⟨some 5, [⟨"host", "h1"⟩], [⟨"host", ""⟩, ⟨"", String.ofList (List.replicate 100 'é')⟩]⟩,
    ⟨none, [⟨"größe", "5 µm"⟩], []⟩]

theorem sampleRows_read_back :
    (∀ row ∈ sampleRows, Fits row) ∧
      decodeAll (encodeAll sampleRows)
        = .ok ({ sampleRows[0] with timestamp := none } :: sampleRows.tail) := by
  have hlength : ∀ row ∈ sampleRows, (encode row).length < 2 ^ 64 := by decide +kernel
  have hfits : ∀ row ∈ sampleRows, Fits row := fun row hrow =>
    fits_of_length_encode (hlength row hrow)
  refine ⟨hfits, (decodeAll_encodeAll hfits).trans (congrArg Except.ok ?_)⟩
  decide +kernel

end RowCodec

end Logbook
