import Mathlib.Algebra.Group.Action.Defs
import Mathlib.Algebra.Order.BigOperators.Group.List
import Logbook.Proofs.Storage.Operations

set_option autoImplicit false

/-! # How large records get

A journal that is written anew holds its rows in records of equally many rows, however large the
batches were in which they came in. It can be written exactly if each of these records fits
(`Storage.exists_journalOf_iff`), which those of small rows always do
(`Storage.exists_journalOf_of_size_le`). A row does not grow on its way through the journal
(`StoredRow.size_reread_le`). -/

namespace Logbook

/-! ## Sizes of rows -/

theorem Varint.length_encode_le {m n : Nat} (h : m ≤ n) :
    (encode m).length ≤ (encode n).length := by
  induction m using Nat.strongRecOn generalizing n with
  | ind m ih =>
    by_cases hm : m < 128
    · rw [encode_of_lt hm]
      exact length_encode_pos n
    · have hm : 128 ≤ m := Nat.not_lt.1 hm
      rw [encode_of_ge hm, encode_of_ge (Nat.le_trans hm h), List.length_cons, List.length_cons]
      exact Nat.succ_le_succ (ih (m / 128) (by omega) (Nat.div_le_div_right h))

theorem RowCodec.length_flatMap_encodeField_le {fs gs : List Field} (h : fs.Subperm gs) :
    (fs.flatMap encodeField).length ≤ (gs.flatMap encodeField).length := by
  obtain ⟨hs, hperm, hsub⟩ := h
  rw [← (hperm.flatMap_right encodeField).length_eq, List.length_flatMap, List.length_flatMap]
  exact (hsub.map _).sum_le_sum fun _ _ => Nat.zero_le _

/-- A row with fewer fields behind the same stream fields takes no more bytes. -/
theorem RowCodec.length_encode_le {a b : DecodedRow} (hstream : a.streamFields = b.streamFields)
    (hother : a.otherFields.Subperm b.otherFields) : (encode a).length ≤ (encode b).length := by
  have hfields : a.fields.Subperm b.fields := by
    rw [DecodedRow.fields, DecodedRow.fields, hstream]
    exact (List.subperm_append_left _).2 hother
  have hcount := Varint.length_encode_le hfields.length_le
  have hbytes := RowCodec.length_flatMap_encodeField_le hfields
  simp only [encode, List.length_append, length_encodeTimestamp, hstream]
  omega

namespace StoredRow

/-- Number of bytes that a row takes in a payload. -/
def size (row : StoredRow) : Nat :=
  (RowCodec.encode row.toDecoded).length

/-- The row as it comes back from a journal. -/
def reread (row : StoredRow) : StoredRow :=
  ofDecoded (RowCodec.asRead row.toDecoded) 0

theorem timestamp_reread (row : StoredRow) : row.reread.timestamp = row.timestamp :=
  getD_filter_ne_zero row.timestamp

/-- Rows do not grow on their way through a journal: no name is left twice, and the tags are the
    same. -/
theorem size_reread_le (row : StoredRow) : row.reread.size ≤ row.size := by
  have hstream : row.reread.stream = row.stream := Stream.ofFields_tags row.stream
  refine RowCodec.length_encode_le (congrArg Stream.tags hstream) ?_
  -- a field that comes back and is no tag was there before
  show (row.reread.fields.filter fun f => !row.reread.stream.tags.contains f).Subperm
    row.toDecoded.otherFields
  rw [hstream]
  have hnodup : row.reread.fields.Nodup := List.Nodup.of_map _ (Field.nodup_names_dedup _)
  refine List.subperm_of_subset (hnodup.filter _) fun f hf => ?_
  obtain ⟨hf, htag⟩ := List.mem_filter.1 hf
  have hmem : f ∈ row.stream.tags ++ row.toDecoded.otherFields := Field.mem_of_mem_dedup hf
  refine (List.mem_append.1 hmem).resolve_left fun hin => ?_
  simp [hin] at htag

/-! ### Rows without tags -/

/-- A row without tags and with one field comes back as it was. -/
theorem reread_untagged (t : Timestamp) (f : Field) :
    (ofStream t default [f]).reread = ofStream t default [f] := by
  have htime : ((some t).filter (· != 0)).getD 0 = t := getD_filter_ne_zero t
  have hstream : Stream.ofFields [] = default := Stream.ofFields_tags default
  show ofStream (((some t).filter (· != 0)).getD 0) (Stream.ofFields []) [f] = _
  rw [htime, hstream]

theorem size_untagged (t : Timestamp) (f : Field) :
    (ofStream t default [f]).size = (RowCodec.encodeField f).length + 10 := by
  have hnone : Varint.encode 0 = [0] := Varint.encode_of_lt (by decide)
  have hone : Varint.encode 1 = [1] := Varint.encode_of_lt (by decide)
  show (RowCodec.encode ⟨some t, [], [f]⟩).length = _
  simp [RowCodec.encode, DecodedRow.fields, RowCodec.length_encodeTimestamp, hnone, hone]

end StoredRow

theorem RowCodec.length_encodeStored (rows : List StoredRow) :
    (encodeStored rows).length = (rows.map StoredRow.size).sum := by
  rw [encodeStored, encodeAll, List.flatMap_map, List.length_flatMap]
  rfl

/-! ## Journals that are written anew -/

theorem Journal.exists_ofPayloads {payloads : List Bytes}
    (h : ∀ p ∈ payloads, p.length ≤ maxPayload) : ∃ j, ofPayloads payloads = .ok j := by
  have hrecords : payloads.mapM frame = .ok (payloads.map record) := by
    induction payloads with
    | nil => rfl
    | cons p rest ih =>
      have hframe : frame p = .ok (record p) := if_pos (h p List.mem_cons_self)
      rw [List.mapM_cons, hframe, ih fun q hq => h q (List.mem_cons_of_mem _ hq)]
      rfl
  rw [ofPayloads, hrecords]
  exact ⟨_, rfl⟩

theorem length_chunks_le {α : Type} {n : Nat} (xs : List α) :
    ∀ group ∈ chunks n xs, group.length ≤ n ∧ ∀ x ∈ group, x ∈ xs := by
  induction hlen : xs.length using Nat.strongRecOn generalizing xs with
  | ind len ih =>
    rw [chunks]
    split
    · exact List.forall_mem_nil _
    · next h =>
      obtain ⟨hn, hne⟩ := not_or.1 h
      have hpos := List.length_pos_iff.2 hne
      rw [List.forall_mem_cons]
      refine ⟨⟨List.length_take_le .., fun x hx => List.mem_of_mem_take hx⟩, ?_⟩
      intro group hgroup
      obtain ⟨hle, hmem⟩ := ih _ (by rw [List.length_drop]; omega) (xs.drop n) rfl group hgroup
      exact ⟨hle, fun x hx => List.mem_of_mem_drop (hmem x hx)⟩

theorem chunks_eq_singleton {α : Type} {n : Nat} {xs : List α} (hne : xs ≠ [])
    (hle : xs.length ≤ n) : chunks n xs = [xs] := by
  have hpos := List.length_pos_iff.2 hne
  have hrest : chunks n ([] : List α) = [] := by
    rw [chunks, dif_pos (Or.inr rfl)]
  rw [chunks, dif_neg (not_or.2 ⟨by omega, hne⟩), List.take_of_length_le hle,
    List.drop_of_length_le hle, hrest]

namespace Storage

/-- **Rows can be written to a new journal exactly if each of its records fits.** -/
theorem exists_journalOf_iff (rows : List StoredRow) :
    (∃ j, journalOf rows = .ok j) ↔
      ∀ c ∈ chunks compactBatch rows, (c.map StoredRow.size).sum ≤ Journal.maxPayload := by
  constructor
  · rintro ⟨j, hj⟩ c hc
    rw [← RowCodec.length_encodeStored]
    exact (Journal.ofPayloads_eq_ok hj).1 _ (List.mem_map_of_mem hc)
  · intro h
    refine Journal.exists_ofPayloads fun p hp => ?_
    obtain ⟨c, hc, rfl⟩ := List.mem_map.1 hp
    rw [RowCodec.length_encodeStored]
    exact h c hc

/-- The largest size of rows that fit in a record in any case. -/
def maxRowSize : Nat := Journal.maxPayload / compactBatch

theorem exists_journalOf_of_size_le {rows : List StoredRow}
    (h : ∀ row ∈ rows, row.size ≤ maxRowSize) : ∃ j, journalOf rows = .ok j := by
  refine (exists_journalOf_iff rows).2 fun c hc => ?_
  obtain ⟨hlen, hmem⟩ := length_chunks_le rows c hc
  calc (c.map StoredRow.size).sum
      ≤ (c.map StoredRow.size).length • maxRowSize := by
        refine List.sum_le_card_nsmul _ _ fun n hn => ?_
        obtain ⟨row, hrow, rfl⟩ := List.mem_map.1 hn
        exact h row (hmem row hrow)
    _ = c.length * maxRowSize := by rw [List.length_map, smul_eq_mul]
    _ ≤ compactBatch * maxRowSize := Nat.mul_le_mul_right _ hlen
    _ ≤ Journal.maxPayload := Nat.mul_div_le ..

/-- Rows that make one record, and a record that is too large, cannot be written to a new
    journal. -/
theorem journalOf_eq_error {rows : List StoredRow} (hlen : rows.length ≤ compactBatch)
    (h : Journal.maxPayload < (rows.map StoredRow.size).sum) :
    journalOf rows = .error (.recordTooLarge (rows.map StoredRow.size).sum) := by
  have hne : rows ≠ [] := by
    rintro rfl
    cases h
  rw [← RowCodec.length_encodeStored] at h ⊢
  have hframe : Journal.frame (RowCodec.encodeStored rows)
      = .error (.recordTooLarge (RowCodec.encodeStored rows).length) := if_neg (Nat.not_le.2 h)
  rw [journalOf, chunks_eq_singleton hne hlen, List.map_singleton, Journal.ofPayloads,
    List.mapM_cons, hframe]
  rfl

end Storage

end Logbook
