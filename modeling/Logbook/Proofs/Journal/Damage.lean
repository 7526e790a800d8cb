import Logbook.Proofs.Digest.Crc32
import Logbook.Proofs.Journal.Recovery

set_option autoImplicit false

/-! # Opening damaged journals

Two kinds of damage other than a cut. A record with wrong bytes in its checksum, or with wrong bytes
within four consecutive ones of its payload, is never read, because such bytes change the checksum
(`Crc32.checksum_ne_of_burst`), so that opening keeps what stands before it and nothing else
(`Journal.ofFile_damaged`). Zeros behind the records, which a crash leaves where blocks were
allocated and never written, are not told from records: eight of them are the record of an empty
payload, whose length and checksum are zero (`Journal.ofFile_zeros`). -/

namespace Logbook.Journal

/-! ## Damaged records -/

/-- The record of a payload with some of its bytes changed: its checksum, or up to four consecutive
    bytes of its payload. -/
inductive Damaged (payload : Bytes) : Bytes → Prop
  | checksum (sum : Bytes) (hlen : sum.length = 4)
      (hne : sum ≠ Bytes.ofNatBE 4 (Crc32.checksum payload).toNat) :
      Damaged payload (Bytes.ofNatBE 4 payload.length ++ sum ++ payload)
  | burst (before old new after : Bytes) (hpayload : payload = before ++ old ++ after)
      (hlen : new.length = old.length) (hfour : old.length ≤ 4) (hne : new ≠ old) :
      Damaged payload (Bytes.ofNatBE 4 payload.length ++
        Bytes.ofNatBE 4 (Crc32.checksum payload).toNat ++ (before ++ new ++ after))

/-- A payload with a checksum that is not its own is not read. -/
theorem readRecord?_of_checksum_ne {sum payload : Bytes} (rest : Bytes)
    (hlen : payload.length ≤ maxPayload) (hsum : sum.length = 4)
    (hne : sum ≠ Bytes.ofNatBE 4 (Crc32.checksum payload).toNat) :
    readRecord? (Bytes.ofNatBE 4 payload.length ++ sum ++ payload ++ rest) = none := by
  refine Option.eq_none_iff_forall_ne_some.2 ?_
  rintro ⟨rows, rest'⟩ h
  obtain ⟨other, ⟨hother, -⟩, heq⟩ := readRecord?_eq_some_iff.1 h
  have hfour : ∀ n, (Bytes.ofNatBE 4 n).length = 4 := fun n => Bytes.length_ofNatBE 4 n
  have hmax : maxPayload < 256 ^ 4 := by decide
  -- what is read has the length and the checksum that stand there, and so the same payload
  simp only [record, List.append_assoc] at heq
  obtain ⟨hlength, heq⟩ := List.append_inj heq ((hfour _).trans (hfour _).symm)
  obtain ⟨hchecksum, heq⟩ := List.append_inj heq (hsum.trans (hfour _).symm)
  have hsame : payload.length = other.length :=
    Bytes.ofNatBE_injective (Nat.lt_of_le_of_lt hlen hmax) (Nat.lt_of_le_of_lt hother hmax) hlength
  obtain ⟨rfl, -⟩ := List.append_inj heq hsame
  exact hne hchecksum

/-- A damaged record is not read. -/
theorem readRecord?_of_damaged {payload damaged : Bytes} (h : Damaged payload damaged)
    (hlen : payload.length ≤ maxPayload) (rest : Bytes) : readRecord? (damaged ++ rest) = none := by
  cases h with
  | checksum sum hsum hne => exact readRecord?_of_checksum_ne rest hlen hsum hne
  | burst before old new after hpayload hnew hfour hne =>
    have hsize : payload.length = (before ++ new ++ after).length := by
      simp [hpayload, hnew]
    rw [hsize] at hlen ⊢
    refine readRecord?_of_checksum_ne rest hlen (Bytes.length_ofNatBE 4 _) fun hsum => ?_
    have hchecksum := Bytes.ofNatBE_injective (UInt32.toNat_lt _) (UInt32.toNat_lt _) hsum
    rw [hpayload, UInt32.toNat_inj] at hchecksum
    exact Crc32.checksum_ne_of_burst before after hnew.symm hfour hne.symm hchecksum

/-- **Damage to a record is always caught.** Whichever record of a journal is damaged in its
    checksum or in up to four consecutive bytes of its payload, opening the file gives the batches
    of the records before it, and cuts the file behind these. -/
theorem ofFile_damaged {payloads : List Bytes} {batches : List (List DecodedRow)}
    (h : List.Forall₂ Holds payloads batches) {k : Nat} (hk : k < payloads.length)
    {damaged : Bytes} (hdamaged : Damaged payloads[k] damaged) :
    ofFile ((payloads.take k).flatMap record ++ damaged ++ (payloads.drop (k + 1)).flatMap record)
      = (ofRecords (payloads.take k), batches.take k) := by
  have hlen : payloads[k].length ≤ maxPayload := length_le_of_holds h _ (List.getElem_mem hk)
  rw [List.append_assoc]
  exact ofFile_flatMap_record (List.forall₂_take k h) (readRecord?_of_damaged hdamaged hlen _)

/-- The second of three records, with four bytes of its time changed. -/
def otherTime : Bytes :=
  Bytes.ofNatBE 4 (History.samplePayload 2).length ++
    Bytes.ofNatBE 4 (Crc32.checksum (History.samplePayload 2)).toNat ++
    ([0, 0, 0, 0, 0] ++ [1, 2, 3, 4] ++ [2])

theorem holds_samplePayload {t : Timestamp} (ht : t ≠ 0) :
    Holds (History.samplePayload t) [⟨some t, [], []⟩] := by
  have hlen : (History.samplePayload t).length = 10 := by
    simp [History.samplePayload, RowCodec.encodeAll, RowCodec.encode, DecodedRow.fields,
      Varint.encode_of_lt, RowCodec.length_encodeTimestamp]
  refine ⟨by rw [hlen]; decide, ?_⟩
  have hread := RowCodec.decodeAll_encodeAll_of_length (Nat.lt_of_le_of_lt hlen.le (by decide))
  rw [History.samplePayload, hread]
  simp [RowCodec.asRead, Option.filter, ht]

theorem other_time_not_replayed :
    List.Forall₂ Holds [History.samplePayload 1, History.samplePayload 2, History.samplePayload 3]
        [[⟨some 1, [], []⟩], [⟨some 2, [], []⟩], [⟨some 3, [], []⟩]] ∧
      Damaged (History.samplePayload 2) otherTime ∧
      ofFile (record (History.samplePayload 1) ++ otherTime ++ record (History.samplePayload 3))
        = (ofRecords [History.samplePayload 1], [[⟨some 1, [], []⟩]]) := by
  have hholds := List.Forall₂.cons (holds_samplePayload (t := 1) (by decide))
    (.cons (holds_samplePayload (t := 2) (by decide))
      (.cons (holds_samplePayload (t := 3) (by decide)) .nil))
  have hpayload : History.samplePayload 2 = [0, 0, 0, 0, 0] ++ [0, 0, 0, 0] ++ [2] := by
    decide +kernel
  have hdamaged : Damaged (History.samplePayload 2) otherTime :=
    .burst _ _ [1, 2, 3, 4] _ hpayload rfl (by decide) (by decide)
  refine ⟨hholds, hdamaged, ?_⟩
  have hopen := ofFile_damaged hholds (k := 1) (by decide) hdamaged
  simpa using hopen

/-! ## Zeros behind the records -/

/-- The record of an empty payload has nothing but zeros. -/
theorem record_nil : record [] = List.replicate 8 0 := by decide

theorem readRecord?_zeros {n : Nat} (h : n < 8) : readRecord? (List.replicate n 0) = none := by
  rw [readRecord?, if_pos (by simpa [headerSize] using h)]

theorem flatMap_record_replicate_nil (n : Nat) :
    (List.replicate n []).flatMap record = List.replicate (n * 8) 0 := by
  rw [List.flatMap_replicate, record_nil, List.flatten_replicate_replicate]

theorem holds_nil : Holds [] [] := by
  refine ⟨Nat.zero_le _, ?_⟩
  rw [RowCodec.decodeAll, RowCodec.readRows]
  rfl

theorem holds_replicate_nil (n : Nat) :
    List.Forall₂ Holds (List.replicate n []) (List.replicate n []) := by
  induction n with
  | zero => exact .nil
  | succ n ih => exact .cons holds_nil ih

theorem ofRecords_append_replicate_nil (payloads : List Bytes) (n : Nat) :
    ofRecords (payloads ++ List.replicate n [])
      = ⟨(ofRecords payloads).file ++ List.replicate (n * 8) 0,
          (ofRecords payloads).size + n * 8⟩ := by
  simp [ofRecords, flatMap_record_replicate_nil]

/-- **Zeros behind the records are taken for records, eight by eight.** After any appends, opening
    the file with `n` zeros behind it gives the appended batches and an empty one for every eight
    zeros, and cuts off only the zeros that are left over. The journal is what it was after the last
    append if and only if there are fewer than eight. -/
theorem ofFile_zeros {payloads : List Bytes} {batches : List (List DecodedRow)}
    (h : List.Forall₂ Holds payloads batches) :
    payloads.foldlM append (ofFile []).1 = .ok (ofRecords payloads) ∧ ∀ n,
      ofFile ((ofRecords payloads).file ++ List.replicate n 0)
        = (⟨(ofRecords payloads).file ++ List.replicate (n / 8 * 8) 0,
            (ofRecords payloads).size + n / 8 * 8⟩, batches ++ List.replicate (n / 8) []) ∧
      (ofFile ((ofRecords payloads).file ++ List.replicate n 0) = (ofRecords payloads, batches)
        ↔ n < 8) := by
  have hstart : (ofFile []).1 = ofRecords [] := congrArg Prod.fst (ofFile_ofRecords .nil)
  refine ⟨?_, fun n => ?_⟩
  · rw [hstart, foldlM_append_ofRecords (length_le_of_holds h), List.nil_append]
  -- eight zeros are a record, and fewer are none
  have hzeros : List.replicate n 0
      = (List.replicate (n / 8) []).flatMap record ++ List.replicate (n % 8) 0 := by
    rw [flatMap_record_replicate_nil, List.replicate_append_replicate, Nat.div_add_mod']
  have hopen := ofFile_flatMap_record (List.rel_append h (holds_replicate_nil (n / 8)))
    (readRecord?_zeros (Nat.mod_lt n (by decide)))
  rw [List.flatMap_append, List.append_assoc, ← hzeros, ofRecords_append_replicate_nil] at hopen
  refine ⟨hopen, hopen ▸ ⟨fun heq => ?_, fun hn => ?_⟩⟩
  · have hnone := List.append_right_eq_self.1 (congrArg Prod.snd heq)
    rw [List.replicate_eq_nil_iff] at hnone
    omega
  · simp [Nat.div_eq_of_lt hn]

/-- Twenty zeros behind one record are two records more. -/
theorem twenty_zeros_read :
    List.Forall₂ Holds [History.samplePayload 1] [[⟨some 1, [], []⟩]] ∧
      ofFile (record (History.samplePayload 1) ++ List.replicate 20 0)
        = (⟨record (History.samplePayload 1) ++ List.replicate 16 0, 34⟩,
            [[⟨some 1, [], []⟩], [], []]) := by
  have hholds : List.Forall₂ Holds [History.samplePayload 1] [[⟨some 1, [], []⟩]] :=
    .cons (holds_samplePayload (by decide)) .nil
  have hlen : (record (History.samplePayload 1)).length = 18 := by decide +kernel
  refine ⟨hholds, ?_⟩
  have hopen := ((ofFile_zeros hholds).2 20).1
  simpa [ofRecords, hlen] using hopen

end Logbook.Journal
