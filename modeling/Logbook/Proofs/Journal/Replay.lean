import Mathlib.Data.List.Basic
import Logbook.Journal
import Logbook.Proofs.Codec.RoundTrip

set_option autoImplicit false

/-! # Replaying records

A file that holds nothing but whole records replays to the batches of those records, with no bytes
left over (`Journal.Intact`). Two such files one behind the other are one (`intact_append_intact`),
and a journal written anew holds the batches of its payloads (`Journal.ofPayloads_eq_ok`,
`Journal.intact_records`). -/

namespace Logbook.Journal

/-! ## One record -/

/-- Bytes behind a whole record do not matter to it. -/
theorem readRecord?_append {file rest : Bytes} {rows : List DecodedRow} (extra : Bytes)
    (h : readRecord? file = some (rows, rest)) :
    readRecord? (file ++ extra) = some (rows, rest ++ extra) := by
  simp only [readRecord?] at h ⊢
  split at h
  · contradiction
  · next hlen =>
    -- header and payload lie within the old bytes
    have hlen : headerSize ≤ file.length := Nat.not_lt.1 hlen
    have h4 : 4 ≤ file.length := Nat.le_trans (by decide) hlen
    have htake : (file ++ extra).take 4 = file.take 4 := List.take_append_of_le_length h4
    have hsum : ((file ++ extra).drop 4).take 4 = (file.drop 4).take 4 := by
      rw [List.drop_append_of_le_length h4, List.take_append_of_le_length]
      simp only [headerSize, List.length_drop] at hlen ⊢
      omega
    have hbody : (file ++ extra).drop headerSize = file.drop headerSize ++ extra :=
      List.drop_append_of_le_length hlen
    rw [htake, hsum, hbody, if_neg (by simp only [List.length_append]; omega)]
    split at h
    · contradiction
    · next hfits =>
      have hfits := Nat.not_lt.1 hfits
      rw [if_neg (by simp only [List.length_append]; omega), List.take_append_of_le_length hfits,
        List.drop_append_of_le_length hfits]
      split at h
      · contradiction
      · next hcrc =>
        rw [if_neg hcrc]
        split at h
        · cases h
          rfl
        · contradiction

theorem length_record (payload : Bytes) :
    (record payload).length = headerSize + payload.length := by
  simp only [record, headerSize, List.length_append, Bytes.length_ofNatBE]

/-- A record is read back as the rows of its payload. -/
theorem readRecord?_record {payload : Bytes} {rows : List DecodedRow}
    (hlen : payload.length ≤ maxPayload) (hrows : RowCodec.decodeAll payload = .ok rows) :
    readRecord? (record payload) = some (rows, []) := by
  have hsize : payload.length < 256 ^ 4 := Nat.lt_of_le_of_lt hlen (by decide)
  have hcrc : (Crc32.checksum payload).toNat < 256 ^ 4 := UInt32.toNat_lt _
  have h4 : ∀ n, (Bytes.ofNatBE 4 n).length = 4 := fun n => Bytes.length_ofNatBE 4 n
  have hlength : (record payload).take 4 = Bytes.ofNatBE 4 payload.length := by
    rw [record, List.append_assoc, List.take_left' (h4 _)]
  have hsum : ((record payload).drop 4).take 4
      = Bytes.ofNatBE 4 (Crc32.checksum payload).toNat := by
    rw [record, List.append_assoc, List.drop_left' (h4 _), List.take_left' (h4 _)]
  have hbody : (record payload).drop headerSize = payload := by
    rw [record]
    exact List.drop_left' (by simp [headerSize, h4])
  have hnot : ¬ (record payload).length < headerSize := by
    rw [length_record]
    omega
  simp only [readRecord?, if_neg hnot, hlength, hsum, hbody, Bytes.toNatBE_ofNatBE hsize,
    Bytes.toNatBE_ofNatBE hcrc, List.take_length, List.drop_length, hrows]
  simp

/-! ## Whole files -/

theorem replay_of_readRecord? {file rest : Bytes} {rows : List DecodedRow}
    (h : readRecord? file = some (rows, rest)) :
    replay file = (rows :: (replay rest).1, (replay rest).2) := by
  rw [replay]
  split
  · next hnone =>
    rw [h] at hnone
    contradiction
  · next rows' rest' hsome =>
    rw [h] at hsome
    cases hsome
    rfl

theorem replay_nil : replay [] = ([], []) := by
  rw [replay]
  rfl

/-- A file of whole records that replays to these batches. -/
def Intact (file : Bytes) (batches : List (List DecodedRow)) : Prop :=
  replay file = (batches, [])

theorem intact_nil : Intact [] [] := replay_nil

/-- The records of an intact file are replayed before what comes after it. -/
theorem replay_append {file : Bytes} {batches : List (List DecodedRow)} (extra : Bytes)
    (h : Intact file batches) :
    replay (file ++ extra) = (batches ++ (replay extra).1, (replay extra).2) := by
  unfold Intact at h
  induction hn : file.length using Nat.strongRecOn generalizing file batches with
  | ind n ih =>
    cases hread : readRecord? file with
    | none =>
      rw [replay, hread] at h
      cases h
      simp
    | some p =>
      obtain ⟨rows, rest⟩ := p
      have hshort := length_readRecord? hread
      rw [replay_of_readRecord? hread] at h
      obtain ⟨rfl, htail⟩ := Prod.mk.inj h
      have hrest := ih rest.length (hn ▸ hshort) (Prod.ext rfl htail) rfl
      rw [replay_of_readRecord? (readRecord?_append extra hread), hrest]
      rfl

theorem intact_record {payload : Bytes} {rows : List DecodedRow}
    (hlen : payload.length ≤ maxPayload) (hrows : RowCodec.decodeAll payload = .ok rows) :
    Intact (record payload) [rows] := by
  rw [Intact, replay_of_readRecord? (readRecord?_record hlen hrows), replay_nil]

theorem intact_append_intact {file file' : Bytes} {batches batches' : List (List DecodedRow)}
    (h : Intact file batches) (h' : Intact file' batches') :
    Intact (file ++ file') (batches ++ batches') := by
  rw [Intact, replay_append file' h, h']

/-! ## Journals -/

theorem frame_eq_ok {payload r : Bytes} (h : frame payload = .ok r) :
    payload.length ≤ maxPayload ∧ r = record payload := by
  unfold frame at h
  split at h
  · next hlen =>
    cases h
    exact ⟨hlen, rfl⟩
  · contradiction

theorem mapM_frame_eq_ok {payloads records : List Bytes} (h : payloads.mapM frame = .ok records) :
    (∀ p ∈ payloads, p.length ≤ maxPayload) ∧ records = payloads.map record := by
  induction payloads generalizing records with
  | nil =>
    cases h
    exact ⟨nofun, rfl⟩
  | cons p rest ih =>
    simp only [List.mapM_cons, bind, Except.bind] at h
    split at h
    · contradiction
    · next r hr =>
      split at h
      · contradiction
      · next rs hrs =>
        cases h
        obtain ⟨hlen, rfl⟩ := frame_eq_ok hr
        obtain ⟨hrest, rfl⟩ := ih hrs
        refine ⟨?_, rfl⟩
        intro q hq
        rcases List.mem_cons.1 hq with rfl | hq
        · exact hlen
        · exact hrest q hq

theorem ofPayloads_eq_ok {payloads : List Bytes} {j : Journal} (h : ofPayloads payloads = .ok j) :
    (∀ p ∈ payloads, p.length ≤ maxPayload) ∧ j.file = (payloads.map record).flatten := by
  simp only [ofPayloads, bind, Except.bind] at h
  split at h
  · contradiction
  · next records hr =>
    obtain ⟨hlen, rfl⟩ := mapM_frame_eq_ok hr
    cases h
    exact ⟨hlen, rfl⟩

/-- The records of payloads that decode to these batches. -/
theorem intact_records {α : Type} {xs : List α} {payload : α → Bytes} {rows : α → List DecodedRow}
    (hlen : ∀ x ∈ xs, (payload x).length ≤ maxPayload)
    (hrows : ∀ x ∈ xs, RowCodec.decodeAll (payload x) = .ok (rows x)) :
    Intact ((xs.map payload).map record).flatten (xs.map rows) := by
  induction xs with
  | nil => exact intact_nil
  | cons x xs ih =>
    have hrest := ih (fun y hy => hlen y (List.mem_cons_of_mem _ hy))
      fun y hy => hrows y (List.mem_cons_of_mem _ hy)
    have hx := intact_record (hlen x List.mem_cons_self) (hrows x List.mem_cons_self)
    simp only [List.map_cons, List.flatten_cons]
    exact intact_append_intact hx hrest

end Logbook.Journal
