import Logbook.Proofs.Journal.Replay
import Logbook.Proofs.Rows
import Logbook.Storage

set_option autoImplicit false

/-! # What the operations of a store do

A store holds each row twice: in memory, visible or pending (`Storage.held`), and in its journal
(`Storage.replayed`). Each operation is described once, by the content of the rows that both hold
from some time on (`Storage.liveContents`): adding puts the new rows into both, a flush and an
opening drop expired rows only, and writing the journal anew keeps what is in memory. -/

namespace Logbook.Storage

/-! ## The rows of a store -/

/-- All rows in memory. -/
def held (s : Storage) : List StoredRow :=
  s.visibleRows ++ s.pending

/-- The stored rows of batches that were read from a journal. -/
def rowsOf (batches : List (List DecodedRow)) : List StoredRow :=
  batches.flatten.map (StoredRow.ofDecoded · 0)

/-- The rows that replaying a journal file yields. -/
def replayed (file : Bytes) : List StoredRow :=
  rowsOf (Journal.replay file).1

/-- What the rows from a time on say. -/
def liveContents (t : Timestamp) (rows : List StoredRow) : List StoredRow.Content :=
  (rows.map StoredRow.content).filter (t ≤ ·.timestamp)

theorem liveContents_append (t : Timestamp) (rows rows' : List StoredRow) :
    liveContents t (rows ++ rows') = liveContents t rows ++ liveContents t rows' := by
  simp [liveContents]

theorem liveContents_perm (t : Timestamp) {rows rows' : List StoredRow} (h : rows.Perm rows') :
    (liveContents t rows).Perm (liveContents t rows') :=
  (h.map _).filter _

/-- Dropping rows from before a time leaves the later ones. -/
theorem liveContents_filter {limit t : Timestamp} (h : limit ≤ t) (rows : List StoredRow) :
    liveContents t (rows.filter (limit ≤ ·.timestamp)) = liveContents t rows := by
  induction rows with
  | nil => rfl
  | cons row rows ih =>
    simp only [liveContents, List.filter_cons, List.map_cons] at ih ⊢
    by_cases hl : limit ≤ row.timestamp
    · simp only [hl, decide_true, if_true, List.map_cons, List.filter_cons, ih]
    · have ht : ¬ t ≤ row.content.timestamp := fun hle => hl (Int64.le_trans h hle)
      simp only [hl, ht, decide_false, Bool.false_eq_true, if_false, ih]

/-! ## Parts -/

theorem ofRows_rows_perm (rows : List StoredRow) : (Part.ofRows rows).rows.Perm rows :=
  List.mergeSort_perm ..

theorem flatMap_partsOf_perm (rows : List StoredRow) :
    ((partsOf rows).flatMap (·.rows)).Perm rows := by
  unfold partsOf
  split
  · next h => simp [List.isEmpty_iff.1 h]
  · simpa using ofRows_rows_perm rows

theorem flatMap_allParts_perm (s : Storage) : (s.allParts.flatMap (·.rows)).Perm s.held := by
  rw [allParts, List.flatMap_append, held, visibleRows]
  exact (flatMap_partsOf_perm s.pending).append_left _

/-! ## Journals of rows -/

theorem rowsOf_append (batches batches' : List (List DecodedRow)) :
    rowsOf (batches ++ batches') = rowsOf batches ++ rowsOf batches' := by
  simp [rowsOf]

/-- The batch that a record of stored rows replays to. -/
def batchOf (rows : List StoredRow) : List DecodedRow :=
  rows.map fun row => RowCodec.asRead row.toDecoded

theorem decodeAll_encodeStored {rows : List StoredRow}
    (h : (RowCodec.encodeStored rows).length ≤ Journal.maxPayload) :
    RowCodec.decodeAll (RowCodec.encodeStored rows) = .ok (batchOf rows) := by
  have hlt : (RowCodec.encodeStored rows).length < 2 ^ 64 := Nat.lt_of_le_of_lt h (by decide)
  rw [RowCodec.encodeStored, RowCodec.decodeAll_encodeAll_of_length hlt, batchOf, List.map_map]
  rfl

theorem contents_rowsOf_batches {batches : List (List StoredRow)}
    (h : ∀ row ∈ batches.flatten, row.WellFormed) :
    (rowsOf (batches.map batchOf)).map StoredRow.content
      = batches.flatten.map StoredRow.content := by
  have hbatch : (batches.map batchOf).flatten
      = batches.flatten.map fun row => RowCodec.asRead row.toDecoded :=
    List.map_flatten.symm
  rw [rowsOf, hbatch, List.map_map, List.map_map]
  exact List.map_congr_left fun row hrow =>
    StoredRow.content_ofDecoded_asRead_toDecoded (h row hrow)

theorem liveContents_rowsOf_batches (t : Timestamp) {batches : List (List StoredRow)}
    (h : ∀ row ∈ batches.flatten, row.WellFormed) :
    liveContents t (rowsOf (batches.map batchOf)) = liveContents t batches.flatten := by
  rw [liveContents, contents_rowsOf_batches h, liveContents]

/-- A journal written anew is made of the records of equally many rows. -/
theorem intact_journalOf {rows : List StoredRow} {j : Journal} (h : journalOf rows = .ok j) :
    Journal.Intact j.file ((chunks compactBatch rows).map batchOf) := by
  obtain ⟨hlen, hfile⟩ := Journal.ofPayloads_eq_ok h
  have hfits : ∀ c ∈ chunks compactBatch rows,
      (RowCodec.encodeStored c).length ≤ Journal.maxPayload :=
    fun c hc => hlen _ (List.mem_map.2 ⟨c, hc, rfl⟩)
  rw [hfile]
  exact Journal.intact_records hfits fun c hc => decodeAll_encodeStored (hfits c hc)

/-- A journal written anew replays to rows with the content of those it was written from. -/
theorem journalOf_eq_ok {rows : List StoredRow} {j : Journal} (hrows : ∀ r ∈ rows, r.WellFormed)
    (h : journalOf rows = .ok j) :
    ∃ batches, Journal.Intact j.file batches ∧
      ∀ t, liveContents t (rowsOf batches) = liveContents t rows := by
  have hflat : (chunks compactBatch rows).flatten = rows := flatten_chunks (by decide) rows
  refine ⟨_, intact_journalOf h, fun t => ?_⟩
  rw [liveContents_rowsOf_batches t (by rwa [hflat]), hflat]

/-! ## Adding -/

/-- The store with more rows in its journal and among the pending ones. -/
def withRows (s : Storage) (rows : List StoredRow) : Storage :=
  if rows.isEmpty then s
  else { s with
    journal := s.journal.push (Journal.record (RowCodec.encodeStored rows))
    pending := s.pending ++ rows
    added := s.added + rows.length }

/-- **Rows are added exactly if the store takes writes and they fit in one record.** -/
theorem add_eq_ok_iff {s s' : Storage} {rows : List StoredRow} :
    s.add rows = .ok s' ↔
      s.canWrite = .ok () ∧ (RowCodec.encodeStored rows).length ≤ Journal.maxPayload ∧
        s' = s.withRows rows := by
  simp only [add, withRows, bind, Except.bind]
  cases hw : s.canWrite with
  | error e => simp
  | ok u =>
    cases rows with
    | nil => simp [RowCodec.encodeStored, RowCodec.encodeAll, pure, Except.pure, eq_comm]
    | cons row rows =>
      simp only [List.isEmpty_cons, Bool.false_eq_true, if_false, Journal.append, Journal.frame,
        bind, Except.bind, pure, Except.pure, true_and]
      by_cases hlen : (RowCodec.encodeStored (row :: rows)).length ≤ Journal.maxPayload
      · simp [hlen, eq_comm]
      · simp [hlen]

theorem config_withRows (s : Storage) (rows : List StoredRow) :
    (s.withRows rows).config = s.config := by
  unfold withRows
  split <;> rfl

theorem readOnly_withRows (s : Storage) (rows : List StoredRow) :
    (s.withRows rows).readOnly = s.readOnly := by
  unfold withRows
  split <;> rfl

theorem visible_withRows (s : Storage) (rows : List StoredRow) :
    (s.withRows rows).visible = s.visible := by
  unfold withRows
  split <;> rfl

theorem pending_withRows (s : Storage) (rows : List StoredRow) :
    (s.withRows rows).pending = s.pending ++ rows := by
  unfold withRows
  split
  · next h => rw [List.isEmpty_iff.1 h, List.append_nil]
  · rfl

theorem held_withRows (s : Storage) (rows : List StoredRow) :
    (s.withRows rows).held = s.held ++ rows := by
  unfold withRows
  split
  · next h => simp [List.isEmpty_iff.1 h]
  · simp [held, visibleRows]

/-- The journal of a store that took rows in replays to the old batches and then those rows. -/
theorem intact_withRows {s : Storage} {rows : List StoredRow} {batches : List (List DecodedRow)}
    (hlen : (RowCodec.encodeStored rows).length ≤ Journal.maxPayload)
    (h : Journal.Intact s.journal.file batches) :
    ∃ more : List (List StoredRow), more.flatten = rows ∧
      Journal.Intact (s.withRows rows).journal.file (batches ++ more.map batchOf) := by
  unfold withRows
  split
  · next hnil =>
    refine ⟨[], ?_, ?_⟩
    · simpa using (List.isEmpty_iff.1 hnil).symm
    · simpa using h
  · refine ⟨[rows], by simp, ?_⟩
    exact Journal.intact_append_intact h (Journal.intact_record hlen (decodeAll_encodeStored hlen))

/-! ## Flushing -/

theorem held_flush (s : Storage) (now : Timestamp) :
    (s.flush now).1.held = (s.flushedParts (cutoff now s.config.retention)).flatMap (·.rows) := by
  simp [flush, held, visibleRows]

/-- A flush that finds a part with an expired row leaves the rows from the limit on. -/
theorem flatMap_flushedParts_of_expired {s : Storage} {limit : Timestamp}
    (h : s.allParts.any (·.minTime < limit) = true) :
    ((s.flushedParts limit).flatMap (·.rows)).Perm
      (s.held.filter (limit ≤ ·.timestamp)) := by
  rw [flushedParts, h, Bool.true_or, if_pos rfl, mergeParts]
  exact (flatMap_partsOf_perm _).trans ((flatMap_allParts_perm s).filter _)

/-- A flush drops no row from the limit on and makes up none. -/
theorem flatMap_flushedParts (s : Storage) (limit : Timestamp) :
    (∀ row ∈ (s.flushedParts limit).flatMap (·.rows), row ∈ s.held) ∧
      ∀ t, limit ≤ t →
        (liveContents t ((s.flushedParts limit).flatMap (·.rows))).Perm
          (liveContents t s.held) := by
  have hall := flatMap_allParts_perm s
  unfold flushedParts
  split
  · have hmerge : ((mergeParts limit s.allParts).flatMap (·.rows)).Perm
        (s.held.filter (limit ≤ ·.timestamp)) :=
      (flatMap_partsOf_perm _).trans (hall.filter _)
    refine ⟨fun row hrow => List.mem_of_mem_filter (hmerge.mem_iff.1 hrow), fun t ht => ?_⟩
    have := liveContents_perm t hmerge
    rwa [liveContents_filter ht] at this
  · exact ⟨fun row hrow => hall.mem_iff.1 hrow, fun t _ => liveContents_perm t hall⟩

/-- A flush keeps all rows if none has expired. -/
theorem flatMap_flushedParts_perm {s : Storage} {limit : Timestamp}
    (h : ∀ row ∈ s.held, limit ≤ row.timestamp) :
    ((s.flushedParts limit).flatMap (·.rows)).Perm s.held := by
  have hall := flatMap_allParts_perm s
  have hkept : s.held.filter (limit ≤ ·.timestamp) = s.held :=
    List.filter_eq_self.2 fun row hrow => decide_eq_true (h row hrow)
  unfold flushedParts
  split
  · have hfiltered := hall.filter (limit ≤ ·.timestamp)
    rw [hkept] at hfiltered
    exact (flatMap_partsOf_perm _).trans hfiltered
  · exact hall

/-- The journal after a flush either is the old one or holds the rows in memory. -/
theorem flushedJournal_cases (s : Storage) (limit : Timestamp) :
    s.flushedJournal limit = s.journal ∨
      journalOf ((s.flushedParts limit).flatMap (·.rows)) = .ok (s.flushedJournal limit) := by
  unfold flushedJournal
  split
  · cases hj : journalOf ((s.flushedParts limit).flatMap (·.rows)) with
    | ok j => exact Or.inr rfl
    | error e => exact Or.inl rfl
  · exact Or.inl rfl

theorem flushedJournal_of_error {s : Storage} {limit : Timestamp} {e : StoreError}
    (h : journalOf ((s.flushedParts limit).flatMap (·.rows)) = .error e) :
    s.flushedJournal limit = s.journal := by
  rw [flushedJournal, h]
  exact ite_self _

/-! ## Opening -/

/-- Opening puts what the journal holds and what has not expired into memory. -/
theorem memory_ofFile {config : StorageConfig} {file : Bytes} {now : Timestamp} {s : Storage}
    (h : ofFile config file now = .ok s) :
    s.visible = partsOf ((replayed file).filter (cutoff now config.retention ≤ ·.timestamp)) ∧
      s.pending = [] := by
  rw [replayed]
  cases hreplay : Journal.replay file with
  | mk batches tail =>
    simp only [ofFile, Journal.ofFile, hreplay, bind, Except.bind] at h
    rw [← rowsOf] at h
    split at h
    · split at h
      · contradiction
      · cases h
        exact ⟨rfl, rfl⟩
    · cases h
      exact ⟨rfl, rfl⟩

theorem ofFile_eq_ok {config : StorageConfig} {file : Bytes} {now : Timestamp} {s : Storage}
    {batches : List (List DecodedRow)} (hfile : Journal.Intact file batches)
    (h : ofFile config file now = .ok s) :
    s.held.Perm ((rowsOf batches).filter (cutoff now config.retention ≤ ·.timestamp)) ∧
      (s.journal.file = file ∧
          (rowsOf batches).filter (cutoff now config.retention ≤ ·.timestamp) = rowsOf batches ∨
        journalOf ((rowsOf batches).filter (cutoff now config.retention ≤ ·.timestamp))
          = .ok s.journal) := by
  have hreplay : Journal.replay file = (batches, []) := hfile
  obtain ⟨hvisible, hpending⟩ := memory_ofFile h
  rw [replayed, hreplay] at hvisible
  constructor
  · rw [held, visibleRows, hvisible, hpending, List.append_nil]
    exact flatMap_partsOf_perm _
  · simp only [ofFile, Journal.ofFile, hreplay, List.length_nil, Nat.sub_zero, List.take_length,
      bind, Except.bind] at h
    rw [← rowsOf] at h
    split at h
    · -- expired rows are dropped, and the journal is written anew without them
      split at h
      · contradiction
      · next j hj =>
        cases h
        exact Or.inr hj
    · next hlength =>
      cases h
      exact Or.inl ⟨rfl, List.filter_sublist.eq_of_length_le (Nat.not_lt.1 hlength)⟩

/-- Opening fails only if the journal has to be written anew and cannot be. -/
theorem exists_ofFile {config : StorageConfig} {file : Bytes} {now : Timestamp}
    {batches : List (List DecodedRow)} (hfile : Journal.Intact file batches)
    (h : ∃ j, journalOf ((rowsOf batches).filter (cutoff now config.retention ≤ ·.timestamp))
      = .ok j) : ∃ s, ofFile config file now = .ok s := by
  obtain ⟨j, hj⟩ := h
  simp only [ofFile, Journal.ofFile, show Journal.replay file = (batches, []) from hfile,
    List.length_nil, Nat.sub_zero, List.take_length, bind, Except.bind]
  rw [← rowsOf, hj]
  split <;> exact ⟨_, rfl⟩

/-- Opening fails if a row has expired and the journal cannot be written anew. -/
theorem ofFile_eq_error {config : StorageConfig} {file : Bytes} {now : Timestamp} {e : StoreError}
    {batches : List (List DecodedRow)} (hfile : Journal.Intact file batches)
    (hexpired : ∃ row ∈ rowsOf batches, row.timestamp < cutoff now config.retention)
    (h : journalOf ((rowsOf batches).filter (cutoff now config.retention ≤ ·.timestamp))
      = .error e) : ofFile config file now = .error e := by
  have hlength : ((rowsOf batches).filter (cutoff now config.retention ≤ ·.timestamp)).length
      < (rowsOf batches).length := by
    obtain ⟨row, hrow, hlt⟩ := hexpired
    refine List.length_filter_lt_length_iff_exists.2 ⟨row, hrow, fun hle => ?_⟩
    exact Int64.lt_irrefl (Int64.lt_of_lt_of_le hlt (of_decide_eq_true hle))
  simp only [ofFile, Journal.ofFile, show Journal.replay file = (batches, []) from hfile,
    List.length_nil, Nat.sub_zero, List.take_length, bind, Except.bind]
  rw [← rowsOf, if_pos hlength, h]

end Logbook.Storage
