import Logbook.Proofs.Storage.History
import Logbook.Proofs.Storage.RecordSize

set_option autoImplicit false

/-! # Retention

A flush and an opening drop expired rows and write the journal anew without them. While rows take
less than a 4096th of what a record holds this always succeeds: a store can be opened again after
any history, and neither a flush nor an opening leaves an expired row in the journal
(**`History.expired_rows_leave`**). Larger rows that came in in batches of their own need not fit
into the records of a new journal. Then the store cannot be opened any more, and a flush leaves the
expired rows where they are (`History.large_rows_stay`). -/

namespace Logbook

namespace Storage

/-- The rows of records of stored rows, as they come back. -/
theorem rowsOf_map_batchOf (batches : List (List StoredRow)) :
    rowsOf (batches.map batchOf) = batches.flatten.map StoredRow.reread := by
  have hbatch : (batches.map batchOf).flatten
      = batches.flatten.map fun row => RowCodec.asRead row.toDecoded :=
    List.map_flatten.symm
  rw [rowsOf, hbatch, List.map_map]
  rfl

/-- A bound of the times of some rows is one of any rows with the same times. -/
theorem forall_le_of_map_perm {rows rows' : List StoredRow} {limit : Timestamp}
    (h : (rows.map (·.timestamp)).Perm (rows'.map (·.timestamp)))
    (hle : ∀ row ∈ rows', limit ≤ row.timestamp) : ∀ row ∈ rows, limit ≤ row.timestamp := by
  intro row hrow
  obtain ⟨row', hrow', heq⟩ := List.mem_map.1 (h.mem_iff.1 (List.mem_map_of_mem hrow))
  rw [← heq]
  exact hle row' hrow'

/-! ## Journals that can be written anew -/

/-- The rows in memory are small enough for any record, and so are those in the journal, which are
    as many and have the same times. -/
structure Compactable (s : Storage) : Prop where
  held : ∀ row ∈ s.held, row.size ≤ maxRowSize
  journal : ∃ batches : List (List StoredRow),
    Journal.Intact s.journal.file (batches.map batchOf) ∧
      (∀ row ∈ batches.flatten, row.size ≤ maxRowSize) ∧
      (batches.flatten.map (·.timestamp)).Perm (s.held.map (·.timestamp))

/-- The journal holds no expired row if memory holds none. -/
theorem Compactable.unexpired {s : Storage} (h : s.Compactable) {limit : Timestamp}
    (hheld : ∀ row ∈ s.held, limit ≤ row.timestamp) :
    ∀ row ∈ replayed s.journal.file, limit ≤ row.timestamp := by
  obtain ⟨batches, hintact, -, hperm⟩ := h.journal
  rw [replayed, show Journal.replay s.journal.file = (batches.map batchOf, []) from hintact,
    rowsOf_map_batchOf]
  intro row hrow
  obtain ⟨row', hrow', rfl⟩ := List.mem_map.1 hrow
  rw [StoredRow.timestamp_reread]
  exact forall_le_of_map_perm hperm hheld row' hrow'

/-- A store whose journal was written anew from the rows in memory. -/
theorem compactable_of_journalOf {s : Storage} {rows : List StoredRow}
    (hsmall : ∀ row ∈ rows, row.size ≤ maxRowSize) (hheld : s.held.Perm rows)
    (hj : journalOf rows = .ok s.journal) : s.Compactable where
  held row hrow := hsmall row (hheld.mem_iff.1 hrow)
  journal := by
    have hflat : (chunks compactBatch rows).flatten = rows := flatten_chunks (by decide) rows
    refine ⟨chunks compactBatch rows, intact_journalOf hj, ?_, ?_⟩
    · rwa [hflat]
    · rw [hflat]
      exact (hheld.map _).symm

theorem Compactable.withRows {s : Storage} (h : s.Compactable) {rows : List StoredRow}
    (hsmall : ∀ row ∈ rows, row.size ≤ maxRowSize)
    (hlen : (RowCodec.encodeStored rows).length ≤ Journal.maxPayload) :
    (s.withRows rows).Compactable := by
  obtain ⟨batches, hintact, hbatches, hperm⟩ := h.journal
  obtain ⟨more, rfl, hmore⟩ := intact_withRows hlen hintact
  constructor
  · rw [held_withRows]
    exact List.forall_mem_append.2 ⟨h.held, hsmall⟩
  · refine ⟨batches ++ more, ?_, ?_, ?_⟩
    · rwa [List.map_append]
    · rw [List.flatten_append]
      exact List.forall_mem_append.2 ⟨hbatches, hsmall⟩
    · rw [held_withRows, List.flatten_append, List.map_append, List.map_append]
      exact hperm.append_right _

/-- A flush drops all expired rows, from memory and from the journal. -/
theorem Compactable.flush {s : Storage} (h : s.Compactable) (now : Timestamp) :
    (s.flush now).1.Compactable ∧
      ∀ row ∈ (s.flush now).1.held, cutoff now s.config.retention ≤ row.timestamp := by
  have hmem := (flatMap_flushedParts s (cutoff now s.config.retention)).1
  have hsmall : ∀ row ∈ (s.flush now).1.held, row.size ≤ maxRowSize := by
    intro row hrow
    rw [held_flush] at hrow
    exact h.held row (hmem row hrow)
  by_cases hexpired : s.allParts.any (·.minTime < cutoff now s.config.retention) = true
  · -- the journal is written anew from the rows that are left
    have hrows : ∀ row ∈ (s.flush now).1.held, cutoff now s.config.retention ≤ row.timestamp := by
      intro row hrow
      rw [held_flush, (flatMap_flushedParts_of_expired hexpired).mem_iff] at hrow
      exact of_decide_eq_true (List.mem_filter.1 hrow).2
    obtain ⟨j, hj⟩ := exists_journalOf_of_size_le hsmall
    have hjournal : (s.flush now).1.journal = j := by
      show s.flushedJournal (cutoff now s.config.retention) = j
      rw [held_flush] at hj
      rw [flushedJournal, if_pos hexpired, hj]
    exact ⟨compactable_of_journalOf hsmall (.refl _) (hjournal ▸ hj), hrows⟩
  · -- no part holds an expired row, and the journal stays
    have hrows : ∀ row ∈ s.held, cutoff now s.config.retention ≤ row.timestamp := by
      intro row hrow
      obtain ⟨p, hp, hrow⟩ := List.mem_flatMap.1 ((flatMap_allParts_perm s).mem_iff.2 hrow)
      have hpart := List.any_eq_false.1 (Bool.not_eq_true _ ▸ hexpired) p hp
      have hle : cutoff now s.config.retention ≤ p.minTime := by simpa using hpart
      exact Int64.le_trans hle (p.minTime_le row hrow)
    have hperm : (s.flush now).1.held.Perm s.held := by
      rw [held_flush]
      exact flatMap_flushedParts_perm hrows
    refine ⟨⟨hsmall, ?_⟩, fun row hrow => hrows row (hperm.mem_iff.1 hrow)⟩
    have hjournal : (s.flush now).1.journal = s.journal := if_neg hexpired
    obtain ⟨batches, hintact, hbatches, htimes⟩ := h.journal
    rw [hjournal]
    exact ⟨batches, hintact, hbatches, htimes.trans (hperm.map _).symm⟩

/-- A journal of small rows can be opened, which drops all expired rows. -/
theorem exists_compactable_ofFile {file : Bytes} {batches : List (List StoredRow)}
    (hintact : Journal.Intact file (batches.map batchOf))
    (hsmall : ∀ row ∈ batches.flatten, row.size ≤ maxRowSize) (config : StorageConfig)
    (now : Timestamp) :
    ∃ s, ofFile config file now = .ok s ∧ s.Compactable ∧
      ∀ row ∈ s.held, cutoff now config.retention ≤ row.timestamp := by
  have hreread : ∀ row ∈ rowsOf (batches.map batchOf), row.size ≤ maxRowSize := by
    intro row hrow
    rw [rowsOf_map_batchOf] at hrow
    obtain ⟨row', hrow', rfl⟩ := List.mem_map.1 hrow
    exact Nat.le_trans row'.size_reread_le (hsmall row' hrow')
  have hkept : ∀ row ∈ (rowsOf (batches.map batchOf)).filter
      (cutoff now config.retention ≤ ·.timestamp), row.size ≤ maxRowSize :=
    fun row hrow => hreread row (List.mem_of_mem_filter hrow)
  obtain ⟨s, hs⟩ := exists_ofFile hintact (exists_journalOf_of_size_le hkept)
  obtain ⟨hheld, hjournal⟩ := ofFile_eq_ok hintact hs
  refine ⟨s, hs, ?_, fun row hrow => ?_⟩
  · rcases hjournal with ⟨hsame, hall⟩ | hnew
    · -- nothing was dropped
      rw [hall] at hheld
      refine ⟨fun row hrow => hreread row (hheld.mem_iff.1 hrow), batches, hsame ▸ hintact, hsmall,
        ?_⟩
      have htimes := (hheld.map (·.timestamp)).symm
      rw [rowsOf_map_batchOf, List.map_map] at htimes
      rwa [show (·.timestamp) ∘ StoredRow.reread = (·.timestamp) from
        funext StoredRow.timestamp_reread] at htimes
    · exact compactable_of_journalOf hkept hheld hnew
  · exact of_decide_eq_true (List.mem_filter.1 (hheld.mem_iff.1 hrow)).2

namespace History

/-! ## Histories of small rows -/

/-- Every event goes through and leaves a journal that can be written anew. -/
theorem compactable_step {h : History} (hc : h.store.Compactable) {e : Event}
    (hsmall : ∀ rows, e = .add rows → ∀ row ∈ rows, row.size ≤ maxRowSize) :
    ∃ h', h.step e = .ok h' ∧ h'.store.Compactable := by
  cases e with
  | add rows =>
    rw [step]
    cases hadd : h.store.add rows with
    | error e => exact ⟨h, rfl, hc⟩
    | ok store =>
      obtain ⟨-, hlen, rfl⟩ := add_eq_ok_iff.1 hadd
      exact ⟨_, rfl, hc.withRows (hsmall rows rfl) hlen⟩
  | flush now => exact ⟨_, rfl, (hc.flush now).1⟩
  | close now => exact ⟨_, rfl, (hc.flush now).1⟩
  | setReadOnly on => exact ⟨_, rfl, hc.held, hc.journal⟩
  | reopen config now =>
    obtain ⟨batches, hintact, hbatches, -⟩ := hc.journal
    obtain ⟨store, hopen, hstore, -⟩ := exists_compactable_ofFile hintact hbatches config now
    rw [step, hopen]
    exact ⟨_, rfl, hstore⟩

theorem compactable_foldlM {events : List Event} {h : History} (hc : h.store.Compactable)
    (hsmall : ∀ rows, Event.add rows ∈ events → ∀ row ∈ rows, row.size ≤ maxRowSize) :
    ∃ h', events.foldlM step h = .ok h' ∧ h'.store.Compactable := by
  induction events generalizing h with
  | nil => exact ⟨h, rfl, hc⟩
  | cons e events ih =>
    obtain ⟨h₁, hstep, hc₁⟩ :=
      compactable_step hc fun rows he => hsmall rows (he ▸ List.mem_cons_self)
    rw [List.foldlM_cons, hstep]
    exact ih hc₁ fun rows hmem => hsmall rows (List.mem_cons_of_mem _ hmem)

theorem compactable_run (config : StorageConfig) (now : Timestamp) {events : List Event}
    (hsmall : ∀ rows, Event.add rows ∈ events → ∀ row ∈ rows, row.size ≤ maxRowSize) :
    ∃ h, run config now events = .ok h ∧ h.store.Compactable := by
  have hempty : ∀ row ∈ ([] : List (List StoredRow)).flatten, row.size ≤ maxRowSize := nofun
  obtain ⟨s, hs, hc, -⟩ := exists_compactable_ofFile Journal.intact_nil hempty config now
  rw [run, start, hs]
  exact compactable_foldlM hc hsmall

/-- **Expired rows of small size leave the journal.** Whatever happened to a store of such rows, a
    flush leaves no expired row in its journal, and it can be opened again, which leaves none
    either. -/
theorem expired_rows_leave (config : StorageConfig) (now : Timestamp) {events : List Event}
    (hsmall : ∀ rows, Event.add rows ∈ events → ∀ row ∈ rows, row.size ≤ maxRowSize) :
    ∃ h, run config now events = .ok h ∧
      (∀ now', ∀ row ∈ replayed (h.store.flush now').1.journal.file,
        cutoff now' h.store.config.retention ≤ row.timestamp) ∧
      ∀ config' now', ∃ s, ofFile config' h.store.journal.file now' = .ok s ∧
        ∀ row ∈ replayed s.journal.file, cutoff now' config'.retention ≤ row.timestamp := by
  obtain ⟨h, hrun, hc⟩ := compactable_run config now hsmall
  refine ⟨h, hrun, fun now' => ?_, fun config' now' => ?_⟩
  · obtain ⟨hflushed, hrows⟩ := hc.flush now'
    exact hflushed.unexpired hrows
  · obtain ⟨batches, hintact, hbatches, -⟩ := hc.journal
    obtain ⟨s, hs, hopened, hrows⟩ := exists_compactable_ofFile hintact hbatches config' now'
    exact ⟨s, hs, hopened.unexpired hrows⟩

/-! ## Histories of large rows -/

/-- A store without limits that was only added to. -/
structure OnlyAdded (config : StorageConfig) (h : History) : Prop where
  config : h.store.config = config
  readOnly : h.store.readOnly = false
  visible : h.store.visible = []
  pending : h.store.pending = h.accepted
  journal : ∃ records : List (List StoredRow), records.flatten = h.accepted ∧
    Journal.Intact h.store.journal.file (records.map batchOf)

theorem onlyAdded_start (config : StorageConfig) (now : Timestamp)
    (hreadOnly : config.readOnly = false) :
    ∃ h, start config now = .ok h ∧ h.accepted = [] ∧ h.OnlyAdded config := by
  have hopen : ofFile config [] now = .ok ⟨config, ⟨[], 0⟩, [], [], config.readOnly, 0⟩ := by
    simp [ofFile, Journal.ofFile, Journal.replay_nil, partsOf, bind, Except.bind, pure,
      Except.pure]
  rw [start, hopen]
  exact ⟨_, rfl, rfl, rfl, hreadOnly, rfl, rfl, [], rfl, Journal.intact_nil⟩

/-- A batch that fits in a record is accepted. -/
theorem OnlyAdded.add {config : StorageConfig} {h : History} (ho : h.OnlyAdded config)
    (hdisk : config.maxDiskBytes = 0) {rows : List StoredRow}
    (hfits : (rows.map StoredRow.size).sum ≤ Journal.maxPayload) :
    ∃ h', h.step (.add rows) = .ok h' ∧ h'.accepted = h.accepted ++ rows ∧
      h'.OnlyAdded config := by
  have hwrite : h.store.canWrite = .ok () := by
    simp [canWrite, ho.readOnly, ho.config, hdisk]
  rw [← RowCodec.length_encodeStored] at hfits
  have hadd := add_eq_ok_iff.2 ⟨hwrite, hfits, rfl⟩
  obtain ⟨records, hrecords, hintact⟩ := ho.journal
  obtain ⟨more, rfl, hmore⟩ := intact_withRows hfits hintact
  rw [step, hadd]
  refine ⟨_, rfl, rfl, ?_, ?_, ?_, ?_, records ++ more, ?_, ?_⟩
  · show (h.store.withRows more.flatten).config = config
    rw [config_withRows, ho.config]
  · show (h.store.withRows more.flatten).readOnly = false
    rw [readOnly_withRows, ho.readOnly]
  · show (h.store.withRows more.flatten).visible = []
    rw [visible_withRows, ho.visible]
  · show (h.store.withRows more.flatten).pending = h.accepted ++ more.flatten
    rw [pending_withRows, ho.pending]
  · rw [List.flatten_append, hrecords]
  · rwa [List.map_append]

theorem OnlyAdded.foldlM {config : StorageConfig} {h : History} (ho : h.OnlyAdded config)
    (hdisk : config.maxDiskBytes = 0) {batches : List (List StoredRow)}
    (hfits : ∀ rows ∈ batches, (rows.map StoredRow.size).sum ≤ Journal.maxPayload) :
    ∃ h', (batches.map Event.add).foldlM step h = .ok h' ∧
      h'.accepted = h.accepted ++ batches.flatten ∧ h'.OnlyAdded config := by
  induction batches generalizing h with
  | nil => exact ⟨h, rfl, by rw [List.flatten_nil, List.append_nil], ho⟩
  | cons rows batches ih =>
    obtain ⟨hrows, hrest⟩ := List.forall_mem_cons.1 hfits
    obtain ⟨h₁, hstep, haccepted, ho₁⟩ := ho.add hdisk hrows
    obtain ⟨h', hrun, hall, ho'⟩ := ih ho₁ hrest
    refine ⟨h', ?_, ?_, ho'⟩
    · rw [List.map_cons, List.foldlM_cons, hstep]
      exact hrun
    · rw [hall, haccepted, List.flatten_cons, List.append_assoc]

/-- **Live rows that are too large for one record keep expired rows in the journal.** Each batch was
    accepted, as it fits in a record by itself, and so none of the rows is refused. But the store
    cannot be opened any more, and a flush leaves all rows in its journal. -/
theorem large_rows_stay (config : StorageConfig) {now : Timestamp}
    {batches : List (List StoredRow)} (hreadOnly : config.readOnly = false)
    (hdisk : config.maxDiskBytes = 0)
    (hfits : ∀ rows ∈ batches, (rows.map StoredRow.size).sum ≤ Journal.maxPayload)
    (hreread : ∀ row ∈ batches.flatten, row.reread = row)
    (hexpired : ∃ row ∈ batches.flatten, row.timestamp < cutoff now config.retention)
    {live : List StoredRow}
    (hlive : batches.flatten.filter (cutoff now config.retention ≤ ·.timestamp) = live)
    (hlength : live.length ≤ compactBatch)
    (hlarge : Journal.maxPayload < (live.map StoredRow.size).sum) :
    ∃ h, run config now (batches.map Event.add) = .ok h ∧ h.accepted = batches.flatten ∧
      ofFile config h.store.journal.file now
        = .error (.recordTooLarge (live.map StoredRow.size).sum) ∧
      replayed (h.store.flush now).1.journal.file = batches.flatten := by
  obtain ⟨h₀, hstart, hnone, ho₀⟩ := onlyAdded_start config now hreadOnly
  obtain ⟨h, hrun, haccepted, ho⟩ := ho₀.foldlM hdisk hfits
  rw [hnone, List.nil_append] at haccepted
  obtain ⟨records, hrecords, hintact⟩ := ho.journal
  -- the rows come back from the journal as they were
  have hrows : rowsOf (records.map batchOf) = batches.flatten := by
    rw [rowsOf_map_batchOf, hrecords, haccepted]
    exact (List.map_congr_left hreread).trans (List.map_id _)
  refine ⟨h, ?_, haccepted, ?_, ?_⟩
  · rw [run, hstart]
    exact hrun
  · refine ofFile_eq_error hintact ?_ ?_
    · rwa [hrows]
    · rw [hrows, hlive]
      exact journalOf_eq_error hlength hlarge
  · have hjournal : (h.store.flush now).1.journal = h.store.journal := by
      show h.store.flushedJournal (cutoff now h.store.config.retention) = h.store.journal
      rw [ho.config]
      by_cases hany : h.store.allParts.any (·.minTime < cutoff now config.retention) = true
      · have hheld : h.store.held = batches.flatten := by
          rw [held, visibleRows, ho.visible, ho.pending, haccepted]
          rfl
        have hperm := flatMap_flushedParts_of_expired hany
        rw [hheld, hlive] at hperm
        refine flushedJournal_of_error (journalOf_eq_error ?_ ?_)
        · rwa [hperm.length_eq]
        · rwa [(hperm.map _).sum_eq]
      · exact if_neg hany
    rw [hjournal, replayed, show Journal.replay h.store.journal.file
      = (records.map batchOf, []) from hintact, hrows]

/-! ### Four gigabytes of rows -/

/-- A text of that many bytes. -/
def textOf (n : Nat) : String := String.ofList (List.replicate n 'a')

theorem utf8ByteSize_textOf (n : Nat) : (textOf n).utf8ByteSize = n := by
  rw [textOf]
  induction n with
  | zero => rfl
  | succ n ih =>
    rw [List.replicate_succ, String.ofList_cons, String.utf8ByteSize_append, ih, Nat.add_comm]
    rfl

/-- A row with a message of that many bytes. -/
def rowOf (n : Nat) : StoredRow := .ofStream 100 default [⟨msgName, textOf n⟩]

theorem size_rowOf (n : Nat) : (rowOf n).size = (Varint.encode n).length + n + 15 := by
  have hname : (Stream.lengthPrefixed msgName).length = 5 := by decide +kernel
  rw [rowOf, StoredRow.size_untagged, RowCodec.encodeField, List.length_append, hname,
    Stream.lengthPrefixed, List.length_append, Bytes.length_ofString, utf8ByteSize_textOf]
  omega

/-- A row of a megabyte. -/
def largeRow : StoredRow := rowOf (2 ^ 20)

theorem size_largeRow : largeRow.size = 2 ^ 20 + 18 := by
  have hlength : (Varint.encode (2 ^ 20)).length = 3 := by decide +kernel
  rw [largeRow, size_rowOf, hlength]
  omega

/-- A row that has expired at time 100, if rows are kept for 50. -/
def oldRow : StoredRow := .ofStream 0 default [⟨msgName, ""⟩]

/-- Two batches of two gigabytes each, and a row that expires before theirs do. -/
def largeBatches : List (List StoredRow) :=
  [List.replicate 2048 largeRow, List.replicate 2048 largeRow, [oldRow]]

theorem flatten_largeBatches :
    largeBatches.flatten = List.replicate 4096 largeRow ++ [oldRow] := by
  show List.replicate 2048 largeRow ++ (List.replicate 2048 largeRow ++ ([oldRow] ++ [])) = _
  rw [← List.append_assoc, List.replicate_append_replicate, List.append_nil]

theorem sum_size_replicate_largeRow (n : Nat) :
    ((List.replicate n largeRow).map StoredRow.size).sum = n * (2 ^ 20 + 18) := by
  rw [List.map_replicate, List.sum_replicate, size_largeRow, smul_eq_mul]

theorem sum_size_largeBatches_le :
    ∀ rows ∈ largeBatches, (rows.map StoredRow.size).sum ≤ Journal.maxPayload := by
  have hlarge : ((List.replicate 2048 largeRow).map StoredRow.size).sum ≤ Journal.maxPayload := by
    rw [sum_size_replicate_largeRow]
    decide
  have hold : oldRow.size ≤ Journal.maxPayload := by decide +kernel
  intro rows hrows
  simp only [largeBatches, List.mem_cons, List.not_mem_nil, or_false] at hrows
  rcases hrows with rfl | rfl | rfl
  · exact hlarge
  · exact hlarge
  · simpa using hold

theorem reread_of_mem_largeBatches : ∀ row ∈ largeBatches.flatten, row.reread = row := by
  intro row hrow
  rw [flatten_largeBatches, List.mem_append, List.mem_replicate, List.mem_singleton] at hrow
  rcases hrow with ⟨-, rfl⟩ | rfl
  · exact StoredRow.reread_untagged ..
  · exact StoredRow.reread_untagged ..

theorem oldRow_mem_largeBatches : oldRow ∈ largeBatches.flatten := by
  rw [flatten_largeBatches]
  exact List.mem_append_right _ List.mem_cons_self

/-- Only the large rows are live. -/
theorem filter_largeBatches : largeBatches.flatten.filter (cutoff 100 50 ≤ ·.timestamp)
    = List.replicate 4096 largeRow := by
  have hcutoff : cutoff 100 50 = 50 := by decide
  have hlarge : decide (cutoff 100 50 ≤ largeRow.timestamp) = true := by
    rw [hcutoff]
    rfl
  have hold : decide (cutoff 100 50 ≤ oldRow.timestamp) = false := by
    rw [hcutoff]
    rfl
  rw [flatten_largeBatches, List.filter_append, List.filter_replicate, if_pos hlarge,
    List.filter_cons_of_neg (by rw [hold]; decide), List.filter_nil, List.append_nil]

/-- Two batches that fit in a record each do not fit in one together, and the expired row behind
    them stays. -/
theorem four_gigabytes_stay :
    (∀ rows ∈ largeBatches, (rows.map StoredRow.size).sum ≤ Journal.maxPayload) ∧
      ∃ h, run ⟨50, 0, false⟩ 100 (largeBatches.map Event.add) = .ok h ∧
        h.accepted = largeBatches.flatten ∧
        (∃ size, ofFile ⟨50, 0, false⟩ h.store.journal.file 100 = .error (.recordTooLarge size)) ∧
        oldRow ∈ replayed (h.store.flush 100).1.journal.file := by
  have hlarge : Journal.maxPayload < ((List.replicate 4096 largeRow).map StoredRow.size).sum := by
    rw [sum_size_replicate_largeRow]
    decide
  obtain ⟨h, hrun, haccepted, hopen, hreplayed⟩ :=
    large_rows_stay ⟨50, 0, false⟩ rfl rfl sum_size_largeBatches_le reread_of_mem_largeBatches
      ⟨oldRow, oldRow_mem_largeBatches, by decide⟩ filter_largeBatches
      (List.length_replicate ..).le hlarge
  refine ⟨sum_size_largeBatches_le, h, hrun, haccepted, ⟨_, hopen⟩, ?_⟩
  rw [hreplayed]
  exact oldRow_mem_largeBatches

end History

end Storage

end Logbook
