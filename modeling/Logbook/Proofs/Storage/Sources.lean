import Logbook.Proofs.Storage.History
import Logbook.Proofs.Storage.Parts

set_option autoImplicit false

/-! # Where the rows of a store come from

Whatever happens to a store, its memory and its journal say nothing that no accepted row says
(`Storage.History.Sourced`). As long as no accepted row has expired they therefore say exactly what
the accepted rows say, each row once (`Storage.History.contents_perm`), and the store can be opened
again (`Storage.ofFile_of_unexpired`). -/

namespace Logbook

namespace Storage

/-! ## Opening without expired rows -/

theorem ofFile_of_unexpired {config : StorageConfig} {file : Bytes} {now : Timestamp}
    (h : ∀ row ∈ replayed file, cutoff now config.retention ≤ row.timestamp) :
    ∃ s, ofFile config file now = .ok s ∧ s.pending = [] := by
  have hkept : (replayed file).filter (cutoff now config.retention ≤ ·.timestamp)
      = replayed file :=
    List.filter_eq_self.2 fun row hrow => decide_eq_true (h row hrow)
  rw [replayed, rowsOf] at hkept
  simp only [ofFile, Journal.ofFile, hkept, Nat.lt_irrefl, if_false, bind, Except.bind, pure,
    Except.pure]
  exact ⟨_, rfl, rfl⟩

theorem replayed_of_intact {file : Bytes} {batches : List (List DecodedRow)}
    (h : Journal.Intact file batches) : replayed file = rowsOf batches := by
  rw [replayed, show Journal.replay file = (batches, []) from h]

theorem liveContents_eq_map {t : Timestamp} {rows : List StoredRow}
    (h : ∀ row ∈ rows, t ≤ row.timestamp) :
    liveContents t rows = rows.map StoredRow.content := by
  refine List.filter_eq_self.2 fun c hc => ?_
  obtain ⟨row, hrow, rfl⟩ := List.mem_map.1 hc
  exact decide_eq_true (h row hrow)

namespace History

/-! ## Where rows come from -/

/-- The accepted rows satisfy a condition, and memory and journal say nothing but what they say. -/
structure Sourced (P : StoredRow → Prop) (h : History) : Prop where
  accepted : ∀ row ∈ h.accepted, P row
  held : h.store.held.map StoredRow.content ⊆ h.accepted.map StoredRow.content
  replayed : (replayed h.store.journal.file).map StoredRow.content
    ⊆ h.accepted.map StoredRow.content

/-- A journal that is written anew from rows says what they say. -/
theorem contents_replayed_journalOf {rows : List StoredRow} {j : Journal}
    (hrows : ∀ row ∈ rows, row.WellFormed) (h : journalOf rows = .ok j) :
    (Storage.replayed j.file).map StoredRow.content = rows.map StoredRow.content := by
  obtain ⟨batches, hintact, hlive⟩ := journalOf_eq_ok hrows h
  have hall : ∀ rows : List StoredRow, liveContents Int64.minValue rows
      = rows.map StoredRow.content := fun rows =>
    liveContents_eq_map fun row _ => Int64.minValue_le row.timestamp
  rw [replayed_of_intact hintact, ← hall, hlive, hall]

/-- Opening a store makes up no rows. -/
theorem contents_ofFile {config : StorageConfig} {file : Bytes} {now : Timestamp} {s : Storage}
    {batches : List (List DecodedRow)} (hfile : Journal.Intact file batches)
    (h : ofFile config file now = .ok s) :
    s.held.map StoredRow.content ⊆ (rowsOf batches).map StoredRow.content ∧
      (Storage.replayed s.journal.file).map StoredRow.content
        ⊆ (rowsOf batches).map StoredRow.content := by
  obtain ⟨hheld, hjournal⟩ := ofFile_eq_ok hfile h
  have hfilter : (rowsOf batches).filter (cutoff now config.retention ≤ ·.timestamp)
      ⊆ rowsOf batches := List.filter_sublist.subset
  refine ⟨List.map_subset _ (List.Subset.trans hheld.subset hfilter), ?_⟩
  rcases hjournal with ⟨hsame, -⟩ | hnew
  · rw [hsame, replayed_of_intact hfile]
    exact List.Subset.refl _
  · have hrows : ∀ row ∈ (rowsOf batches).filter (cutoff now config.retention ≤ ·.timestamp),
        row.WellFormed := by
      intro row hrow
      obtain ⟨d, _, rfl⟩ := List.mem_map.1 (List.mem_of_mem_filter hrow)
      exact StoredRow.wellFormed_ofDecoded d 0
    rw [contents_replayed_journalOf hrows hnew]
    exact List.map_subset _ hfilter

variable {P : StoredRow → Prop}

theorem sourced_start {config : StorageConfig} {now : Timestamp} {h : History}
    (hstart : start config now = .ok h) : h.Sourced P := by
  simp only [start, bind, Except.bind] at hstart
  split at hstart
  · contradiction
  · next s hs =>
    cases hstart
    obtain ⟨hheld, hreplayed⟩ := contents_ofFile Journal.intact_nil hs
    exact ⟨List.forall_mem_nil _, hheld, hreplayed⟩

theorem sourced_add {h : History} {rows : List StoredRow} {store : Storage} (hk : h.Kept)
    (hs : h.Sourced P) (hrows : ∀ row ∈ rows, row.WellFormed ∧ P row)
    (hadd : h.store.add rows = .ok store) :
    Sourced P { h with store, accepted := h.accepted ++ rows } := by
  obtain ⟨_, hlen, rfl⟩ := add_eq_ok_iff.1 hadd
  obtain ⟨batches, hintact, -⟩ := hk.journal
  obtain ⟨more, rfl, hmore⟩ := intact_withRows hlen hintact
  have hreplayed := hs.replayed
  rw [replayed_of_intact hintact] at hreplayed
  refine ⟨fun row hrow => ?_, ?_, ?_⟩
  · exact (List.mem_append.1 hrow).elim (hs.accepted row) fun hrow => (hrows row hrow).2
  · rw [held_withRows, List.map_append, List.map_append]
    exact List.append_subset.2 ⟨List.subset_append_of_subset_left _ hs.held,
      List.subset_append_right ..⟩
  · rw [replayed_of_intact hmore, rowsOf_append, List.map_append, List.map_append,
      contents_rowsOf_batches fun row hrow => (hrows row hrow).1]
    exact List.append_subset.2 ⟨List.subset_append_of_subset_left _ hreplayed,
      List.subset_append_right ..⟩

theorem sourced_flush {h : History} (hk : h.Kept) (hs : h.Sourced P) (now : Timestamp) :
    Sourced P { h with
      store := (h.store.flush now).1
      cutoffs := h.cutoffs ++ [cutoff now h.store.config.retention] } := by
  obtain ⟨hmem, -⟩ := flatMap_flushedParts h.store (cutoff now h.store.config.retention)
  rw [← held_flush] at hmem
  have hheld := List.Subset.trans (List.map_subset StoredRow.content hmem) hs.held
  refine ⟨hs.accepted, hheld, ?_⟩
  rcases flushedJournal_cases h.store (cutoff now h.store.config.retention) with hsame | hnew
  · rw [flush, hsame]
    exact hs.replayed
  · rw [← held_flush] at hnew
    have hwell := fun row hrow => hk.wellFormed row (hmem row hrow)
    rw [show (h.store.flush now).1.journal
      = h.store.flushedJournal (cutoff now h.store.config.retention) from rfl,
      contents_replayed_journalOf hwell hnew]
    exact hheld

theorem sourced_reopen {h : History} (hk : h.Kept) (hs : h.Sourced P) {config : StorageConfig}
    {now : Timestamp} {store : Storage}
    (hopen : ofFile config h.store.journal.file now = .ok store) :
    Sourced P { h with store, cutoffs := h.cutoffs ++ [cutoff now config.retention] } := by
  obtain ⟨batches, hintact, -⟩ := hk.journal
  obtain ⟨hheld, hreplayed⟩ := contents_ofFile hintact hopen
  have hsource := hs.replayed
  rw [replayed_of_intact hintact] at hsource
  exact ⟨hs.accepted, List.Subset.trans hheld hsource, List.Subset.trans hreplayed hsource⟩

/-- No event makes up rows. -/
theorem sourced_step {h h' : History} {e : Event} (hk : h.Kept) (hs : h.Sourced P)
    (hrows : ∀ rows, e = .add rows → ∀ row ∈ rows, row.WellFormed ∧ P row)
    (hstep : h.step e = .ok h') : h'.Sourced P := by
  cases e with
  | add rows =>
    simp only [step] at hstep
    split at hstep
    · next store hadd =>
      cases hstep
      exact sourced_add hk hs (hrows rows rfl) hadd
    · cases hstep
      exact hs
  | flush now =>
    cases hstep
    exact sourced_flush hk hs now
  | close now =>
    cases hstep
    exact sourced_flush hk hs now
  | setReadOnly on =>
    cases hstep
    exact ⟨hs.accepted, hs.held, hs.replayed⟩
  | reopen config now =>
    simp only [step, bind, Except.bind] at hstep
    split at hstep
    · contradiction
    · next store hopen =>
      cases hstep
      exact sourced_reopen hk hs hopen

theorem sourced_foldlM {events : List Event} {h h' : History} (hk : h.Kept) (hs : h.Sourced P)
    (hrows : ∀ rows, Event.add rows ∈ events → ∀ row ∈ rows, row.WellFormed ∧ P row)
    (hrun : events.foldlM step h = .ok h') : h'.Sourced P := by
  induction events generalizing h with
  | nil =>
    cases hrun
    exact hs
  | cons e events ih =>
    simp only [List.foldlM_cons, bind, Except.bind] at hrun
    split at hrun
    · contradiction
    · next h₁ hstep =>
      have hfirst : ∀ rows, e = .add rows → ∀ row ∈ rows, row.WellFormed ∧ P row :=
        fun rows he => hrows rows (he ▸ List.mem_cons_self)
      have hk₁ := kept_step hk (fun rows he row hrow => (hfirst rows he row hrow).1) hstep
      exact ih hk₁ (sourced_step hk hs hfirst hstep)
        (fun rows hmem => hrows rows (List.mem_cons_of_mem _ hmem)) hrun

theorem sourced_run {config : StorageConfig} {now : Timestamp} {events : List Event} {h : History}
    (hrows : ∀ rows, Event.add rows ∈ events → ∀ row ∈ rows, row.WellFormed ∧ P row)
    (hrun : run config now events = .ok h) : h.Sourced P := by
  simp only [run, bind, Except.bind] at hrun
  split at hrun
  · contradiction
  · next h₀ hstart => exact sourced_foldlM (kept_start hstart) (sourced_start hstart) hrows hrun

/-- As long as no accepted row has expired, memory and journal say what the accepted rows say, each
    row once. -/
theorem contents_perm {h : History} (hk : h.Kept) (hs : h.Sourced P)
    (hunexpired : ∀ limit ∈ h.cutoffs, ∀ row ∈ h.accepted, limit ≤ row.timestamp) :
    (h.store.held.map StoredRow.content).Perm (h.accepted.map StoredRow.content) ∧
      ((Storage.replayed h.store.journal.file).map StoredRow.content).Perm
        (h.accepted.map StoredRow.content) := by
  -- no row is earlier than the earliest accepted one, and no limit is later
  have hspares : h.Spares (Part.earliest h.accepted Int64.maxValue) := fun limit hlimit =>
    Part.le_earliest (Int64.le_maxValue limit) (hunexpired limit hlimit)
  have haccepted := (Part.earliest_le h.accepted Int64.maxValue).2
  generalize Part.earliest h.accepted Int64.maxValue = t at hspares haccepted
  have hall : ∀ rows : List StoredRow,
      rows.map StoredRow.content ⊆ h.accepted.map StoredRow.content →
        liveContents t rows = rows.map StoredRow.content := by
    intro rows hsub
    refine liveContents_eq_map fun row hrow => ?_
    obtain ⟨source, hsource, heq⟩ := List.mem_map.1 (hsub (List.mem_map_of_mem hrow))
    exact le_of_le_of_eq (haccepted source hsource) (congrArg StoredRow.Content.timestamp heq)
  obtain ⟨batches, hintact, hjournal⟩ := hk.journal
  have hheld := hk.held t hspares
  have hreplayed := hjournal t hspares
  rw [← replayed_of_intact hintact] at hreplayed
  rw [hall _ hs.held, hall _ (List.Subset.refl _)] at hheld
  rw [hall _ hs.replayed, hall _ (List.Subset.refl _)] at hreplayed
  exact ⟨hheld, hreplayed⟩

end History

end Storage

end Logbook
