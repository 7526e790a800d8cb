import Logbook.Proofs.Storage.Operations

set_option autoImplicit false

/-! # Histories of a store

A directory starts without a journal; from then on rows are added to the store on it, the store is
flushed, closed, switched and opened again, with or without being closed before
(`Storage.History.run`). Through all of this the rows that a time limit has not passed are kept
exactly once, in memory and in the journal (`Storage.History.run_keeps_live_rows`). -/

namespace Logbook.Storage

/-- What happens to a directory with a store on it. -/
inductive Event where
  | add (rows : List StoredRow)
  | flush (now : Timestamp)
  | close (now : Timestamp)
  | setReadOnly (on : Bool)
  /-- The journal is opened by a new process, whatever the last one left undone. -/
  | reopen (config : StorageConfig) (now : Timestamp)

/-- A store with what happened to its directory. -/
structure History where
  store : Storage
  /-- The rows of all additions that succeeded. -/
  accepted : List StoredRow
  /-- The times before which rows were dropped, one for each flush and opening. -/
  cutoffs : List Timestamp

namespace History

/-- The store is opened for the first time, on an empty journal. -/
def start (config : StorageConfig) (now : Timestamp) : Except StoreError History := do
  return ⟨← ofFile config [] now, [], [cutoff now config.retention]⟩

/-- One more event. An addition that fails changes nothing; an opening that fails ends the
    history. -/
def step (h : History) : Event → Except StoreError History
  | .add rows =>
    match h.store.add rows with
    | .ok store => .ok { h with store, accepted := h.accepted ++ rows }
    | .error _ => .ok h
  | .flush now =>
    .ok { h with
      store := (h.store.flush now).1
      cutoffs := h.cutoffs ++ [cutoff now h.store.config.retention] }
  | .close now =>
    .ok { h with
      store := h.store.close now
      cutoffs := h.cutoffs ++ [cutoff now h.store.config.retention] }
  | .setReadOnly on => .ok { h with store := h.store.setReadOnly on }
  | .reopen config now => do
    return { h with
      store := ← ofFile config h.store.journal.file now
      cutoffs := h.cutoffs ++ [cutoff now config.retention] }

/-- A first opening and the events after it. -/
def run (config : StorageConfig) (now : Timestamp) (events : List Event) :
    Except StoreError History := do
  events.foldlM step (← start config now)

/-! ## The invariant -/

/-- Whether no row from a time on has been dropped. -/
def Spares (h : History) (t : Timestamp) : Prop :=
  ∀ limit ∈ h.cutoffs, limit ≤ t

theorem Spares.of_append {h : History} {store : Storage} {limit t : Timestamp}
    (ht : Spares { h with store, cutoffs := h.cutoffs ++ [limit] } t) : h.Spares t ∧ limit ≤ t :=
  ⟨fun l hl => ht l (List.mem_append_left _ hl), ht limit (by simp)⟩

/-- Memory and journal both hold the accepted rows that have not been dropped, and the journal is
    made of whole records. -/
structure Kept (h : History) : Prop where
  wellFormed : ∀ row ∈ h.store.held, row.WellFormed
  held : ∀ t, h.Spares t → (liveContents t h.store.held).Perm (liveContents t h.accepted)
  journal : ∃ batches, Journal.Intact h.store.journal.file batches ∧
    ∀ t, h.Spares t → (liveContents t (rowsOf batches)).Perm (liveContents t h.accepted)

theorem kept_start {config : StorageConfig} {now : Timestamp} {h : History}
    (hstart : start config now = .ok h) : h.Kept := by
  simp only [start, bind, Except.bind] at hstart
  split at hstart
  · contradiction
  · next s hs =>
    cases hstart
    obtain ⟨hheld, hfile⟩ := ofFile_eq_ok Journal.intact_nil hs
    have hnil : s.held = [] := List.perm_nil.1 hheld
    have hempty : s.journal.file = [] := by
      rcases hfile with ⟨hfile, -⟩ | hj
      · exact hfile
      · exact (Journal.ofPayloads_eq_ok hj).2.trans (by simp [rowsOf, chunks])
    refine ⟨by simp [hnil], fun t _ => by simp [hnil], [], ?_, fun t _ => List.Perm.refl _⟩
    rw [hempty]
    exact Journal.intact_nil

theorem kept_add {h : History} {rows : List StoredRow} {store : Storage} (hk : h.Kept)
    (hrows : ∀ row ∈ rows, row.WellFormed) (hadd : h.store.add rows = .ok store) :
    Kept { h with store, accepted := h.accepted ++ rows } := by
  obtain ⟨_, hlen, rfl⟩ := add_eq_ok_iff.1 hadd
  obtain ⟨batches, hintact, hjournal⟩ := hk.journal
  obtain ⟨more, rfl, hmore⟩ := intact_withRows hlen hintact
  refine ⟨fun row hrow => ?_, fun t ht => ?_, _, hmore, fun t ht => ?_⟩
  · rw [held_withRows, List.mem_append] at hrow
    exact hrow.elim (hk.wellFormed row) (hrows row)
  · rw [held_withRows, liveContents_append, liveContents_append]
    exact (hk.held t ht).append_right _
  · rw [rowsOf_append, liveContents_append, liveContents_append,
      liveContents_rowsOf_batches t hrows]
    exact (hjournal t ht).append_right _

theorem kept_flush {h : History} (hk : h.Kept) (now : Timestamp) :
    Kept { h with
      store := (h.store.flush now).1
      cutoffs := h.cutoffs ++ [cutoff now h.store.config.retention] } := by
  obtain ⟨hmem, hperm⟩ := flatMap_flushedParts h.store (cutoff now h.store.config.retention)
  have hheld : ∀ row ∈ (h.store.flush now).1.held, row.WellFormed := by
    intro row hrow
    rw [held_flush] at hrow
    exact hk.wellFormed row (hmem row hrow)
  have hlive : ∀ t, h.Spares t ∧ cutoff now h.store.config.retention ≤ t →
      (liveContents t (h.store.flush now).1.held).Perm (liveContents t h.accepted) := by
    intro t ht
    rw [held_flush]
    exact (hperm t ht.2).trans (hk.held t ht.1)
  -- the journal either is left alone, still holding expired rows, or is written from memory
  refine ⟨hheld, fun t ht => hlive t ht.of_append, ?_⟩
  rcases flushedJournal_cases h.store (cutoff now h.store.config.retention) with hsame | hnew
  · obtain ⟨batches, hintact, hjournal⟩ := hk.journal
    refine ⟨batches, ?_, fun t ht => hjournal t ht.of_append.1⟩
    rw [flush, hsame]
    exact hintact
  · rw [← held_flush] at hnew
    obtain ⟨batches, hintact, hrows⟩ := journalOf_eq_ok hheld hnew
    refine ⟨batches, hintact, ?_⟩
    intro t ht
    rw [hrows t]
    exact hlive t ht.of_append

theorem kept_reopen {h : History} (hk : h.Kept) {config : StorageConfig} {now : Timestamp}
    {store : Storage} (hopen : ofFile config h.store.journal.file now = .ok store) :
    Kept { h with store, cutoffs := h.cutoffs ++ [cutoff now config.retention] } := by
  obtain ⟨batches, hintact, hjournal⟩ := hk.journal
  obtain ⟨hheld, hfile⟩ := ofFile_eq_ok hintact hopen
  have hrows : ∀ row ∈ rowsOf batches, row.WellFormed := by
    intro row hrow
    obtain ⟨d, _, rfl⟩ := List.mem_map.1 hrow
    exact StoredRow.wellFormed_ofDecoded d 0
  have hlive : ∀ t, h.Spares t ∧ cutoff now config.retention ≤ t →
      (liveContents t ((rowsOf batches).filter (cutoff now config.retention ≤ ·.timestamp))).Perm
        (liveContents t h.accepted) := by
    intro t ht
    rw [liveContents_filter ht.2]
    exact hjournal t ht.1
  refine ⟨fun row hrow => ?_, fun t ht => ?_, ?_⟩
  · exact hrows row (List.mem_of_mem_filter (hheld.mem_iff.1 hrow))
  · exact (liveContents_perm t hheld).trans (hlive t ht.of_append)
  · rcases hfile with ⟨hsame, -⟩ | hnew
    · refine ⟨batches, ?_, fun t ht => hjournal t ht.of_append.1⟩
      rw [hsame]
      exact hintact
    · obtain ⟨batches', hintact', hrows'⟩ :=
        journalOf_eq_ok (fun row hrow => hrows row (List.mem_of_mem_filter hrow)) hnew
      refine ⟨batches', hintact', ?_⟩
      intro t ht
      rw [hrows' t]
      exact hlive t ht.of_append

/-- Every event keeps the invariant. -/
theorem kept_step {h h' : History} {e : Event} (hk : h.Kept)
    (hrows : ∀ rows, e = .add rows → ∀ row ∈ rows, row.WellFormed) (hstep : h.step e = .ok h') :
    h'.Kept := by
  cases e with
  | add rows =>
    simp only [step] at hstep
    split at hstep
    · next store hadd =>
      cases hstep
      exact kept_add hk (hrows rows rfl) hadd
    · cases hstep
      exact hk
  | flush now =>
    cases hstep
    exact kept_flush hk now
  | close now =>
    cases hstep
    exact kept_flush hk now
  | setReadOnly on =>
    cases hstep
    exact ⟨hk.wellFormed, hk.held, hk.journal⟩
  | reopen config now =>
    simp only [step, bind, Except.bind] at hstep
    split at hstep
    · contradiction
    · next store hopen =>
      cases hstep
      exact kept_reopen hk hopen

theorem kept_foldlM {events : List Event} {h h' : History} (hk : h.Kept)
    (hrows : ∀ rows, Event.add rows ∈ events → ∀ row ∈ rows, row.WellFormed)
    (hrun : events.foldlM step h = .ok h') : h'.Kept := by
  induction events generalizing h with
  | nil =>
    cases hrun
    exact hk
  | cons e events ih =>
    simp only [List.foldlM_cons, bind, Except.bind] at hrun
    split at hrun
    · contradiction
    · next h₁ hstep =>
      have hk₁ := kept_step hk (fun rows he => hrows rows (he ▸ List.mem_cons_self)) hstep
      exact ih hk₁ (fun rows hmem => hrows rows (List.mem_cons_of_mem _ hmem)) hrun

theorem kept_run {config : StorageConfig} {now : Timestamp} {events : List Event} {h : History}
    (hrows : ∀ rows, Event.add rows ∈ events → ∀ row ∈ rows, row.WellFormed)
    (hrun : run config now events = .ok h) : h.Kept := by
  simp only [run, bind, Except.bind] at hrun
  split at hrun
  · contradiction
  · next h₀ hstart => exact kept_foldlM (kept_start hstart) hrows hrun

/-! ## Live rows -/

/-- **Nothing that happens to a store loses, doubles or brings back a live row.** After any events,
    and for every time `t` before which alone rows have been dropped, replaying the journal yields
    exactly the accepted rows from `t` on, and so do the visible and the pending rows together. The
    limits need not grow from one flush or opening to the next. -/
theorem run_keeps_live_rows {config : StorageConfig} {now : Timestamp} {events : List Event}
    {h : History} (hrun : run config now events = .ok h)
    (hrows : ∀ rows, Event.add rows ∈ events → ∀ row ∈ rows, row.WellFormed)
    {t : Timestamp} (ht : ∀ limit ∈ h.cutoffs, limit ≤ t) :
    (liveContents t (replayed h.store.journal.file)).Perm (liveContents t h.accepted) ∧
      (liveContents t h.store.held).Perm (liveContents t h.accepted) := by
  have hk := kept_run hrows hrun
  obtain ⟨batches, hintact, hjournal⟩ := hk.journal
  refine ⟨?_, hk.held t ht⟩
  rw [replayed, show Journal.replay h.store.journal.file = (batches, []) from hintact]
  exact hjournal t ht

/-- A row of the stream `{app="a"}` whose field of that name has another value. -/
def sampleRow (t : Timestamp) : StoredRow :=
  .ofStream t (.ofFields [⟨"app", "a"⟩]) [⟨"_msg", "m"⟩, ⟨"app", "b"⟩]

theorem wellFormed_sampleRow (t : Timestamp) : (sampleRow t).WellFormed where
  nodup := by simp [sampleRow, StoredRow.ofStream]
  tagged tag h := by
    have hmem : tag ∈ [⟨"app", "a"⟩] := Stream.mem_of_mem_ofFields h
    rw [List.mem_singleton.1 hmem]
    simp [sampleRow, StoredRow.ofStream]

/-- A flush drops the row at time zero, a switched-off store refuses the row at 9, and a crash
    leaves two rows in the journal, of which the next opening drops the one at 7. -/
def sampleEvents : List Event :=
  [.add [sampleRow 0], .flush 10, .setReadOnly true, .add [sampleRow 9], .setReadOnly false,
    .add [sampleRow 7], .add [sampleRow 18], .reopen ⟨5, 0, false⟩ 20]

theorem live_rows_after_crash :
    ∃ h, run ⟨5, 0, false⟩ 10 sampleEvents = .ok h ∧
      (∀ rows, Event.add rows ∈ sampleEvents → ∀ row ∈ rows, row.WellFormed) ∧
      h.cutoffs = [5, 5, 15] ∧ h.accepted = [sampleRow 0, sampleRow 7, sampleRow 18] ∧
      (liveContents 15 (replayed h.store.journal.file)).Perm (liveContents 15 h.accepted) ∧
      (liveContents 15 h.store.held).Perm (liveContents 15 h.accepted) := by
  have hsummary : (run ⟨5, 0, false⟩ 10 sampleEvents).toOption.map
        (fun h => (h.cutoffs, h.accepted))
      = some ([5, 5, 15], [sampleRow 0, sampleRow 7, sampleRow 18]) := by decide +kernel
  have hrows : ∀ rows, Event.add rows ∈ sampleEvents → ∀ row ∈ rows, row.WellFormed := by
    intro rows hadd row hrow
    have ht : ∃ t, rows = [sampleRow t] := by
      simp only [sampleEvents, List.mem_cons, Event.add.injEq, reduceCtorEq, List.not_mem_nil,
        or_false, false_or] at hadd
      rcases hadd with h | h | h | h <;> exact ⟨_, h⟩
    obtain ⟨t, rfl⟩ := ht
    rw [List.mem_singleton.1 hrow]
    exact wellFormed_sampleRow t
  cases hrun : run ⟨5, 0, false⟩ 10 sampleEvents with
  | error e =>
    rw [hrun] at hsummary
    contradiction
  | ok h =>
    rw [hrun] at hsummary
    obtain ⟨hcutoffs, haccepted⟩ := Prod.mk.inj (Option.some.inj hsummary)
    have hlive := run_keeps_live_rows hrun hrows (t := 15) (by rw [hcutoffs]; simp)
    exact ⟨h, rfl, hrows, hcutoffs, haccepted, hlive⟩

end History

end Logbook.Storage
