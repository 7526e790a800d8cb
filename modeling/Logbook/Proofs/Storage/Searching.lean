import Logbook.Proofs.Storage.History
import Logbook.Proofs.Storage.Parts

set_option autoImplicit false

/-! # What a search sees

A store stands for two lists of rows in the order in which they came in: those that searches see and
those that wait for a flush (`Storage.Reached`). Whatever was done to it, its parts hold the rows of
the first list and nothing else, rows of one stream and one time in their order, and the bounds of
each part are exact. So a search finds every row between its bounds once, although it looks only
into parts whose bounds allow it, and a flush at the time of the last one has nothing to do
(**`Storage.search_finds_shown`**). -/

namespace Logbook

/-! ## Rows of one key -/

/-- The rows of one stream identifier and one time. -/
def rowsWithKey (id : StreamId) (t : Timestamp) (rows : List StoredRow) : List StoredRow :=
  rows.filter fun row => row.streamId = id ∧ row.timestamp = t

/-- Two lists hold the same rows, those of one key in the same order. -/
def SameByKey (rows rows' : List StoredRow) : Prop :=
  ∀ id t, rowsWithKey id t rows = rowsWithKey id t rows'

namespace SameByKey

variable {as as' bs bs' : List StoredRow}

theorem refl (as : List StoredRow) : SameByKey as as :=
  fun _ _ => rfl

theorem trans (h : SameByKey as bs) (h' : SameByKey bs bs') : SameByKey as bs' :=
  fun id t => (h id t).trans (h' id t)

theorem append (h : SameByKey as as') (h' : SameByKey bs bs') :
    SameByKey (as ++ bs) (as' ++ bs') := by
  intro id t
  have ha := h id t
  have hb := h' id t
  unfold rowsWithKey at *
  rw [List.filter_append, List.filter_append, ha, hb]

theorem filter (h : SameByKey as as') (p : StoredRow → Bool) :
    SameByKey (as.filter p) (as'.filter p) := by
  intro id t
  have hp := congrArg (List.filter p) (h id t)
  unfold rowsWithKey at *
  rw [List.filter_comm, hp, List.filter_comm]

/-- Every row has a key. -/
theorem perm (h : SameByKey as as') : as.Perm as' := by
  rw [List.perm_iff_count]
  intro row
  have hcount : ∀ rows : List StoredRow,
      (rowsWithKey row.streamId row.timestamp rows).count row = rows.count row := fun rows =>
    List.count_filter (by simp)
  rw [← hcount as, h, hcount as']

theorem ofRows (rows : List StoredRow) : SameByKey (Part.ofRows rows).rows rows := by
  intro id t
  refine Part.filter_ofRows (fun a b ha hb => ?_) rows
  obtain ⟨rfl, rfl⟩ := of_decide_eq_true ha
  obtain ⟨hid, htime⟩ := of_decide_eq_true hb
  simp [Part.rowLe, hid, htime]

theorem partsOf (rows : List StoredRow) :
    SameByKey ((Storage.partsOf rows).flatMap (·.rows)) rows := by
  unfold Storage.partsOf
  split
  · next h =>
    rw [List.isEmpty_iff.1 h]
    exact refl []
  · rw [List.flatMap_singleton]
    exact ofRows rows

end SameByKey

/-! ## Parts -/

/-- What a part is, next to the rows that searches see in the order in which they came in. -/
structure Part.Sound (p : Part) (shown : List StoredRow) : Prop where
  nonempty : p.rows ≠ []
  sorted : p.rows.Pairwise fun a b => rowLe a b = true
  in_order : ∀ id t, rowsWithKey id t p.rows <:+: rowsWithKey id t shown
  minTime_reached : ∃ row ∈ p.rows, row.timestamp = p.minTime
  minTime_le : ∀ row ∈ p.rows, p.minTime ≤ row.timestamp
  maxTime_reached : ∃ row ∈ p.rows, row.timestamp = p.maxTime
  le_maxTime : ∀ row ∈ p.rows, row.timestamp ≤ p.maxTime

namespace Storage

open History (sampleRow)

variable {s s' : Storage} {shown waiting : List StoredRow}

/-- The parts of a store hold the rows that searches are to see. -/
theorem sound_of_mem_visible (hmade : ∀ p ∈ s.visible, p.Made) (h : SameByKey s.visibleRows shown)
    {p : Part} (hp : p ∈ s.visible) : p.Sound shown where
  nonempty := (hmade p hp).rows_ne_nil
  sorted := (hmade p hp).sorted
  in_order id t := by
    rw [← h id t]
    exact (List.infix_of_mem_flatten (List.mem_map_of_mem hp)).filter _
  minTime_reached := (hmade p hp).exists_minTime
  minTime_le := p.minTime_le
  maxTime_reached := (hmade p hp).exists_maxTime
  le_maxTime := p.le_maxTime

/-! ## Flushing -/

theorem sameByKey_allParts (s : Storage) : SameByKey (s.allParts.flatMap (·.rows)) s.held := by
  rw [allParts, List.flatMap_append]
  exact (SameByKey.refl _).append (.partsOf _)

/-- A flush leaves the rows that have not expired, in their order. -/
theorem sameByKey_flushedParts (s : Storage) (limit : Timestamp) :
    SameByKey ((s.flushedParts limit).flatMap (·.rows)) (s.held.filter (limit ≤ ·.timestamp)) := by
  have hall := (sameByKey_allParts s).filter (limit ≤ ·.timestamp)
  unfold flushedParts
  split
  · exact (SameByKey.partsOf _).trans hall
  · next h =>
    -- no part may hold an expired row
    rw [Bool.not_eq_true, Bool.or_eq_false_iff, List.any_eq_false] at h
    have hkept : (s.allParts.flatMap (·.rows)).filter (limit ≤ ·.timestamp)
        = s.allParts.flatMap (·.rows) := by
      refine List.filter_eq_self.2 fun row hrow => decide_eq_true ?_
      obtain ⟨p, hp, hrow⟩ := List.mem_flatMap.1 hrow
      exact Int64.le_trans (by simpa using h.1 p hp) (p.minTime_le row hrow)
    rwa [hkept] at hall

theorem made_flushedParts (hmade : ∀ p ∈ s.visible, p.Made) (limit : Timestamp) :
    ∀ p ∈ s.flushedParts limit, p.Made := by
  unfold flushedParts
  split
  · exact fun p hp => made_of_mem_partsOf hp
  · exact made_allParts hmade

theorem length_flushedParts_le (s : Storage) (limit : Timestamp) :
    (s.flushedParts limit).length ≤ maxParts := by
  unfold flushedParts
  split
  · unfold mergeParts partsOf
    split
    · exact Nat.zero_le _
    · exact show 1 ≤ 16 by decide
  · next h =>
    rw [Bool.not_eq_true, Bool.or_eq_false_iff, decide_eq_false_iff_not, Nat.not_lt] at h
    exact h.2

/-- A flush has nothing to do if nothing waits, no row has expired and the parts are few. -/
theorem flush_eq_self {now : Timestamp} (hmade : ∀ p ∈ s.visible, p.Made)
    (hpending : s.pending = []) (hlength : s.visible.length ≤ maxParts)
    (hrows : ∀ row ∈ s.visibleRows, cutoff now s.config.retention ≤ row.timestamp) :
    s.flush now = (s, 0) := by
  have hall : s.allParts = s.visible := by
    rw [allParts, hpending]
    exact List.append_nil _
  have hheld : s.held = s.visibleRows := by rw [held, hpending, List.append_nil]
  have hparts : s.flushedParts (cutoff now s.config.retention) = s.visible := by
    rw [flushedParts_eq_settle hmade (hheld ▸ hrows), settle, hall, if_neg (Nat.not_lt.2 hlength)]
  have hjournal : s.flushedJournal (cutoff now s.config.retention) = s.journal := by
    refine if_neg ?_
    rw [hall, Bool.not_eq_true, List.any_eq_false]
    intro p hp hlt
    have hle := (hmade p hp).le_minTime fun row hrow =>
      hrows row (List.mem_flatMap.2 ⟨p, hp, hrow⟩)
    exact Int64.lt_irrefl (Int64.lt_of_lt_of_le (of_decide_eq_true hlt) hle)
  rw [flush, hparts, hjournal]
  cases s
  cases hpending
  rfl

/-! ## Stores that were opened, added to and flushed -/

/-- The store was opened on some journal, then added to and flushed. `shown` are the rows that
    searches are to see and `waiting` those that wait for a flush, in the order in which they came
    in. -/
inductive Reached : (shown waiting : List StoredRow) → Storage → Prop
  | opened {config : StorageConfig} {file : Bytes} {now : Timestamp} {s : Storage}
      (hopen : ofFile config file now = .ok s) :
      Reached ((replayed file).filter (cutoff now config.retention ≤ ·.timestamp)) [] s
  | added {shown waiting rows : List StoredRow} {s s' : Storage} (h : Reached shown waiting s)
      (hadd : s.add rows = .ok s') : Reached shown (waiting ++ rows) s'
  | flushed {shown waiting : List StoredRow} {s : Storage} (h : Reached shown waiting s)
      (now : Timestamp) :
      Reached ((shown ++ waiting).filter (cutoff now s.config.retention ≤ ·.timestamp)) []
        (s.flush now).1

/-- What the steps of a store keep. -/
structure Shows (shown waiting : List StoredRow) (s : Storage) : Prop where
  made : ∀ p ∈ s.visible, p.Made
  visible : SameByKey s.visibleRows shown
  pending : s.pending = waiting

theorem shows_opened {config : StorageConfig} {file : Bytes} {now : Timestamp}
    (hopen : ofFile config file now = .ok s) :
    Shows ((replayed file).filter (cutoff now config.retention ≤ ·.timestamp)) [] s := by
  obtain ⟨hvisible, hpending⟩ := memory_ofFile hopen
  constructor
  · intro p hp
    rw [hvisible] at hp
    exact made_of_mem_partsOf hp
  · rw [visibleRows, hvisible]
    exact .partsOf _
  · exact hpending

theorem Shows.added (h : Shows shown waiting s) {rows : List StoredRow}
    (hadd : s.add rows = .ok s') : Shows shown (waiting ++ rows) s' := by
  obtain ⟨-, -, rfl⟩ := add_eq_ok_iff.1 hadd
  constructor
  · rw [visible_withRows]
    exact h.made
  · rw [visibleRows, visible_withRows]
    exact h.visible
  · rw [pending_withRows, h.pending]

theorem Shows.flushed (h : Shows shown waiting s) (now : Timestamp) :
    Shows ((shown ++ waiting).filter (cutoff now s.config.retention ≤ ·.timestamp)) []
      (s.flush now).1 where
  made := made_flushedParts h.made _
  visible := by
    have hheld : SameByKey s.held (shown ++ waiting) := by
      rw [held, h.pending]
      exact h.visible.append (.refl waiting)
    exact (sameByKey_flushedParts s _).trans (hheld.filter _)
  pending := rfl

theorem Reached.shows (h : Reached shown waiting s) : Shows shown waiting s := by
  induction h with
  | opened hopen => exact shows_opened hopen
  | added _ hadd ih => exact ih.added hadd
  | flushed _ now ih => exact ih.flushed now

/-! ## Searching -/

/-- **Every search finds the rows between its bounds once each and nothing else.** In every store
    that was opened, added to and flushed, in whatever order, the parts hold the rows that searches
    are to see, every one of them is not empty, sorted, stable and has exact bounds, and a search
    does not miss a row by the parts that it leaves out. A flush leaves few parts and no row that
    waits, it keeps the rows that have not expired, and another one at its limit does nothing. -/
theorem search_finds_shown (h : Reached shown waiting s) :
    s.pending = waiting ∧ s.visibleRows.Perm shown ∧
      (∀ minTime maxTime,
        s.search minTime maxTime = s.visibleRows.filter (fun row =>
            minTime ≤ row.timestamp && row.timestamp ≤ maxTime) ∧
          (s.search minTime maxTime).Perm (shown.filter fun row =>
            minTime ≤ row.timestamp && row.timestamp ≤ maxTime)) ∧
      (∀ p ∈ s.visible, p.Sound shown) ∧
      ∀ now, (s.flush now).1.visible.length ≤ maxParts ∧ (s.flush now).1.pending = [] ∧
        (s.flush now).1.visibleRows.Perm
          ((s.visibleRows ++ s.pending).filter (cutoff now s.config.retention ≤ ·.timestamp)) ∧
        ∀ now', cutoff now' s.config.retention = cutoff now s.config.retention →
          (s.flush now).1.flush now' = ((s.flush now).1, 0) := by
  have hs := h.shows
  refine ⟨hs.pending, hs.visible.perm, fun minTime maxTime => ⟨s.search_eq_filter _ _, ?_⟩,
    fun p hp => sound_of_mem_visible hs.made hs.visible hp, fun now => ?_⟩
  · rw [search_eq_filter]
    exact hs.visible.perm.filter _
  · have hkept : (s.flush now).1.visibleRows.Perm
        (s.held.filter (cutoff now s.config.retention ≤ ·.timestamp)) :=
      (sameByKey_flushedParts s _).perm
    have hlength := length_flushedParts_le s (cutoff now s.config.retention)
    refine ⟨hlength, rfl, hkept, fun now' hnow => ?_⟩
    refine flush_eq_self (hs.flushed now).made rfl hlength fun row hrow => ?_
    have hlive := (List.mem_filter.1 (hkept.mem_iff.1 hrow)).2
    rw [show (s.flush now).1.config = s.config from rfl, hnow]
    exact of_decide_eq_true hlive

/-- Of two rows that are added, the one at 7 has expired when the store is flushed. -/
theorem row_found_after_flush :
    ∃ s, Reached [sampleRow 18] [] s ∧ s.visibleRows = [sampleRow 18] ∧
      s.search 15 30 = [sampleRow 18] ∧ s.search 30 15 = [] := by
  have hempty : (ofFile ⟨5, 0, false⟩ [] 10).toOption.map
      (fun s => (s.config.retention, s.canWrite.toOption)) = some (5, some ()) := by
    decide +kernel
  cases hopen : ofFile ⟨5, 0, false⟩ [] 10 with
  | error e =>
    rw [hopen] at hempty
    contradiction
  | ok s =>
    rw [hopen] at hempty
    obtain ⟨hretention, hwrite⟩ := Prod.mk.inj (Option.some.inj hempty)
    have hadd : s.add [sampleRow 7, sampleRow 18]
        = .ok (s.withRows [sampleRow 7, sampleRow 18]) := by
      refine add_eq_ok_iff.2 ⟨?_, ?_, rfl⟩
      · cases hw : s.canWrite with
        | error e =>
          rw [hw] at hwrite
          contradiction
        | ok u => rfl
      · decide +kernel
    have h := ((Reached.opened hopen).added hadd).flushed 20
    have hshown : List.filter (cutoff 20 5 ≤ ·.timestamp)
        (List.filter (cutoff 10 5 ≤ ·.timestamp) (replayed [])
          ++ ([] ++ [sampleRow 7, sampleRow 18])) = [sampleRow 18] := by
      decide +kernel
    rw [config_withRows, hretention, hshown] at h
    obtain ⟨-, hrows, hsearch, -⟩ := search_finds_shown h
    exact ⟨_, h, List.perm_singleton.1 hrows, List.perm_singleton.1 (hsearch 15 30).2,
      List.perm_nil.1 (hsearch 30 15).2⟩

end Storage

end Logbook
