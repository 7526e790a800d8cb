import Logbook.Proofs.Query.Facets
import Logbook.Proofs.Query.Merging
import Logbook.Proofs.Query.Stats
import Logbook.Proofs.Storage.Parts
import Logbook.Query.Plan

set_option autoImplicit false

/-! # Scatter and gather

A query means its pipes, one after the other, over the matching rows of all stores. Splitting it,
running the remote part against every store and merging what comes back gives the same rows in the
same order (**`scatter_gather`**). What is asked of the first pipe that looks at all rows together
is that its results merge over the rows that reach it: nothing of limits, facets and counts, laws of
the numbers that occur of the other statistics, and a consistent comparison of a sort. -/

namespace Logbook

/-! ## Times of accepted rows -/

namespace Filter

theorem le_of_max_le {lo a t : Timestamp} (hlo : lo ≤ t) (ha : a ≤ t) : max lo a ≤ t := by
  show (if lo ≤ a then a else lo) ≤ t
  split <;> assumption

theorem le_min_of_le {hi b t : Timestamp} (hhi : t ≤ hi) (hb : t ≤ b) : t ≤ min hi b := by
  show t ≤ if hi ≤ b then hi else b
  split <;> assumption

mutual

/-- The time of an accepted row lies within the bounds of the filter. -/
theorem timeRange_of_accepts : ∀ (f : Filter) {row : QueryRow} {t : Timestamp},
    f.accepts row = true → row.timestamp = some t → f.timeRange.1 ≤ t ∧ t ≤ f.timeRange.2
  | .time lo hi, row, t, h, ht => by
    simpa [accepts, ht, timeRange] using h
  | .and fs, row, t, h, ht =>
    timeRangeAll_of_allAccept fs h ht ⟨Int64.minValue_le t, Int64.le_maxValue t⟩
  | .all, _, t, _, _ | .or _, _, t, _, _ | .not _, _, t, _, _ | .phrase .., _, t, _, _
  | .startsWith .., _, t, _, _ | .exact .., _, t, _, _ | .isIn .., _, t, _, _
  | .regex .., _, t, _, _ | .range .., _, t, _, _ | .stream _, _, t, _, _ =>
    ⟨Int64.minValue_le t, Int64.le_maxValue t⟩

theorem timeRangeAll_of_allAccept : ∀ (fs : List Filter) {row : QueryRow} {t lo hi : Timestamp},
    allAccept fs row = true → row.timestamp = some t → lo ≤ t ∧ t ≤ hi →
      (timeRangeAll fs lo hi).1 ≤ t ∧ t ≤ (timeRangeAll fs lo hi).2
  | [], _, _, _, _, _, _, hbounds => hbounds
  | f :: fs, row, t, lo, hi, h, ht, hbounds => by
    obtain ⟨hf, hfs⟩ := Bool.and_eq_true_iff.1 h
    obtain ⟨hlo, hhi⟩ := timeRange_of_accepts f hf ht
    exact timeRangeAll_of_allAccept fs hfs ht
      ⟨le_of_max_le hbounds.1 hlo, le_min_of_le hbounds.2 hhi⟩

end

end Filter

/-- Rows outside the bounds are not missed by a selection that has no use for them. -/
theorem Storage.filterMap_search {α : Type} (s : Storage) {lo hi : Timestamp}
    {f : StoredRow → Option α} (h : ∀ r a, f r = some a → lo ≤ r.timestamp ∧ r.timestamp ≤ hi) :
    (s.search lo hi).filterMap f = s.visibleRows.filterMap f := by
  have hrow : (fun r : StoredRow =>
      if (decide (lo ≤ r.timestamp) && decide (r.timestamp ≤ hi)) = true then f r else none)
        = f := by
    funext r
    cases hr : f r with
    | none => exact ite_self _
    | some a =>
      obtain ⟨hlo, hhi⟩ := h r a hr
      exact if_pos (by simp [hlo, hhi])
  rw [search_eq_filter, List.filterMap_filter, hrow]

theorem Storage.search_all (s : Storage) :
    s.search Int64.minValue Int64.maxValue = s.visibleRows := by
  have h := s.filterMap_search (f := some) fun r _ _ =>
    ⟨Int64.minValue_le r.timestamp, Int64.le_maxValue r.timestamp⟩
  rwa [List.filterMap_some, List.filterMap_some] at h

/-! ## Rows that match -/

namespace Query

/-- The rows of a store that satisfy the filter of the query, in search order. -/
def matching (q : Query) (s : Storage) : List QueryRow :=
  ((s.search Int64.minValue Int64.maxValue).map QueryRow.ofStored).filter q.filter.accepts

/-- What the query means over stores: its pipes, one after the other, over all matching rows. -/
def answer (q : Query) (stores : List Storage) : List QueryRow :=
  Pipe.applyAll q.pipes (stores.flatMap q.matching)

/-- The pipes in front that look at each row by itself. -/
def rowLocal (q : Query) : List Pipe :=
  q.pipes.takeWhile Pipe.isRowLocal

/-- The first pipe that looks at all rows together, and the pipes behind it. -/
def gathering (q : Query) : List Pipe :=
  q.pipes.dropWhile Pipe.isRowLocal

/-- The rows of a store that reach the first pipe that looks at all rows together. -/
def selected (q : Query) (s : Storage) : List QueryRow :=
  (q.matching s).filterMap (Pipe.applyRowAll q.rowLocal)

end Query

theorem Pipe.applyAll_append (ps qs : List Pipe) (rows : List QueryRow) :
    Pipe.applyAll (ps ++ qs) rows = Pipe.applyAll qs (Pipe.applyAll ps rows) :=
  List.foldl_append

/-- Pipes that look at each row by themselves can be applied to each row at once. -/
theorem Pipe.applyAll_rowLocal {ps : List Pipe} (h : ∀ p ∈ ps, p.isRowLocal = true)
    (rows : List QueryRow) : Pipe.applyAll ps rows = rows.filterMap (Pipe.applyRowAll ps) := by
  induction ps generalizing rows with
  | nil => exact List.filterMap_some.symm
  | cons p ps ih =>
    have hp : p.apply rows = rows.filterMap p.applyRow := by
      have hlocal := h p (List.mem_cons_self ..)
      cases p <;> first | rfl | cases hlocal
    show Pipe.applyAll ps (p.apply rows) = _
    rw [ih (fun q hq => h q (List.mem_cons_of_mem _ hq)), hp, List.filterMap_filterMap]
    rfl

theorem Query.answer_eq (q : Query) (stores : List Storage) :
    q.answer stores = Pipe.applyAll q.gathering (stores.flatMap q.selected) := by
  have hlocal : ∀ p ∈ q.rowLocal, p.isRowLocal = true := List.all_eq_true.1 List.all_takeWhile
  have hpipes : q.pipes = q.rowLocal ++ q.gathering := List.takeWhile_append_dropWhile.symm
  rw [answer, hpipes, Pipe.applyAll_append, Pipe.applyAll_rowLocal hlocal, List.filterMap_flatMap]
  rfl

theorem RemoteQuery.accepts_of_select? {q : RemoteQuery} {r : StoredRow} {row : QueryRow}
    (h : q.select? r = some row) : q.filter.accepts (.ofStored r) = true := by
  rw [select?] at h
  split at h
  · next haccepts => exact haccepts
  · cases h

/-- Stored rows as they reach the first pipe that looks at all rows together. -/
def Query.reaching (q : Query) (rows : List StoredRow) : List QueryRow :=
  rows.filterMap (Plan.ofQuery q).remote.select?

theorem Query.selected_eq_reaching (q : Query) (s : Storage) :
    q.selected s = q.reaching s.visibleRows := by
  rw [selected, matching, s.search_all, List.filterMap_filter, List.filterMap_map]
  rfl

/-- Looking only at rows within the bounds of the filter loses no row. -/
theorem Query.run_ofQuery (q : Query) (s : Storage) :
    (Plan.ofQuery q).remote.run s = (Plan.ofQuery q).remote.collect (q.selected s) := by
  rw [RemoteQuery.run, s.filterMap_search, selected_eq_reaching]
  · rfl
  · intro r row hrow
    exact q.filter.timeRange_of_accepts (RemoteQuery.accepts_of_select? hrow) rfl

theorem Query.map_run_ofQuery (q : Query) (stores : List Storage) :
    stores.map (Plan.ofQuery q).remote.run
      = (stores.map q.selected).map (Plan.ofQuery q).remote.collect := by
  rw [List.map_map]
  exact List.map_congr_left fun s _ => q.run_ofQuery s

/-! ## Merging what the stores answer -/

namespace PartialResult

theorem rowLists_map_rows (lists : List (List QueryRow)) :
    rowLists (lists.map .rows) = .ok lists := by
  induction lists with
  | nil => rfl
  | cons rows lists ih => rw [List.map_cons, rowLists, ih]; rfl

theorem mergeFacets_map (pipe : FacetsPipe) (lists : List (List QueryRow)) (rows : List QueryRow) :
    mergeFacets (PartialFacets.addRows .empty pipe rows)
        (lists.map fun rows => .facets (PartialFacets.addRows .empty pipe rows))
      = .ok (PartialFacets.addRows .empty pipe (rows ++ lists.flatten)) := by
  induction lists generalizing rows with
  | nil => rw [List.flatten_nil, List.append_nil]; rfl
  | cons next lists ih =>
    have hrows := PartialFacets.wellFormed_addRows PartialFacets.wellFormed_empty pipe rows
    rw [List.map_cons, mergeFacets, PartialFacets.merge_ofRows hrows,
      ← PartialFacets.addRows_append, ih, List.append_assoc]
    rfl

theorem mergeStats_map {pipe : StatsPipe} {lists : List (List QueryRow)} (rows : List QueryRow)
    (laws : ∀ f ∈ pipe.funcs, ∀ key,
      f.Lawful (PartialStats.groupRows pipe key (rows ++ lists.flatten))) :
    mergeStats (PartialStats.ofRows pipe rows)
        (lists.map fun rows => .stats (PartialStats.ofRows pipe rows))
      = .ok (PartialStats.ofRows pipe (rows ++ lists.flatten)) := by
  induction lists generalizing rows with
  | nil => rw [List.flatten_nil, List.append_nil]; rfl
  | cons next lists ih =>
    rw [List.flatten_cons, ← List.append_assoc] at laws ⊢
    have hmerge := PartialStats.merge_ofRows fun f hf key => by
      have hgroup := laws f hf key
      rw [PartialStats.groupRows_append] at hgroup
      exact hgroup.mono (List.prefix_append ..).isInfix
    rw [List.map_cons, mergeStats, hmerge]
    exact ih _ laws

end PartialResult

/-- The first rows of all lists are among the first rows of each. -/
theorem take_flatten_map_take {m n : Nat} (h : m ≤ n) (lists : List (List QueryRow)) :
    (lists.map (List.take n)).flatten.take m = lists.flatten.take m := by
  induction lists generalizing m with
  | nil => rfl
  | cons rows lists ih =>
    rw [List.map_cons, List.flatten_cons, List.flatten_cons, List.take_append, List.take_append,
      List.take_take, Nat.min_eq_left h, List.length_take, ih (by omega)]
    congr 2
    omega

theorem compareRows_pushLimit (s : SortPipe) (rest : List Pipe) :
    (Plan.pushLimit s rest).compareRows = s.compareRows := by
  cases rest with
  | nil => rfl
  | cons p rest => cases p <;> rfl

/-- The first rows within the limit of a sort are still there once the sort is cut further. -/
theorem take_truncate_pushLimit (s : SortPipe) (n : Nat) (rest : List Pipe)
    (rows : List QueryRow) :
    ((Plan.pushLimit s (.limit n :: rest)).truncate rows).take n = (s.truncate rows).take n := by
  rw [SortPipe.truncate, SortPipe.truncate]
  cases hlimit : s.limit with
  | none => simp [Plan.pushLimit, hlimit, List.take_take]
  | some m => simp [Plan.pushLimit, hlimit, List.take_take, Nat.min_comm]

/-- A limit behind a sort may cut what is sorted. -/
theorem applyAll_pushLimit (s : SortPipe) (rest : List Pipe) (rows : List QueryRow) :
    Pipe.applyAll rest ((Plan.pushLimit s rest).apply rows)
      = Pipe.applyAll rest (s.apply rows) := by
  have hsort := SortPipe.sortRows_congr (compareRows_pushLimit s rest) rows
  cases rest with
  | nil => rfl
  | cons p rest =>
    cases p with
    | limit n =>
      have htake : ((Plan.pushLimit s (.limit n :: rest)).apply rows).take n
          = (s.apply rows).take n := by
        rw [SortPipe.apply, hsort, SortPipe.apply, take_truncate_pushLimit]
      exact congrArg (Pipe.applyAll rest) htake
    | _ => rfl

theorem orders_pushLimit {s : SortPipe} {rows : List QueryRow} (h : s.Orders rows)
    (rest : List Pipe) : (Plan.pushLimit s rest).Orders rows := by
  constructor
  · rw [compareRows_pushLimit]
    exact h.swap
  · rw [compareRows_pushLimit]
    exact h.trans

/-- What a pipe asks of rows so that its results over parts of them can be merged. -/
def Pipe.MergesOver (rows : List QueryRow) : Pipe → Prop
  | .stats s => ∀ f ∈ s.funcs, ∀ key, f.Lawful (PartialStats.groupRows s key rows)
  | .sort s => s.Orders rows
  | _ => True

namespace Plan

/-! ### Plans that collect rows -/

/-- Of shards that answer with rows, some of those that they select, the rows are combined. -/
theorem finish_rows {remote : RemoteQuery} {pick : List QueryRow → List QueryRow}
    {combine : List (List QueryRow) → List QueryRow}
    (hcollect : ∀ rows, remote.collect rows = .rows (pick rows))
    (hmerge : ∀ partials, PartialResult.merge remote.terminal partials
      = (PartialResult.rowLists partials).map combine)
    (locals : List Pipe) (lists : List (List QueryRow)) :
    finish ⟨remote, locals⟩ (lists.map remote.collect)
      = .ok (Pipe.applyAll locals (combine (lists.map pick))) := by
  have hpartials : lists.map remote.collect = (lists.map pick).map .rows := by
    rw [List.map_map]
    exact List.map_congr_left fun rows _ => hcollect rows
  rw [finish, hpartials, hmerge, PartialResult.rowLists_map_rows]
  rfl

theorem finish_limit {remote : RemoteQuery} {n : Nat} (h : remote.terminal = some (.limit n))
    (locals : List Pipe) (lists : List (List QueryRow)) :
    finish ⟨remote, locals⟩ (lists.map remote.collect)
      = .ok (Pipe.applyAll locals (lists.map (List.take n)).flatten) := by
  obtain ⟨filter, before, terminal, lo, hi⟩ := remote
  cases h
  exact finish_rows (fun _ => rfl) (fun _ => rfl) locals lists

theorem finish_sort {remote : RemoteQuery} {s : SortPipe} (h : remote.terminal = some (.sort s))
    (locals : List Pipe) (lists : List (List QueryRow)) :
    finish ⟨remote, locals⟩ (lists.map remote.collect)
      = .ok (Pipe.applyAll locals (s.merge (lists.map s.apply))) := by
  obtain ⟨filter, before, terminal, lo, hi⟩ := remote
  cases h
  exact finish_rows (fun _ => rfl) (fun _ => rfl) locals lists

/-- Without a pipe that looks at all rows together, or with one that does not, all rows are put
    together. -/
theorem finish_rowLocal {remote : RemoteQuery}
    (h : ∀ p ∈ remote.terminal, p.isRowLocal = true) (locals : List Pipe)
    (lists : List (List QueryRow)) :
    finish ⟨remote, locals⟩ (lists.map remote.collect)
      = .ok (Pipe.applyAll locals lists.flatten) := by
  suffices hrows : (∀ rows, remote.collect rows = .rows (id rows)) ∧
      ∀ partials, PartialResult.merge remote.terminal partials
        = (PartialResult.rowLists partials).map List.flatten by
    have hfinish := finish_rows hrows.1 hrows.2 locals lists
    rwa [List.map_id] at hfinish
  obtain ⟨filter, before, terminal, lo, hi⟩ := remote
  cases terminal with
  | none => exact ⟨fun _ => rfl, fun _ => rfl⟩
  | some p =>
    have hp := h p rfl
    cases p with
    | filter condition => exact ⟨fun _ => rfl, fun _ => rfl⟩
    | fields names => exact ⟨fun _ => rfl, fun _ => rfl⟩
    | _ => cases hp

/-- Whatever lists of rows the stores select, merging what is collected of them gives what the pipes
    give for all of them. -/
theorem finish_map_collect {remote : RemoteQuery} {locals pipes : List Pipe}
    {lists : List (List QueryRow)} (hsplit : splitTerminal pipes = (remote.terminal, locals))
    (hfirst : ∀ p ∈ pipes.head?, p.isRowLocal = false)
    (hmerges : ∀ p ∈ pipes.head?, p.MergesOver lists.flatten) :
    finish ⟨remote, locals⟩ (lists.map remote.collect)
      = .ok (Pipe.applyAll pipes lists.flatten) := by
  obtain ⟨filter, before, terminal, lo, hi⟩ := remote
  cases pipes with
  | nil =>
    cases hsplit
    exact finish_rowLocal (by rintro p ⟨⟩) [] lists
  | cons p rest =>
    have hp := hmerges p rfl
    cases p with
    | filter condition => cases hfirst _ rfl
    | fields names => cases hfirst _ rfl
    | limit n =>
      cases hsplit
      rw [finish_limit rfl]
      exact congrArg (fun rows => Except.ok (Pipe.applyAll rest rows))
        (take_flatten_map_take (Nat.le_refl n) lists)
    | sort s =>
      cases hsplit
      rw [finish_sort rfl, SortPipe.merge_map_apply (orders_pushLimit hp locals)]
      exact congrArg Except.ok (applyAll_pushLimit s locals lists.flatten)
    | stats s =>
      cases hsplit
      have hmerge := PartialResult.mergeStats_map [] hp
      show ((PartialResult.mergeStats (PartialStats.ofRows s []) (lists.map fun rows =>
        .stats (PartialStats.ofRows s rows))).bind fun _ => _).bind _ = _
      rw [hmerge]
      rfl
    | facets f =>
      cases hsplit
      have hmerge := PartialResult.mergeFacets_map f lists []
      show ((PartialResult.mergeFacets (PartialFacets.addRows .empty f []) (lists.map fun rows =>
        .facets (PartialFacets.addRows .empty f rows))).bind fun _ => _).bind _ = _
      rw [hmerge]
      rfl

end Plan

/-- **Splitting a query over stores and merging their answers gives the plain meaning of it.** -/
theorem Query.scatter_gather (q : Query) (stores : List Storage)
    (h : ∀ p ∈ q.gathering.head?, p.MergesOver (stores.flatMap q.selected)) :
    (Plan.ofQuery q).finish (stores.map (Plan.ofQuery q).remote.run) = .ok (q.answer stores) := by
  rw [q.map_run_ofQuery, q.answer_eq, List.flatMap_def]
  refine Plan.finish_map_collect rfl ?_ h
  intro p hp
  have hnot := List.head?_dropWhile_not Pipe.isRowLocal q.pipes
  rw [show (q.pipes.dropWhile Pipe.isRowLocal).head? = some p from hp] at hnot
  exact hnot

/-! ### Sums and a least number over two stores -/

/-- A row of one application with a number. -/
def sampleMetric (t : Timestamp) (app n : String) : StoredRow :=
  .ofStream t (.ofFields [⟨"app", app⟩]) [⟨"app", app⟩, ⟨"n", n⟩]

/-- Sums and least numbers by application. -/
def sampleStats : StatsPipe :=
  ⟨[⟨"app", none⟩], [⟨.sum, ["n"], "total"⟩, ⟨.min, ["n"], "least"⟩]⟩

/-- Times 2 to 8, and of those rows the ones that have a number. -/
def sampleQuery : Query where
  filter := .and [.time 2 9, .time 0 8]
  pipes := [.filter (.not (.exact "n" "")), .stats sampleStats, .limit 1]

def sampleStores : List Storage :=
  [{ (default : Storage) with visible :=
      [⟨[sampleMetric 1 "a" "7", sampleMetric 3 "a" "1.5"], 1, 3, by decide, by decide⟩,
        ⟨[sampleMetric 9 "a" "7"], 9, 9, by decide, by decide⟩] },
    { (default : Storage) with visible :=
      [⟨[sampleMetric 4 "b" "", sampleMetric 8 "a" "2.5"], 4, 8, by decide, by decide⟩] }]

theorem sums_over_two_stores :
    (sampleStores.flatMap sampleQuery.selected).map (·.timestamp) = [some 3, some 8] ∧
      (∀ p ∈ sampleQuery.gathering.head?,
        p.MergesOver (sampleStores.flatMap sampleQuery.selected)) ∧
      (Plan.ofQuery sampleQuery).finish (sampleStores.map (Plan.ofQuery sampleQuery).remote.run)
        = .ok (sampleQuery.answer sampleStores) := by
  have hkeys : ∀ row ∈ sampleStores.flatMap sampleQuery.selected,
      sampleStats.groupKey row = ["a"] := by
    decide +kernel
  have hlaws : ∀ f ∈ sampleStats.funcs,
      f.Lawful (sampleStores.flatMap sampleQuery.selected) ∧ f.Lawful [] := by
    decide +kernel
  have hmerges : ∀ p ∈ sampleQuery.gathering.head?,
      p.MergesOver (sampleStores.flatMap sampleQuery.selected) := by
    rintro p hp
    cases Option.some.inj hp
    intro f hf key
    -- there is one group
    by_cases hkey : key = ["a"]
    · rw [PartialStats.groupRows, List.filter_eq_self.2 fun row hrow => by
        rw [hkeys row hrow, hkey]
        rfl]
      exact (hlaws f hf).1
    · rw [PartialStats.groupRows, List.filter_eq_nil_iff.2 fun row hrow heq => hkey (by
        rw [← hkeys row hrow]
        exact (beq_iff_eq.1 heq).symm)]
      exact (hlaws f hf).2
  exact ⟨by decide +kernel, hmerges, Query.scatter_gather sampleQuery sampleStores hmerges⟩

end Logbook
