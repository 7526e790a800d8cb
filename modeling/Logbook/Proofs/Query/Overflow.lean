import Logbook.Proofs.Cluster.Topology
import Logbook.Proofs.Query.Stats
import Logbook.Proofs.Query.Windows

set_option autoImplicit false

/-! # Queries with overflow checks

A build with overflow checks either stops or answers as a build without them does
(**`Plan.guards_finish`**). Statistics of rows stop just at a row that has a window without a start
(**`Pipe.applied?_stats`**), unless there are as many rows as counts; what other nodes send can be too
much to add up as well. -/

namespace Logbook

/-! ## Checked computations -/

namespace Checked

variable {α β : Type}

/-- A checked computation stops or gives the value that is computed without checks. -/
structure Guards (x? : Checked α) (x : α) : Prop where
  eq_of_ok : ∀ y, x? = .ok y → y = x

theorem guards_ok (x : α) : Guards (.ok x) x := by
  constructor
  rintro _ ⟨⟩
  rfl

theorem guards_error (o : Overflow) (x : α) : Guards (.error o) x :=
  ⟨nofun⟩

theorem guards_sum (fits : Bool) (x : α) : Guards (.sum fits x) x := by
  unfold Checked.sum
  split
  · exact guards_ok x
  · exact guards_error _ x

theorem Guards.bind {x? : Checked α} {x : α} {f? : α → Checked β} {y : β} (h : Guards x? x)
    (hf : Guards (f? x) y) : Guards (x? >>= f?) y := by
  constructor
  intro z hz
  obtain ⟨x', hx, hz⟩ := exists_of_bind_eq_ok hz
  obtain rfl := h.eq_of_ok x' hx
  exact hf.eq_of_ok z hz

theorem Guards.map {x? : Checked α} {x : α} (h : Guards x? x) (f : α → β) :
    Guards (x? >>= fun a => .ok (f a)) (f x) :=
  h.bind (guards_ok _)

theorem Guards.foldlM {f? : β → α → Checked β} {f : β → α → β}
    (h : ∀ b a, Guards (f? b a) (f b a)) (l : List α) (b : β) :
    Guards (l.foldlM f? b) (l.foldl f b) := by
  induction l generalizing b with
  | nil => exact guards_ok b
  | cons a l ih => exact (h b a).bind (ih _)

theorem Guards.mapM {f? : α → Checked β} {f : α → β} (h : ∀ a, Guards (f? a) (f a)) (l : List α) :
    Guards (l.mapM f?) (l.map f) := by
  induction l with
  | nil => exact guards_ok []
  | cons a l ih =>
    rw [List.mapM_cons]
    exact (h a).bind (ih.bind (guards_ok _))

end Checked

open Checked

/-! ## Statistics -/

theorem StatsPipe.guards_groupKey (pipe : StatsPipe) (row : QueryRow) :
    Guards (pipe.groupKey? row) (pipe.groupKey row) := by
  rw [groupKey?_eq]
  split
  · exact guards_ok _
  · exact guards_error ..

namespace StatsFunc

/-- The most that one row counts for. -/
def weight (f : StatsFunc) : Nat :=
  max 1 f.fields.length

theorem length_numbers_le (f : StatsFunc) (row : QueryRow) :
    (f.numbers row).length ≤ f.fields.length :=
  (List.length_filterMap_le ..).trans (List.length_filterMap_le ..)

theorem length_numbersOf_le (f : StatsFunc) (rows : List QueryRow) :
    (f.numbersOf rows).length ≤ rows.length * f.fields.length := by
  induction rows with
  | nil => exact Nat.zero_le _
  | cons row rest ih =>
    have hrow := f.length_numbers_le row
    rw [f.numbersOf_cons, List.length_append, List.length_cons, Nat.succ_mul]
    omega

theorem tally_ofRows_le (f : StatsFunc) (rows : List QueryRow) :
    (StatsState.ofRows f rows).tally ≤ rows.length * f.weight := by
  have hrows : rows.length ≤ rows.length * f.weight :=
    Nat.le_mul_of_pos_right _ (Nat.le_max_left ..)
  have hfields : rows.length * f.fields.length ≤ rows.length * f.weight :=
    Nat.mul_le_mul_left _ (Nat.le_max_right ..)
  rw [StatsState.ofRows_eq]
  cases f.kind with
  | count => exact (Nat.mod_le ..).trans (List.countP_le_length.trans hrows)
  | avg => exact (Nat.mod_le ..).trans ((f.length_numbersOf_le rows).trans hfields)
  | _ => exact Nat.zero_le _

theorem gain_le (f : StatsFunc) (s : StatsState) (row : QueryRow) : s.gain f row ≤ f.weight := by
  have hnumbers := f.length_numbers_le row
  unfold StatsState.gain weight
  split
  · split <;> omega
  · omega
  · omega

end StatsFunc

namespace PartialStats

/-- The counts of rows fit, as long as there are more counts than the rows count for. -/
theorem takesRow_ofRows {pipe : StatsPipe} {rows : List QueryRow} {row : QueryRow}
    (hrows : ∀ f ∈ pipe.funcs, (rows ++ [row]).length * f.weight < UInt64.size)
    (key : List String) :
    takesRow ((SortedMap.get? (ofRows pipe rows) key).getD
      (pipe.funcs.map fun f => .initial f.kind)) pipe.funcs row = true := by
  have hgroup : (groupRows pipe key rows).length ≤ rows.length := List.length_filter_le ..
  rw [get?_ofRows, getD_statesOf, takesRow, statesOf, ← List.map_prod_right_eq_zip, List.all_map,
    List.all_eq_true]
  intro f hf
  have htally := (f.tally_ofRows_le (groupRows pipe key rows)).trans
    (Nat.mul_le_mul_right f.weight hgroup)
  have hgain := f.gain_le (.ofRows f (groupRows pipe key rows)) row
  have hlimit := hrows f hf
  rw [List.length_append, List.length_singleton, Nat.succ_mul] at hlimit
  simp only [Function.comp_apply, decide_eq_true_eq]
  omega

theorem guards_addRow (p : PartialStats) (pipe : StatsPipe) (row : QueryRow) :
    Guards (p.addRow? pipe row) (p.addRow pipe row) :=
  (pipe.guards_groupKey row).bind (guards_sum ..)

theorem guards_addRows (p : PartialStats) (pipe : StatsPipe) (rows : List QueryRow) :
    Guards (rows.foldlM (fun (acc : PartialStats) row => acc.addRow? pipe row) p)
      (rows.foldl (fun acc row => acc.addRow pipe row) p) :=
  .foldlM (fun acc row => guards_addRow acc pipe row) rows p

/-- Taking in rows stops just at a row that has a window without a start, as long as there are more
    counts than the rows count for. -/
theorem foldlM_addRow? {pipe : StatsPipe} {rows : List QueryRow}
    (hrows : ∀ f ∈ pipe.funcs, rows.length * f.weight < UInt64.size) :
    rows.foldlM (fun (acc : PartialStats) row => acc.addRow? pipe row) []
      = if rows.all fun row => pipe.groupBy.all (StatsPipe.inRange · row) then
          .ok (ofRows pipe rows)
        else .error .multiply := by
  induction rows using List.reverseRecOn with
  | nil => rfl
  | append_singleton rows row ih =>
    have hfewer : ∀ f ∈ pipe.funcs, rows.length * f.weight < UInt64.size := by
      intro f hf
      refine Nat.lt_of_le_of_lt (Nat.mul_le_mul_right _ ?_) (hrows f hf)
      rw [List.length_append]
      exact Nat.le_add_right ..
    have hstep : ofRows pipe (rows ++ [row]) = (ofRows pipe rows).addRow pipe row :=
      List.foldl_append
    have htakes := takesRow_ofRows hrows (pipe.groupKey row)
    have hrow : (ofRows pipe rows).addRow? pipe row
        = if pipe.groupBy.all (StatsPipe.inRange · row) then .ok (ofRows pipe (rows ++ [row]))
          else .error .multiply := by
      rw [addRow?, StatsPipe.groupKey?_eq, hstep]
      split
      · simp only [bind, Except.bind, htakes]
        rfl
      · rfl
    rw [List.foldlM_append, ih hfewer, List.all_append]
    split
    · next hall =>
      simp only [hall, List.all_cons, List.all_nil, Bool.and_true, Bool.true_and]
      exact (bind_pure _).trans hrow
    · next hall =>
      rw [Bool.not_eq_true] at hall
      rw [hall]
      rfl

theorem guards_mergeGroups (p : PartialStats) (groups : List (List String × List StatsState)) :
    Guards (p.mergeGroups? groups) (p.mergeGroups groups) := by
  induction groups generalizing p with
  | nil => exact guards_ok _
  | cons group rest ih =>
    obtain ⟨key, states⟩ := group
    refine (guards_sum _ (p.mergeGroup key states)).bind ?_
    rw [mergeGroups]
    rcases p.mergeGroup key states with ⟨q, _ | e⟩
    · exact ih q
    · exact guards_ok _

theorem guards_merge (a b : PartialStats) : Guards (a.merge? b) (a.merge b) := by
  refine (a.guards_mergeGroups b).bind ?_
  rw [merge]
  rcases a.mergeGroups b with ⟨q, _ | e⟩ <;> exact guards_ok _

end PartialStats

/-! ## Facets -/

namespace PartialFacets

theorem guards_addRow (p : PartialFacets) (pipe : FacetsPipe) (row : QueryRow) :
    Guards (p.addRow? pipe row) (p.addRow pipe row) := by
  refine (guards_sum _ (addHits p.rows 1)).bind ?_
  exact (Guards.foldlM (fun _ _ => guards_sum ..) row.fields p.fields).map _

theorem guards_addRows (p : PartialFacets) (pipe : FacetsPipe) (rows : List QueryRow) :
    Guards (rows.foldlM (fun (acc : PartialFacets) row => acc.addRow? pipe row) p)
      (rows.foldl (fun acc row => acc.addRow pipe row) p) :=
  .foldlM (fun acc row => acc.guards_addRow pipe row) rows p

theorem guards_merge (a b : PartialFacets) : Guards (a.merge? b) (a.merge b) :=
  guards_sum ..

end PartialFacets

/-! ## Queries -/

theorem Pipe.guards_applied (p : Pipe) (rows : List QueryRow) :
    Guards (p.applied? rows) (p.apply rows) := by
  cases p with
  | stats s => exact (PartialStats.guards_addRows [] s rows).map _
  | facets f => exact (PartialFacets.guards_addRows .empty f rows).map _
  | _ => exact guards_ok _

/-- Statistics of rows, with overflow checks. -/
theorem Pipe.applied?_stats {pipe : StatsPipe} {rows : List QueryRow}
    (hrows : ∀ f ∈ pipe.funcs, rows.length * f.weight < UInt64.size) :
    (Pipe.stats pipe).applied? rows
      = if rows.all fun row => pipe.groupBy.all (StatsPipe.inRange · row) then
          .ok ((Pipe.stats pipe).apply rows)
        else .error .multiply := by
  rw [applied?, PartialStats.foldlM_addRow? hrows]
  split <;> rfl

theorem Pipe.guards_appliedAll (ps : List Pipe) (rows : List QueryRow) :
    Guards (appliedAll? ps rows) (applyAll ps rows) :=
  Guards.foldlM (fun rows p => p.guards_applied rows) ps rows

theorem RemoteQuery.guards_run (q : RemoteQuery) (s : Storage) :
    Guards (q.run? s) (q.run s) := by
  unfold run? run collect? collect
  generalize (s.search q.minTime q.maxTime).filterMap q.select? = rows
  rcases q.terminal with _ | _ | _ | _ | _ | s | f
  case some.stats => exact (PartialStats.guards_addRows [] s rows).map _
  case some.facets => exact (PartialFacets.guards_addRows .empty f rows).map _
  all_goals exact guards_ok _

namespace PartialResult

theorem guards_mergeStats (acc : PartialStats) (partials : List PartialResult) :
    Guards (mergeStats? acc partials) (mergeStats acc partials) := by
  induction partials generalizing acc with
  | nil => exact guards_ok _
  | cons p rest ih =>
    cases p with
    | stats groups =>
      refine (acc.guards_merge groups).bind ?_
      rw [mergeStats]
      cases acc.merge groups with
      | ok merged => exact ih merged
      | error e => exact guards_ok _
    | _ => exact guards_ok _

theorem guards_mergeFacets (acc : PartialFacets) (partials : List PartialResult) :
    Guards (mergeFacets? acc partials) (mergeFacets acc partials) := by
  induction partials generalizing acc with
  | nil => exact guards_ok _
  | cons p rest ih =>
    cases p with
    | facets counts => exact (acc.guards_merge counts).bind (ih _)
    | _ => exact guards_ok _

theorem guards_merge (terminal : Option Pipe) (partials : List PartialResult) :
    Guards (merge? terminal partials) (merge terminal partials) := by
  rcases terminal with _ | _ | _ | _ | _ | s | f
  case some.stats => exact (guards_mergeStats [] partials).map _
  case some.facets => exact (guards_mergeFacets .empty partials).map _
  all_goals exact guards_ok _

end PartialResult

/-- **With overflow checks a query stops or is answered as it is without.** The stops of all shards
    count, and those of the merging and of the local part. -/
theorem Plan.guards_finish (p : Plan) (stores : List Storage) :
    Guards (do p.finish? (← stores.mapM p.remote.run?)) (p.finish (stores.map p.remote.run)) := by
  refine (Guards.mapM p.remote.guards_run stores).bind ?_
  refine (PartialResult.guards_merge _ _).bind ?_
  unfold finish
  cases PartialResult.merge p.remote.terminal (stores.map p.remote.run) with
  | error e => exact guards_ok _
  | ok rows => exact (Pipe.guards_appliedAll p.locals rows).map _

end Logbook
