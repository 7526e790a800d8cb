import Mathlib.Algebra.Order.BigOperators.Group.List
import Logbook.Proofs.Query.GroupRows
import Logbook.Proofs.Search.Confinement
import Logbook.Proofs.Search.Series

set_option autoImplicit false

/-! # Statistics over a range

The rows of groups by windows of time come out as samples with the starts of the windows. No two of
them have their time and their labels in common, and the values of a count are the sizes of the
groups. So the series of a search over a range are well-formed, and their counts add up to all rows
with a time (**`SearchPlan.statsOver_matrix`**). -/

namespace Logbook

/-! ## Samples of groups -/

/-- Of elements with distinct keys one has the key. -/
theorem filter_key_eq_singleton {α β : Type} [BEq β] [LawfulBEq β] {key : α → β} {xs : List α}
    {x : α} (h : (xs.map key).Nodup) (hx : x ∈ xs) : xs.filter (key · == key x) = [x] := by
  induction xs with
  | nil => cases hx
  | cons y ys ih =>
    rw [List.map_cons, List.nodup_cons] at h
    rcases List.mem_cons.1 hx with rfl | hys
    · have hrest : ys.filter (key · == key x) = [] := by
        refine List.filter_eq_nil_iff.2 fun z hz heq => h.1 ?_
        rw [← beq_iff_eq.1 heq]
        exact List.mem_map_of_mem hz
      rw [List.filter_cons, if_pos (beq_self_eq_true _), hrest]
    · have hne : ¬ (key y == key x) = true := by
        intro heq
        rw [beq_iff_eq.1 heq] at h
        exact h.1 (List.mem_map_of_mem hys)
      rw [List.filter_cons, if_neg hne, ih h.2 hys]

namespace StatsPipe

/-- The layout of the rows of groups by windows. -/
def windowLayout (pipe : StatsPipe) : SampleLayout :=
  ⟨pipe.labels, pipe.funcs.map (·.result)⟩

theorem ofStats_setTimeStep (pipe : StatsPipe) (step : Int64) :
    SampleLayout.ofStats (pipe.setTimeStep step) = pipe.windowLayout := by
  have hlabels : ((pipe.setTimeStep step).groupBy.map (·.name)).filter (· != timeName)
      = pipe.labels := by
    rw [List.filter_map, setTimeStep, labels]
    simp [List.filter_filter, Function.comp_def]
  rw [SampleLayout.ofStats, hlabels]
  rfl

/-- The time of a window and what a row has under the labels make up its group. -/
theorem groupKey_setTimeStep_congr {pipe : StatsPipe} {step : Int64} (hstep : 0 < step)
    {row row' : QueryRow} {t t' : Timestamp} (ht : row.timestamp = some t)
    (ht' : row'.timestamp = some t') (hstart : windowStart t step = windowStart t' step)
    (hlabels : ∀ label ∈ pipe.labels, row.value label = row'.value label) :
    (pipe.setTimeStep step).groupKey row = (pipe.setTimeStep step).groupKey row' := by
  have hwindow : keyOf ⟨timeName, some step⟩ row = keyOf ⟨timeName, some step⟩ row' := by
    rw [keyOf_window hstep ht, keyOf_window hstep ht', hstart]
  have hothers : (pipe.groupBy.filter (·.name != timeName)).map (keyOf · row)
      = (pipe.groupBy.filter (·.name != timeName)).map (keyOf · row') := by
    refine List.map_congr_left fun b hb => ?_
    have hname : b.name ≠ timeName := by simpa using (List.mem_filter.1 hb).2
    rw [keyOf_of_ne hname, keyOf_of_ne hname]
    exact hlabels b.name (List.mem_map_of_mem hb)
  exact congrArg₂ List.cons hwindow hothers

end StatsPipe

namespace PartialStats

open StatsPipe (windowStart)
open Series (TimedSample timed nameIn?)

variable {pipe : StatsPipe} {step : Int64} {rows : List QueryRow} {p : PartialStats}

/-- The results of a group have names of their own. -/
theorem nodup_result_zip (h : pipe.NamesApart) {states : List StatsState}
    (hlength : states.length = pipe.funcs.length) :
    ((pipe.funcs.zip states).map (·.1.result)).Nodup := by
  have hfuncs : (pipe.funcs.zip states).map Prod.fst = pipe.funcs :=
    List.map_fst_zip (Nat.le_of_eq hlength.symm)
  have hresults := h.results
  rw [← hfuncs, List.map_map] at hresults
  exact hresults

/-- The samples of a row of a group, one for every result. -/
theorem samples_windowRow (h : pipe.NamesApart) (row : QueryRow) {states : List StatsState}
    (hlength : states.length = pipe.funcs.length) :
    pipe.windowLayout.samples (windowRow pipe step row states)
      = (pipe.funcs.zip states).map fun (f, s) =>
          (pipe.windowLayout.metric row f.result, s.render) := by
  rw [← filterMap_first?_results h.results hlength fun name value =>
    (pipe.windowLayout.metric row name, value)]
  refine List.filterMap_congr fun name hname => ?_
  obtain ⟨f, hf, rfl⟩ := List.mem_map.1 hname
  -- the time and the labels in front have other names
  have hlabels : Field.first? (pipe.labels.map fun label => ⟨label, row.value label⟩) f.result
      = none :=
    Field.first?_eq_none_of_forall fun g hg heq => by
      obtain ⟨label, hlabel, rfl⟩ := List.mem_map.1 hg
      exact h.apart f hf (heq ▸ hlabel)
  have hget : (windowRow pipe step row states).get? f.result
      = Field.first? ((pipe.funcs.zip states).map fun (f, s) => ⟨f.result, s.render⟩) f.result := by
    rw [QueryRow.get?, fields_windowRow, Field.first?_cons, if_neg (h.time f hf).symm,
      Field.first?_append, hlabels, Option.none_or]
  have hmetric : pipe.windowLayout.metric (windowRow pipe step row states) f.result
      = pipe.windowLayout.metric row f.result :=
    SampleLayout.metric_congr (fun label hlabel => value_windowRow hlabel row states) f.result
  rw [hget, hmetric]

/-- A group with a time has a sample for every result, with the start of the window. -/
theorem timed_windowRow (h : pipe.NamesApart) (hstep : 0 < step) (row : QueryRow)
    {states : List StatsState} (hlength : states.length = pipe.funcs.length) :
    timed pipe.windowLayout (windowRow pipe step row states)
      = row.timestamp.elim [] fun t => (pipe.funcs.zip states).map fun fs =>
          (windowStart t step, pipe.windowLayout.metric row fs.1.result, fs.2.render) := by
  rw [timed, timestamp_windowRow pipe hstep, samples_windowRow h row hlength]
  cases row.timestamp with
  | none => rfl
  | some t => exact List.map_map

/-- The samples of all groups. -/
def samplesOf (pipe : StatsPipe) (step : Int64) (p : PartialStats) : List TimedSample :=
  (p.finalize (pipe.setTimeStep step)).flatMap (timed pipe.windowLayout)

theorem samplesOf_eq (pipe : StatsPipe) (step : Int64) (p : PartialStats) :
    samplesOf pipe step p = p.flatMap fun e =>
      timed pipe.windowLayout (renderGroup (pipe.setTimeStep step) e.1 e.2) := by
  have hby : (pipe.setTimeStep step).groupBy.isEmpty = false := rfl
  rw [samplesOf, finalize, hby, Bool.and_false, if_neg Bool.false_ne_true, List.flatMap_map]

section

variable (hp : AggregateOf (pipe.setTimeStep step) rows p) (h : pipe.NamesApart) (hstep : 0 < step)
include hp h hstep

/-- The samples of a group are told by any row of the group. -/
theorem AggregateOf.exists_timed {e : List String × List StatsState} (he : e ∈ p) :
    ∃ row ∈ rows, (pipe.setTimeStep step).groupKey row = e.1 ∧
      timed pipe.windowLayout (renderGroup (pipe.setTimeStep step) e.1 e.2)
        = row.timestamp.elim [] fun t => (pipe.funcs.zip e.2).map fun fs =>
            (windowStart t step, pipe.windowLayout.metric row fs.1.result, fs.2.render) := by
  obtain ⟨row, hrow, hkey⟩ := hp.exists_row he
  have htimed := timed_windowRow h hstep row (hp.length_states he)
  rw [windowRow, hkey] at htimed
  exact ⟨row, hrow, hkey, htimed⟩

/-- The samples of a group have the window and the labels of a row of the group. -/
theorem AggregateOf.mem_timed {e : List String × List StatsState} (he : e ∈ p)
    {sample : TimedSample}
    (hsample : sample ∈ timed pipe.windowLayout (renderGroup (pipe.setTimeStep step) e.1 e.2)) :
    ∃ row ∈ rows, (pipe.setTimeStep step).groupKey row = e.1 ∧
      ∃ t, row.timestamp = some t ∧ sample.1 = windowStart t step ∧
        ∃ name, sample.2.1 = pipe.windowLayout.metric row name := by
  obtain ⟨row, hrow, hkey, htimed⟩ := hp.exists_timed h hstep he
  refine ⟨row, hrow, hkey, ?_⟩
  rw [htimed] at hsample
  cases ht : row.timestamp with
  | none =>
    rw [ht] at hsample
    cases hsample
  | some t =>
    rw [ht] at hsample
    obtain ⟨fs, -, rfl⟩ := List.mem_map.1 hsample
    exact ⟨t, rfl, rfl, fs.1.result, rfl⟩

/-- Every sample has the window and the labels of a row. -/
theorem AggregateOf.mem_samplesOf {sample : TimedSample}
    (hsample : sample ∈ samplesOf pipe step p) :
    ∃ row ∈ rows, ∃ t, row.timestamp = some t ∧ sample.1 = windowStart t step ∧
      ∃ name, sample.2.1 = pipe.windowLayout.metric row name := by
  rw [samplesOf_eq, List.mem_flatMap] at hsample
  obtain ⟨e, he, hsample⟩ := hsample
  obtain ⟨row, hrow, -, htime⟩ := hp.mem_timed h hstep he hsample
  exact ⟨row, hrow, htime⟩

/-- The text of the labels of samples tells the labels. -/
theorem AggregateOf.metric_eq_of_render_eq :
    ∀ a ∈ samplesOf pipe step p, ∀ b ∈ samplesOf pipe step p,
      a.2.1.render = b.2.1.render → a.2.1 = b.2.1 := by
  intro a ha b hb hrender
  obtain ⟨row, -, t, -, -, name, hmetric⟩ := hp.mem_samplesOf h hstep ha
  obtain ⟨row', -, t', -, -, name', hmetric'⟩ := hp.mem_samplesOf h hstep hb
  rw [hmetric, hmetric', SampleLayout.metric_eq, SampleLayout.metric_eq] at hrender ⊢
  exact congrArg Json.obj (Json.render_obj_inj (SampleLayout.texts_members _ row name)
    (SampleLayout.texts_members _ row' name') hrender)

/-- Two groups have no sample with the same time and the same labels. -/
theorem AggregateOf.key_eq_of_mem_timed {e e' : List String × List StatsState} (he : e ∈ p)
    (he' : e' ∈ p) {a b : TimedSample}
    (ha : a ∈ timed pipe.windowLayout (renderGroup (pipe.setTimeStep step) e.1 e.2))
    (hb : b ∈ timed pipe.windowLayout (renderGroup (pipe.setTimeStep step) e'.1 e'.2))
    (htime : a.1 = b.1) (hlabels : a.2.1 = b.2.1) : e.1 = e'.1 := by
  obtain ⟨row, -, hkey, t, ht, hstart, name, hmetric⟩ := hp.mem_timed h hstep he ha
  obtain ⟨row', -, hkey', t', ht', hstart', name', hmetric'⟩ := hp.mem_timed h hstep he' hb
  rw [hmetric, hmetric'] at hlabels
  rw [← hkey, ← hkey']
  refine StatsPipe.groupKey_setTimeStep_congr hstep ht ht' ?_
    (SampleLayout.metric_inj h.label hlabels).2
  rw [← hstart, ← hstart', htime]

/-- **No two samples have their time and their labels in common**: groups differ in one of them, and
    the results of a group have names of their own. -/
theorem AggregateOf.nodup_samplesOf :
    ((samplesOf pipe step p).map fun sample => (sample.1, sample.2.1)).Nodup := by
  rw [samplesOf_eq, List.map_flatMap, List.nodup_flatMap]
  constructor
  · intro e he
    obtain ⟨row, -, -, htimed⟩ := hp.exists_timed h hstep he
    have hresults := nodup_result_zip h (hp.length_states he)
    rw [htimed]
    cases row.timestamp with
    | none => exact List.nodup_nil
    | some t =>
      rw [Option.elim_some, List.map_map]
      rw [List.Nodup, List.pairwise_map] at hresults ⊢
      refine hresults.imp fun hne heq => hne ?_
      exact (SampleLayout.metric_inj h.label (Prod.mk.inj heq).2).1
  · refine (List.pairwise_map.1 hp.nodup_keys).imp_of_mem ?_
    intro e e' he he' hne
    refine List.disjoint_left.2 fun x hx hx' => hne ?_
    obtain ⟨sample, hsample, rfl⟩ := List.mem_map.1 hx
    obtain ⟨sample', hsample', heq⟩ := List.mem_map.1 hx'
    obtain ⟨htime, hlabels⟩ := Prod.mk.inj heq
    exact hp.key_eq_of_mem_timed h hstep he he' hsample hsample' htime.symm hlabels.symm

end

/-! ### Counts -/

/-- Whether the rows of a group have a time. -/
def hasTime (pipe : StatsPipe) (step : Int64) (key : List String) : Bool :=
  (renderGroup (pipe.setTimeStep step) key []).timestamp.isSome

theorem hasTime_groupKey (pipe : StatsPipe) (hstep : 0 < step) (row : QueryRow) :
    hasTime pipe step ((pipe.setTimeStep step).groupKey row) = row.timestamp.isSome := by
  have htime := timestamp_windowRow pipe hstep row []
  rw [windowRow] at htime
  rw [hasTime, htime, Option.isSome_map]

/-- The state of a function that counts rows is their number. -/
theorem AggregateOf.count_mem_zip {pipe : StatsPipe} (hp : AggregateOf pipe rows p)
    {e : List String × List StatsState} (he : e ∈ p) {f : StatsFunc} (hf : f ∈ pipe.funcs)
    (hkind : f.kind = .count) (hfields : f.fields = []) :
    (f, StatsState.count ((groupRows pipe e.1 rows).length % UInt64.size))
      ∈ pipe.funcs.zip e.2 := by
  obtain ⟨i, hi⟩ := List.mem_iff_getElem?.1 hf
  have hstate := hp.state ((SortedMap.mem_iff_get? hp.sorted).1 he) hi
    (StatsFunc.lawfulInAnyOrder_of_counts (.inl hkind) _)
  have hall : (groupRows pipe e.1 rows).countP (StatsState.counts f)
      = (groupRows pipe e.1 rows).length := by
    rw [List.countP_eq_length]
    intro row _
    rw [StatsState.counts, hfields]
    rfl
  rw [StatsState.ofRows_eq, hkind] at hstate
  dsimp only at hstate
  rw [hall] at hstate
  exact List.mem_of_getElem? (List.getElem?_zip_eq_some.2 ⟨hi, hstate⟩)

/-- The values of a count in a group with a time: the number of its rows. -/
theorem AggregateOf.counts_timed (hp : AggregateOf (pipe.setTimeStep step) rows p)
    (h : pipe.NamesApart) (hstep : 0 < step) {e : List String × List StatsState} (he : e ∈ p)
    {f : StatsFunc} (hf : f ∈ pipe.funcs) (hkind : f.kind = .count) (hfields : f.fields = []) :
    ((timed pipe.windowLayout (renderGroup (pipe.setTimeStep step) e.1 e.2)).filter
        (nameIn? ·.2.1 == some f.result)).map (·.2.2)
      = (if hasTime pipe step e.1 then
          some (toString ((groupRows (pipe.setTimeStep step) e.1 rows).length % UInt64.size))
        else none).toList := by
  obtain ⟨row, -, hkey, htimed⟩ := hp.exists_timed h hstep he
  rw [htimed, ← hkey, hasTime_groupKey pipe hstep, hkey]
  cases row.timestamp with
  | none => rfl
  | some t =>
    -- of the results of the group one has the name
    have honly := filter_key_eq_singleton (nodup_result_zip h (hp.length_states he))
      (hp.count_mem_zip he hf hkind hfields)
    have hnamed : ∀ fs : StatsFunc × StatsState,
        (nameIn? (pipe.windowLayout.metric row fs.1.result) == some f.result)
          = (fs.1.result == f.result) := fun fs => by
      rw [Series.nameIn?_metric h.label, Option.some_beq_some]
    rw [Option.elim_some, List.filter_map, Function.comp_def]
    simp only [hnamed, honly]
    rfl

/-- The counts of groups with a time: the numbers of their rows, in sixty-four bits. -/
def countsOf (pipe : StatsPipe) (step : Int64) (rows : List QueryRow) (p : PartialStats) :
    List Nat :=
  ((p.map (·.1)).filter (hasTime pipe step)).map fun key =>
    (groupRows (pipe.setTimeStep step) key rows).length % UInt64.size

theorem lt_of_mem_countsOf {n : Nat} (h : n ∈ countsOf pipe step rows p) : n < UInt64.size := by
  obtain ⟨key, -, rfl⟩ := List.mem_map.1 h
  exact Nat.mod_lt _ (by decide)

theorem AggregateOf.counts_samplesOf (hp : AggregateOf (pipe.setTimeStep step) rows p)
    (h : pipe.NamesApart) (hstep : 0 < step) {f : StatsFunc} (hf : f ∈ pipe.funcs)
    (hkind : f.kind = .count) (hfields : f.fields = []) :
    ((samplesOf pipe step p).filter (nameIn? ·.2.1 == some f.result)).map (·.2.2)
      = (countsOf pipe step rows p).map toString := by
  rw [samplesOf_eq, List.filter_flatMap, List.map_flatMap,
    List.flatMap_congr fun e he => hp.counts_timed h hstep he hf hkind hfields,
    ← List.filterMap_eq_flatMap_toList, countsOf, List.map_map, ← List.filterMap_eq_map,
    List.filterMap_filter, List.filterMap_map]
  rfl

/-- **The counts of all groups add up to the rows with a time.** -/
theorem AggregateOf.sum_countsOf (hp : AggregateOf (pipe.setTimeStep step) rows p)
    (hstep : 0 < step) :
    (countsOf pipe step rows p).sum % UInt64.size
        = rows.countP (·.timestamp.isSome) % UInt64.size ∧
      (rows.countP (·.timestamp.isSome) < UInt64.size →
        (countsOf pipe step rows p).sum = rows.countP (·.timestamp.isSome)) := by
  have hsizes := hp.sum_length_groupRows (hasTime pipe step)
  simp only [hasTime_groupKey pipe hstep] at hsizes
  generalize hkeys : (p.map (·.1)).filter (hasTime pipe step) = keys at hsizes
  have hcounts : countsOf pipe step rows p
      = (keys.map fun key => (groupRows (pipe.setTimeStep step) key rows).length).map
          (· % UInt64.size) := by
    rw [countsOf, hkeys, List.map_map]
    rfl
  have hmod : (countsOf pipe step rows p).sum % UInt64.size
      = rows.countP (·.timestamp.isSome) % UInt64.size := by
    rw [hcounts, ← List.sum_nat_mod, hsizes]
  refine ⟨hmod, fun hlt => ?_⟩
  -- no count is larger than the number of rows of its group
  have hle : (countsOf pipe step rows p).sum ≤ rows.countP (·.timestamp.isSome) := by
    rw [hcounts, ← hsizes, List.map_map]
    exact List.sum_le_sum fun key _ => Nat.mod_le _ _
  rw [Nat.mod_eq_of_lt hlt, Nat.mod_eq_of_lt (Nat.lt_of_le_of_lt hle hlt)] at hmod
  exact hmod

end PartialStats

/-! ## Series of groups -/

namespace Series

/-- Texts of counts, in any order, are read and have the sum of the counts. -/
theorem exists_counts {values : List String} {counts : List Nat}
    (h : values.Perm (counts.map toString)) (hlt : ∀ n ∈ counts, n < UInt64.size) :
    ∃ read : List Nat, values.map Decimal.readUInt64? = read.map some ∧
      read.sum = counts.sum := by
  have hone : ∀ n ∈ counts, Decimal.readUInt64? (toString n) = some n :=
    fun n hn => Decimal.readUInt64?_toString (hlt n hn)
  have hread : (counts.map toString).map (fun value => (Decimal.readUInt64? value).getD 0)
      = counts := by
    rw [List.map_map]
    refine (List.map_congr_left fun n hn => ?_).trans (List.map_id counts)
    rw [Function.comp_apply, hone n hn]
    rfl
  refine ⟨values.map fun value => (Decimal.readUInt64? value).getD 0, ?_, ?_⟩
  · rw [List.map_map]
    refine List.map_congr_left fun value hvalue => ?_
    obtain ⟨n, hn, rfl⟩ := List.mem_map.1 (h.subset hvalue)
    rw [Function.comp_apply, hone n hn]
    rfl
  · rw [← congrArg List.sum hread]
    exact (h.map _).sum_eq

end Series

/-! ## Queries that end in statistics -/

namespace Query

variable {q : Query} {locals : List Pipe} {pipe : StatsPipe}

theorem ofQuery_stats (hpipes : q.pipes = locals ++ [.stats pipe])
    (hlocals : ∀ p ∈ locals, p.isRowLocal = true) :
    Plan.ofQuery q
      = ⟨⟨q.filter, locals, some (.stats pipe), q.timeRange.1, q.timeRange.2⟩, []⟩ := by
  have hdrop : q.pipes.dropWhile Pipe.isRowLocal = [.stats pipe] := by
    rw [hpipes, List.dropWhile_append_of_pos hlocals]
    rfl
  have htake : q.pipes.takeWhile Pipe.isRowLocal = locals := by
    rw [hpipes, List.takeWhile_append_of_pos hlocals,
      List.takeWhile_cons_of_neg Bool.false_ne_true, List.append_nil]
  rw [Plan.ofQuery, hdrop, htake]
  rfl

/-- The answer of such a query is one row for each group of what reaches its statistics. -/
theorem exists_finish_stats (hpipes : q.pipes = locals ++ [.stats pipe])
    (hlocals : ∀ p ∈ locals, p.isRowLocal = true) (lists : List (List QueryRow)) :
    ∃ groups, PartialStats.AggregateOf pipe lists.flatten groups ∧
      (Plan.ofQuery q).finish (lists.map (Plan.ofQuery q).remote.collect)
        = .ok (groups.finalize pipe) := by
  obtain ⟨groups, hmerge, hagg⟩ :=
    (PartialStats.aggregateOf_ofRows pipe []).exists_mergeStats lists
  refine ⟨groups, hagg, ?_⟩
  rw [ofQuery_stats hpipes hlocals]
  have hrows := congrArg (Except.map (PartialStats.finalize · pipe)) hmerge
  exact congrArg (Except.map (Pipe.applyAll [])) hrows

theorem pipes_addTimeRange (q : Query) (lo hi : Timestamp) :
    (q.addTimeRange lo hi).pipes = q.pipes := by
  unfold addTimeRange
  split <;> rfl

theorem mapLastStats?_append (hpipes : q.pipes = locals ++ [.stats pipe])
    (f : StatsPipe → StatsPipe) :
    q.mapLastStats? f = some { q with pipes := locals ++ [.stats (f pipe)] } := by
  rw [mapLastStats?, hpipes, List.reverse_append]
  simp [mapFirstStats?]

/-- The last statistics are the last pipe if those in front look at each row by itself. -/
theorem pipes_eq_of_lastStats? (h : q.lastStats? = some pipe)
    (hlocals : ∀ p ∈ q.pipes.dropLast, p.isRowLocal = true) :
    q.pipes = q.pipes.dropLast ++ [.stats pipe] := by
  obtain ⟨p, hp, hstats⟩ := List.exists_of_findSome?_eq_some h
  rw [List.mem_reverse] at hp
  have hne := List.ne_nil_of_mem hp
  have hsplit := List.dropLast_append_getLast hne
  cases p with
  | stats s =>
    cases hstats
    have hplace : Pipe.stats pipe ∈ q.pipes.dropLast ++ [q.pipes.getLast hne] := by
      rwa [hsplit]
    rcases List.mem_append.1 hplace with hfront | hlast
    · cases hlocals _ hfront
    · rw [List.mem_singleton.1 hlast]
      exact hsplit.symm
  | _ => cases hstats

theorem lastStats?_append (hpipes : q.pipes = locals ++ [.stats pipe]) :
    q.lastStats? = some pipe := by
  rw [lastStats?, hpipes, List.reverse_append]
  rfl

end Query

/-- Pipes that look at each row by themselves leave the time as it is or take it away. -/
theorem Pipe.timestamp_of_applyRowAll {ps : List Pipe} {row row' : QueryRow}
    (h : applyRowAll ps row = some row') {t : Timestamp} (ht : row'.timestamp = some t) :
    row.timestamp = some t := by
  induction ps generalizing row with
  | nil =>
    cases h
    exact ht
  | cons p ps ih =>
    obtain ⟨next, hnext, hrest⟩ := Option.bind_eq_some_iff.1 h
    have hnext' := ih hrest
    cases p with
    | filter condition =>
      obtain ⟨-, hsame⟩ := Option.ite_none_right_eq_some.1 hnext
      cases hsame
      exact hnext'
    | fields names =>
      cases hnext
      exact (Option.ite_none_right_eq_some.1 hnext').2
    | _ =>
      cases hnext
      exact hnext'

/-! ## Searches over a range -/

namespace Series

/-- Series as they should be, by windows of the step: their labels are distinct, and the times of
    each ascend in whole multiples of the step, which are written as whole seconds. -/
structure WellFormed (step : Int64) (series : List Series) : Prop where
  metrics : (series.map (·.metric)).Nodup
  ascending : ∀ s ∈ series, (s.sorted.map (·.1)).Pairwise (· < ·)
  multiple : ∀ s ∈ series, ∀ point ∈ s.sorted, step.toInt ∣ point.1.toInt
  seconds : ∀ s ∈ series, ∀ point ∈ s.sorted,
    Time.unixSeconds point.1 = .int (point.1.toInt / Time.nanosPerSecond)

/-- All points of the series of a result are counts, and they add up to the total. Sixty-four bits
    are kept of each of them. -/
def AddUpTo (total : Nat) (name : String) (series : List Series) : Prop :=
  ∃ counts : List Nat, (valuesOf name series).map Decimal.readUInt64? = counts.map some ∧
    counts.sum % UInt64.size = total % UInt64.size ∧
    (total < UInt64.size → counts.sum = total)

end Series

namespace PartialStats

open StatsPipe (windowStart)

variable {pipe : StatsPipe} {step : Int64} {rows : List QueryRow} {p : PartialStats}

theorem series_finalize (pipe : StatsPipe) (step : Int64) (p : PartialStats) :
    Series.ofRows pipe.windowLayout (p.finalize (pipe.setTimeStep step))
      = (Series.collect (samplesOf pipe step p)).map (·.2) := by
  rw [Series.ofRows_eq]
  rfl

/-- **The series of groups are well-formed** if the rows come a step after the first of all times,
    or later. -/
theorem AggregateOf.wellFormed_series (hp : AggregateOf (pipe.setTimeStep step) rows p)
    (h : pipe.NamesApart) (hstep : 0 < step) (hseconds : Time.nanosPerSecond ∣ step.toInt)
    (hearly : ∀ row ∈ rows, ∀ t, row.timestamp = some t →
      Int64.minValue.toInt + step.toInt ≤ t.toInt) :
    Series.WellFormed step ((Series.collect (samplesOf pipe step p)).map (·.2)) := by
  have hrender := hp.metric_eq_of_render_eq h hstep
  have hnodup := hp.nodup_samplesOf h hstep
  have hmultiple : ∀ s ∈ (Series.collect (samplesOf pipe step p)).map (·.2),
      ∀ point ∈ s.sorted, step.toInt ∣ point.1.toInt := by
    intro s hs point hpoint
    obtain ⟨e, he, rfl⟩ := List.mem_map.1 hs
    have hsample : (point.1, e.2.metric, point.2) ∈ samplesOf pipe step p := by
      refine (Series.samples_collect hrender).subset (List.mem_flatMap.2 ⟨e, he, ?_⟩)
      exact List.mem_map_of_mem ((List.mergeSort_perm ..).subset hpoint)
    obtain ⟨row, hrow, t, ht, hstart, -⟩ := hp.mem_samplesOf h hstep hsample
    rw [hstart]
    exact (StatsPipe.inWindow_windowStart hstep (hearly row hrow t ht)).dvd
  refine ⟨?_, ?_, hmultiple, ?_⟩
  · rw [List.map_map]
    exact Series.nodup_metrics_collect _
  · intro s hs
    obtain ⟨e, he, rfl⟩ := List.mem_map.1 hs
    exact Series.pairwise_lt_sorted (Series.nodup_times_of_mem_collect hrender hnodup he)
  · intro s hs point hpoint
    rw [Time.unixSeconds, if_pos]
    exact Int.emod_eq_zero_of_dvd (hseconds.trans (hmultiple s hs point hpoint))

/-- **The counts of the series add up to the rows with a time.** -/
theorem AggregateOf.addUpTo_series (hp : AggregateOf (pipe.setTimeStep step) rows p)
    (h : pipe.NamesApart) (hstep : 0 < step) {f : StatsFunc} (hf : f ∈ pipe.funcs)
    (hkind : f.kind = .count) (hfields : f.fields = []) :
    Series.AddUpTo (rows.countP (·.timestamp.isSome)) f.result
      ((Series.collect (samplesOf pipe step p)).map (·.2)) := by
  have hvalues := Series.valuesOf_collect_perm (hp.metric_eq_of_render_eq h hstep) f.result
  rw [hp.counts_samplesOf h hstep hf hkind hfields] at hvalues
  obtain ⟨counts, hread, hsum⟩ := Series.exists_counts hvalues fun n hn => lt_of_mem_countsOf hn
  obtain ⟨hmod, hexact⟩ := hp.sum_countsOf hstep
  exact ⟨counts, hread, hsum ▸ hmod, fun hlt => hsum.trans (hexact hlt)⟩

end PartialStats

namespace SearchPlan

open Logbook.Topology (stores readFrom)

variable {args : Args} {now : Timestamp} {q : Query} {locals : List Pipe} {pipe : StatsPipe}
  {step : Int64}

/-- The step of a request is positive. -/
theorem pos_of_duration? (h : (args.duration? "step").map (·.getD defaultStep) = .ok step) :
    0 < step := by
  rw [Args.duration?, Args.read?] at h
  split at h
  · cases h
    decide
  · next value _ =>
    split at h
    · next d _ =>
      split at h
      · next hpos =>
        cases h
        exact hpos
      · cases h
    · cases h

/-- The query by windows. Without an end in the request it ends now. -/
def windowed (args : Args) (now : Timestamp) (q : Query) (locals : List Pipe) (pipe : StatsPipe)
    (step : Int64) : Query where
  filter := (if (args.value? "end").isNone then q.addTimeRange Int64.minValue now else q).filter
  pipes := locals ++ [.stats (pipe.setTimeStep step)]

theorem statsOver_eq (hq : args.query now = .ok q) (hpipes : q.pipes = locals ++ [.stats pipe])
    (hstep : (args.duration? "step").map (·.getD defaultStep) = .ok step) {timeout nanos : Nat}
    (htimeout : args.timeout timeout = .ok nanos) :
    statsOver args now timeout = .ok {
      query := windowed args now q locals pipe step
      timeout := nanos
      render := fun rows => ofJson <| Series.listToJson "matrix" <|
        (Series.ofRows pipe.windowLayout rows).map (·.toJson) } := by
  obtain ⟨step?, hread, rfl⟩ : ∃ step?, args.duration? "step" = .ok step? ∧
      step?.getD defaultStep = step := by
    cases hread : args.duration? "step" with
    | error e =>
      rw [hread] at hstep
      cases hstep
    | ok step? =>
      rw [hread] at hstep
      cases hstep
      exact ⟨step?, rfl, rfl⟩
  have hbounded : (if (args.value? "end").isNone then q.addTimeRange Int64.minValue now
      else q).pipes = locals ++ [.stats pipe] := by
    split
    · rw [Query.pipes_addTimeRange, hpipes]
    · exact hpipes
  have hmap := Query.mapLastStats?_append hbounded (·.setTimeStep (step?.getD defaultStep))
  have hlayout : layout (windowed args now q locals pipe (step?.getD defaultStep))
      = .ok pipe.windowLayout := by
    rw [layout, Query.lastStats?_append rfl]
    exact congrArg Except.ok (StatsPipe.ofStats_setTimeStep pipe _)
  rw [statsOver, hread, hq, htimeout]
  simp only [bind, Except.bind]
  rw [hmap]
  simp only [windowed] at hlayout ⊢
  rw [hlayout]
  rfl

/-- Whether a stored row counts: the query of the request accepts it, it is not later than now if
    the request has no end, and the pipes in front of the statistics leave it with a time. -/
def countsOver (args : Args) (now : Timestamp) (q : Query) (locals : List Pipe) (row : StoredRow) :
    Bool :=
  q.filter.accepts (.ofStored row) && ((args.value? "end").isSome || row.timestamp ≤ now)
    && (Pipe.applyRowAll locals (.ofStored row)).any (·.timestamp.isSome)

theorem accepts_windowed (row : StoredRow) :
    (windowed args now q locals pipe step).filter.accepts (.ofStored row)
      = (q.filter.accepts (.ofStored row)
          && ((args.value? "end").isSome || row.timestamp ≤ now)) := by
  rw [windowed]
  dsimp only
  cases args.value? "end" with
  | none => simp [Query.accepts_addTimeRange, Int64.minValue_le]
  | some value => simp

theorem select?_windowed (hlocals : ∀ p ∈ locals, p.isRowLocal = true) (row : StoredRow) :
    (Plan.ofQuery (windowed args now q locals pipe step)).remote.select? row
      = if (windowed args now q locals pipe step).filter.accepts (.ofStored row)
        then Pipe.applyRowAll locals (.ofStored row) else none := by
  rw [Query.ofQuery_stats rfl hlocals]
  rfl

/-- The rows with a time that reach the statistics are those that count. -/
theorem countP_selected (hlocals : ∀ p ∈ locals, p.isRowLocal = true) (pipe : StatsPipe)
    (step : Int64) (ss : List Storage) :
    (ss.flatMap (windowed args now q locals pipe step).selected).countP (·.timestamp.isSome)
      = (ss.flatMap (·.visibleRows)).countP (countsOver args now q locals) := by
  have hselected : ss.flatMap (windowed args now q locals pipe step).selected
      = (ss.flatMap (·.visibleRows)).filterMap
          (Plan.ofQuery (windowed args now q locals pipe step)).remote.select? := by
    rw [List.filterMap_flatMap]
    exact List.flatMap_congr fun s _ => Query.selected_eq_reaching _ s
  rw [hselected, List.countP_filterMap]
  refine List.countP_congr fun row _ => ?_
  rw [select?_windowed hlocals, accepts_windowed, countsOver]
  split
  · next haccepts =>
    rw [haccepts, Bool.true_and]
    cases Pipe.applyRowAll locals (.ofStored row) <;> exact Iff.rfl
  · next haccepts =>
    rw [Bool.not_eq_true] at haccepts
    rw [haccepts]
    rfl

/-- What reaches the statistics has the time of a stored row, if it has one. -/
theorem exists_row_of_selected (hlocals : ∀ p ∈ locals, p.isRowLocal = true) {ss : List Storage}
    {row : QueryRow} {t : Timestamp} (ht : row.timestamp = some t)
    (hrow : row ∈ ss.flatMap (windowed args now q locals pipe step).selected) :
    ∃ s ∈ ss, ∃ stored ∈ s.visibleRows, stored.timestamp = t := by
  obtain ⟨s, hs, hrow⟩ := List.mem_flatMap.1 hrow
  rw [Query.selected_eq_reaching] at hrow
  obtain ⟨stored, hstored, hselect⟩ := List.mem_filterMap.1 hrow
  rw [select?_windowed hlocals, Option.ite_none_right_eq_some] at hselect
  refine ⟨s, hs, stored, hstored, ?_⟩
  exact Option.some.inj (Pipe.timestamp_of_applyRowAll hselect.2 ht)

/-- **A search over a range answers with well-formed series that lose no row.** The statistics are
    the last pipe and those in front look at each row by itself; the step is a whole number of
    seconds, and no visible row comes before the first of all times but for a step. Then the labels
    of the series are distinct, their times ascend in multiples of the step, and what a count comes
    to over all points is the number of visible rows that count. -/
theorem statsOver_matrix (hq : args.query now = .ok q) (hpipes : q.pipes = locals ++ [.stats pipe])
    (hlocals : ∀ p ∈ locals, p.isRowLocal = true) (hnames : pipe.NamesApart)
    (hstep : (args.duration? "step").map (·.getD defaultStep) = .ok step)
    (hseconds : Time.nanosPerSecond ∣ step.toInt) {timeout nanos : Nat}
    (htimeout : args.timeout timeout = .ok nanos) {ss : List Storage} {replicas : Nat}
    (hearly : ∀ s ∈ readFrom replicas ss, ∀ row ∈ s.visibleRows,
      Int64.minValue.toInt + step.toInt ≤ row.timestamp.toInt) :
    ∃ plan series, ofArgs .statsOver args now timeout = .ok plan ∧
      (plan.run (stores ss.length replicas)).run.run ss
        = (.ok (ofJson (Series.listToJson "matrix" (series.map (·.toJson)))), ss) ∧
      Series.WellFormed step series ∧
      ∀ f ∈ pipe.funcs, f.kind = .count → f.fields = [] →
        Series.AddUpTo
          (((readFrom replicas ss).flatMap (·.visibleRows)).countP (countsOver args now q locals))
          f.result series := by
  have hpos := pos_of_duration? hstep
  obtain ⟨groups, hagg, hfinish⟩ := Query.exists_finish_stats
    (q := windowed args now q locals pipe step) rfl hlocals
    ((readFrom replicas ss).map (windowed args now q locals pipe step).selected)
  rw [← List.flatMap_def] at hagg
  rw [← Query.map_run_ofQuery] at hfinish
  refine ⟨_, (Series.collect (PartialStats.samplesOf pipe step groups)).map (·.2),
    statsOver_eq hq hpipes hstep htimeout, ?_, ?_, fun f hf hkind hfields => ?_⟩
  · rw [run, run_bind_of_ok (Query.run_stores hfinish nanos), ← PartialStats.series_finalize]
    rfl
  · refine hagg.wellFormed_series hnames hpos hseconds fun row hrow t ht => ?_
    obtain ⟨s, hs, stored, hstored, rfl⟩ := exists_row_of_selected hlocals ht hrow
    exact hearly s hs stored hstored
  · rw [← countP_selected hlocals pipe step]
    exact hagg.addUpTo_series hnames hpos hf hkind hfields

/-! ### Minutes of two shards -/

/-- Lines by application in steps of a minute, as long as none is asked for. -/
def sampleArgs : Args :=
  [("query", "error | filter !app:db | stats by (app) count() lines, count_uniq(app) apps")]

def sampleLines : StatsPipe :=
  ⟨[⟨"app", none⟩], [⟨.count, [], "lines"⟩, ⟨.countUniq, ["app"], "apps"⟩]⟩

def sampleLine (t : Timestamp) (app : String) : StoredRow :=
  .ofStream t (.ofFields []) [⟨"app", app⟩, ⟨"_msg", "an error"⟩]

/-- Lines before and after the first second of 1970, one of them of no application, and one that
    comes after a minute and a half. -/
def sampleRange : List Storage :=
  [{ (default : Storage) with visible :=
      [⟨[sampleLine (-1) "web", sampleLine 0 "", sampleLine 59999999999 "web"], -1, 59999999999,
        by decide, by decide⟩] },
    { (default : Storage) with visible :=
      [⟨[sampleLine 30000000000 "web", sampleLine 61000000000 "db"], 30000000000, 61000000000,
          by decide, by decide⟩,
        ⟨[sampleLine 99000000000 "web"], 99000000000, 99000000000, by decide, by decide⟩] }]

theorem four_lines_in_minutes :
    ∃ q plan series, sampleArgs.query 90000000000 = .ok q ∧
      ofArgs .statsOver sampleArgs 90000000000 0 = .ok plan ∧
      (plan.run (stores 2 1)).run.run sampleRange
        = (.ok (ofJson (Series.listToJson "matrix" (series.map (·.toJson)))), sampleRange) ∧
      Series.WellFormed 60000000000 series ∧ Series.AddUpTo 4 "lines" series := by
  have hread : (sampleArgs.query 90000000000).toOption.any (fun q =>
      q.lastStats? == some sampleLines && q.pipes.dropLast.all (·.isRowLocal) &&
        ((readFrom 1 sampleRange).flatMap (·.visibleRows)).countP
          (countsOver sampleArgs 90000000000 q q.pipes.dropLast) == 4) = true := by
    decide +kernel
  have hnames : sampleLines.NamesApart := by
    constructor <;> decide
  have hstep : (sampleArgs.duration? "step").map (·.getD defaultStep) = .ok 60000000000 := rfl
  have htimeout : sampleArgs.timeout 0 = .ok 0 := rfl
  have hearly : ∀ s ∈ readFrom 1 sampleRange, ∀ row ∈ s.visibleRows,
      Int64.minValue.toInt + (60000000000 : Int64).toInt ≤ row.timestamp.toInt := by
    decide +kernel
  cases hq : sampleArgs.query 90000000000 with
  | error e =>
    rw [hq] at hread
    cases hread
  | ok q =>
    rw [hq] at hread
    simp only [Except.toOption, Option.any_some, Bool.and_eq_true, beq_iff_eq,
      List.all_eq_true] at hread
    obtain ⟨⟨hstats, hlocals⟩, hfour⟩ := hread
    have hpipes := Query.pipes_eq_of_lastStats? hstats hlocals
    obtain ⟨plan, series, hplan, hrun, hwell, hcounts⟩ :=
      statsOver_matrix hq hpipes hlocals hnames hstep (by decide) htimeout hearly
    refine ⟨q, plan, series, rfl, hplan, hrun, hwell, ?_⟩
    have hlines := hcounts ⟨.count, [], "lines"⟩ (by decide) rfl rfl
    rwa [hfour] at hlines

end SearchPlan

end Logbook
