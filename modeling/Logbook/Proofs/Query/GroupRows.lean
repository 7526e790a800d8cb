import Mathlib.Algebra.BigOperators.Group.List.Lemmas
import Logbook.Proofs.Fields
import Logbook.Proofs.Query.MergeTrees
import Logbook.Proofs.Query.Windows
import Logbook.Proofs.Time.RoundTrip

set_option autoImplicit false

/-! # Rows of groups

Statistics come to one row for each group of rows. Every row is in one group, so that the sizes of
the groups add up (`AggregateOf.sum_length_groupRows`). The row of a group by windows of time has
the start of the window as its time, which its text gives back (**`times_read_back`**), and under
every other name what the rows of the group have there. -/

namespace Logbook

/-! ## Sizes of groups -/

namespace PartialStats

open SortedMap (Sorted)

theorem length_groupRows (pipe : StatsPipe) (key : List String) (rows : List QueryRow) :
    (groupRows pipe key rows).length
      = (rows.map pipe.groupKey).countP fun key' => decide (key' = key) := by
  rw [groupRows, ← List.countP_eq_length_filter, List.countP_map]
  exact List.countP_congr fun row _ => by simp

section

variable {pipe : StatsPipe} {rows : List QueryRow} {p : PartialStats}

/-- The groups are those of the rows. -/
theorem AggregateOf.mem_keys_iff (h : AggregateOf pipe rows p) {key : List String} :
    key ∈ p.map (·.1) ↔ key ∈ rows.map pipe.groupKey := by
  have hget : key ∈ p.map (·.1) ↔ SortedMap.get? p key ≠ none := by
    rw [Option.ne_none_iff_exists', List.mem_map]
    constructor
    · rintro ⟨e, he, rfl⟩
      exact ⟨e.2, (SortedMap.mem_iff_get? h.sorted).1 he⟩
    · rintro ⟨states, hstates⟩
      exact ⟨(key, states), (SortedMap.mem_iff_get? h.sorted).2 hstates, rfl⟩
  rw [hget, Ne, h.key, ← List.length_eq_zero_iff, length_groupRows, List.countP_eq_zero]
  simp

theorem AggregateOf.nodup_keys (h : AggregateOf pipe rows p) : (p.map (·.1)).Nodup := by
  refine List.pairwise_map.2 (h.sorted.imp ?_)
  intro e e' hlt heq
  rw [heq, Std.ReflOrd.compare_self] at hlt
  cases hlt

/-- A group is that of one of the rows. -/
theorem AggregateOf.exists_row (h : AggregateOf pipe rows p) {e : List String × List StatsState}
    (he : e ∈ p) : ∃ row ∈ rows, pipe.groupKey row = e.1 :=
  List.mem_map.1 (h.mem_keys_iff.1 (List.mem_map_of_mem he))

theorem AggregateOf.length_states (h : AggregateOf pipe rows p)
    {e : List String × List StatsState} (he : e ∈ p) : e.2.length = pipe.funcs.length := by
  have hshape := h.shape ((SortedMap.mem_iff_get? h.sorted).1 he)
  simpa [PartialStats.shape] using congrArg List.length hshape

/-- **Every row is in one group.** -/
theorem AggregateOf.sum_length_groupRows (h : AggregateOf pipe rows p) (P : List String → Bool) :
    (((p.map (·.1)).filter P).map fun key => (groupRows pipe key rows).length).sum
      = rows.countP fun row => P (pipe.groupKey row) := by
  have hperm : (p.map (·.1)).Perm (rows.map pipe.groupKey).dedup :=
    (List.perm_ext_iff_of_nodup h.nodup_keys (List.nodup_dedup _)).2 fun key => by
      rw [h.mem_keys_iff, List.mem_dedup]
  have hcount := List.sum_map_count_dedup_filter_eq_countP P (rows.map pipe.groupKey)
  rw [List.countP_map] at hcount
  have hsize : ∀ key, (groupRows pipe key rows).length
      = @List.count _ instBEqOfDecidableEq key (rows.map pipe.groupKey) :=
    fun key => length_groupRows pipe key rows
  simp only [hsize]
  exact ((hperm.filter P).map _).sum_eq.trans hcount

end

end PartialStats

/-! ## Groups by windows -/

namespace StatsPipe

/-- The names to group by other than the time. -/
def labels (pipe : StatsPipe) : List String :=
  (pipe.groupBy.filter (·.name != timeName)).map (·.name)

theorem ne_timeName_of_mem_labels {pipe : StatsPipe} {label : String} (h : label ∈ pipe.labels) :
    label ≠ timeName := by
  obtain ⟨b, hb, rfl⟩ := List.mem_map.1 h
  simpa using (List.mem_filter.1 hb).2

/-- No result is named like another one, like the time or like a label, and no label like the name
    of a result. -/
structure NamesApart (pipe : StatsPipe) : Prop where
  label : "__name__" ∉ pipe.labels
  results : (pipe.funcs.map (·.result)).Nodup
  time : ∀ f ∈ pipe.funcs, f.result ≠ timeName
  apart : ∀ f ∈ pipe.funcs, f.result ∉ pipe.labels

theorem keyOf_of_ne {b : ByField} (h : b.name ≠ timeName) (row : QueryRow) :
    keyOf b row = row.value b.name := by
  rw [keyOf]
  split
  · exact if_neg fun hb => h hb.1
  · rfl

end StatsPipe

namespace PartialStats

open StatsPipe (windowStart keyOf)

variable {step : Int64}

/-- The row of a group has the time that the last of the fields named like the time stands for. If
    these are windows it is the start of the window, read back from its text. -/
theorem timestamp_renderGroup {pipe : StatsPipe} {front back : List ByField}
    (hby : pipe.groupBy = front ++ ⟨timeName, some step⟩ :: back)
    (hlast : ∀ b ∈ back, b.name ≠ timeName) (hstep : 0 < step) (row : QueryRow)
    (states : List StatsState) :
    (renderGroup pipe (pipe.groupKey row) states).timestamp
      = row.timestamp.map (windowStart · step) := by
  have hothers : ∀ (bs : List ByField) (t : Option Timestamp), (∀ b ∈ bs, b.name ≠ timeName) →
      bs.foldl (fun t b => if b.name = timeName then Time.parse? (keyOf b row) 0 else t) t = t := by
    intro bs t hbs
    induction bs with
    | nil => rfl
    | cons b bs ih =>
      rw [List.forall_mem_cons] at hbs
      rw [List.foldl_cons, if_neg hbs.1, ih hbs.2]
  have htime : Time.parse? (keyOf ⟨timeName, some step⟩ row) 0
      = row.timestamp.map (windowStart · step) := by
    cases ht : row.timestamp with
    | none =>
      rw [keyOf]
      dsimp only
      rw [if_pos ⟨rfl, hstep⟩, ht]
      rfl
    | some t =>
      rw [StatsPipe.keyOf_window hstep ht, Time.parse?_render]
      rfl
  rw [renderGroup, StatsPipe.groupKey, ← List.map_prod_left_eq_zip, List.foldl_map, hby,
    List.foldl_append, List.foldl_cons]
  refine (hothers back _ hlast).trans ?_
  dsimp only
  rw [if_pos rfl, htime]

/-- The row of the group by windows that a row is in. -/
def windowRow (pipe : StatsPipe) (step : Int64) (row : QueryRow) (states : List StatsState) :
    QueryRow :=
  renderGroup (pipe.setTimeStep step) ((pipe.setTimeStep step).groupKey row) states

theorem fields_windowRow (pipe : StatsPipe) (step : Int64) (row : QueryRow)
    (states : List StatsState) :
    (windowRow pipe step row states).fields
      = ⟨timeName, keyOf ⟨timeName, some step⟩ row⟩
        :: ((pipe.labels.map fun label => ⟨label, row.value label⟩)
          ++ (pipe.funcs.zip states).map fun (f, s) => ⟨f.result, s.render⟩) := by
  rw [windowRow, renderGroup, StatsPipe.groupKey, ← List.map_prod_left_eq_zip, List.map_map]
  simp only [StatsPipe.setTimeStep, StatsPipe.labels, List.map_cons, List.map_map, List.cons_append,
    Function.comp_apply]
  have hlabels : ∀ b ∈ pipe.groupBy.filter (·.name != timeName),
      (⟨b.name, keyOf b row⟩ : Field) = ⟨b.name, row.value b.name⟩ := by
    intro b hb
    rw [StatsPipe.keyOf_of_ne (by simpa using (List.mem_filter.1 hb).2)]
  exact congrArg (fun fs => _ :: (fs ++ _)) (List.map_congr_left hlabels)

/-- **The row of a group has the start of the window as its time**, read back from its text. -/
theorem timestamp_windowRow (pipe : StatsPipe) (hstep : 0 < step) (row : QueryRow)
    (states : List StatsState) :
    (windowRow pipe step row states).timestamp = row.timestamp.map (windowStart · step) := by
  have hby : (pipe.setTimeStep step).groupBy
      = [] ++ ⟨timeName, some step⟩ :: pipe.groupBy.filter (·.name != timeName) := rfl
  have hlast : ∀ b ∈ pipe.groupBy.filter (·.name != timeName), b.name ≠ timeName :=
    fun b hb => by simpa using (List.mem_filter.1 hb).2
  exact timestamp_renderGroup hby hlast hstep row states

/-- Under a label the row of a group has what the rows of the group have. -/
theorem value_windowRow {pipe : StatsPipe} {label : String} (h : label ∈ pipe.labels)
    (row : QueryRow) (states : List StatsState) :
    (windowRow pipe step row states).value label = row.value label := by
  have hfirst : ∀ labels : List String, label ∈ labels →
      Field.first? (labels.map fun label => ⟨label, row.value label⟩) label
        = some (row.value label) := by
    intro labels hlabels
    induction labels with
    | nil => cases hlabels
    | cons other labels ih =>
      rw [List.map_cons, Field.first?_cons]
      by_cases hother : other = label
      · rw [if_pos hother, hother]
      · rw [if_neg hother]
        exact ih ((List.mem_cons.1 hlabels).resolve_left (Ne.symm hother))
  have htime := (StatsPipe.ne_timeName_of_mem_labels h).symm
  rw [QueryRow.value, QueryRow.get?, fields_windowRow, Field.first?_cons, if_neg htime,
    Field.first?_append, hfirst _ h]
  rfl

/-- Results with distinct names are found one by one. -/
theorem filterMap_first?_results {γ : Type} {funcs : List StatsFunc} {states : List StatsState}
    (hnodup : (funcs.map (·.result)).Nodup) (hlength : states.length = funcs.length)
    (g : String → String → γ) :
    (funcs.map (·.result)).filterMap (fun name =>
        (Field.first? ((funcs.zip states).map fun (f, s) => ⟨f.result, s.render⟩) name).map
          (g name))
      = (funcs.zip states).map fun (f, s) => g f.result s.render := by
  induction funcs generalizing states with
  | nil => rfl
  | cons f funcs ih =>
    obtain ⟨s, states, rfl⟩ := List.exists_cons_of_length_eq_add_one hlength
    rw [List.map_cons, List.nodup_cons] at hnodup
    have hrest : ∀ name ∈ funcs.map (·.result),
        (Field.first? (((f :: funcs).zip (s :: states)).map fun (f, s) => ⟨f.result, s.render⟩)
            name).map (g name)
          = (Field.first? ((funcs.zip states).map fun (f, s) => ⟨f.result, s.render⟩) name).map
              (g name) := by
      intro name hname
      have hne : f.result ≠ name := fun heq => hnodup.1 (by rw [heq]; exact hname)
      rw [List.zip_cons_cons, List.map_cons, Field.first?_cons]
      dsimp only
      rw [if_neg hne]
    have hhead : (Field.first? (((f :: funcs).zip (s :: states)).map
        fun (f, s) => ⟨f.result, s.render⟩) f.result).map (g f.result)
          = some (g f.result s.render) := by
      rw [List.zip_cons_cons, List.map_cons, Field.first?_cons]
      dsimp only
      rw [if_pos rfl]
      rfl
    rw [List.map_cons, List.filterMap_cons, hhead, List.filterMap_congr hrest,
      ih hnodup.2 (Nat.succ.inj hlength)]
    rfl

/-! ## Times of groups -/

/-- **Times are read back from their texts**, so that different times have different texts and the
rows that statistics come to have times: rows that are grouped by windows, with no later field named
like the time, come, in any tree of merges, to a row at the start of the window for each group. -/
theorem times_read_back :
    (∀ t now : Timestamp, Time.parse? (Time.render t) now = some t) ∧
      Function.Injective Time.render ∧
      ∀ (pipe : StatsPipe) (front back : List ByField) (step : Int64),
        pipe.groupBy = front ++ ⟨timeName, some step⟩ :: back →
        (∀ b ∈ back, b.name ≠ timeName) → 0 < step → ∀ t : MergeTree,
          ∃ p, t.eval (ofRows pipe) merge = .ok p ∧
            List.Forall₂ (fun e result => groupRows pipe e.1 t.allRows ≠ [] ∧
              ∀ row ∈ groupRows pipe e.1 t.allRows,
                result.timestamp = row.timestamp.map (windowStart · step)) p (p.finalize pipe) ∧
            ∀ row ∈ t.allRows, pipe.groupKey row ∈ p.map (·.1) := by
  refine ⟨Time.parse?_render, fun t t' h => ?_, ?_⟩
  · rw [← Option.some_inj, ← Time.parse?_render t 0, h, Time.parse?_render]
  intro pipe front back step hby hlast hstep t
  obtain ⟨p, hp, hagg⟩ := exists_eval pipe t
  refine ⟨p, hp, ?_, fun row hrow => hagg.mem_keys_iff.2 (List.mem_map_of_mem hrow)⟩
  have hfinalize : p.finalize pipe = p.map fun e => renderGroup pipe e.1 e.2 := by
    have hne : pipe.groupBy.isEmpty = false := by
      rw [hby]
      cases front <;> rfl
    rw [finalize, hne, Bool.and_false]
    rfl
  rw [hfinalize, List.forall₂_map_right_iff, List.forall₂_same]
  intro e he
  obtain ⟨row, hrow, hkey⟩ := hagg.exists_row he
  refine ⟨List.ne_nil_of_mem (List.mem_filter.2 ⟨hrow, beq_iff_eq.2 hkey⟩), fun row hrow => ?_⟩
  rw [← beq_iff_eq.1 (List.mem_filter.1 hrow).2]
  exact timestamp_renderGroup hby hlast hstep row e.2

/-- Two rows of the minute before 1970, counted apart, come to a row at the start of the minute. -/
theorem minute_before_1970_read_back :
    ∃ p, (MergeTree.node (.leaf [⟨some (-1), []⟩]) (.leaf [⟨some (-2), []⟩])).eval
        (ofRows StatsPipe.sampleMinutes) merge = .ok p ∧
      ∀ result ∈ p.finalize StatsPipe.sampleMinutes, result.timestamp = some (-60000000000) := by
  obtain ⟨p, hp, hrows, -⟩ := times_read_back.2.2 StatsPipe.sampleMinutes [⟨"app", none⟩] []
    60000000000 rfl nofun (by decide) (.node (.leaf [⟨some (-1), []⟩]) (.leaf [⟨some (-2), []⟩]))
  refine ⟨p, hp, fun result hresult => ?_⟩
  obtain ⟨hlength, hget⟩ := List.forall₂_iff_get.1 hrows
  obtain ⟨i, hi, rfl⟩ := List.mem_iff_getElem.1 hresult
  obtain ⟨hne, htime⟩ := hget i (hlength ▸ hi) hi
  obtain ⟨row, hrow⟩ := List.exists_mem_of_ne_nil _ hne
  refine (htime row hrow).trans ?_
  obtain rfl | rfl : row = ⟨some (-1), []⟩ ∨ row = ⟨some (-2), []⟩ := by
    simpa [MergeTree.allRows] using (List.mem_filter.1 hrow).1
  · decide
  · decide

/-- Rows by the hour and by what they have under the name of the time. -/
def sampleTwoTimes : StatsPipe :=
  ⟨[⟨timeName, some 3600000000000⟩, ⟨timeName, none⟩], [⟨.count, [], "n"⟩]⟩

/-- The row of a group by the hour has another time than the hour: the later field decides. -/
theorem later_time_decides :
    (finalize (ofRows sampleTwoTimes
        [⟨some 1800000000000, [⟨timeName, "1970-01-01T00:30:00Z"⟩]⟩]) sampleTwoTimes).map
        (·.timestamp) = [some 1800000000000] ∧
      windowStart 1800000000000 3600000000000 ≠ 1800000000000 :=
  ⟨by decide +kernel, by decide⟩

end PartialStats

end Logbook
