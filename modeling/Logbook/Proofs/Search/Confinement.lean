import Logbook.Proofs.Cluster.Queries
import Logbook.Search.Endpoint

set_option autoImplicit false

/-! # Extra filters confine a search

The extra filters and the bounds of times in the arguments of a search are its scope. Whatever the
query is, narrowing it by them leaves a filter that accepts no row outside the scope
(`Scope.accepts_narrow`). So a store is searched as if it held nothing but the rows within the
scope, and clusters that agree on those give the same answer to any search of that scope
(`Scope.answers_agree`). -/

namespace Logbook

/-! ## Narrowed queries -/

theorem Filter.allAccept_append (fs gs : List Filter) (row : QueryRow) :
    allAccept (fs ++ gs) row = (allAccept fs row && allAccept gs row) := by
  induction fs with
  | nil => rfl
  | cons f fs ih => rw [List.cons_append, allAccept, allAccept, ih, Bool.and_assoc]

namespace Query

/-- The query with a limit behind its pipes, if there is one. -/
def limited (q : Query) (limit : Option Nat) : Query :=
  { q with pipes := q.pipes ++ (limit.map Pipe.limit).toList }

theorem accepts_addFilter (q : Query) (f : Filter) (row : QueryRow) :
    (q.addFilter f).filter.accepts row = (q.filter.accepts row && f.accepts row) := by
  obtain ⟨filter, pipes⟩ := q
  -- a conjunction takes the filter in, any other filter becomes one side of a new conjunction
  cases filter with
  | all => rfl
  | and fs =>
    show Filter.allAccept (fs ++ [f]) row = (Filter.allAccept fs row && f.accepts row)
    rw [Filter.allAccept_append, Filter.allAccept, Filter.allAccept, Bool.and_true]
  | _ =>
    simp only [addFilter]
    rw [Filter.accepts, Filter.allAccept, Filter.allAccept, Filter.allAccept, Bool.and_true]

theorem accepts_foldl_addFilter (fs : List Filter) (q : Query) (row : QueryRow) :
    (fs.foldl addFilter q).filter.accepts row
      = (q.filter.accepts row && fs.all (·.accepts row)) := by
  induction fs generalizing q with
  | nil => exact (Bool.and_true _).symm
  | cons f fs ih =>
    rw [List.foldl_cons, ih, accepts_addFilter, List.all_cons, Bool.and_assoc]

/-- Bounds that leave out nothing are not added, and no stored row lies outside of them. -/
theorem accepts_addTimeRange (q : Query) (lo hi : Timestamp) (row : StoredRow) :
    (q.addTimeRange lo hi).filter.accepts (.ofStored row)
      = (q.filter.accepts (.ofStored row)
          && (decide (lo ≤ row.timestamp) && decide (row.timestamp ≤ hi))) := by
  unfold addTimeRange
  split
  · exact q.accepts_addFilter (.time lo hi) _
  · next h =>
    obtain ⟨rfl, rfl⟩ := not_or.1 h |>.imp not_not.1 not_not.1
    simp [Int64.minValue_le, Int64.le_maxValue]

theorem filter_of_mapLastStats? {q q' : Query} {f : StatsPipe → StatsPipe}
    (h : q.mapLastStats? f = some q') : q'.filter = q.filter := by
  obtain ⟨ps, -, rfl⟩ := Option.map_eq_some_iff.1 h
  rfl

end Query

/-! ## Scopes -/

/-- What the arguments of a search confine it to. -/
structure Scope where
  filters : List Filter
  start : Timestamp
  stop : Timestamp

namespace Scope

/-- Whether a stored row satisfies all filters and lies within the bounds. -/
def admits (scope : Scope) (row : StoredRow) : Bool :=
  scope.filters.all (·.accepts (.ofStored row))
    && (scope.start ≤ row.timestamp && row.timestamp ≤ scope.stop)

/-- The visible rows of a store that are within the scope, in search order. -/
def visible (scope : Scope) (s : Storage) : List StoredRow :=
  s.visibleRows.filter scope.admits

/-- The query narrowed to the scope. -/
def narrow (scope : Scope) (q : Query) : Query :=
  (scope.filters.foldl Query.addFilter q).addTimeRange scope.start scope.stop

/-- The filter of a text that is a query. -/
def readFilter (now : Timestamp) (text : String) : Except SearchError Filter := do
  return (← (Query.parse text now).mapError SearchError.parse).filter

/-- The scope that the arguments of a search name. -/
def ofArgs (args : Args) (now : Timestamp) : Except SearchError Scope := do
  let filters ← (args.values "extra_filters").mapM (readFilter now)
  let lo ← args.time? "start" now
  let hi ← args.time? "end" now
  return ⟨filters, lo.getD Int64.minValue, hi.getD Int64.maxValue⟩

/-- **A narrowed query accepts what the query accepts within the scope.** -/
theorem accepts_narrow (scope : Scope) (q : Query) (row : StoredRow) :
    (scope.narrow q).filter.accepts (.ofStored row)
      = (q.filter.accepts (.ofStored row) && scope.admits row) := by
  rw [narrow, Query.accepts_addTimeRange, Query.accepts_foldl_addFilter, Bool.and_assoc, admits]

/-- The extra filters of a request narrow its query one by one. -/
theorem foldlM_narrow {now : Timestamp} {texts : List String} {q q' : Query}
    (h : texts.foldlM (Args.narrow now) q = .ok q') :
    ∃ filters, texts.mapM (readFilter now) = .ok filters ∧
      q' = filters.foldl Query.addFilter q := by
  induction texts generalizing q with
  | nil =>
    cases h
    exact ⟨[], rfl, rfl⟩
  | cons text texts ih =>
    simp only [List.foldlM_cons, Args.narrow, bind, Except.bind] at h
    cases hparse : (Query.parse text now).mapError SearchError.parse with
    | error e =>
      rw [hparse] at h
      contradiction
    | ok other =>
      simp only [hparse] at h
      by_cases hpipes : other.pipes.isEmpty = true
      · simp only [if_pos hpipes, pure, Except.pure] at h
        obtain ⟨filters, hfilters, rfl⟩ := ih h
        refine ⟨other.filter :: filters, ?_, rfl⟩
        rw [List.mapM_cons, hfilters, readFilter, hparse]
        rfl
      · simp only [if_neg hpipes] at h
        contradiction

/-- The query of a request is some query, narrowed to the scope of the request. -/
theorem exists_narrow_eq {args : Args} {now : Timestamp} {q : Query} (h : args.query now = .ok q) :
    ∃ scope base, ofArgs args now = .ok scope ∧ q = scope.narrow base := by
  rw [Args.query] at h
  split at h
  · obtain ⟨base, -, h⟩ := exists_of_bind_eq_ok h
    obtain ⟨narrowed, hnarrowed, h⟩ := exists_of_bind_eq_ok h
    obtain ⟨lo, hlo, h⟩ := exists_of_bind_eq_ok h
    obtain ⟨hi, hhi, h⟩ := exists_of_bind_eq_ok h
    obtain ⟨filters, hfilters, rfl⟩ := foldlM_narrow hnarrowed
    cases h
    refine ⟨⟨filters, lo.getD Int64.minValue, hi.getD Int64.maxValue⟩, base, ?_, rfl⟩
    rw [ofArgs, hfilters, hlo, hhi]
    rfl
  · contradiction

/-! ## Confined queries -/

/-- The query accepts no stored row outside the scope. -/
def Confines (scope : Scope) (q : Query) : Prop :=
  ∀ row, q.filter.accepts (.ofStored row) = true → scope.admits row = true

theorem confines_narrow (scope : Scope) (q : Query) : scope.Confines (scope.narrow q) := by
  intro row h
  rw [accepts_narrow, Bool.and_eq_true] at h
  exact h.2

theorem Confines.of_filter_eq {scope : Scope} {q q' : Query} (h : scope.Confines q)
    (hfilter : q'.filter = q.filter) : scope.Confines q' :=
  fun row hrow => h row (hfilter ▸ hrow)

theorem Confines.addTimeRange {scope : Scope} {q : Query} (h : scope.Confines q)
    (lo hi : Timestamp) : scope.Confines (q.addTimeRange lo hi) := by
  intro row hrow
  rw [Query.accepts_addTimeRange, Bool.and_eq_true] at hrow
  exact h row hrow.1

/-- To a confined query, rows outside the scope are as good as none. -/
theorem Confines.selected_eq {scope : Scope} {q : Query} (h : scope.Confines q) (s : Storage) :
    q.selected s = q.reaching (scope.visible s) := by
  rw [q.selected_eq_reaching, Query.reaching, Query.reaching, visible, List.filterMap_filter]
  refine List.filterMap_congr fun row _ => ?_
  -- a row outside the scope is dropped on both sides
  by_cases hadmits : scope.admits row = true
  · rw [if_pos hadmits]
  · rw [if_neg hadmits]
    exact if_neg fun haccepts => hadmits (h row haccepts)

variable {scope : Scope} {ss ss' : List Storage} {replicas replicas' : Nat}

open Logbook.Topology (stores readFrom)

/-- Clusters that agree on the rows within the scope answer a confined query alike. -/
theorem Confines.exists_run {q : Query} (h : scope.Confines q)
    (hagree : (readFrom replicas ss).map scope.visible = (readFrom replicas' ss').map scope.visible)
    (timeout : Nat) :
    ∃ rows, (q.run (stores ss.length replicas) timeout).run.run ss = (.ok rows, ss) ∧
      (q.run (stores ss'.length replicas') timeout).run.run ss' = (.ok rows, ss') := by
  have hselected := congrArg (List.map q.reaching) hagree
  simp only [List.map_map, Function.comp_def, ← h.selected_eq] at hselected
  obtain ⟨rows, hrows⟩ := (Plan.ofQuery q).exists_finish ((readFrom replicas ss).map q.selected)
  refine ⟨rows, Query.run_stores ?_ timeout, Query.run_stores ?_ timeout⟩
  · rw [q.map_run_ofQuery, hrows]
  · rw [q.map_run_ofQuery, ← hselected, hrows]

/-! ## Searches -/

/-- The query of any search is that of its arguments, with more pipes or narrower still. -/
theorem confines_of_ofArgs {kind : SearchKind} {args : Args} {now : Timestamp} {timeout : Nat}
    {plan : SearchPlan} (h : SearchPlan.ofArgs kind args now timeout = .ok plan) :
    ∃ q, args.query now = .ok q ∧ ∀ scope, Confines scope q → scope.Confines plan.query := by
  -- each search reads its own arguments around those of its query
  cases kind with
  | rows =>
    obtain ⟨q, hq, h⟩ := exists_of_bind_eq_ok h
    obtain ⟨limit, -, h⟩ := exists_of_bind_eq_ok h
    obtain ⟨nanos, -, h⟩ := exists_of_bind_eq_ok h
    cases h
    exact ⟨q, hq, fun scope hscope => hscope.of_filter_eq rfl⟩
  | facets =>
    obtain ⟨q, hq, h⟩ := exists_of_bind_eq_ok h
    obtain ⟨limit, -, h⟩ := exists_of_bind_eq_ok h
    obtain ⟨values, -, h⟩ := exists_of_bind_eq_ok h
    obtain ⟨length, -, h⟩ := exists_of_bind_eq_ok h
    obtain ⟨nanos, -, h⟩ := exists_of_bind_eq_ok h
    cases h
    exact ⟨q, hq, fun scope hscope => hscope.of_filter_eq rfl⟩
  | statsAt =>
    obtain ⟨time, -, h⟩ := exists_of_bind_eq_ok h
    obtain ⟨q, hq, h⟩ := exists_of_bind_eq_ok h
    obtain ⟨l, -, h⟩ := exists_of_bind_eq_ok h
    obtain ⟨nanos, -, h⟩ := exists_of_bind_eq_ok h
    cases h
    exact ⟨q, hq, fun scope hscope => hscope.addTimeRange _ _⟩
  | statsOver =>
    obtain ⟨step, -, h⟩ := exists_of_bind_eq_ok h
    obtain ⟨q, hq, h⟩ := exists_of_bind_eq_ok h
    dsimp only at h
    split at h
    · next windowed hwindowed =>
      obtain ⟨l, -, h⟩ := exists_of_bind_eq_ok h
      obtain ⟨nanos, -, h⟩ := exists_of_bind_eq_ok h
      cases h
      refine ⟨q, hq, fun scope hscope =>
        Confines.of_filter_eq ?_ (Query.filter_of_mapLastStats? hwindowed)⟩
      split
      · exact hscope.addTimeRange _ _
      · exact hscope
    · contradiction

/-- **Rows outside the scope of a search have no influence on its answer.** Clusters that agree,
    shard by shard, on the visible rows within the scope come to the same rows, with or without a
    limit, and give the same response to a search of any kind. -/
theorem answers_agree {args : Args} {now : Timestamp} {q : Query} (hq : args.query now = .ok q) :
    ∃ scope, ofArgs args now = .ok scope ∧
      ∀ {ss ss' : List Storage} {replicas replicas' : Nat},
        (readFrom replicas ss).map scope.visible = (readFrom replicas' ss').map scope.visible →
        (∀ (limit : Option Nat) timeout, ∃ rows,
          ((q.limited limit).run (stores ss.length replicas) timeout).run.run ss = (.ok rows, ss) ∧
            ((q.limited limit).run (stores ss'.length replicas') timeout).run.run ss'
              = (.ok rows, ss')) ∧
        ∀ kind timeout plan, SearchPlan.ofArgs kind args now timeout = .ok plan → ∃ response,
          (plan.run (stores ss.length replicas)).run.run ss = (.ok response, ss) ∧
            (plan.run (stores ss'.length replicas')).run.run ss' = (.ok response, ss') := by
  obtain ⟨scope, base, hscope, rfl⟩ := exists_narrow_eq hq
  have hconfines := scope.confines_narrow base
  refine ⟨scope, hscope, fun hagree => ⟨fun limit timeout => ?_, ?_⟩⟩
  · have hlimited : scope.Confines ((scope.narrow base).limited limit) :=
      hconfines.of_filter_eq rfl
    exact hlimited.exists_run hagree timeout
  · intro kind timeout plan hplan
    obtain ⟨q, hq', hkeeps⟩ := confines_of_ofArgs hplan
    cases hq.symm.trans hq'
    obtain ⟨rows, hrun, hrun'⟩ := (hkeeps scope hconfines).exists_run hagree plan.timeout
    refine ⟨plan.render rows, ?_, ?_⟩
    · rw [SearchPlan.run, run_bind_of_ok hrun]
      rfl
    · rw [SearchPlan.run, run_bind_of_ok hrun']
      rfl

/-! ### Two tenants -/

/-- A line of an application that a tenant runs. -/
def sampleLine (t : Timestamp) (tenant app : String) : StoredRow :=
  .ofStream t (.ofFields [⟨"app", app⟩]) [⟨"app", app⟩, ⟨"tenant", tenant⟩, ⟨"_msg", "an error"⟩]

/-- A query of a tenant with the time from two to five seconds. Its own filter is a choice, which
    the extra filter must not end up inside of. -/
def sampleArgs : Args :=
  [("query", "error or warn | stats by (app) count() n | sort by (n) desc"),
    ("extra_filters", "tenant:a"), ("start", "1970-01-01T00:00:02Z"),
    ("end", "1970-01-01T00:00:05Z")]

/-- Two shards of one store each. Lines of another tenant and a late one are among those of the
    first tenant. -/
def sampleTenants : List Storage :=
  [{ (default : Storage) with visible :=
      [⟨[sampleLine 2000000000 "a" "web", sampleLine 4000000000 "b" "web",
          sampleLine 9000000000 "a" "db"], 2000000000, 9000000000, by decide, by decide⟩] },
    { (default : Storage) with visible :=
      [⟨[sampleLine 3000000000 "a" "db"], 3000000000, 3000000000, by decide, by decide⟩] }]

/-- Two shards of two stores each, with other lines of the other tenant. The second store of a shard
    is not read. -/
def sampleTenantsAlone : List Storage :=
  [{ (default : Storage) with visible :=
      [⟨[sampleLine 2000000000 "a" "web"], 2000000000, 2000000000, by decide, by decide⟩] },
    default,
    { (default : Storage) with visible :=
      [⟨[sampleLine 2000000000 "b" "db"], 2000000000, 2000000000, by decide, by decide⟩,
        ⟨[sampleLine 3000000000 "a" "db"], 3000000000, 3000000000, by decide, by decide⟩] },
    default]

theorem other_tenant_hidden :
    ∃ q, sampleArgs.query 0 = .ok q ∧
      (∃ rows, ((q.limited (some 1)).run (stores 2 1) 0).run.run sampleTenants
          = (.ok rows, sampleTenants) ∧
        ((q.limited (some 1)).run (stores 4 2) 0).run.run sampleTenantsAlone
          = (.ok rows, sampleTenantsAlone)) ∧
      ∃ plan, SearchPlan.ofArgs .facets sampleArgs 0 0 = .ok plan ∧ ∃ response,
        (plan.run (stores 2 1)).run.run sampleTenants = (.ok response, sampleTenants) ∧
          (plan.run (stores 4 2)).run.run sampleTenantsAlone
            = (.ok response, sampleTenantsAlone) := by
  have hok : ∀ {α : Type} {x : Except SearchError α}, x.isOk = true → ∃ a, x = .ok a := by
    intro α x h
    cases x with
    | error e => contradiction
    | ok a => exact ⟨a, rfl⟩
  obtain ⟨q, hq⟩ := hok (x := sampleArgs.query 0) (by decide +kernel)
  obtain ⟨plan, hplan⟩ := hok (x := SearchPlan.ofArgs .facets sampleArgs 0 0) (by decide +kernel)
  obtain ⟨scope, hscope, hagree⟩ := answers_agree hq
  have hvisible : ((ofArgs sampleArgs 0).toOption.map fun scope =>
      decide ((readFrom 1 sampleTenants).map scope.visible
        = (readFrom 2 sampleTenantsAlone).map scope.visible)) = some true := by
    decide +kernel
  rw [hscope] at hvisible
  obtain ⟨hrows, hsearch⟩ := hagree (of_decide_eq_true (Option.some.inj hvisible))
  exact ⟨q, hq, hrows (some 1) 0, plan, hplan, hsearch .facets 0 plan hplan⟩

end Scope

end Logbook
