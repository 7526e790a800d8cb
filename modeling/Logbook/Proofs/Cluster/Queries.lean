import Mathlib.Data.List.GetD
import Logbook.Proofs.Cluster.Topology
import Logbook.Proofs.Query.MergeTrees
import Logbook.Search.Run

set_option autoImplicit false

/-! # Queries to a topology of stores

A query reads one store of every shard (`Topology.readFrom`) and changes none. What it answers is
told by the partial results of those stores (`Query.run_stores`), and partial results that one
query has collected never fail to merge (`Plan.exists_finish`): a query to stores has an answer
whatever rows they hold. -/

namespace Logbook

/-! ## The stores that are read -/

/-- The first elements of all groups, by index. -/
theorem filterMap_head?_chunks {α : Type} {n : Nat} (hn : n ≠ 0) (xs : List α) (d : α) :
    (chunks n xs).filterMap List.head?
      = (List.range (chunks n xs).length).map fun i => xs.getD (i * n) d := by
  induction hlen : xs.length using Nat.strongRecOn generalizing xs with
  | ind len ih =>
    rw [chunks]
    split
    · rfl
    · next h =>
      obtain ⟨-, hne⟩ := not_or.1 h
      have hpos := List.length_pos_iff.2 hne
      have hrest := ih (xs.drop n).length (by simp only [List.length_drop]; omega) (xs.drop n) rfl
      have hfirst : (xs.take n).head? = some (xs.getD (0 * n) d) := by
        cases xs with
        | nil => exact absurd rfl hne
        | cons x xs =>
          cases n with
          | zero => exact absurd rfl hn
          | succ n => simp
      rw [List.filterMap_cons_some hfirst, hrest, List.length_cons, List.range_succ_eq_map,
        List.map_cons, List.map_map]
      refine congrArg _ (List.map_congr_left fun i _ => ?_)
      rw [Function.comp_apply, List.getD_eq_getElem?_getD, List.getD_eq_getElem?_getD,
        List.getElem?_drop, Nat.succ_mul, Nat.add_comm]

/-- Calls that only look at the state leave it as it is and give what each of them gives. -/
theorem run_mapM_of_reads {ε σ α β : Type} {xs : List α} {call : α → ExceptT ε (StateM σ) β}
    {result : α → β} {s : σ} (h : ∀ x ∈ xs, (call x).run.run s = (.ok (result x), s)) :
    (xs.mapM call).run.run s = (.ok (xs.map result), s) := by
  induction xs with
  | nil => rfl
  | cons x xs ih =>
    have hx := h x List.mem_cons_self
    have hxs := ih fun y hy => h y (List.mem_cons_of_mem x hy)
    rw [List.mapM_cons, run_bind_of_ok hx, run_bind_of_ok hxs]
    rfl

namespace Topology

/-- The stores that queries read: the first of every shard. -/
def readFrom (replicas : Nat) (ss : List Storage) : List Storage :=
  (chunks (max 1 replicas) ss).filterMap List.head?

theorem length_shards_eq (ss : List Storage) (replicas : Nat) :
    (stores ss.length replicas).shards.length = (chunks (max 1 replicas) ss).length := by
  refine eq_of_forall_lt_iff fun i => ?_
  rw [lt_length_shards, lt_length_chunks (by omega)]

/-- The stores that are read, by the numbers of their shards. -/
theorem readFrom_eq (replicas : Nat) (ss : List Storage) :
    readFrom replicas ss = (List.range (stores ss.length replicas).shards.length).map fun i =>
      ss.getD (i * max 1 replicas) default := by
  rw [readFrom, filterMap_head?_chunks (by omega) ss default, length_shards_eq]

/-- The first nodes of all shards, by the numbers of the shards. -/
theorem filterMap_head?_shards (n replicas : Nat) :
    (stores n replicas).shards.filterMap List.head?
      = (List.range (stores n replicas).shards.length).map fun i =>
          .ofStore (.at (i * max 1 replicas)) := by
  rw [stores, ofBackends, filterMap_head?_chunks (by omega) _ (.ofStore (.at 0))]
  refine List.map_congr_left fun i hi => ?_
  have hi := (lt_length_chunks (by omega) ..).1 (List.mem_range.1 hi)
  rw [List.getD_eq_getElem _ _ hi, List.getElem_map, List.getElem_range]

/-- Each of the stores that are read runs the remote part of the query. -/
theorem run_query (ss : List Storage) (replicas : Nat) (q : RemoteQuery) :
    ((stores ss.length replicas).query q).run.run ss
      = (.ok ((readFrom replicas ss).map fun s => some (q.run s)), ss) := by
  rw [query, filterMap_head?_shards, List.mapM_map, readFrom_eq, List.map_map]
  exact run_mapM_of_reads fun i _ => rfl

end Topology

/-! ## Merging always succeeds -/

/-- **What one remote query collects can be merged**, whatever rows it collects it from. -/
theorem Plan.exists_finish (p : Plan) (lists : List (List QueryRow)) :
    ∃ rows, p.finish (lists.map p.remote.collect) = .ok rows := by
  obtain ⟨⟨filter, before, terminal, lo, hi⟩, locals⟩ := p
  cases terminal with
  | none => exact ⟨_, finish_rowLocal (by rintro p ⟨⟩) locals lists⟩
  | some pipe =>
    cases pipe with
    | stats s =>
      obtain ⟨groups, h, -⟩ := (PartialStats.aggregateOf_ofRows s []).exists_mergeStats lists
      have hmerge := congrArg (Except.map (PartialStats.finalize · s)) h
      exact ⟨_, congrArg (Except.map (Pipe.applyAll locals)) hmerge⟩
    | facets f =>
      have hmerge := congrArg (Except.map (PartialFacets.finalize · f))
        (PartialResult.mergeFacets_map f lists [])
      exact ⟨_, congrArg (Except.map (Pipe.applyAll locals)) hmerge⟩
    | sort s => exact ⟨_, finish_sort rfl locals lists⟩
    | limit n => exact ⟨_, finish_limit rfl locals lists⟩
    | filter condition => exact ⟨_, finish_rowLocal (by rintro p ⟨⟩; rfl) locals lists⟩
    | fields names => exact ⟨_, finish_rowLocal (by rintro p ⟨⟩; rfl) locals lists⟩

/-! ## Answers -/

namespace Query

open Logbook.Topology (stores readFrom)

theorem mapM_id_map_some {α β : Type} (f : α → β) (xs : List α) :
    (xs.map fun x => some (f x)).mapM id = some (xs.map f) := by
  induction xs with
  | nil => rfl
  | cons x xs ih =>
    rw [List.map_cons, List.mapM_cons, ih]
    rfl

/-- A query leaves the stores as they are and answers what their partial results come to. -/
theorem run_stores {q : Query} {ss : List Storage} {replicas : Nat} {rows : List QueryRow}
    (h : (Plan.ofQuery q).finish ((readFrom replicas ss).map (Plan.ofQuery q).remote.run)
      = .ok rows) (timeout : Nat) :
    (q.run (stores ss.length replicas) timeout).run.run ss = (.ok rows, ss) := by
  have hquery := Topology.run_query ss replicas (Plan.ofQuery q).remote
  have hcall : (liftCall ((stores ss.length replicas).query (Plan.ofQuery q).remote)).run.run ss
      = (.ok ((readFrom replicas ss).map fun s => some ((Plan.ofQuery q).remote.run s)), ss) := by
    rw [liftCall, ExceptT.run_adapt, StateT.run_map]
    exact congrArg (fun p => (Except.mapError SearchError.node p.1, p.2)) hquery
  have hconclude : conclude (Plan.ofQuery q) timeout
      ((readFrom replicas ss).map fun s => some ((Plan.ofQuery q).remote.run s)) = .ok rows := by
    rw [conclude, gather, mapM_id_map_some]
    simp only [bind, Except.bind, h]
  rw [run, run_bind_of_ok hcall, hconclude]
  rfl

end Query

end Logbook
