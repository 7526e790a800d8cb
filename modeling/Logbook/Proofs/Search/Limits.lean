import Logbook.Proofs.Search.Confinement

set_option autoImplicit false

/-! # Limits behind a query

A limit behind the pipes of a query is pushed down: the stores cut their rows, the merge cuts them
again, and so do the pipes that run over the merged rows. None of this is seen in the answer, which
is the first rows of the answer without the limit (**`Query.run_limited`**). Nothing is asked of the
comparison of a sort: lists of rows merge alike as far as the limit reaches, whether they are cut or
not. -/

namespace Logbook

namespace Plan

/-! ## Splitting pipes with a limit behind them -/

/-- Pipes that are put behind others run over the merged rows and change nothing before them, if the
    first of the others is no sort at the end. -/
theorem splitTerminal_append {p : Pipe} {rest : List Pipe} (h : ∀ s, p = .sort s → rest ≠ [])
    (behind : List Pipe) :
    splitTerminal (p :: rest ++ behind)
      = ((splitTerminal (p :: rest)).1, (splitTerminal (p :: rest)).2 ++ behind) := by
  cases p with
  | sort s =>
    cases rest with
    | nil => exact absurd rfl (h s rfl)
    | cons q rest => cases q <;> rfl
  | _ => rfl

theorem finish_append {remote : RemoteQuery} {locals : List Pipe} {partials : List PartialResult}
    {rows : List QueryRow} (h : finish ⟨remote, locals⟩ partials = .ok rows) (behind : List Pipe) :
    finish ⟨remote, locals ++ behind⟩ partials = .ok (Pipe.applyAll behind rows) := by
  obtain ⟨merged, hmerged, hrows⟩ := exists_of_bind_eq_ok h
  cases hrows
  rw [finish, hmerged]
  exact congrArg Except.ok (Pipe.applyAll_append locals behind merged)

/-- A sort that is cut to the limit behind it gives the first rows of the sort alone. -/
theorem take_merge_pushLimit (s : SortPipe) (n : Nat) (lists : List (List QueryRow)) :
    ((pushLimit s [.limit n]).merge (lists.map (pushLimit s [.limit n]).apply)).take n
      = (s.merge (lists.map s.apply)).take n := by
  have hsorted := SortPipe.mergeSorted_congr (compareRows_pushLimit s [.limit n]) lists
  rw [SortPipe.merge_map_apply_eq_truncate, SortPipe.merge_map_apply_eq_truncate, hsorted,
    take_truncate_pushLimit]

/-- Of whatever lists of rows the stores select, the pipes with a limit behind them give the first
    rows of what the pipes give. -/
theorem finish_limited (pipes : List Pipe) {n : Nat} {remote remote' : RemoteQuery}
    {locals locals' : List Pipe} {lists : List (List QueryRow)} {rows : List QueryRow}
    (hsplit : splitTerminal pipes = (remote.terminal, locals))
    (hsplit' : splitTerminal (pipes ++ [.limit n]) = (remote'.terminal, locals'))
    (h : finish ⟨remote, locals⟩ (lists.map remote.collect) = .ok rows) :
    finish ⟨remote', locals'⟩ (lists.map remote'.collect) = .ok (rows.take n) := by
  obtain ⟨filter, before, terminal, lo, hi⟩ := remote
  obtain ⟨filter', before', terminal', lo', hi'⟩ := remote'
  cases pipes with
  | nil =>
    -- the limit is the only pipe that looks at all rows together
    cases hsplit
    cases hsplit'
    rw [finish_rowLocal (by rintro p ⟨⟩)] at h
    cases h
    rw [finish_limit rfl]
    exact congrArg Except.ok (take_flatten_map_take (Nat.le_refl n) lists)
  | cons p rest =>
    by_cases hlast : ∃ s, p = .sort s ∧ rest = []
    · -- the limit cuts the sort
      obtain ⟨s, rfl, rfl⟩ := hlast
      cases hsplit
      cases hsplit'
      rw [finish_sort rfl] at h
      cases h
      rw [finish_sort rfl]
      exact congrArg Except.ok (take_merge_pushLimit s n lists)
    · rw [splitTerminal_append fun s hp hrest => hlast ⟨s, hp, hrest⟩, hsplit] at hsplit'
      cases hsplit'
      exact finish_append h [.limit n]

end Plan

namespace Query

/-! ## Limited queries -/

theorem rowLocal_limited (q : Query) (n : Nat) : (q.limited (some n)).rowLocal = q.rowLocal := by
  obtain ⟨filter, pipes⟩ := q
  show (pipes ++ [Pipe.limit n]).takeWhile Pipe.isRowLocal = pipes.takeWhile Pipe.isRowLocal
  induction pipes with
  | nil => rfl
  | cons p pipes ih => rw [List.cons_append, List.takeWhile_cons, List.takeWhile_cons, ih]

theorem gathering_limited (q : Query) (n : Nat) :
    (q.limited (some n)).gathering = q.gathering ++ [.limit n] := by
  obtain ⟨filter, pipes⟩ := q
  show (pipes ++ [Pipe.limit n]).dropWhile Pipe.isRowLocal
    = pipes.dropWhile Pipe.isRowLocal ++ [Pipe.limit n]
  induction pipes with
  | nil => rfl
  | cons p pipes ih =>
    rw [List.cons_append, List.dropWhile_cons, List.dropWhile_cons]
    by_cases hp : p.isRowLocal = true
    · rw [if_pos hp, if_pos hp, ih]
    · rw [if_neg hp, if_neg hp]
      rfl

theorem selected_limited (q : Query) (n : Nat) : (q.limited (some n)).selected = q.selected := by
  funext s
  rw [selected, selected, rowLocal_limited]
  rfl

open Logbook.Topology (stores readFrom)

/-- **A limit behind a query takes the first rows of its answer**, whatever its pipes are and
    however its rows compare. -/
theorem run_limited (q : Query) (n : Nat) (ss : List Storage) (replicas timeout : Nat) :
    ∃ rows, (q.run (stores ss.length replicas) timeout).run.run ss = (.ok rows, ss) ∧
      ((q.limited (some n)).run (stores ss.length replicas) timeout).run.run ss
        = (.ok (rows.take n), ss) := by
  obtain ⟨rows, hrows⟩ := (Plan.ofQuery q).exists_finish ((readFrom replicas ss).map q.selected)
  refine ⟨rows, run_stores ?_ timeout, run_stores ?_ timeout⟩
  · rw [q.map_run_ofQuery, hrows]
  · rw [map_run_ofQuery, selected_limited]
    refine Plan.finish_limited q.gathering rfl ?_ hrows
    rw [← gathering_limited]
    rfl

end Query

end Logbook
