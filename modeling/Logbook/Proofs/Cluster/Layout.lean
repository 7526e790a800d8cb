import Logbook.Proofs.Cluster.Queries
import Logbook.Proofs.Query.AnyOrder

set_option autoImplicit false

/-! # Answers do not depend on how rows are laid out

Writes deal rows out to shards, and flushes sort them into parts and merge these. What is left of
all of it is which rows a store holds: those of its shard, in some order (`Topology.Dealt`). The
stores that a query reads, one of every shard, hold each row once, so that a query whose results do
not depend on the order of rows has one answer over every cluster that has been fed the same rows
(`Topology.answers_ignore_layout`). -/

namespace Logbook

/-! ## Shares -/

/-- Sorting elements by their numbers below a bound loses only those that have no such number. -/
theorem flatMap_range_filter_perm {α : Type} (f : α → Nat) (xs : List α) (n : Nat) :
    ((List.range n).flatMap fun i => xs.filter (f · == i)).Perm (xs.filter (f · < n)) := by
  induction n with
  | zero => simp
  | succ n ih =>
    have hbelow : (xs.filter (f · < n + 1)).filter (f · < n) = xs.filter (f · < n) := by
      rw [List.filter_filter]
      exact List.filter_congr fun x _ => by simp; omega
    have hlast : (xs.filter (f · < n + 1)).filter (fun x => !decide (f x < n))
        = xs.filter (f · == n) := by
      rw [List.filter_filter]
      exact List.filter_congr fun x _ => by
        rw [Bool.eq_iff_iff]
        simp
        omega
    have hsplit := List.filter_append_perm (fun x => decide (f x < n)) (xs.filter (f · < n + 1))
    rw [hbelow, hlast] at hsplit
    rw [List.range_succ, List.flatMap_append, List.flatMap_singleton]
    exact (ih.append_right _).trans hsplit

namespace Storage

/-- No row in memory has expired. -/
def Unexpired (s : Storage) (now : Timestamp) : Prop :=
  ∀ row ∈ s.held, cutoff now s.config.retention ≤ row.timestamp

instance (s : Storage) (now : Timestamp) : Decidable (s.Unexpired now) :=
  inferInstanceAs (Decidable (∀ row ∈ s.held, _))

/-- A flush only moves rows that have not expired. -/
theorem held_flush_perm {s : Storage} {now : Timestamp} (h : s.Unexpired now) :
    (s.flush now).1.held.Perm s.held := by
  rw [held_flush]
  exact flatMap_flushedParts_perm h

end Storage

namespace Topology

/-- The shares of all shards are the rows. -/
theorem flatMap_share_perm {n : Nat} (hn : 0 < n) (rows : List StoredRow) :
    ((List.range n).flatMap fun i => share n i rows).Perm rows := by
  have hall : rows.filter (fun row => decide (row.streamId.shard n < n)) = rows :=
    List.filter_eq_self.2 fun row _ => decide_eq_true (Nat.mod_lt _ hn)
  have hperm := flatMap_range_filter_perm (fun row : StoredRow => row.streamId.shard n) rows n
  rwa [hall] at hperm

/-! ## Clusters that are fed -/

variable {replicas : Nat} {rows : List StoredRow} {ss : List Storage}

/-- Stores that held nothing at first and have been fed rows since, by writes that succeeded. Any
    store may have been flushed at any time at which none of its rows had expired. -/
inductive Fed (replicas : Nat) : List StoredRow → List Storage → Prop
  | start {ss : List Storage} (hne : ss ≠ []) (hempty : ∀ s ∈ ss, s.held = []) : Fed replicas [] ss
  | write {rows batch : List StoredRow} {ss ss' : List Storage} (h : Fed replicas rows ss)
      (hwrite : ((stores ss.length replicas).write batch).run.run ss = (.ok (), ss')) :
      Fed replicas (rows ++ batch) ss'
  /-- Of the stores, the one at `k` is flushed. -/
  | flush {rows : List StoredRow} {ss ss' : List Storage} (h : Fed replicas rows ss) {k : Nat}
      {now : Timestamp} (hunexpired : (ss.getD k default).Unexpired now)
      (hflush : ((Backend.ofStore (.at k)).flush now).run.run ss = (.ok (), ss')) :
      Fed replicas rows ss'

/-- Stores that have been fed rows and flushed at the end, no row having expired. -/
def Settled (replicas : Nat) (rows : List StoredRow) (ss : List Storage) : Prop :=
  ∃ fed now, Fed replicas rows fed ∧ (∀ s ∈ fed, s.Unexpired now) ∧
    ((stores fed.length replicas).flush now).run.run fed = (.ok (), ss)

/-- Every store holds the rows of its shard, in some order. -/
structure Dealt (replicas : Nat) (rows : List StoredRow) (ss : List Storage) : Prop where
  nonempty : ss ≠ []
  held : ∀ k (hk : k < ss.length), ss[k].held.Perm
    (share (stores ss.length replicas).shards.length (k / max 1 replicas) rows)

/-- It does not matter how stores hold their rows. -/
theorem Dealt.of_held {ss' : List Storage} (h : Dealt replicas rows ss)
    (hlength : ss'.length = ss.length)
    (hheld : ∀ k (hk : k < ss.length) (hk' : k < ss'.length), ss'[k].held.Perm ss[k].held) :
    Dealt replicas rows ss' where
  nonempty hnil := h.nonempty (List.length_eq_zero_iff.1 (hlength ▸ hnil ▸ rfl))
  held k hk := by
    rw [hlength]
    have hk' := hlength ▸ hk
    exact (hheld k hk' hk).trans (h.held k hk')

theorem Dealt.written (h : Dealt replicas rows ss) (batch : List StoredRow) :
    Dealt replicas (rows ++ batch) (written replicas batch ss) where
  nonempty := by simpa [Topology.written] using h.nonempty
  held k hk := by
    have hlength : (Topology.written replicas batch ss).length = ss.length := List.length_mapIdx
    have hshare : ∀ n i, share n i (rows ++ batch) = share n i rows ++ share n i batch :=
      fun n i => List.filter_append ..
    rw [hlength, hshare]
    simp only [Topology.written, List.getElem_mapIdx, Storage.held_withRows]
    exact (h.held k (hlength ▸ hk)).append_right _

/-- Through all writes and flushes every store holds the rows of its shard. -/
theorem Fed.dealt (h : Fed replicas rows ss) : Dealt replicas rows ss := by
  induction h with
  | start hne hempty =>
    refine ⟨hne, fun k hk => ?_⟩
    rw [hempty _ (List.getElem_mem hk)]
    exact List.Perm.refl _
  | write _ hwrite ih =>
    rw [eq_written_of_run_write hwrite]
    exact ih.written _
  | @flush rows ss ss' _ k now hunexpired hflush ih =>
    have hset : ss' = ss.set k ((ss.getD k default).flush now).1 :=
      (congrArg Prod.snd hflush).symm
    subst hset
    refine ih.of_held List.length_set fun i hi _ => ?_
    rw [List.getElem_set]
    -- the rows of the flushed store move, those of the others stay
    split
    · next hki =>
      subst hki
      rw [← List.getD_eq_getElem ss default hi]
      exact Storage.held_flush_perm hunexpired
    · exact List.Perm.refl _

/-- Nothing in memory has expired if none of the rows that were fed has. -/
theorem Fed.unexpired (h : Fed replicas rows ss) {now : Timestamp}
    (hrows : ∀ s ∈ ss, ∀ row ∈ rows, Storage.cutoff now s.config.retention ≤ row.timestamp) :
    ∀ s ∈ ss, s.Unexpired now := by
  intro s hs row hrow
  obtain ⟨k, hk, rfl⟩ := List.getElem_of_mem hs
  have hshare := ((h.dealt.held k hk).mem_iff).1 hrow
  exact hrows _ hs row (List.mem_of_mem_filter hshare)

/-- Once nothing waits to become visible, the stores that are read show each row once. -/
theorem Dealt.visibleRows_perm (h : Dealt replicas rows ss)
    (hpending : ∀ s ∈ ss, s.pending = []) :
    ((readFrom replicas ss).flatMap Storage.visibleRows).Perm rows := by
  have hshards : 0 < (stores ss.length replicas).shards.length := by
    rw [lt_length_shards, Nat.zero_mul]
    exact List.length_pos_iff.2 h.nonempty
  refine List.Perm.trans ?_ (flatMap_share_perm hshards rows)
  rw [readFrom_eq, List.flatMap_map]
  refine List.Perm.flatMap_left _ fun i hi => ?_
  -- the store that is read for shard `i` is the first of that shard
  have hk := (lt_length_shards ..).1 (List.mem_range.1 hi)
  have hheld := h.held _ hk
  rw [Nat.mul_div_cancel _ (by omega), Storage.held, hpending _ (List.getElem_mem hk),
    List.append_nil] at hheld
  rwa [List.getD_eq_getElem ss default hk]

theorem Settled.visibleRows_perm (h : Settled replicas rows ss) :
    ((readFrom replicas ss).flatMap Storage.visibleRows).Perm rows := by
  obtain ⟨fed, now, hfed, hunexpired, hflush⟩ := h
  rw [run_flush] at hflush
  cases hflush
  have hdealt : Dealt replicas rows (fed.map fun s => (s.flush now).1) := by
    refine hfed.dealt.of_held (List.length_map _) fun k hk _ => ?_
    rw [List.getElem_map]
    exact Storage.held_flush_perm (hunexpired _ (List.getElem_mem hk))
  refine hdealt.visibleRows_perm fun s hs => ?_
  obtain ⟨s, -, rfl⟩ := List.mem_map.1 hs
  rfl

/-! ## Answers -/

/-- What settled stores answer is told by the rows that they were fed, in any order. -/
theorem Settled.run_query (h : Settled replicas rows ss) {q : Query} {p : Pipe}
    (hfirst : q.gathering.head? = some p) {reaching : List QueryRow}
    (hp : p.IgnoresOrderOf reaching) (hreaching : (q.reaching rows).Perm reaching) (timeout : Nat) :
    (q.run (stores ss.length replicas) timeout).run.run ss
      = (.ok (Pipe.applyAll q.gathering reaching), ss) := by
  have hselected : ((readFrom replicas ss).flatMap q.selected).Perm (q.reaching rows) := by
    have hreach := h.visibleRows_perm.filterMap (Plan.ofQuery q).remote.select?
    rw [List.filterMap_flatMap] at hreach
    rwa [funext q.selected_eq_reaching]
  exact Query.run_stores (Query.finish_perm hfirst hp (hselected.trans hreaching)) timeout

/-- **The answer of a query with statistics or facets does not depend on the layout of the rows.**
    Clusters of any numbers of shards and replicas, fed the same rows in any batches and any order
    and flushed whenever, give the same rows. Sums, averages and extremes ask that the operation
    behind them is associative and commutative on the numbers that occur. -/
theorem answers_ignore_layout {replicas' : Nat} {rows' : List StoredRow} {ss' : List Storage}
    (h : Settled replicas rows ss) (h' : Settled replicas' rows' ss') (hrows : rows'.Perm rows)
    {q : Query} {p : Pipe} (hfirst : q.gathering.head? = some p)
    (hp : p.IgnoresOrderOf (q.reaching rows)) (timeout : Nat) :
    ∃ answer, (q.run (stores ss.length replicas) timeout).run.run ss = (.ok answer, ss) ∧
      (q.run (stores ss'.length replicas') timeout).run.run ss' = (.ok answer, ss') :=
  ⟨_, h.run_query hfirst hp (List.Perm.refl _) timeout,
    h'.run_query hfirst hp (hrows.filterMap _) timeout⟩

/-! ### Two layouts of three rows -/

def sampleRows : List StoredRow :=
  [sampleMetric 1 "a" "7", sampleMetric 2 "b" "1.5", sampleMetric 3 "c" ""]

/-- Two shards of one store, of which the first is flushed between two writes. -/
def sampleFed : List Storage :=
  let once := written 1 (sampleRows.take 2) [default, default]
  written 1 (sampleRows.drop 2) (once.set 0 ((once.getD 0 default).flush 0).1)

/-- A shard of two stores and one of a single store, fed all rows at once in another order. -/
def sampleFedReversed : List Storage :=
  written 2 sampleRows.reverse [default, default, default]

/-- The distinct applications, the sum and the greatest number of the rows that have a number. -/
def sampleTotals : StatsPipe :=
  ⟨[], [⟨.countUniq, ["app"], "apps"⟩, ⟨.sum, ["n"], "total"⟩, ⟨.max, ["n"], "most"⟩]⟩

def sampleTotalsQuery : Query where
  filter := .not (.exact "n" "")
  pipes := [.fields ["app", "n"], .stats sampleTotals, .limit 1]

theorem totals_over_two_layouts :
    ∃ ss ss', Settled 1 sampleRows ss ∧ Settled 2 sampleRows.reverse ss' ∧
      ∃ answer, (sampleTotalsQuery.run (stores ss.length 1) 0).run.run ss = (.ok answer, ss) ∧
        (sampleTotalsQuery.run (stores ss'.length 2) 0).run.run ss' = (.ok answer, ss') := by
  have hstart : ∀ replicas n, n ≠ 0 → Fed replicas [] (List.replicate n default) := by
    intro replicas n hn
    refine .start (by simpa using hn) fun s hs => ?_
    rw [(List.mem_replicate.1 hs).2]
    rfl
  have honce : Fed 1 (sampleRows.take 2) (written 1 (sampleRows.take 2) [default, default]) :=
    (hstart 1 2 two_ne_zero).write (run_write (by decide +kernel) (by decide +kernel))
  have hunexpired : Storage.Unexpired
      ((written 1 (sampleRows.take 2) [default, default]).getD 0 default) 0 := by
    decide +kernel
  have hfed : Fed 1 sampleRows sampleFed :=
    (honce.flush hunexpired rfl).write (run_write (by decide +kernel) (by decide +kernel))
  have hfed' : Fed 2 sampleRows.reverse sampleFedReversed :=
    (hstart 2 3 three_ne_zero).write (run_write (by decide +kernel) (by decide +kernel))
  have hsettled : Settled 1 sampleRows _ :=
    ⟨sampleFed, 0, hfed, hfed.unexpired (by decide +kernel), run_flush ..⟩
  have hsettled' : Settled 2 sampleRows.reverse _ :=
    ⟨sampleFedReversed, 0, hfed', hfed'.unexpired (by decide +kernel), run_flush ..⟩
  have hlaws : ∀ f ∈ sampleTotals.funcs,
      f.LawfulInAnyOrder (sampleTotalsQuery.reaching sampleRows) ∧ f.LawfulInAnyOrder [] := by
    decide +kernel
  have hignores : (Pipe.stats sampleTotals).IgnoresOrderOf
      (sampleTotalsQuery.reaching sampleRows) := by
    intro f hf key
    -- there is one group
    by_cases hkey : [] = key
    · have hall : PartialStats.groupRows sampleTotals key (sampleTotalsQuery.reaching sampleRows)
          = sampleTotalsQuery.reaching sampleRows :=
        List.filter_eq_self.2 fun _ _ => beq_iff_eq.2 hkey
      rw [hall]
      exact (hlaws f hf).1
    · have hnone : PartialStats.groupRows sampleTotals key (sampleTotalsQuery.reaching sampleRows)
          = [] :=
        List.filter_eq_nil_iff.2 fun _ _ heq => hkey (beq_iff_eq.1 heq)
      rw [hnone]
      exact (hlaws f hf).2
  have hfirst : sampleTotalsQuery.gathering.head? = some (.stats sampleTotals) := rfl
  exact ⟨_, _, hsettled, hsettled', answers_ignore_layout hsettled hsettled'
    (List.reverse_perm _) hfirst hignores 0⟩

end Topology

end Logbook
