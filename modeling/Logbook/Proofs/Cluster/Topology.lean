import Logbook.Cluster.Topology
import Logbook.Proofs.Storage.Operations

set_option autoImplicit false

/-! # What a topology of stores does

Asking the stores of a topology whether they take writes changes none of them
(`Topology.run_canWrite`). A write comes to every store at most once, so what a store answered when
it was asked still holds when its turn comes: if all stores take writes, each of them ends up with
the rows of its shard (`Topology.run_write`). However a write came to succeed, that is what it has
done (`Topology.eq_written_of_run_write`). A flush always succeeds (`Topology.run_flush`). -/

namespace Logbook

/-! ## Groups -/

/-- An element is in the group that its index picks. -/
theorem flatMap_zipIdx_chunks {α : Type} {n : Nat} (hn : n ≠ 0) (xs : List α) (i : Nat) :
    ((chunks n xs).zipIdx i).flatMap (fun (group, i) => group.map (·, i))
      = xs.mapIdx fun k x => (x, i + k / n) := by
  induction hlen : xs.length using Nat.strongRecOn generalizing xs i with
  | ind len ih =>
    rw [chunks]
    split
    · next h => simp [h.resolve_left hn]
    · next h =>
      have hpos := List.length_pos_iff.2 fun e => h (Or.inr e)
      have hrest := ih (xs.drop n).length (by simp only [List.length_drop]; omega)
        (xs.drop n) (i + 1) rfl
      have hsplit : xs = xs.take n ++ xs.drop n := (List.take_append_drop n xs).symm
      rw [List.zipIdx_cons, List.flatMap_cons, hrest]
      conv => rhs; rw [hsplit]
      rw [List.mapIdx_append]
      congr 1
      -- the elements of the first group, then those behind them
      · apply List.ext_getElem (by simp)
        intro k h1 h2
        have hk : k < n := by simp at h1; omega
        simp [Nat.div_eq_of_lt hk]
      · apply List.ext_getElem (by simp)
        intro k h1 h2
        have hfull : (xs.take n).length = n := by simp at h1 ⊢; omega
        have hdiv : (k + n) / n = k / n + 1 := Nat.add_div_right k (Nat.pos_of_ne_zero hn)
        simp [hfull, hdiv, Nat.add_assoc, Nat.add_comm 1]

/-- There are as many groups as it takes. -/
theorem lt_length_chunks {α : Type} {n : Nat} (hn : n ≠ 0) (xs : List α) (i : Nat) :
    i < (chunks n xs).length ↔ i * n < xs.length := by
  induction i generalizing xs with
  | zero =>
    rw [chunks]
    split
    · next h => simp [h.resolve_left hn]
    · next h => simpa using List.length_pos_iff.2 fun e => h (Or.inr e)
  | succ i ih =>
    rw [chunks]
    split
    · next h => simp [h.resolve_left hn]
    · rw [List.length_cons, Nat.succ_lt_succ_iff, ih, List.length_drop, Nat.succ_mul]
      omega

/-! ## Rounds of calls -/

section Rounds

variable {ε σ α β : Type}

theorem run_bind_of_ok {x : ExceptT ε (StateM σ) α} {f : α → ExceptT ε (StateM σ) β} {s s' : σ}
    {a : α} (h : x.run.run s = (.ok a, s')) : (x >>= f).run.run s = (f a).run.run s' := by
  rw [ExceptT.run_bind, StateT.run_bind, h]
  rfl

theorem run_bind_of_error {x : ExceptT ε (StateM σ) α} {f : α → ExceptT ε (StateM σ) β} {s s' : σ}
    {e : ε} (h : x.run.run s = (.error e, s')) : (x >>= f).run.run s = (.error e, s') := by
  rw [ExceptT.run_bind, StateT.run_bind, h]
  rfl

/-- What succeeds has succeeded step by step. -/
theorem exists_of_bind_eq_ok {x : Except ε α} {f : α → Except ε β} {b : β}
    (h : x >>= f = .ok b) : ∃ a, x = .ok a ∧ f a = .ok b := by
  cases x with
  | error e => contradiction
  | ok a => exact ⟨a, rfl, h⟩

/-- The same of calls, with the state between the steps. -/
theorem exists_of_run_bind_eq_ok {x : ExceptT ε (StateM σ) α}
    {f : α → ExceptT ε (StateM σ) β} {s s'' : σ} {b : β}
    (h : (x >>= f).run.run s = (.ok b, s'')) :
    ∃ a s', x.run.run s = (.ok a, s') ∧ (f a).run.run s' = (.ok b, s'') := by
  cases hx : x.run.run s with
  | mk outcome s' =>
    cases outcome with
    | error e =>
      rw [run_bind_of_error hx] at h
      cases h
    | ok a =>
      rw [run_bind_of_ok hx] at h
      exact ⟨a, s', rfl, h⟩

/-- A round of calls that only look at the state leaves it as it is. -/
theorem run_forM_of_reads {xs : List α} {call : α → ExceptT ε (StateM σ) Unit}
    {outcome : α → Except ε Unit} {s : σ}
    (h : ∀ x ∈ xs, (call x).run.run s = (outcome x, s)) :
    (forM xs call).run.run s = (forM xs outcome, s) := by
  induction xs with
  | nil => rfl
  | cons x xs ih =>
    have hx := h x List.mem_cons_self
    have hxs := ih fun y hy => h y (List.mem_cons_of_mem x hy)
    rw [List.forM_cons, List.forM_cons]
    cases hout : outcome x with
    | ok u =>
      rw [hout] at hx
      rw [run_bind_of_ok hx, hxs]
      rfl
    | error e =>
      rw [hout] at hx
      rw [run_bind_of_error hx]
      rfl

theorem forM_eq_ok_iff {xs : List α} {outcome : α → Except ε Unit} :
    forM xs outcome = .ok () ↔ ∀ x ∈ xs, outcome x = .ok () := by
  induction xs with
  | nil => simp [pure, Except.pure]
  | cons x xs ih =>
    rw [List.forM_cons, List.forall_mem_cons, ← ih]
    cases outcome x with
    | ok u => exact (and_iff_right rfl).symm
    | error e => simp [bind, Except.bind]

theorem forM_flatMap (xs : List α) (f : α → List β) (call : β → ExceptT ε (StateM σ) Unit) :
    forM (xs.flatMap f) call = forM xs fun x => forM (f x) call := by
  induction xs with
  | nil => rfl
  | cons x xs ih => rw [List.flatMap_cons, List.forM_append, List.forM_cons, ih]

end Rounds

namespace Topology

/-! ## Stores by shard -/

/-- The number of shards that `n` stores form. -/
theorem lt_length_shards (n replicas i : Nat) :
    i < (stores n replicas).shards.length ↔ i * max 1 replicas < n := by
  rw [stores, ofBackends, lt_length_chunks (by omega)]
  simp

/-- Every store belongs to a shard. -/
theorem div_lt_length_shards {n k : Nat} (replicas : Nat) (hk : k < n) :
    k / max 1 replicas < (stores n replicas).shards.length :=
  (lt_length_shards ..).2 (Nat.lt_of_le_of_lt (Nat.div_mul_le_self k _) hk)

/-- Every row belongs to a shard, and that shard has a store. -/
theorem exists_store_of_shard {n : Nat} (hn : n ≠ 0) (replicas : Nat) (id : StreamId) :
    ∃ k < n, k / max 1 replicas = id.shard (stores n replicas).shards.length := by
  have hpos : 0 < (stores n replicas).shards.length :=
    (lt_length_shards ..).2 (by omega)
  have hlt := (lt_length_shards ..).1 (Nat.mod_lt id.high.toNat hpos)
  exact ⟨_, hlt, Nat.mul_div_cancel _ (by omega)⟩

/-- The nodes of all shards are the stores, in order, each with the number of its shard. -/
theorem flatMap_zipIdx_shards (n replicas : Nat) :
    (stores n replicas).shards.zipIdx.flatMap (fun (nodes, i) => nodes.map (·, i))
      = (List.range n).map fun k => (Backend.ofStore (.at k), k / max 1 replicas) := by
  rw [stores, ofBackends, flatMap_zipIdx_chunks (by omega)]
  apply List.ext_getElem (by simp)
  intro k h1 h2
  simp

/-! ## Asking -/

/-- What a store answers when it is asked whether it takes writes. -/
def answer (s : Storage) : Except NodeError Unit :=
  s.canWrite.mapError (.ofStore Backend.localName)

theorem answer_eq_ok_iff {s : Storage} : answer s = .ok () ↔ s.canWrite = .ok () := by
  unfold answer
  cases s.canWrite <;> simp [Except.mapError]

theorem run_canWrite_at (ss : List Storage) (k : Nat) :
    (Backend.ofStore (.at k)).canWrite.run.run ss = (answer (ss.getD k default), ss) := by
  simp only [answer, Backend.ofStore, Backend.Slot.at]
  cases hs : (ss.getD k default).canWrite with
  | ok u => exact (run_bind_of_ok (a := ss) rfl).trans (by rw [hs]; rfl)
  | error e => exact (run_bind_of_ok (a := ss) rfl).trans (by rw [hs]; rfl)

/-- Asking all stores changes none, and the first refusal is the answer. -/
theorem run_canWrite (ss : List Storage) (replicas : Nat) :
    (stores ss.length replicas).canWrite.run.run ss = (forM ss answer, ss) := by
  have hstores : (List.range ss.length).map (fun k => ss.getD k default) = ss := by
    apply List.ext_getElem (by simp)
    intro k h1 h2
    simp [List.getD, h2]
  rw [canWrite, stores, ofBackends, flatten_chunks (by omega), List.forM_eq_forM, List.forM_map,
    run_forM_of_reads fun k _ => run_canWrite_at ss k, ← List.forM_map, hstores]

/-! ## Writing -/

/-- Stores after a write to all of them: every store has got the rows of its shard. -/
def written (replicas : Nat) (rows : List StoredRow) (ss : List Storage) : List Storage :=
  let shards := (stores ss.length replicas).shards.length
  ss.mapIdx fun k s => s.withRows (share shards (k / max 1 replicas) rows)

/-- A shard is written node by node. -/
theorem writeShard_eq_forM {σ : Type} (nodes : List (Backend σ)) (rows : List StoredRow) :
    writeShard nodes rows = forM nodes fun node => writeShard [node] rows := by
  unfold writeShard
  split
  · induction nodes with
    | nil => rfl
    | cons node nodes ih =>
      rw [List.forM_cons, ← ih]
      rfl
  · have hcall : ∀ node : Backend σ, node.addRows rows = [node].forM (·.addRows rows) :=
      fun node => (bind_pure (node.addRows rows)).symm
    exact congrArg (forM nodes) (funext hcall)

/-- A write goes from store to store. -/
theorem write_stores (n replicas : Nat) (rows : List StoredRow) :
    (stores n replicas).write rows = forM (List.range n) fun k =>
      writeShard [.ofStore (.at k)]
        (share (stores n replicas).shards.length (k / max 1 replicas) rows) := by
  let shards := (stores n replicas).shards
  calc (stores n replicas).write rows
      = forM shards.zipIdx fun (nodes, i) =>
          forM nodes fun node => writeShard [node] (share shards.length i rows) := by
        simp only [← writeShard_eq_forM]
        rfl
    _ = forM (shards.zipIdx.flatMap fun (nodes, i) => nodes.map (·, i)) fun (node, i) =>
          writeShard [node] (share shards.length i rows) := by
        simp only [forM_flatMap, List.forM_map]
    _ = forM (List.range n) fun k => writeShard [.ofStore (.at k)]
          (share shards.length (k / max 1 replicas) rows) := by
        rw [flatMap_zipIdx_shards, List.forM_map]

/-- A store that takes writes gets the rows, and the stores around it stay as they are. -/
theorem run_writeShard (before after : List Storage) {s : Storage} {rows : List StoredRow}
    (hs : s.canWrite = .ok ())
    (hlen : (RowCodec.encodeStored rows).length ≤ Journal.maxPayload) :
    (writeShard [.ofStore (.at before.length)] rows).run.run (before ++ s :: after)
      = (.ok (), before ++ s.withRows rows :: after) := by
  have hadd : s.add rows = .ok (s.withRows rows) := Storage.add_eq_ok_iff.2 ⟨hs, hlen, rfl⟩
  have hget : (before ++ s :: after).getD before.length default = s := by simp
  have hset : (before ++ s :: after).set before.length (s.withRows rows)
      = before ++ s.withRows rows :: after := by simp
  unfold writeShard
  split
  · next hnil =>
    rw [List.isEmpty_iff.1 hnil]
    rfl
  · rw [List.forM_eq_forM, List.forM_cons, List.forM_nil, bind_pure, ← hset]
    simp only [Backend.ofStore, Backend.Slot.at]
    refine (run_bind_of_ok (a := before ++ s :: after) rfl).trans ?_
    rw [hget, hadd]
    rfl

/-- A write brings the rows of its shard to every store that it has not come to yet. -/
theorem run_writes (rows : Nat → List StoredRow) (before : List Storage) {after : List Storage}
    (hw : ∀ s ∈ after, s.canWrite = .ok ())
    (hlen : ∀ k < after.length,
      (RowCodec.encodeStored (rows (before.length + k))).length ≤ Journal.maxPayload) :
    (forM (List.range' before.length after.length) fun k =>
        writeShard [.ofStore (.at k)] (rows k)).run.run (before ++ after)
      = (.ok (), before ++ after.mapIdx fun k s => s.withRows (rows (before.length + k))) := by
  -- the stores in `before` have their rows; each step moves one store over
  induction after generalizing before with
  | nil => rfl
  | cons s after ih =>
    have hstep := run_writeShard before after
      (hw s List.mem_cons_self) (hlen 0 (Nat.zero_lt_succ _))
    have hrest := ih (before ++ [s.withRows (rows (before.length + 0))])
      (fun s' h => hw s' (List.mem_cons_of_mem s h)) (by
        intro k hk
        rw [List.length_append, List.length_singleton, Nat.add_assoc, Nat.add_comm 1]
        exact hlen (k + 1) (Nat.succ_lt_succ hk))
    simp only [Nat.add_zero, List.length_append, List.length_singleton, List.append_assoc,
      List.singleton_append] at hstep hrest
    rw [List.length_cons, List.range'_succ, List.forM_cons, run_bind_of_ok hstep, hrest,
      List.mapIdx_cons]
    simp only [Nat.add_zero, Nat.add_assoc, Nat.add_comm 1]

/-- **If all stores take writes, a write succeeds and brings every store the rows of its shard.** -/
theorem run_write {ss : List Storage} {replicas : Nat} {rows : List StoredRow}
    (hw : ∀ s ∈ ss, s.canWrite = .ok ())
    (hlen : ∀ i < (stores ss.length replicas).shards.length, (RowCodec.encodeStored
      (share (stores ss.length replicas).shards.length i rows)).length ≤ Journal.maxPayload) :
    ((stores ss.length replicas).write rows).run.run ss = (.ok (), written replicas rows ss) := by
  let shareOf := fun k => share (stores ss.length replicas).shards.length (k / max 1 replicas) rows
  have hfits : ∀ k < ss.length,
      (RowCodec.encodeStored (shareOf (([] : List Storage).length + k))).length
        ≤ Journal.maxPayload := by
    intro k hk
    rw [List.length_nil, Nat.zero_add]
    exact hlen _ (div_lt_length_shards replicas hk)
  have hrun := run_writes shareOf [] hw hfits
  rw [write_stores, List.range_eq_range']
  simpa [written, shareOf] using hrun

/-- If a store was written, it has got the rows. -/
theorem eq_of_run_writeShard (before after : List Storage) {s : Storage} {rows : List StoredRow}
    {ss' : List Storage}
    (h : (writeShard [.ofStore (.at before.length)] rows).run.run (before ++ s :: after)
      = (.ok (), ss')) :
    ss' = before ++ s.withRows rows :: after := by
  unfold writeShard at h
  split at h
  · next hnil =>
    cases h
    rw [List.isEmpty_iff.1 hnil]
    rfl
  · rw [List.forM_eq_forM, List.forM_cons, List.forM_nil, bind_pure] at h
    simp only [Backend.ofStore, Backend.Slot.at] at h
    have hget : (before ++ s :: after).getD before.length default = s := by simp
    obtain ⟨state, _, hstate, h⟩ := exists_of_run_bind_eq_ok h
    cases hstate
    rw [hget] at h
    obtain ⟨stored, ss, hlift, hset⟩ := exists_of_run_bind_eq_ok h
    cases hadd : s.add rows with
    | error e =>
      rw [hadd] at hlift
      cases hlift
    | ok s' =>
      rw [hadd] at hlift
      cases hlift
      cases hset
      rw [(Storage.add_eq_ok_iff.1 hadd).2.2]
      simp

theorem eq_of_run_writes (rows : Nat → List StoredRow) (before : List Storage)
    {after ss' : List Storage}
    (h : (forM (List.range' before.length after.length) fun k =>
        writeShard [.ofStore (.at k)] (rows k)).run.run (before ++ after) = (.ok (), ss')) :
    ss' = before ++ after.mapIdx fun k s => s.withRows (rows (before.length + k)) := by
  -- the stores in `before` have their rows; each step moves one store over
  induction after generalizing before with
  | nil =>
    cases h
    rfl
  | cons s after ih =>
    rw [List.length_cons, List.range'_succ, List.forM_cons] at h
    obtain ⟨u, ss, hfirst, hrest⟩ := exists_of_run_bind_eq_ok h
    rw [eq_of_run_writeShard before after hfirst] at hrest
    have hstep := ih (before ++ [s.withRows (rows before.length)]) (by
      rw [List.length_append, List.length_singleton, List.append_assoc, List.singleton_append]
      exact hrest)
    rw [hstep, List.mapIdx_cons]
    simp only [Nat.add_zero, List.length_append, List.length_singleton, List.append_assoc,
      List.singleton_append, Nat.add_assoc, Nat.add_comm 1]

/-- A write that succeeded has brought every store the rows of its shard. -/
theorem eq_written_of_run_write {ss ss' : List Storage} {replicas : Nat} {rows : List StoredRow}
    (h : ((stores ss.length replicas).write rows).run.run ss = (.ok (), ss')) :
    ss' = written replicas rows ss := by
  rw [write_stores, List.range_eq_range'] at h
  have hwrites := eq_of_run_writes (fun k => share (stores ss.length replicas).shards.length
    (k / max 1 replicas) rows) [] h
  simpa [written] using hwrites

/-! ## Flushing -/

theorem run_flush_at (before after : List Storage) (s : Storage) (now : Timestamp) :
    ((Backend.ofStore (.at before.length)).flush now).run.run (before ++ s :: after)
      = (.ok (), before ++ (s.flush now).1 :: after) := by
  have hget : (before ++ s :: after).getD before.length default = s := by simp
  have hset : (before ++ s :: after).set before.length (s.flush now).1
      = before ++ (s.flush now).1 :: after := by simp
  show (Except.ok (), (before ++ s :: after).set before.length
    (((before ++ s :: after).getD before.length default).flush now).1) = _
  rw [hget, hset]

theorem run_flushes (now : Timestamp) (before after : List Storage) :
    (forM (List.range' before.length after.length) fun k =>
        (Backend.ofStore (.at k)).flush now).run.run (before ++ after)
      = (.ok (), before ++ after.map fun s => (s.flush now).1) := by
  induction after generalizing before with
  | nil => rfl
  | cons s after ih =>
    have hrest := ih (before ++ [(s.flush now).1])
    rw [List.length_append, List.length_singleton, List.append_assoc, List.append_assoc,
      List.singleton_append, List.singleton_append] at hrest
    rw [List.length_cons, List.range'_succ, List.forM_cons,
      run_bind_of_ok (run_flush_at before after s now), hrest, List.map_cons]

/-- A flush of the cluster flushes every store. -/
theorem run_flush (ss : List Storage) (replicas : Nat) (now : Timestamp) :
    ((stores ss.length replicas).flush now).run.run ss
      = (.ok (), ss.map fun s => (s.flush now).1) := by
  have hrun := run_flushes now [] ss
  rw [flush, stores, ofBackends, flatten_chunks (by omega), List.forM_eq_forM, List.forM_map,
    List.range_eq_range']
  exact hrun

end Topology

end Logbook
