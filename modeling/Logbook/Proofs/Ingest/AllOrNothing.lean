import Logbook.Ingest.Receive
import Logbook.Proofs.Cluster.Topology

set_option autoImplicit false

/-! # Ingestion is all or nothing

A request asks all stores before it reads its body and writes after everything that can fail has
been done. What it does is therefore one of three things (`Ingestion.run_receive`): it ends at a
store that refuses, it ends at its body, or all its rows are stored. -/

namespace Logbook

open Logbook.Topology (share stores written answer)

namespace Ingestion

/-! ## Parts of a request -/

section Parts

variable {σ α : Type} {world : σ}

theorem run_ofCall (counters : Counters) {call : Call σ α} {result : Except NodeError α}
    {world' : σ} (h : call.run.run world = (result, world')) :
    (ofCall call).run.run (world, counters)
      = (result.mapError IngestError.node, (world', counters)) := by
  change ((call.run.run world).1.mapError IngestError.node, ((call.run.run world).2, counters)) = _
  rw [h]

theorem run_liftExcept (state : σ × Counters) (result : Except IngestError α) :
    (liftExcept result : Ingestion σ α).run.run state = (result, state) := by
  cases result <;> rfl

theorem run_count (f : Counters → Counters) (counters : Counters) :
    (count f : Ingestion σ Unit).run.run (world, counters) = (.ok (), (world, f counters)) :=
  rfl

theorem run_counted_of_ok {path : IngestPath} {act : Ingestion σ α} {x : α} {world' : σ}
    {counters counters' : Counters}
    (h : act.run.run (world, counters.countRequest path) = (.ok x, (world', counters'))) :
    (counted path act).run.run (world, counters) = (.ok x, (world', counters')) := by
  simp only [counted, ExceptT.run, ExceptT.mk, StateT.run] at h ⊢
  rw [h]

theorem run_counted_of_error {path : IngestPath} {act : Ingestion σ α} {e : IngestError} {world' : σ}
    {counters counters' : Counters}
    (h : act.run.run (world, counters.countRequest path) = (.error e, (world', counters'))) :
    (counted path act).run.run (world, counters)
      = (.error e, (world', counters'.countError path)) := by
  simp only [counted, ExceptT.run, ExceptT.mk, StateT.run] at h ⊢
  rw [h]

theorem run_timed_of_ok {path : IngestPath} (micros : Nat) {act : Ingestion σ α} {x : α}
    {world' : σ} {counters counters' : Counters}
    (h : act.run.run (world, counters.countRequest path) = (.ok x, (world', counters'))) :
    (timed path micros act).run.run (world, counters)
      = (.ok x, (world', counters'.countMicros path micros)) := by
  unfold timed
  rw [run_bind_of_ok (run_counted_of_ok h), run_bind_of_ok (run_count ..)]
  rfl

theorem run_timed_of_error {path : IngestPath} (micros : Nat) {act : Ingestion σ α}
    {e : IngestError} {world' : σ} {counters counters' : Counters}
    (h : act.run.run (world, counters.countRequest path) = (.error e, (world', counters'))) :
    (timed path micros act).run.run (world, counters)
      = (.error e, (world', counters'.countError path)) := by
  unfold timed
  rw [run_bind_of_error (run_counted_of_error h)]

/-- Counting a request leaves the stores to the request. -/
theorem run_counted (path : IngestPath) (act : Ingestion σ α) {result : Except IngestError α}
    {world' : σ} {counters counters' : Counters}
    (h : act.run.run (world, counters.countRequest path) = (result, (world', counters'))) :
    ∃ counters'', (counted path act).run.run (world, counters)
      = (result, (world', counters'')) := by
  cases result with
  | ok x => exact ⟨_, run_counted_of_ok h⟩
  | error e => exact ⟨_, run_counted_of_error h⟩

end Parts

/-! ## A whole request -/

variable {ss : List Storage} {replicas : Nat} {job : IngestJob} {headers : Http.Headers}
  {chunks : List Body.Chunk} {now : Timestamp}

/-- Every shard's part of the rows of a body fits in one record of a journal. -/
def Fits (ss : List Storage) (replicas : Nat) (job : IngestJob) (headers : Http.Headers)
    (chunks : List Body.Chunk) (now : Timestamp) : Prop :=
  ∀ decoded skipped, job.decodeBody headers chunks = .ok (decoded, skipped) →
    ∀ i < (stores ss.length replicas).shards.length,
      (RowCodec.encodeStored (share (stores ss.length replicas).shards.length i
        (decoded.map (job.classifier.apply now)))).length ≤ Journal.maxPayload

/-- What a request does to stores and counters. -/
theorem run_receive (hfits : Fits ss replicas job headers chunks now) (path : IngestPath)
    (counters : Counters) :
    (receive (stores ss.length replicas) path job headers chunks now).run.run (ss, counters)
      = match forM ss answer with
        | .error e => (.error (.node e), (ss, counters))
        | .ok () =>
          match job.decodeBody headers chunks with
          | .error e => (.error e, (ss, counters))
          | .ok (decoded, skipped) =>
            (.ok decoded.length,
              (written replicas (decoded.map (job.classifier.apply now)) ss,
                (counters.countSkipped path skipped).countRows path decoded.length)) := by
  have hasked := run_ofCall counters (Topology.run_canWrite ss replicas)
  unfold receive
  cases hanswer : forM ss answer with
  | error e =>
    rw [hanswer] at hasked
    rw [run_bind_of_error hasked]
  | ok u =>
    rw [hanswer] at hasked
    rw [run_bind_of_ok hasked]
    have hread := run_liftExcept (ss, counters) (job.decodeBody headers chunks)
    cases hbody : job.decodeBody headers chunks with
    | error e =>
      rw [hbody] at hread
      rw [run_bind_of_error hread]
    | ok outcome =>
      obtain ⟨decoded, skipped⟩ := outcome
      rw [hbody] at hread
      rw [run_bind_of_ok hread]
      -- nothing has been written since the stores were asked
      have hw : ∀ s ∈ ss, s.canWrite = .ok () := fun s hs =>
        Topology.answer_eq_ok_iff.1 (forM_eq_ok_iff.1 hanswer s hs)
      have hwrite := run_ofCall (counters.countSkipped path skipped)
        (Topology.run_write hw (hfits decoded skipped hbody))
      rw [run_bind_of_ok (run_count ..), run_bind_of_ok hwrite, run_bind_of_ok (run_count ..),
        List.length_map]
      rfl

/-- **A request stores all its rows or none.** It succeeds exactly if all stores take writes and
    its body decodes. Then it gives the number of decoded rows, every store has got the rows of its
    shard, and there is a store for every row. If it fails, all stores are as they were. -/
theorem stores_all_rows_or_none (hss : ss ≠ []) (hfits : Fits ss replicas job headers chunks now)
    (path : IngestPath) (counters : Counters) :
    let request := counted path (receive (stores ss.length replicas) path job headers chunks now)
    (∃ e counters', request.run.run (ss, counters) = (.error e, (ss, counters')) ∧
      ((∃ s ∈ ss, s.canWrite ≠ .ok ()) ∨ ∃ e, job.decodeBody headers chunks = .error e)) ∨
    ∃ decoded skipped counters',
      (∀ s ∈ ss, s.canWrite = .ok ()) ∧ job.decodeBody headers chunks = .ok (decoded, skipped) ∧
      request.run.run (ss, counters) = (.ok decoded.length,
        (written replicas (decoded.map (job.classifier.apply now)) ss, counters')) ∧
      ∀ row ∈ decoded.map (job.classifier.apply now), ∃ k < ss.length,
        row.streamId.shard (stores ss.length replicas).shards.length = k / max 1 replicas := by
  intro request
  have hreceive := run_receive hfits path (counters.countRequest path)
  cases hanswer : forM ss answer with
  | error e =>
    rw [hanswer] at hreceive
    obtain ⟨counters', hrun⟩ := run_counted path _ hreceive
    refine Or.inl ⟨_, counters', hrun, Or.inl ?_⟩
    by_contra! hall
    have hok := forM_eq_ok_iff.2 fun s hs => Topology.answer_eq_ok_iff.2 (hall s hs)
    rw [hanswer] at hok
    contradiction
  | ok u =>
    rw [hanswer] at hreceive
    cases hbody : job.decodeBody headers chunks with
    | error e =>
      rw [hbody] at hreceive
      obtain ⟨counters', hrun⟩ := run_counted path _ hreceive
      exact Or.inl ⟨_, counters', hrun, Or.inr ⟨e, rfl⟩⟩
    | ok outcome =>
      obtain ⟨decoded, skipped⟩ := outcome
      rw [hbody] at hreceive
      obtain ⟨counters', hrun⟩ := run_counted path _ hreceive
      refine Or.inr ⟨decoded, skipped, counters', fun s hs => ?_, rfl, hrun, fun row _ => ?_⟩
      · exact Topology.answer_eq_ok_iff.1 (forM_eq_ok_iff.1 hanswer s hs)
      · obtain ⟨k, hk, hshard⟩ := Topology.exists_store_of_shard
          (List.length_pos_iff.2 hss).ne' replicas row.streamId
        exact ⟨k, hk, hshard.symm⟩

def sampleRow : DecodedRow :=
  ⟨some 1700000000000000000, [⟨"host", "h1"⟩], [⟨msgName, "m"⟩]⟩

/-- The row in the row codec. -/
def sampleBody : Bytes :=
  [1, 2, 4, 104, 111, 115, 116, 2, 104, 49, 4, 95, 109, 115, 103, 1, 109,
    23, 151, 156, 254, 54, 42, 0, 0]

def sampleJob : IngestJob :=
  { format := .native, classifier := {}, limit := 100 }

/-- Of three stores, two to a shard, the first two get the row. -/
theorem row_on_both_replicas :
    let row := sampleJob.classifier.apply 7 sampleRow
    let request := counted .native (receive (stores 3 2) .native sampleJob [] [.data sampleBody] 7)
    ∃ counters, request.run.run ([default, default, default], {})
      = (.ok 1, ([Storage.withRows default [row], Storage.withRows default [row], default],
          counters)) := by
  intro row request
  have hbody : sampleJob.decodeBody [] [.data sampleBody] = .ok ([sampleRow], 0) := by
    decide +kernel
  have hfits : Fits [default, default, default] 2 sampleJob [] [.data sampleBody] 7 := by
    intro decoded skipped h
    rw [hbody] at h
    cases h
    decide +kernel
  have hwritten : written 2 [row] [default, default, default]
      = [Storage.withRows default [row], Storage.withRows default [row], default] := by
    decide +kernel
  rcases stores_all_rows_or_none (by simp) hfits .native {} with
    ⟨_, _, _, ⟨s, hs, hrefused⟩ | ⟨_, hfailed⟩⟩ | ⟨decoded, skipped, counters, _, hdecoded, hrun, _⟩
  · have hdefault : s = default := by simpa using hs
    exact absurd (hdefault ▸ rfl) hrefused
  · rw [hbody] at hfailed
    contradiction
  · rw [hbody] at hdecoded
    cases hdecoded
    exact ⟨counters, hrun.trans (by rw [List.map_singleton, hwritten]; rfl)⟩

end Ingestion

end Logbook
