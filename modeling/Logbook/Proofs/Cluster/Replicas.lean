import Logbook.Node.Config
import Logbook.Proofs.Cluster.Layout
import Logbook.Proofs.Storage.Parts

set_option autoImplicit false

/-! # Replicas stay identical

A configuration that is accepted deals the storage nodes out into shards of equal size. Every write
brings all replicas of a shard the same rows in the same order, and a flush that finds no expired
row does the same to each of them, so that replicas hold the same pending rows and the same parts at
all times and answer every query alike (**`Topology.replicas_stay_identical`**). A row is kept by
the replicas of one shard, the one that its stream picks. Rows that wait for a flush are in the
order in which they were written; a part is sorted, so that there the order of writing is left only
among rows of one stream and one time (`Topology.later_row_comes_first`). -/

namespace Logbook

/-! ## Shards of equal size -/

/-- Groups of a number that divides the length are all full. -/
theorem length_of_mem_chunks {α : Type} {n : Nat} {xs : List α}
    (hdvd : n ∣ xs.length) : ∀ group ∈ chunks n xs, group.length = n := by
  induction hlen : xs.length using Nat.strongRecOn generalizing xs with
  | ind len ih =>
    rw [chunks]
    split
    · exact List.forall_mem_nil _
    · next h =>
      obtain ⟨-, hne⟩ := not_or.1 h
      have hpos := List.length_pos_iff.2 hne
      have hle : n ≤ xs.length := Nat.le_of_dvd hpos hdvd
      rw [List.forall_mem_cons]
      refine ⟨List.length_take_of_le hle, ih _ ?_ ?_ rfl⟩
      · rw [List.length_drop]
        omega
      · rw [List.length_drop]
        exact Nat.dvd_sub hdvd (Nat.dvd_refl n)

theorem NodeConfig.checkReplicas_eq_ok {nodes : List String} {replicas : Nat}
    (h : checkReplicas nodes replicas = .ok ()) : replicas ≠ 0 ∧ replicas ∣ nodes.length := by
  unfold checkReplicas at h
  split at h
  · cases h
  · next hzero =>
    split at h
    · cases h
    · next hmod => exact ⟨hzero, Nat.dvd_of_mod_eq_zero (not_not.1 hmod)⟩

/-- An accepted number of replicas divides the nodes. -/
theorem NodeConfig.replicas_dvd_of_resolve {args : CommandLine.Matches} {file : ConfigFile}
    {config : NodeConfig} (h : resolve args file = .ok config) :
    config.replicas ≠ 0 ∧ config.replicas ∣ config.storageNodes.length := by
  obtain ⟨retention, -, h⟩ := exists_of_bind_eq_ok h
  dsimp only at h
  -- the size of a request is given or not
  split at h
  all_goals
    obtain ⟨size, -, h⟩ := exists_of_bind_eq_ok h
    obtain ⟨_, hcheck, h⟩ := exists_of_bind_eq_ok h
    cases h
    exact checkReplicas_eq_ok hcheck

namespace Topology

/-- Nodes of a number that the replicas divide form shards of just so many. -/
theorem shards_ofBackends {σ : Type} {backends : List (Backend σ)} {replicas : Nat}
    (hzero : replicas ≠ 0) (hdvd : replicas ∣ backends.length) :
    (ofBackends backends replicas).shards.flatten = backends ∧
      ∀ shard ∈ (ofBackends backends replicas).shards, shard.length = replicas := by
  have hmax : max 1 replicas = replicas := by omega
  rw [ofBackends, hmax]
  exact ⟨flatten_chunks hzero backends, length_of_mem_chunks hdvd⟩

/-- The number of shards of equal size. -/
theorem length_shards_of_dvd {n replicas : Nat} (hzero : replicas ≠ 0) (hdvd : replicas ∣ n) :
    (stores n replicas).shards.length = n / replicas := by
  refine eq_of_forall_lt_iff fun i => ?_
  have hmax : max 1 replicas = replicas := by omega
  rw [lt_length_shards, hmax, Nat.lt_div_iff_mul_lt_of_dvd hzero hdvd]

/-! ## Writes and flushes -/

variable {replicas : Nat} {rows : List StoredRow} {ss : List Storage}

/-- Stores that held nothing at first and went through writes to the topology, all of which
    succeeded, and flushes of it at times at which no row had expired; `rows` are the rows that were
    written, in order. -/
inductive Replicated (replicas : Nat) : List StoredRow → List Storage → Prop
  | start {ss : List Storage} (hempty : ∀ s ∈ ss, s.visible = [] ∧ s.pending = []) :
      Replicated replicas [] ss
  | write {rows batch : List StoredRow} {ss ss' : List Storage} (h : Replicated replicas rows ss)
      (hwrite : ((stores ss.length replicas).write batch).run.run ss = (.ok (), ss')) :
      Replicated replicas (rows ++ batch) ss'
  | flush {rows : List StoredRow} {ss ss' : List Storage} (h : Replicated replicas rows ss)
      {now : Timestamp} (hunexpired : ∀ s ∈ ss, s.Unexpired now)
      (hflush : ((stores ss.length replicas).flush now).run.run ss = (.ok (), ss')) :
      Replicated replicas rows ss'

/-- What every write and every flush keeps. -/
structure Mirrored (replicas : Nat) (rows : List StoredRow) (ss : List Storage) : Prop where
  made : ∀ s ∈ ss, ∀ p ∈ s.visible, p.Made
  same : ∀ i j (hi : i < ss.length) (hj : j < ss.length),
    i / max 1 replicas = j / max 1 replicas →
      ss[i].pending = ss[j].pending ∧ ss[i].visible = ss[j].visible
  waiting : ∀ k (hk : k < ss.length),
    ss[k].pending <:+ share (stores ss.length replicas).shards.length (k / max 1 replicas) rows
  ordered : ∀ k (hk : k < ss.length) stream t, Part.alike stream t ss[k].held
    = Part.alike stream t
        (share (stores ss.length replicas).shards.length (k / max 1 replicas) rows)

theorem mirrored_start (hempty : ∀ s ∈ ss, s.visible = [] ∧ s.pending = []) :
    Mirrored replicas [] ss where
  made s hs p hp := by
    rw [(hempty s hs).1] at hp
    cases hp
  same i j hi hj _ := by
    obtain ⟨hvisible, hpending⟩ := hempty _ (List.getElem_mem hi)
    obtain ⟨hvisible', hpending'⟩ := hempty _ (List.getElem_mem hj)
    exact ⟨hpending.trans hpending'.symm, hvisible.trans hvisible'.symm⟩
  waiting k hk := by
    rw [(hempty _ (List.getElem_mem hk)).2]
    exact List.nil_suffix
  ordered k hk stream t := by
    obtain ⟨hvisible, hpending⟩ := hempty _ (List.getElem_mem hk)
    rw [Storage.held, Storage.visibleRows, hvisible, hpending]
    rfl

theorem Mirrored.written (h : Mirrored replicas rows ss) (batch : List StoredRow) :
    Mirrored replicas (rows ++ batch) (written replicas batch ss) := by
  have hlength : (Topology.written replicas batch ss).length = ss.length := List.length_mapIdx
  have hshare : ∀ n i, share n i (rows ++ batch) = share n i rows ++ share n i batch :=
    fun n i => List.filter_append ..
  constructor
  · intro s hs p hp
    obtain ⟨k, hk, rfl⟩ := List.mem_mapIdx.1 hs
    rw [Storage.visible_withRows] at hp
    exact h.made _ (List.getElem_mem hk) p hp
  · intro i j hi hj hij
    obtain ⟨hpending, hvisible⟩ := h.same i j (hlength ▸ hi) (hlength ▸ hj) hij
    simp only [Topology.written, List.getElem_mapIdx, Storage.visible_withRows,
      Storage.pending_withRows, hpending, hvisible, hij, and_self]
  · intro k hk
    rw [hlength, hshare]
    simp only [Topology.written, List.getElem_mapIdx, Storage.pending_withRows]
    obtain ⟨front, hfront⟩ := h.waiting k (hlength ▸ hk)
    exact ⟨front, by rw [← List.append_assoc, hfront]⟩
  · intro k hk stream t
    rw [hlength, hshare]
    simp only [Topology.written, List.getElem_mapIdx, Storage.held_withRows, Part.alike,
      List.filter_append]
    congr 1
    exact h.ordered k (hlength ▸ hk) stream t

theorem Mirrored.flushed (h : Mirrored replicas rows ss) {now : Timestamp}
    (hunexpired : ∀ s ∈ ss, s.Unexpired now) :
    Mirrored replicas rows (ss.map fun s => (s.flush now).1) := by
  have hvisible : ∀ s ∈ ss, (s.flush now).1.visible = Storage.settle s.allParts := fun s hs =>
    Storage.flushedParts_eq_settle (h.made s hs) (hunexpired s hs)
  constructor
  · intro flushed hflushed p hp
    obtain ⟨s, hs, rfl⟩ := List.mem_map.1 hflushed
    rw [hvisible s hs] at hp
    exact Storage.made_settle (Storage.made_allParts (h.made s hs)) p hp
  · intro i j hi hj hij
    rw [List.length_map] at hi hj
    obtain ⟨hpending, hparts⟩ := h.same i j hi hj hij
    simp only [List.getElem_map, hvisible _ (List.getElem_mem hi),
      hvisible _ (List.getElem_mem hj), Storage.allParts, hpending, hparts]
    exact ⟨rfl, trivial⟩
  · intro k hk
    rw [List.getElem_map]
    exact List.nil_suffix
  · intro k hk stream t
    rw [List.length_map] at hk
    have hheld : (ss[k].flush now).1.held = (Storage.settle ss[k].allParts).flatMap (·.rows) := by
      rw [Storage.held_flush, Storage.flushedParts_eq_settle (h.made _ (List.getElem_mem hk))
        (hunexpired _ (List.getElem_mem hk))]
    rw [List.length_map, List.getElem_map, hheld, Storage.alike_settle_allParts, h.ordered k hk]

theorem Replicated.mirrored (h : Replicated replicas rows ss) : Mirrored replicas rows ss := by
  induction h with
  | start hempty => exact mirrored_start hempty
  | write _ hwrite ih =>
    rw [eq_written_of_run_write hwrite]
    exact ih.written _
  | flush _ hunexpired hflush ih =>
    rw [run_flush] at hflush
    cases hflush
    exact ih.flushed hunexpired

/-! ## What follows for the rows -/

theorem filter_stream_share (n i : Nat) (stream : Stream) (rows : List StoredRow) :
    (share n i rows).filter (·.stream = stream)
      = if stream.id.shard n = i then rows.filter (·.stream = stream) else [] := by
  rw [share, List.filter_filter]
  split
  · next h =>
    refine List.filter_congr fun row _ => ?_
    by_cases hstream : row.stream = stream
    · simp [hstream, row.streamId_eq, h]
    · simp [hstream]
  · next h =>
    refine List.filter_eq_nil_iff.2 fun row _ hrow => h ?_
    simp only [Bool.and_eq_true, decide_eq_true_eq, beq_iff_eq] at hrow
    rw [← hrow.1, ← row.streamId_eq, hrow.2]

theorem alike_share (n i : Nat) (stream : Stream) (t : Timestamp) (rows : List StoredRow) :
    Part.alike stream t (share n i rows)
      = if stream.id.shard n = i then Part.alike stream t rows else [] := by
  have hsplit : ∀ rows, Part.alike stream t rows
      = (rows.filter (·.stream = stream)).filter (·.timestamp = t) := by
    intro rows
    rw [Part.alike, List.filter_filter]
    exact List.filter_congr fun row _ => by simp [and_comm]
  rw [hsplit, hsplit, filter_stream_share]
  split <;> rfl

/-- A row is among the rows of its stream and its time. -/
theorem count_alike (row : StoredRow) (rows : List StoredRow) :
    (Part.alike row.stream row.timestamp rows).count row = rows.count row :=
  List.count_filter (by simp)

/-- What stores hold that were fed `rows` through a topology with `replicas` stores to a shard. The
    store at `k` belongs to shard `k / replicas`. -/
structure Replicates (replicas : Nat) (rows : List StoredRow) (ss : List Storage) : Prop where
  /-- Replicas of a shard hold the same pending rows in the same order and the same parts. -/
  same : ∀ i j (hi : i < ss.length) (hj : j < ss.length), i / replicas = j / replicas →
    ss[i].pending = ss[j].pending ∧ ss[i].visible = ss[j].visible
  /-- Replicas of a shard give the same partial result for every remote query. -/
  answers : ∀ i j (hi : i < ss.length) (hj : j < ss.length), i / replicas = j / replicas →
    ∀ q : RemoteQuery, q.run ss[i] = q.run ss[j]
  /-- Every written row is held, as often as it was written, by the replicas of exactly one
      shard. -/
  one_shard : ∀ row ∈ rows, ∃! shard, shard < ss.length / replicas ∧
    ∀ k (hk : k < ss.length),
      ss[k].held.count row = if k / replicas = shard then rows.count row else 0
  /-- Rows with equal stream tags are on the same shard. -/
  one_shard_per_stream : ∀ row ∈ rows, ∀ row' ∈ rows, row.stream = row'.stream →
    ∀ k (hk : k < ss.length), row ∈ ss[k].held ↔ row' ∈ ss[k].held
  /-- Nothing else is held. -/
  written : ∀ k (hk : k < ss.length), ∀ row ∈ ss[k].held, row ∈ rows
  /-- The pending rows of a stream are the last ones that were written of it, in that order. -/
  pending_in_order : ∀ k (hk : k < ss.length) (stream : Stream),
    ss[k].pending.filter (·.stream = stream) <:+ rows.filter (·.stream = stream)
  /-- The rows of one stream and one time are in the order in which they were written, wherever they
      are held. -/
  alike_in_order : ∀ k (hk : k < ss.length) (stream : Stream) (t : Timestamp),
    ss[k].held.filter (fun row => row.stream = stream ∧ row.timestamp = t)
      = if stream.id.shard (ss.length / replicas) = k / replicas then
          rows.filter fun row => row.stream = stream ∧ row.timestamp = t
        else []
  /-- Parts are in the order of streams and times. -/
  sorted : ∀ s ∈ ss, ∀ p ∈ s.visible, p.rows.Pairwise fun a b => Part.rowLe a b = true

theorem Mirrored.replicates (h : Mirrored replicas rows ss) (hne : ss ≠ []) (hzero : replicas ≠ 0)
    (hdvd : replicas ∣ ss.length) : Replicates replicas rows ss := by
  have hmax : max 1 replicas = replicas := by omega
  have hshards := length_shards_of_dvd hzero hdvd
  obtain ⟨hmade, hsame, hwaiting, hordered⟩ := h
  rw [hmax] at hsame
  rw [hmax, hshards] at hwaiting hordered
  have halike : ∀ k (hk : k < ss.length) stream t, Part.alike stream t ss[k].held
      = if stream.id.shard (ss.length / replicas) = k / replicas then Part.alike stream t rows
        else [] := fun k hk stream t => (hordered k hk stream t).trans (alike_share ..)
  have hcount : ∀ k (hk : k < ss.length) row, ss[k].held.count row
      = if row.stream.id.shard (ss.length / replicas) = k / replicas then rows.count row
        else 0 := by
    intro k hk row
    rw [← count_alike row ss[k].held, halike]
    split
    · exact count_alike row rows
    · rfl
  have hmem : ∀ k (hk : k < ss.length) row, row ∈ ss[k].held
      ↔ row.stream.id.shard (ss.length / replicas) = k / replicas ∧ row ∈ rows := by
    intro k hk row
    rw [← List.count_pos_iff, hcount, ← List.count_pos_iff (l := rows)]
    split
    · next h => simp [h]
    · next h => simp [h]
  constructor
  · exact hsame
  · intro i j hi hj hij q
    simp only [RemoteQuery.run, Storage.search, (hsame i j hi hj hij).2]
  · intro row hrow
    have hpos : 0 < ss.length / replicas :=
      Nat.div_pos (Nat.le_of_dvd (List.length_pos_iff.2 hne) hdvd) (Nat.pos_of_ne_zero hzero)
    refine ⟨row.stream.id.shard (ss.length / replicas), ⟨Nat.mod_lt _ hpos, fun k hk => ?_⟩, ?_⟩
    · rw [hcount k hk row]
      simp only [eq_comm]
    · rintro shard ⟨hshard, hheld⟩
      -- the first replica of the shard holds the row
      have hk : shard * replicas < ss.length := (Nat.lt_div_iff_mul_lt_of_dvd hzero hdvd).1 hshard
      have hfirst := hheld _ hk
      rw [hcount, Nat.mul_div_cancel _ (Nat.pos_of_ne_zero hzero), if_pos rfl] at hfirst
      by_contra hother
      rw [if_neg fun h => hother h.symm] at hfirst
      exact absurd hfirst.symm (Nat.ne_of_gt (List.count_pos_iff.2 hrow))
  · intro row hrow row' hrow' hstream k hk
    simp [hmem, hrow, hrow', hstream]
  · exact fun k hk row hrow => ((hmem k hk row).1 hrow).2
  · intro k hk stream
    have hsuffix := (hwaiting k hk).filter (·.stream = stream)
    rw [filter_stream_share] at hsuffix
    split at hsuffix
    · exact hsuffix
    · rw [List.suffix_nil.1 hsuffix]
      exact List.nil_suffix
  · exact halike
  · exact fun s hs p hp => (hmade s hs p hp).sorted

/-- **Replicas stay identical.** A configuration that is accepted forms shards of as many storage
    nodes as it says, among which every entry of its list occurs once, and stores that take the
    place of these nodes hold the same rows in the same order on all replicas of a shard, whatever
    is written and flushed: each row on one shard, picked by its stream. -/
theorem replicas_stay_identical {args : CommandLine.Matches} {file : ConfigFile}
    {config : NodeConfig} (hconfig : NodeConfig.resolve args file = .ok config) :
    (∀ {σ : Type} (node : String → Backend σ),
      (ofBackends (config.storageNodes.map node) config.replicas).shards.flatten
          = config.storageNodes.map node ∧
        ∀ shard ∈ (ofBackends (config.storageNodes.map node) config.replicas).shards,
          shard.length = config.replicas) ∧
    ∀ {rows : List StoredRow} {ss : List Storage}, ss ≠ [] →
      ss.length = config.storageNodes.length → Replicated config.replicas rows ss →
        Replicates config.replicas rows ss := by
  obtain ⟨hzero, hdvd⟩ := NodeConfig.replicas_dvd_of_resolve hconfig
  refine ⟨fun node => shards_ofBackends hzero ?_, fun hne hlength h => ?_⟩
  · rwa [List.length_map]
  · exact h.mirrored.replicates hne hzero (hlength ▸ hdvd)

/-! ### Two shards of two replicas -/

def sampleArgs : CommandLine.Matches where
  values := [("storage-node", ["n0", "n1", " n2", "n3"]), ("replication-factor", ["2"])]

/-- Two rows of one stream, the later one first. -/
def sampleBatch : List StoredRow :=
  [sampleMetric 2 "a" "7", sampleMetric 1 "a" "8"]

/-- Stores that were fed the two rows and then flushed. -/
def sampleFlushed (n replicas : Nat) : List Storage :=
  (written replicas sampleBatch (List.replicate n default)).map fun s => (s.flush 0).1

theorem replicated_sampleFlushed {n replicas : Nat}
    (hwritable : ∀ s ∈ List.replicate n (default : Storage), s.canWrite = .ok ())
    (hlength : ∀ i < (stores (List.replicate n (default : Storage)).length replicas).shards.length,
      (RowCodec.encodeStored (share (stores (List.replicate n (default : Storage)).length
        replicas).shards.length i sampleBatch)).length ≤ Journal.maxPayload)
    (hunexpired : ∀ s ∈ written replicas sampleBatch (List.replicate n default), s.Unexpired 0) :
    Replicated replicas sampleBatch (sampleFlushed n replicas) := by
  have hstart : Replicated replicas [] (List.replicate n default) := .start fun s hs => by
    rw [(List.mem_replicate.1 hs).2]
    exact ⟨rfl, rfl⟩
  exact (hstart.write (run_write hwritable hlength)).flush hunexpired (run_flush ..)

theorem two_replicas_agree :
    ∃ config, NodeConfig.resolve sampleArgs {} = .ok config ∧
      sampleFlushed 4 2 ≠ [] ∧ (sampleFlushed 4 2).length = config.storageNodes.length ∧
      Replicated config.replicas sampleBatch (sampleFlushed 4 2) ∧
      Replicates config.replicas sampleBatch (sampleFlushed 4 2) := by
  have hsummary : (NodeConfig.resolve sampleArgs {}).toOption.map
      (fun config => (config.storageNodes, config.replicas))
        = some (["n0", "n1", "n2", "n3"], 2) := by decide +kernel
  cases hconfig : NodeConfig.resolve sampleArgs {} with
  | error e =>
    rw [hconfig] at hsummary
    contradiction
  | ok config =>
    rw [hconfig] at hsummary
    obtain ⟨hnodes, hreplicas⟩ := Prod.mk.inj (Option.some.inj hsummary)
    have hne : sampleFlushed 4 2 ≠ [] := by decide +kernel
    have hlength : (sampleFlushed 4 2).length = config.storageNodes.length := by
      rw [hnodes]
      decide +kernel
    have hfed : Replicated config.replicas sampleBatch (sampleFlushed 4 2) := by
      rw [hreplicas]
      exact replicated_sampleFlushed (by decide +kernel) (by decide +kernel) (by decide +kernel)
    exact ⟨config, rfl, hne, hlength, hfed, (replicas_stay_identical hconfig).2 hne hlength hfed⟩

/-- A part brings the two rows into the order of their times. -/
theorem rows_ofRows_sampleBatch :
    (Part.ofRows sampleBatch).rows = [sampleMetric 1 "a" "8", sampleMetric 2 "a" "7"] := by
  have hle : Part.rowLe (sampleMetric 2 "a" "7") (sampleMetric 1 "a" "8") = false := by
    decide +kernel
  simp [Part.ofRows, sampleBatch, List.mergeSort, List.MergeSort.Internal.splitInTwo, hle]

theorem held_sampleFlushed :
    (sampleFlushed 1 1).map (·.held) = [(Part.ofRows sampleBatch).rows] := by
  have hstores :
      sampleFlushed 1 1 = [(((default : Storage).withRows sampleBatch).flush 0).1] := by
    have hshare : share (stores 1 1).shards.length 0 sampleBatch = sampleBatch := by decide +kernel
    exact congrArg (fun rows => [(((default : Storage).withRows rows).flush 0).1]) hshare
  have hunexpired : ((default : Storage).withRows sampleBatch).Unexpired 0 := by decide +kernel
  have hvisible : ∀ p ∈ ((default : Storage).withRows sampleBatch).visible, p.Made :=
    fun p hp => by cases hp
  rw [hstores, List.map_singleton, Storage.held_flush,
    Storage.flushedParts_eq_settle hvisible hunexpired]
  exact congrArg (fun rows => [rows]) (List.append_nil _)

/-- Once flushed, the rows of one stream need not be in the order in which they were written; and
    where there are no storage nodes, which is accepted too, a written row is on no shard. -/
theorem later_row_comes_first :
    (¬ ∀ {replicas : Nat} {rows : List StoredRow} {ss : List Storage},
      Replicated replicas rows ss → ∀ held ∈ ss.map (·.held), ∀ stream : Stream,
        (held.filter (·.stream = stream)).Sublist (rows.filter (·.stream = stream))) ∧
    (NodeConfig.resolve {} {}).toOption.map (·.storageNodes) = some [] ∧
      Replicated 3 sampleBatch [] := by
  refine ⟨fun h => ?_, by decide +kernel, ?_⟩
  · have hfed : Replicated 1 sampleBatch (sampleFlushed 1 1) :=
      replicated_sampleFlushed (by decide +kernel) (by decide +kernel) (by decide +kernel)
    have horder := h hfed _ (held_sampleFlushed ▸ List.mem_singleton_self _)
      (sampleMetric 1 "a" "8").stream
    rw [rows_ofRows_sampleBatch] at horder
    exact absurd horder (by decide +kernel)
  · have hstart : Replicated 3 [] [] := .start nofun
    exact hstart.write (run_write nofun fun i hi =>
      absurd ((lt_length_shards 0 3 i).1 hi) (Nat.not_lt_zero _))

end Topology

end Logbook
