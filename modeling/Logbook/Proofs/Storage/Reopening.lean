import Logbook.Proofs.Cluster.Queries
import Logbook.Proofs.Ingest.Shape
import Logbook.Proofs.Query.FieldOrder
import Logbook.Proofs.Storage.Sources

set_option autoImplicit false

/-! # Answers after reopening

A store that is opened again holds the rows of its journal, which say what the rows in memory said
before but list their fields in another order, the tags first. Queries that look at the number of
rows, at distinct values or at facets do not notice (`Query.same_after_reopening`), provided that
each tag of a row has a field and that no distinct values of whole rows are asked for. -/

namespace Logbook

/-! ## Rows that classification makes -/

/-- Classification made the row, and each of its tags has a field. -/
def StoredRow.Classified (row : StoredRow) : Prop :=
  ∃ (c : Classifier) (now : Timestamp) (d : DecodedRow), row = c.apply now d ∧ ¬ c.DropsTag d

namespace StoredRow.Classified

variable {row : StoredRow}

theorem wellFormed (h : row.Classified) : row.WellFormed := by
  obtain ⟨c, now, d, rfl, hdrops⟩ := h
  exact ⟨c.nodup_names_fields d, (c.tagged_apply_iff d now).2 hdrops⟩

theorem not_reserved (h : row.Classified) :
    ∀ name ∈ Field.names row.fields, isReservedName name = false := by
  obtain ⟨c, now, d, rfl, -⟩ := h
  exact fun name hname => Classifier.isReservedName_of_mem_names_fields hname

end StoredRow.Classified

/-- Rows of the same content are alike to queries. -/
theorem QueryRow.alike_ofStored {a b : StoredRow} (ha : a.WellFormed) (hb : b.WellFormed)
    (hcontent : a.content = b.content)
    (hreserved : ∀ name ∈ Field.names a.fields, isReservedName name = false) :
    Alike (ofStored a) (ofStored b) := by
  have htime : a.timestamp = b.timestamp := congrArg (·.timestamp) hcontent
  have htags : a.stream.tags = b.stream.tags := congrArg (·.tags) hcontent
  have hget : a.get? = b.get? := congrArg (·.value) hcontent
  have hstream : a.stream = b.stream := by
    rw [← a.stream.ofFields_tags, htags, b.stream.ofFields_tags]
  have hid : a.streamId = b.streamId := by rw [a.streamId_eq, b.streamId_eq, hstream]
  have hmessage : a.message = b.message := by rw [StoredRow.message, hget, StoredRow.message]
  have hfields : a.fields.Perm b.fields := Field.perm_of_last? ha.nodup hb.nodup (congrFun hget)
  refine ⟨congrArg some htime, ?_, ?_⟩
  · rw [ofStored, ofStored, htime, hid, hstream, hmessage]
    exact ((((hfields.filter _).cons _).cons _).cons _).cons _
  · exact nodup_names_ofStored ha.nodup hreserved

/-! ## Answers -/

/-- Elements with the same images are related place by place if such elements are. -/
theorem forall₂_of_map_eq {α β : Type} {f : α → β} {R : α → α → Prop} {xs ys : List α}
    (h : xs.map f = ys.map f) (hR : ∀ x ∈ xs, ∀ y ∈ ys, f x = f y → R x y) :
    List.Forall₂ R xs ys := by
  induction xs generalizing ys with
  | nil =>
    rw [List.map_eq_nil_iff.1 h.symm]
    exact .nil
  | cons x xs ih =>
    obtain ⟨y, ys, rfl, hxy, hrest⟩ := List.map_eq_cons_iff.1 h.symm
    refine .cons (hR x List.mem_cons_self y List.mem_cons_self hxy.symm) ?_
    exact ih hrest.symm fun x hx y hy =>
      hR x (List.mem_cons_of_mem _ hx) y (List.mem_cons_of_mem _ hy)

namespace Query

open Storage (Event History cutoff)
open Logbook.Topology (stores)

variable {q : Query} {p : Pipe}

/-- A query to a store answers as if the store held the rows that its rows say the same as. -/
theorem run_of_contents {s : Storage} {rows : List StoredRow}
    (hperm : (rows.map StoredRow.content).Perm (s.visibleRows.map StoredRow.content))
    (hrows : ∀ row ∈ rows, row.Classified) (hheld : ∀ row ∈ s.visibleRows, row.WellFormed)
    (hfirst : q.gathering.head? = some p) (hp : p.IgnoresOrderOf (q.reaching rows))
    (hq : q.IgnoresFieldOrder) (timeout : Nat) :
    (q.run (stores 1 1) timeout).run.run [s]
      = (.ok (Pipe.applyAll q.gathering (q.reaching rows)), [s]) := by
  -- the rows of the store in an order in which each says what the given row at its place says
  obtain ⟨inOrder, hcontents, hsame⟩ :
      Relation.Comp (· = List.map StoredRow.content ·) List.Perm
        (rows.map StoredRow.content) s.visibleRows := by
    rwa [List.eq_map_comp_perm]
  have halike : List.Forall₂ (fun a b => QueryRow.Alike (.ofStored a) (.ofStored b)) rows inOrder :=
    forall₂_of_map_eq hcontents fun a ha b hb heq => QueryRow.alike_ofStored (hrows a ha).wellFormed
      (hheld b (hsame.mem_iff.1 hb)) heq (hrows a ha).not_reserved
  obtain ⟨hp, hanswer⟩ := applyAll_reaching_alike hq hfirst hp halike
  have hselected : ([s].flatMap q.selected).Perm (q.reaching inOrder) := by
    rw [List.flatMap_singleton, selected_eq_reaching]
    exact (hsame.filterMap _).symm
  have hfinish := finish_perm hfirst hp hselected
  have hread : Topology.readFrom 1 [s] = [s] := by simp [Topology.readFrom, chunks]
  rw [hanswer, ← hread] at hfinish
  exact run_stores hfinish timeout

/-- A flushed store answers as if it held the accepted rows, as long as none of them has expired. -/
theorem run_of_sourced {h : History} (hk : h.Kept) (hs : h.Sourced StoredRow.Classified)
    (hunexpired : ∀ limit ∈ h.cutoffs, ∀ row ∈ h.accepted, limit ≤ row.timestamp)
    (hflushed : h.store.pending = []) (hfirst : q.gathering.head? = some p)
    (hp : p.IgnoresOrderOf (q.reaching h.accepted)) (hq : q.IgnoresFieldOrder) (timeout : Nat) :
    (q.run (stores 1 1) timeout).run.run [h.store]
      = (.ok (Pipe.applyAll q.gathering (q.reaching h.accepted)), [h.store]) := by
  have hwell := hk.wellFormed
  have hperm := (History.contents_perm hk hs hunexpired).1
  rw [Storage.held, hflushed, List.append_nil] at hwell hperm
  exact run_of_contents hperm.symm hs.accepted hwell hfirst hp hq timeout

/-- **Opening a store again does not change what a query answers**, provided that no row has
    expired, that every tag of a row has a field and that no order of fields shows in the query.
    Counts, distinct values and facets ask no more than that (`Pipe.ignoresOrderOf_of_counts`);
    sums, averages and extremes also ask that the operation behind them is associative and
    commutative on the numbers that occur. -/
theorem same_after_reopening {config : StorageConfig} {now : Timestamp} {events : List Event}
    {h : History} (hrun : History.run config now events = .ok h)
    (hrows : ∀ rows, Event.add rows ∈ events → ∀ row ∈ rows, row.Classified)
    (hflushed : h.store.pending = []) {config' : StorageConfig} {later : Timestamp}
    (hunexpired : ∀ limit ∈ h.cutoffs ++ [cutoff later config'.retention],
      ∀ row ∈ h.accepted, limit ≤ row.timestamp)
    (hfirst : q.gathering.head? = some p) (hp : p.IgnoresOrderOf (q.reaching h.accepted))
    (hq : q.IgnoresFieldOrder) (timeout : Nat) :
    ∃ h' answer, h.step (.reopen config' later) = .ok h' ∧
      (q.run (stores 1 1) timeout).run.run [h.store] = (.ok answer, [h.store]) ∧
      (q.run (stores 1 1) timeout).run.run [h'.store] = (.ok answer, [h'.store]) := by
  have hboth : ∀ rows, Event.add rows ∈ events → ∀ row ∈ rows, row.WellFormed ∧ row.Classified :=
    fun rows hadd row hrow => ⟨(hrows rows hadd row hrow).wellFormed, hrows rows hadd row hrow⟩
  have hk := History.kept_run (fun rows hadd row hrow => (hboth rows hadd row hrow).1) hrun
  have hs := History.sourced_run hboth hrun
  -- the rows of the journal are as recent as those that were accepted
  have hrecent : ∀ row ∈ Storage.replayed h.store.journal.file,
      cutoff later config'.retention ≤ row.timestamp := by
    intro row hrow
    obtain ⟨source, hsource, heq⟩ := List.mem_map.1 (hs.replayed (List.mem_map_of_mem hrow))
    exact le_of_le_of_eq (hunexpired _ (by simp) source hsource)
      (congrArg StoredRow.Content.timestamp heq)
  obtain ⟨store, hopen, hpending⟩ := Storage.ofFile_of_unexpired hrecent
  have hk' := History.kept_reopen hk hopen
  have hs' := History.sourced_reopen hk hs hopen
  have hbefore := run_of_sourced hk hs
    (fun limit hlimit => hunexpired limit (List.mem_append_left _ hlimit)) hflushed hfirst hp hq
    timeout
  have hafter := run_of_sourced hk' hs' hunexpired hpending hfirst hp hq timeout
  refine ⟨_, _, ?_, hbefore, hafter⟩
  simp only [History.step, hopen]
  rfl

/-! ### Two rows with their fields in different orders -/

/-- A row of an application as it is classified, the field `n` in front of or behind it. -/
def sampleClassified (t : Timestamp) (fields : List Field) : StoredRow :=
  ({ streamFields := some ["app"] } : Classifier).apply 0 ⟨some t, [], fields⟩

theorem classified_sampleClassified (t : Timestamp) (fields : List Field) :
    (sampleClassified t fields).Classified :=
  ⟨_, _, _, rfl, fun h => nomatch h.1⟩

/-- The store is opened once between the two additions. -/
def sampleReopened : List Event :=
  [.add [sampleClassified 18 [⟨"n", "1"⟩, ⟨"app", "a"⟩]], .reopen ⟨100, 0, false⟩ 20,
    .add [sampleClassified 18 [⟨"app", "a"⟩, ⟨"n", "1"⟩]], .flush 30]

/-- How many rows and values of `n` each application has. -/
def sampleValues : StatsPipe :=
  ⟨[⟨"app", none⟩], [⟨.count, [], "rows"⟩, ⟨.countUniq, ["n"], "values"⟩]⟩

def sampleValuesQuery : Query where
  filter := .not (.exact "n" "")
  pipes := [.stats sampleValues]

theorem same_values_after_reopening :
    ∃ h, History.run ⟨100, 0, false⟩ 10 sampleReopened = .ok h ∧ h.accepted.length = 2 ∧
      ∃ h' answer, h.step (.reopen ⟨50, 0, false⟩ 40) = .ok h' ∧
        (sampleValuesQuery.run (stores 1 1) 0).run.run [h.store] = (.ok answer, [h.store]) ∧
        (sampleValuesQuery.run (stores 1 1) 0).run.run [h'.store] = (.ok answer, [h'.store]) := by
  have hsummary : ((History.run ⟨100, 0, false⟩ 10 sampleReopened).toOption.map fun h =>
      (h.cutoffs, h.accepted.map (·.timestamp), h.store.pending))
        = some ([-90, -80, -70], [18, 18], []) := by decide +kernel
  have hrows : ∀ rows, Event.add rows ∈ sampleReopened → ∀ row ∈ rows, row.Classified := by
    intro rows hadd row hrow
    simp only [sampleReopened, List.mem_cons, Event.add.injEq, reduceCtorEq, List.not_mem_nil,
      or_false, false_or] at hadd
    rcases hadd with rfl | rfl <;> rw [List.mem_singleton.1 hrow] <;>
      exact classified_sampleClassified ..
  cases hrun : History.run ⟨100, 0, false⟩ 10 sampleReopened with
  | error e =>
    rw [hrun] at hsummary
    contradiction
  | ok h =>
    rw [hrun] at hsummary
    obtain ⟨hcutoffs, haccepted, hflushed⟩ : h.cutoffs = [-90, -80, -70] ∧
        h.accepted.map (·.timestamp) = [18, 18] ∧ h.store.pending = [] := by
      simpa [Except.toOption] using hsummary
    have hlength : h.accepted.length = 2 := by
      simpa using congrArg List.length haccepted
    have htime : ∀ row ∈ h.accepted, row.timestamp = 18 := by
      intro row hrow
      have hmem : row.timestamp ∈ h.accepted.map (·.timestamp) := List.mem_map_of_mem hrow
      simpa [haccepted] using hmem
    have hunexpired : ∀ limit ∈ h.cutoffs ++ [cutoff 40 (StorageConfig.mk 50 0 false).retention],
        ∀ row ∈ h.accepted, limit ≤ row.timestamp := by
      intro limit hlimit row hrow
      rw [htime row hrow]
      rw [hcutoffs, show cutoff 40 (StorageConfig.mk 50 0 false).retention = -10 from rfl] at hlimit
      simp only [List.mem_append, List.mem_cons, List.not_mem_nil, or_false] at hlimit
      rcases hlimit with (rfl | rfl | rfl) | rfl <;> decide
    have hfirst : sampleValuesQuery.gathering.head? = some (.stats sampleValues) := rfl
    have hfields : sampleValuesQuery.IgnoresFieldOrder := by
      refine Or.inr fun p hp => ?_
      rw [hfirst, Option.mem_some_iff] at hp
      subst hp
      show ∀ f ∈ sampleValues.funcs, f.IgnoresFieldOrder
      decide
    have hcounts : ∀ f ∈ sampleValues.funcs, f.kind = .count ∨ f.kind = .countUniq := by decide
    exact ⟨h, rfl, hlength, same_after_reopening hrun hrows hflushed hunexpired hfirst
      (Pipe.ignoresOrderOf_of_counts hcounts _) hfields 0⟩

end Query

end Logbook
