import Logbook.Proofs.Query.Stats
import Logbook.Query.Plan

set_option autoImplicit false

/-! # Partial statistics of other queries

The groups that shards send are compared with one another and never with the functions they are
asked for. They merge exactly if any two groups of one key have states of the same kinds
(`PartialStats.mergeGroups_eq_none_iff`). So states of another query are found out where a group of
their key has the states of this one, and nowhere else
(**`PartialResult.merge_stats_accepts_iff`**). -/

namespace Logbook

/-! ## States -/

namespace StatsState

/-- States of one kind merge into a state of that kind. -/
theorem exists_merge_of_kind_eq {a b : StatsState} (h : a.kind = b.kind) :
    ∃ s, a.merge b = .ok s ∧ s.kind = a.kind := by
  cases a <;> cases b <;> first | exact ⟨_, rfl, rfl⟩ | cases h

theorem kind_eq_of_merge {a b s : StatsState} (h : a.merge b = .ok s) : a.kind = b.kind := by
  cases a <;> cases b <;> first | rfl | cases h

end StatsState

/-! ## Groups -/

namespace PartialStats

open SortedMap (Sorted sorted_nil sorted_alter get?_alter_self get?_alter_of_ne)

/-- The kinds of the states of a group, one after the other. -/
def shape (states : List StatsState) : List StatsKind :=
  states.map StatsState.kind

/-- Groups of one key have one shape. -/
def OneShape (groups : List (List String × List StatsState)) : Prop :=
  ∀ g ∈ groups, ∀ h ∈ groups, g.1 = h.1 → shape g.2 = shape h.2

theorem oneShape_cons {g : List String × List StatsState}
    {rest : List (List String × List StatsState)} :
    OneShape (g :: rest) ↔ (∀ h ∈ rest, g.1 = h.1 → shape g.2 = shape h.2) ∧ OneShape rest := by
  constructor
  · intro hall
    exact ⟨fun h hh => hall g List.mem_cons_self h (List.mem_cons_of_mem _ hh),
      fun a ha b hb => hall a (List.mem_cons_of_mem _ ha) b (List.mem_cons_of_mem _ hb)⟩
  · rintro ⟨hfirst, hrest⟩ a ha b hb hkey
    rcases List.mem_cons.1 ha with rfl | ha'
    · rcases List.mem_cons.1 hb with rfl | hb'
      · rfl
      · exact hfirst b hb' hkey
    · rcases List.mem_cons.1 hb with rfl | hb'
      · exact (hfirst a ha' hkey.symm).symm
      · exact hrest a ha' b hb' hkey

/-- States of one shape merge into states of that shape. -/
theorem mergeStates_of_shape_eq {old new : List StatsState} (h : shape old = shape new) :
    (mergeStates old new).2 = none ∧ shape (mergeStates old new).1 = shape old := by
  induction old generalizing new with
  | nil => exact ⟨rfl, rfl⟩
  | cons a old ih =>
    cases new with
    | nil => cases h
    | cons b new =>
      obtain ⟨hkind, hrest⟩ := List.cons.inj h
      obtain ⟨s, hs, hkept⟩ := StatsState.exists_merge_of_kind_eq hkind
      obtain ⟨hnone, hshape⟩ := ih hrest
      simp only [mergeStates, hs]
      exact ⟨hnone, congrArg₂ List.cons hkept hshape⟩

theorem shape_eq_of_mergeStates {old new : List StatsState} (hlength : old.length = new.length)
    (h : (mergeStates old new).2 = none) : shape old = shape new := by
  induction old generalizing new with
  | nil => rw [List.length_eq_zero_iff.1 hlength.symm]
  | cons a old ih =>
    cases new with
    | nil => cases hlength
    | cons b new =>
      simp only [mergeStates] at h
      cases hs : a.merge b with
      | error e => simp [hs] at h
      | ok s =>
        rw [hs] at h
        exact congrArg₂ List.cons (StatsState.kind_eq_of_merge hs)
          (ih (Nat.succ.inj hlength) h)

/-- The group has the shape of the one with its key, if there is one. -/
def Admits (p : PartialStats) (g : List String × List StatsState) : Prop :=
  ∀ old, SortedMap.get? p g.1 = some old → shape old = shape g.2

/-- A group that is admitted merges and keeps its shape. -/
theorem Admits.exists_mergeGroup {p : PartialStats} {key : List String} {states : List StatsState}
    (h : p.Admits (key, states)) :
    ∃ states', mergeGroup p key states = (SortedMap.insert p key states', none) ∧
      shape states' = shape states := by
  cases hold : SortedMap.get? p key with
  | none => exact ⟨states, by rw [mergeGroup, hold], rfl⟩
  | some old =>
    have hshape := h old hold
    have hlength : old.length = states.length := by
      simpa [shape] using congrArg List.length hshape
    obtain ⟨hnone, hkept⟩ := mergeStates_of_shape_eq hshape
    refine ⟨(mergeStates old states).1, ?_, hkept.trans hshape⟩
    simp only [mergeGroup, hold, hlength, ne_eq, not_true_eq_false, if_false, hnone]

/-- A group of another shape is refused. -/
theorem admits_of_mergeGroup {p : PartialStats} {key : List String} {states : List StatsState}
    (h : (mergeGroup p key states).2 = none) : p.Admits (key, states) := by
  intro old hold
  simp only [mergeGroup, hold] at h
  split at h
  · cases h
  · next hlength => exact shape_eq_of_mergeStates (not_not.1 hlength) h

/-- With a group of its shape put in, what is admitted of the key has that shape. -/
theorem Admits.insert_iff {p : PartialStats} (hp : Sorted p) {key : List String}
    {states states' : List StatsState} (h : p.Admits (key, states))
    (hshape : shape states' = shape states) (g : List String × List StatsState) :
    Admits (SortedMap.insert p key states') g ↔
      p.Admits g ∧ (key = g.1 → shape states = shape g.2) := by
  by_cases hkey : key = g.1
  · have hself : SortedMap.get? (SortedMap.insert p key states') g.1 = some states' :=
      hkey ▸ get?_alter_self hp key _
    rw [Admits, hself]
    constructor
    · intro hg
      have hgroup : shape states = shape g.2 := hshape.symm.trans (hg states' rfl)
      exact ⟨fun old hold => (h old (hkey.symm ▸ hold)).trans hgroup, fun _ => hgroup⟩
    · rintro ⟨-, hgroup⟩ _ ⟨⟩
      exact hshape.trans (hgroup hkey)
  · have hother : SortedMap.get? (SortedMap.insert p key states') g.1 = SortedMap.get? p g.1 :=
      get?_alter_of_ne p _ (Ne.symm hkey)
    rw [Admits, hother]
    exact (and_iff_left fun h => absurd h hkey).symm

/-- **Groups merge exactly if those of one key have one shape**, the groups before them included. -/
theorem mergeGroups_eq_none_iff {p : PartialStats} (hp : Sorted p)
    (groups : List (List String × List StatsState)) :
    (mergeGroups p groups).2 = none ↔ (∀ g ∈ groups, p.Admits g) ∧ OneShape groups := by
  induction groups generalizing p with
  | nil => simp [mergeGroups, OneShape]
  | cons g rest ih =>
    obtain ⟨key, states⟩ := g
    by_cases hfirst : p.Admits (key, states)
    · obtain ⟨states', hgroup, hshape⟩ := hfirst.exists_mergeGroup
      rw [mergeGroups, hgroup]
      calc (mergeGroups (SortedMap.insert p key states') rest).2 = none
        _ ↔ (∀ g ∈ rest, Admits (SortedMap.insert p key states') g) ∧ OneShape rest :=
            ih (sorted_alter hp key _)
        _ ↔ ((∀ g ∈ rest, p.Admits g) ∧ ∀ g ∈ rest, key = g.1 → shape states = shape g.2) ∧
              OneShape rest := by
            simp only [hfirst.insert_iff hp hshape, forall_and]
        _ ↔ (∀ g ∈ (key, states) :: rest, p.Admits g) ∧ OneShape ((key, states) :: rest) := by
            rw [oneShape_cons, List.forall_mem_cons, and_iff_right hfirst, and_assoc]
    · refine iff_of_false (fun h => hfirst ?_) fun h => hfirst (h.1 _ List.mem_cons_self)
      cases hgroup : mergeGroup p key states with
      | mk p' e =>
        cases e with
        | some e => simp [mergeGroups, hgroup] at h
        | none => exact admits_of_mergeGroup (by rw [hgroup])

/-- Merging groups behind others starts from what the others merged into. -/
theorem mergeGroups_append (p : PartialStats) (front back : List (List String × List StatsState)) :
    mergeGroups p (front ++ back) = match mergeGroups p front with
      | (p, some e) => (p, some e)
      | (p, none) => mergeGroups p back := by
  induction front generalizing p with
  | nil => rfl
  | cons g front ih =>
    obtain ⟨key, states⟩ := g
    rw [List.cons_append, mergeGroups, mergeGroups]
    cases mergeGroup p key states with
    | mk p' e =>
      cases e with
      | some e => rfl
      | none => exact ih p'

theorem merge_eq_ok_iff {p q m : PartialStats} :
    p.merge q = .ok m ↔ mergeGroups p q = (m, none) := by
  rw [merge]
  split
  · next p' e h => simp [h]
  · next p' h => simp [h]

/-- The group is one that the pipe makes: it has a key for every field that the pipe groups by and a
    state for every function, of the function's kind. -/
def FitsPipe (pipe : StatsPipe) (g : List String × List StatsState) : Prop :=
  g.1.length = pipe.groupBy.length ∧ shape g.2 = pipe.funcs.map (·.kind)

end PartialStats

/-! ## Partial results -/

namespace PartialResult

open PartialStats (OneShape FitsPipe mergeGroups)

/-- The groups of a partial result, if it has statistics. -/
def groups : PartialResult → List (List String × List StatsState)
  | .stats groups => groups
  | _ => []

/-- Partial statistics merge exactly if their groups do, one after the other. -/
theorem exists_mergeStats_iff (acc : PartialStats) (partials : List PartialResult) :
    (∃ m, mergeStats acc partials = .ok m) ↔
      (∀ p ∈ partials, p.kindName = "stats") ∧
        (mergeGroups acc (partials.flatMap groups)).2 = none := by
  induction partials generalizing acc with
  | nil => exact iff_of_true ⟨acc, rfl⟩ ⟨by simp, rfl⟩
  | cons p rest ih =>
    cases p with
    | stats q =>
      rw [List.flatMap_cons, List.forall_mem_cons, groups, PartialStats.mergeGroups_append]
      cases hq : mergeGroups acc q with
      | mk m e =>
        cases e with
        | some e =>
          refine iff_of_false ?_ (by simp)
          rintro ⟨_, h⟩
          simp [mergeStats, PartialStats.merge, hq, bind, Except.bind] at h
        | none =>
          have hstep : mergeStats acc (.stats q :: rest) = mergeStats m rest := by
            rw [mergeStats, PartialStats.merge_eq_ok_iff.2 hq]
            rfl
          rw [hstep, ih m]
          simp [kindName]
    | rows list => exact iff_of_false (by simp [mergeStats]) (by simp [kindName])
    | facets counts => exact iff_of_false (by simp [mergeStats]) (by simp [kindName])

/-- **What is refused of partial statistics.** Whatever the functions asked for, partial results are
    accepted exactly if they are statistics and groups of one key have one shape. Where every key is
    that of a group that fits the functions, this is to say that all groups fit them. -/
theorem merge_stats_accepts_iff (pipe : StatsPipe) (partials : List PartialResult) :
    ((∃ rows, merge (some (.stats pipe)) partials = .ok rows) ↔
        (∀ p ∈ partials, p.kindName = "stats") ∧ OneShape (partials.flatMap groups)) ∧
      ((∀ g ∈ partials.flatMap groups, ∃ h ∈ partials.flatMap groups, h.1 = g.1 ∧ FitsPipe pipe h) →
        ((∃ rows, merge (some (.stats pipe)) partials = .ok rows) ↔
          (∀ p ∈ partials, p.kindName = "stats") ∧
            ∀ g ∈ partials.flatMap groups, FitsPipe pipe g)) := by
  have haccepts : (∃ rows, merge (some (.stats pipe)) partials = .ok rows) ↔
      (∀ p ∈ partials, p.kindName = "stats") ∧ OneShape (partials.flatMap groups) := by
    have hstats := exists_mergeStats_iff [] partials
    rw [PartialStats.mergeGroups_eq_none_iff SortedMap.sorted_nil] at hstats
    have hempty : ∀ g ∈ partials.flatMap groups, PartialStats.Admits [] g :=
      fun _ _ _ h => nomatch h
    rw [and_iff_right hempty] at hstats
    rw [← hstats]
    constructor
    · rintro ⟨rows, hrows⟩
      cases hmerge : mergeStats [] partials with
      | ok m => exact ⟨m, rfl⟩
      | error e => simp [merge, hmerge, bind, Except.bind] at hrows
    · rintro ⟨m, hm⟩
      exact ⟨m.finalize pipe, by rw [merge, hm]; rfl⟩
  refine ⟨haccepts, fun hkeys => haccepts.trans (and_congr_right fun _ => ⟨?_, ?_⟩)⟩
  · intro hshape g hg
    obtain ⟨h, hh, hkey, hfits⟩ := hkeys g hg
    exact ⟨hkey ▸ hfits.1, (hshape g hg h hh hkey.symm).trans hfits.2⟩
  · intro hfits g hg h hh _
    exact (hfits g hg).2.trans (hfits h hh).2.symm

/-- A sum is refused where a count of its group arrives. -/
theorem sum_refused_beside_count :
    ¬ ∃ rows, merge (some (.stats ⟨[⟨"f", none⟩], [⟨.count, [], "n"⟩]⟩))
      [.stats [(["a"], [.count 1])], .stats [(["a"], [.sum none])]] = .ok rows := by
  intro hok
  have hfits := ((merge_stats_accepts_iff ⟨[⟨"f", none⟩], [⟨.count, [], "n"⟩]⟩
    [.stats [(["a"], [.count 1])], .stats [(["a"], [.sum none])]]).2 ?keys).1 hok
  · exact absurd (hfits.2 (["a"], [.sum none]) (by simp [groups])).2 (by decide)
  · -- both groups have the key of the count
    simp [groups, FitsPipe, PartialStats.shape, StatsState.kind]

/-- A sum passes for a count where no count of the group arrives. -/
example : merge (some (.stats ⟨[], [⟨.count, [], "n"⟩]⟩)) [.stats [([], [.sum none])]]
    = .ok [⟨none, [⟨"n", "NaN"⟩]⟩] := rfl

end PartialResult

end Logbook
