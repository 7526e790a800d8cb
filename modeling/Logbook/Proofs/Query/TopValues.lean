import Mathlib.Data.List.Dedup
import Mathlib.Data.List.Permutation
import Mathlib.Data.String.Basic
import Logbook.Proofs.Json.Numbers
import Logbook.Proofs.Query.Facets
import Logbook.Search.FacetGroups

set_option autoImplicit false

/-! # The most frequent values

Counts that come together by counting rows and by merging, in any way, are the numbers of times that
each value of each field occurs in the rows (`PartialFacets.Counts.get?_hits`). What is listed of
them is one group for each field that has a value to list and is not constant, in the order of the
names, and in it the first values in the order of their counts (**`groups_list_top_values`**). -/

namespace Logbook

namespace FacetsPipe

/-- The value of a field that counts, with the name of the field and cut to length. -/
def valueOf? (pipe : FacetsPipe) (f : Field) : Option (String × String) :=
  if f.value = "" ∨ f.name = timeName then none
  else some (f.name, takeChars f.value pipe.maxValueLength)

/-- The values of a row that count. -/
def valuesOf (pipe : FacetsPipe) (row : QueryRow) : List (String × String) :=
  row.fields.filterMap pipe.valueOf?

end FacetsPipe

namespace PartialFacets

open SortedMap (Sorted get? get?_alter_self get?_alter_of_ne get?_merge sorted_nil sorted_merge)

/-! ## Counts of rows -/

/-- Counts that come from rows, each counted for a pipe, in any number of parts that are merged. -/
inductive Counts : PartialFacets → List (FacetsPipe × QueryRow) → Prop
  | empty : Counts .empty []
  | addRow {p rows} (pipe : FacetsPipe) (row : QueryRow) (h : Counts p rows) :
    Counts (p.addRow pipe row) (rows ++ [(pipe, row)])
  | merge {p q rows rows'} (hp : Counts p rows) (hq : Counts q rows') :
    Counts (p.merge q) (rows ++ rows')

/-- The values of fields that count in rows, in the order in which they are met. -/
def seen (rows : List (FacetsPipe × QueryRow)) : List (String × String) :=
  rows.flatMap fun r => r.1.valuesOf r.2

/-- How often each value of a field is counted. -/
def hits (p : PartialFacets) (name : String) : SortedMap String Nat :=
  (get? p.fields name).getD []

/-- How often a value of a field is counted that was seen so often, in sixty-four bits. -/
def tally (seen : List (String × String)) (name value : String) : Option Nat :=
  if (name, value) ∈ seen then some (seen.count (name, value) % UInt64.size) else none

theorem tally_append (seen seen' : List (String × String)) (name value : String) :
    tally (seen ++ seen') name value
      = Option.merge addHits (tally seen name value) (tally seen' name value) := by
  simp only [tally, List.mem_append, List.count_append]
  by_cases h : (name, value) ∈ seen <;> by_cases h' : (name, value) ∈ seen'
  · simp [h, h', addHits]
  · simp [h, h', List.count_eq_zero_of_not_mem h']
  · simp [h, h', List.count_eq_zero_of_not_mem h]
  · simp [h, h']

theorem WellFormed.sorted_hits {p : PartialFacets} (h : WellFormed p) (name : String) :
    Sorted (p.hits name) := by
  unfold hits
  cases hget : get? p.fields name with
  | none => exact sorted_nil
  | some values => exact h.sorted_values hget

theorem wellFormed_merge {p q : PartialFacets} (hp : WellFormed p) (hq : WellFormed q) :
    WellFormed (p.merge q) := by
  refine ⟨addHits_lt .., sorted_merge hp.sorted .., fun {name values} hget => ?_⟩
  rw [merge, get?_merge hp.sorted hq.sorted] at hget
  cases hleft : get? p.fields name <;> cases hright : get? q.fields name <;>
    rw [hleft, hright] at hget <;> cases hget
  · exact hq.sorted_values hright
  · exact hp.sorted_values hleft
  · exact sorted_merge (hp.sorted_values hleft) ..

theorem Counts.wellFormed {p : PartialFacets} {rows : List (FacetsPipe × QueryRow)}
    (h : Counts p rows) : WellFormed p := by
  induction h with
  | empty => exact wellFormed_empty
  | addRow pipe row h ih => exact wellFormed_addRow ih pipe row
  | merge hp hq ihp ihq => exact wellFormed_merge ihp ihq

theorem merge_addHits_assoc (a b c : Option Nat) :
    Option.merge addHits (Option.merge addHits a b) c
      = Option.merge addHits a (Option.merge addHits b c) := by
  cases a <;> cases b <;> cases c <;> simp [addHits_assoc]

theorem get?_hits_addField {p : PartialFacets} (h : WellFormed p) (pipe : FacetsPipe) (f : Field)
    (name value : String) :
    get? (hits { p with fields := addField pipe p.fields f } name) value
      = Option.merge addHits (get? (p.hits name) value)
          (tally (pipe.valueOf? f).toList name value) := by
  by_cases hf : f.value = "" ∨ f.name = timeName
  · simp only [addField, FacetsPipe.valueOf?, if_pos hf]
    exact (Option.merge_none_right ..).symm
  simp only [addField, FacetsPipe.valueOf?, if_neg hf, Option.toList_some, tally,
    List.mem_singleton, Prod.mk.injEq]
  by_cases hname : name = f.name
  · subst hname
    rw [hits, get?_alter_self h.sorted, Option.getD_some, ← hits, addValue]
    by_cases hvalue : value = takeChars f.value pipe.maxValueLength
    · rw [hvalue, get?_alter_self (h.sorted_hits _), if_pos ⟨rfl, rfl⟩]
      cases get? (p.hits f.name) _ <;> simp [addHits]
    · rw [get?_alter_of_ne _ _ hvalue, if_neg fun h => hvalue h.2, Option.merge_none_right]
  · rw [hits, get?_alter_of_ne _ _ hname, if_neg fun h => hname h.1, Option.merge_none_right]
    rfl

theorem get?_hits_addRow {p : PartialFacets} (h : WellFormed p) (pipe : FacetsPipe) (row : QueryRow)
    (name value : String) :
    get? ((p.addRow pipe row).hits name) value
      = Option.merge addHits (get? (p.hits name) value) (tally (pipe.valuesOf row) name value) := by
  have hfields : ∀ (fields : List Field) (p : PartialFacets), WellFormed p →
      get? ((p.addFields pipe fields).hits name) value
        = Option.merge addHits (get? (p.hits name) value)
            (tally (fields.filterMap pipe.valueOf?) name value) := by
    intro fields
    induction fields with
    | nil => exact fun p _ => (Option.merge_none_right ..).symm
    | cons f fields ih =>
      intro p h
      have hcons : (f :: fields).filterMap pipe.valueOf?
          = (pipe.valueOf? f).toList ++ fields.filterMap pipe.valueOf? := by
        cases hvalue : pipe.valueOf? f <;> simp [hvalue]
      refine (ih _ (wellFormed_addField h pipe f)).trans ?_
      rw [get?_hits_addField h, hcons, tally_append, merge_addHits_assoc]
  exact hfields row.fields p h

theorem get?_hits_merge {p q : PartialFacets} (hp : WellFormed p) (hq : WellFormed q)
    (name value : String) :
    get? ((p.merge q).hits name) value
      = Option.merge addHits (get? (p.hits name) value) (get? (q.hits name) value) := by
  unfold hits
  rw [merge, get?_merge hp.sorted hq.sorted]
  cases hleft : get? p.fields name with
  | none =>
    cases get? q.fields name with
    | none => rfl
    | some values => exact (Option.merge_none_left ..).symm
  | some values =>
    cases hright : get? q.fields name with
    | none => exact (Option.merge_none_right ..).symm
    | some values' => exact get?_merge (hp.sorted_values hleft) (hq.sorted_values hright) ..

namespace Counts

variable {p : PartialFacets} {rows : List (FacetsPipe × QueryRow)}

theorem rows_eq (h : Counts p rows) : p.rows = rows.length % UInt64.size := by
  induction h with
  | empty => rfl
  | addRow pipe row h ih => simp [PartialFacets.addRow, addHits, ih]
  | merge hp hq ihp ihq => simp [PartialFacets.merge, addHits, ihp, ihq]

/-- **What is counted is how often each value occurs.** -/
theorem get?_hits (h : Counts p rows) (name value : String) :
    get? (p.hits name) value = tally (seen rows) name value := by
  induction h with
  | empty => rfl
  | addRow pipe row h ih =>
    rw [get?_hits_addRow h.wellFormed, ih, seen, seen, List.flatMap_append, tally_append,
      List.flatMap_singleton]
  | merge hp hq ihp ihq =>
    rw [get?_hits_merge hp.wellFormed hq.wellFormed, ihp, ihq, seen, seen, seen,
      List.flatMap_append, tally_append]

theorem mem_hits (h : Counts p rows) {name : String} {e : String × Nat} :
    e ∈ p.hits name ↔ tally (seen rows) name e.1 = some e.2 := by
  rw [← h.get?_hits]
  exact SortedMap.mem_iff_get? (h.wellFormed.sorted_hits name)

theorem hits_lt (h : Counts p rows) {name : String} {e : String × Nat} (he : e ∈ p.hits name) :
    e.2 < UInt64.size := by
  rw [h.mem_hits, tally, Option.ite_none_right_eq_some] at he
  rw [← Option.some.inj he.2]
  exact Nat.mod_lt _ (by decide)

theorem exists_mem_hits (h : Counts p rows) {name value : String} :
    (∃ n, (value, n) ∈ p.hits name) ↔ (name, value) ∈ seen rows := by
  simp [h.mem_hits, tally]

theorem hits_eq_nil (h : Counts p rows) {name : String} :
    p.hits name = [] ↔ ∀ value, (name, value) ∉ seen rows := by
  simp only [← h.exists_mem_hits, List.eq_nil_iff_forall_not_mem, Prod.forall, not_exists]

/-- One value is counted if and only if it is the only one that is met. -/
theorem hits_eq_singleton (h : Counts p rows) {name value : String} {n : Nat} :
    p.hits name = [(value, n)] ↔
      (∀ v, (name, v) ∈ seen rows ↔ v = value) ∧
        (seen rows).count (name, value) % UInt64.size = n := by
  constructor
  · intro heq
    have hmem : ∀ v m, tally (seen rows) name v = some m ↔ v = value ∧ m = n := by
      intro v m
      rw [← h.mem_hits (e := (v, m)), heq, List.mem_singleton, Prod.mk.injEq]
    have hvalue := (hmem value n).2 ⟨rfl, rfl⟩
    rw [tally, Option.ite_none_right_eq_some, Option.some.injEq] at hvalue
    refine ⟨fun v => ⟨fun hv => ?_, fun hv => hv ▸ hvalue.1⟩, hvalue.2⟩
    exact ((hmem v _).1 (if_pos hv)).1
  · rintro ⟨hmem, hcount⟩
    refine SortedMap.eq_of_get? (h.wellFormed.sorted_hits name) (List.pairwise_singleton ..) ?_
    intro v
    rw [h.get?_hits, tally]
    by_cases hv : v = value
    · subst hv
      rw [if_pos ((hmem v).2 rfl), hcount, SortedMap.get?_cons_self]
    · rw [if_neg (mt (hmem v).1 hv), SortedMap.get?_cons_of_ne _ _ hv]
      rfl

/-- As many values are counted as different ones are met. -/
theorem length_hits (h : Counts p rows) (name : String) :
    (p.hits name).length = ((seen rows).filter (·.1 = name)).dedup.length := by
  have hkeys : ((p.hits name).map fun e => (name, e.1)).Nodup := by
    refine List.pairwise_map.2 ((h.wellFormed.sorted_hits name).imp fun hlt heq => ?_)
    rw [(Prod.mk.inj heq).2, Std.ReflOrd.compare_self] at hlt
    cases hlt
  rw [← List.length_map (fun e => (name, e.1))]
  refine List.Perm.length_eq ((List.perm_ext_iff_of_nodup hkeys (List.nodup_dedup _)).2 ?_)
  rintro ⟨name', value⟩
  rw [List.mem_dedup, List.mem_filter]
  constructor
  · intro he
    obtain ⟨⟨v, n⟩, hmem, heq⟩ := List.mem_map.1 he
    obtain ⟨rfl, rfl⟩ := Prod.mk.inj heq
    exact ⟨h.exists_mem_hits.1 ⟨n, hmem⟩, decide_eq_true rfl⟩
  · rintro ⟨he, hname⟩
    obtain rfl := of_decide_eq_true hname
    obtain ⟨n, hn⟩ := h.exists_mem_hits.2 he
    exact List.mem_map.2 ⟨_, hn, rfl⟩

end Counts

/-! ## The order of values -/

/-- A value comes before another one: it has more hits, or as many and is the lesser text. -/
def Precedes (a b : String × Nat) : Prop :=
  b.2 < a.2 ∨ a.2 = b.2 ∧ a.1 < b.1

theorem valueLe_iff {a b : String × Nat} :
    valueLe a b = true ↔ b.2 < a.2 ∨ a.2 = b.2 ∧ a.1 ≤ b.1 := by
  simp [valueLe, compare_le_iff_le]

theorem valueLe_trans (a b c : String × Nat) (hab : valueLe a b = true) (hbc : valueLe b c = true) :
    valueLe a c = true := by
  rw [valueLe_iff] at *
  rcases hab with hab | ⟨hab, htext⟩ <;> rcases hbc with hbc | ⟨hbc, htext'⟩
  · exact .inl (hbc.trans hab)
  · exact .inl (hbc ▸ hab)
  · exact .inl (hab ▸ hbc)
  · exact .inr ⟨hab.trans hbc, htext.trans htext'⟩

theorem valueLe_total (a b : String × Nat) : (valueLe a b || valueLe b a) = true := by
  rw [Bool.or_eq_true, valueLe_iff, valueLe_iff]
  rcases lt_trichotomy a.2 b.2 with h | h | h
  · exact .inr (.inl h)
  · exact (le_total a.1 b.1).imp (fun hle => .inr ⟨h, hle⟩) fun hle => .inr ⟨h.symm, hle⟩
  · exact .inl (.inl h)

/-- The values of a field in their order. -/
theorem pairwise_mergeSort {values : SortedMap String Nat} (h : Sorted values) :
    (values.mergeSort valueLe).Pairwise Precedes := by
  have hperm := List.mergeSort_perm values valueLe
  have hne : (values.mergeSort valueLe).Pairwise fun a b => a.1 ≠ b.1 := by
    refine hperm.symm.pairwise (h.imp fun hlt heq => ?_) fun hne => hne.symm
    rw [heq, Std.ReflOrd.compare_self] at hlt
    cases hlt
  refine (hne.and (List.pairwise_mergeSort valueLe_trans valueLe_total values)).imp ?_
  rintro a b ⟨hne, hle⟩
  exact (valueLe_iff.1 hle).imp_right fun h => ⟨h.1, lt_of_le_of_ne h.2 hne⟩

/-! ## Groups of rows -/

/-- The values that are listed of a field. -/
def listed (p : PartialFacets) (pipe : FacetsPipe) (values : SortedMap String Nat) :
    List (String × Nat) :=
  if !pipe.keepConstFields && isConst p values then []
  else (values.mergeSort valueLe).take (min pipe.limit pipe.maxValuesPerField)

theorem finalize_eq (p : PartialFacets) (pipe : FacetsPipe) :
    p.finalize pipe
      = p.fields.flatMap fun e => (listed p pipe e.2).map (renderValue e.1) := by
  refine congrArg (List.flatMap · p.fields) (funext ?_)
  rintro ⟨name, values⟩
  dsimp only [listed]
  split <;> rfl

theorem isConst_iff {p : PartialFacets} {values : SortedMap String Nat} :
    isConst p values = true ↔ ∃ value, values = [(value, p.rows)] := by
  unfold isConst
  split
  · next value hits => simp
  · next hnot =>
    refine iff_of_false Bool.false_ne_true ?_
    rintro ⟨value, rfl⟩
    exact hnot value p.rows rfl

/-- Rows for the values of one field form one group in front of groups of other fields. -/
theorem foldr_push_renderValue {name : String} {values : List (String × Nat)}
    {groups : List FacetGroup} (hvalues : ∀ v ∈ values, v.2 < UInt64.size)
    (hgroups : ∀ g ∈ groups, g.field ≠ name) :
    (values.map (renderValue name)).foldr FacetGroup.push groups
      = if values = [] then groups else ⟨name, values⟩ :: groups := by
  induction values with
  | nil => rfl
  | cons v values ih =>
    rw [List.forall_mem_cons] at hvalues
    have hread : FacetGroup.hits (renderValue name v) = v.2 := by
      have htext : (renderValue name v).value "hits" = toString v.2 := rfl
      rw [FacetGroup.hits, htext, Decimal.readUInt64?_toString hvalues.1, Option.getD_some]
    have hfirst : FacetGroup.push (renderValue name v) [] = [⟨name, [v]⟩] := by
      unfold FacetGroup.push
      rw [hread]
      rfl
    have hpush : ∀ g rest, FacetGroup.push (renderValue name v) (g :: rest)
        = if g.field = name then { g with values := v :: g.values } :: rest
          else ⟨name, [v]⟩ :: g :: rest := by
      intro g rest
      unfold FacetGroup.push
      rw [hread]
      rfl
    rw [List.map_cons, List.foldr_cons, ih hvalues.2, if_neg (List.cons_ne_nil v values)]
    cases values with
    | nil =>
      cases groups with
      | nil => exact hfirst
      | cons g rest => exact (hpush g rest).trans (if_neg (hgroups g List.mem_cons_self))
    | cons v' values => exact (hpush _ groups).trans (if_pos rfl)

/-- The groups of rows for the values of fields with distinct names. -/
theorem ofRows_flatMap {fields : List (String × List (String × Nat))}
    (hvalues : ∀ e ∈ fields, ∀ v ∈ e.2, v.2 < UInt64.size) (hnames : (fields.map (·.1)).Nodup) :
    FacetGroup.ofRows (fields.flatMap fun e => e.2.map (renderValue e.1))
      = (fields.filter (·.2 ≠ [])).map fun e => ⟨e.1, e.2⟩ := by
  induction fields with
  | nil => rfl
  | cons e fields ih =>
    rw [List.forall_mem_cons] at hvalues
    rw [List.map_cons, List.nodup_cons] at hnames
    rw [List.flatMap_cons, FacetGroup.ofRows, List.foldr_append, ← FacetGroup.ofRows,
      ih hvalues.2 hnames.2, foldr_push_renderValue hvalues.1]
    · by_cases h : e.2 = []
      · simp [h]
      · simp [h]
    · intro g hg heq
      obtain ⟨e', he', rfl⟩ := List.mem_map.1 hg
      exact hnames.1 (heq ▸ List.mem_map_of_mem (List.mem_of_mem_filter he'))

/-! ## What is listed -/

theorem hits_of_mem {p : PartialFacets} (h : WellFormed p) {e : String × SortedMap String Nat}
    (he : e ∈ p.fields) : p.hits e.1 = e.2 := by
  rw [hits, (SortedMap.mem_iff_get? h.sorted).1 he, Option.getD_some]

theorem length_listed {p : PartialFacets} {pipe : FacetsPipe} {values : SortedMap String Nat}
    (h : listed p pipe values ≠ []) :
    (listed p pipe values).length = min (min pipe.limit pipe.maxValuesPerField) values.length := by
  unfold listed at h ⊢
  split at h
  · exact absurd rfl h
  · next hconst => rw [if_neg hconst, List.length_take, List.length_mergeSort]

theorem listed_ne_nil {p : PartialFacets} {pipe : FacetsPipe} {values : SortedMap String Nat} :
    listed p pipe values ≠ [] ↔
      0 < min pipe.limit pipe.maxValuesPerField ∧ values ≠ [] ∧
        ¬(pipe.keepConstFields = false ∧ ∃ value, values = [(value, p.rows)]) := by
  have hmem : values.mergeSort valueLe = [] ↔ values = [] := by
    rw [← List.length_eq_zero_iff, List.length_mergeSort, List.length_eq_zero_iff]
  rw [← isConst_iff, listed]
  split
  · next hconst =>
    simp only [Bool.and_eq_true, Bool.not_eq_true'] at hconst
    exact iff_of_false (fun h => h rfl) fun h => h.2.2 hconst
  · next hconst =>
    simp only [Bool.and_eq_true, Bool.not_eq_true'] at hconst
    rw [Ne, List.take_eq_nil_iff, hmem, not_or, ← Ne, ← Nat.pos_iff_ne_zero]
    exact ⟨fun h => ⟨h.1, h.2, hconst⟩, fun h => ⟨h.1, h.2.1⟩⟩

/-- What is listed comes before what is left out. -/
theorem precedes_of_not_mem_listed {p : PartialFacets} {pipe : FacetsPipe}
    {values : SortedMap String Nat} (hsorted : Sorted values) {e e' : String × Nat}
    (he : e ∈ values) (hnot : e ∉ listed p pipe values) (he' : e' ∈ listed p pipe values) :
    Precedes e' e := by
  unfold listed at hnot he'
  split at he'
  · cases he'
  next hconst =>
  rw [if_neg hconst] at hnot
  have hpairwise := pairwise_mergeSort hsorted
  rw [← List.take_append_drop (min pipe.limit pipe.maxValuesPerField) (values.mergeSort valueLe),
    List.pairwise_append] at hpairwise
  refine hpairwise.2.2 e' he' e ?_
  have hmem : e ∈ values.mergeSort valueLe := (List.mergeSort_perm values valueLe).mem_iff.2 he
  rw [← List.take_append_drop (min pipe.limit pipe.maxValuesPerField) (values.mergeSort valueLe),
    List.mem_append] at hmem
  exact hmem.resolve_left hnot

theorem mem_of_mem_listed {p : PartialFacets} {pipe : FacetsPipe} {values : SortedMap String Nat}
    {e : String × Nat} (he : e ∈ listed p pipe values) : e ∈ values := by
  unfold listed at he
  split at he
  · cases he
  · exact (List.mergeSort_perm values valueLe).mem_iff.1 (List.mem_of_mem_take he)

theorem pairwise_listed (p : PartialFacets) (pipe : FacetsPipe) {values : SortedMap String Nat}
    (h : Sorted values) : (listed p pipe values).Pairwise Precedes := by
  unfold listed
  split
  · exact .nil
  · exact (pairwise_mergeSort h).sublist (List.take_sublist ..)

namespace Counts

variable {p : PartialFacets} {rows : List (FacetsPipe × QueryRow)}

/-- The groups are what is listed of each field, without the fields that list nothing. -/
theorem ofRows_finalize (h : Counts p rows) (pipe : FacetsPipe) :
    FacetGroup.ofRows (p.finalize pipe)
      = ((p.fields.map fun e => (e.1, listed p pipe e.2)).filter (·.2 ≠ [])).map
          fun e => ⟨e.1, e.2⟩ := by
  have hrows : p.finalize pipe
      = (p.fields.map fun e => (e.1, listed p pipe e.2)).flatMap
          fun e => e.2.map (renderValue e.1) := by
    rw [finalize_eq, List.flatMap_map]
  rw [hrows, ofRows_flatMap]
  · intro e he v hv
    obtain ⟨e, hmem, rfl⟩ := List.mem_map.1 he
    have hv : v ∈ p.hits e.1 := by
      rw [hits_of_mem h.wellFormed hmem]
      exact mem_of_mem_listed hv
    exact h.hits_lt hv
  · refine List.pairwise_map.2 (List.pairwise_map.2 (h.wellFormed.sorted.imp fun hlt heq => ?_))
    rw [heq, Std.ReflOrd.compare_self] at hlt
    cases hlt

theorem mem_ofRows_finalize (h : Counts p rows) {pipe : FacetsPipe} {g : FacetGroup} :
    g ∈ FacetGroup.ofRows (p.finalize pipe) ↔
      g.values = listed p pipe (p.hits g.field) ∧ g.values ≠ [] := by
  rw [h.ofRows_finalize]
  constructor
  · intro hg
    obtain ⟨_, he, rfl⟩ := List.mem_map.1 hg
    obtain ⟨he, hne⟩ := List.mem_filter.1 he
    obtain ⟨e, hmem, rfl⟩ := List.mem_map.1 he
    exact ⟨by rw [hits_of_mem h.wellFormed hmem], of_decide_eq_true hne⟩
  · rintro ⟨hvalues, hne⟩
    obtain ⟨values, hget⟩ : ∃ values, get? p.fields g.field = some values := by
      cases hget : get? p.fields g.field with
      | some values => exact ⟨values, rfl⟩
      | none =>
        rw [hvalues, listed_ne_nil, hits, hget] at hne
        exact absurd rfl hne.2.1
    have hhits : p.hits g.field = values := by rw [hits, hget, Option.getD_some]
    refine List.mem_map.2 ⟨(g.field, g.values), List.mem_filter.2 ⟨?_, decide_eq_true hne⟩, rfl⟩
    rw [hvalues, hhits]
    exact List.mem_map.2 ⟨_, (SortedMap.mem_iff_get? h.wellFormed.sorted).2 hget, rfl⟩

theorem pairwise_fields (h : Counts p rows) (pipe : FacetsPipe) :
    ((FacetGroup.ofRows (p.finalize pipe)).map (·.field)).Pairwise (· < ·) := by
  rw [h.ofRows_finalize, List.map_map, List.pairwise_map]
  refine List.Pairwise.filter _ (List.pairwise_map.2 (h.wellFormed.sorted.imp fun hlt => ?_))
  exact compare_lt_iff_lt.1 hlt

end Counts

/-- **Facets are the most frequent values.** What is listed for counts of rows is, in the order of
the names, one group for each field that was met with a value, unless nothing at all is to be listed
or constant fields are left out and this field has one value, with as many hits as there are rows. A
group lists as many values as the pipe allows, or all, each with the number of times it was met (a
64-bit count), and each comes before all that follow and all that are left out. -/
theorem groups_list_top_values {p : PartialFacets} {rows : List (FacetsPipe × QueryRow)}
    (h : Counts p rows) (pipe : FacetsPipe) :
    ((FacetGroup.ofRows (p.finalize pipe)).map (·.field)).Pairwise (· < ·) ∧
    (∀ name, name ∈ (FacetGroup.ofRows (p.finalize pipe)).map (·.field) ↔
      0 < min pipe.limit pipe.maxValuesPerField ∧ (∃ value, (name, value) ∈ seen rows) ∧
        ¬(pipe.keepConstFields = false ∧ ∃ value, (∀ v, (name, v) ∈ seen rows ↔ v = value) ∧
          (seen rows).count (name, value) % UInt64.size = rows.length % UInt64.size)) ∧
    ∀ g ∈ FacetGroup.ofRows (p.finalize pipe),
      g.values.length = min (min pipe.limit pipe.maxValuesPerField)
        ((seen rows).filter (·.1 = g.field)).dedup.length ∧
      g.values.Pairwise Precedes ∧
      (∀ e ∈ g.values, (g.field, e.1) ∈ seen rows ∧
        e.2 = (seen rows).count (g.field, e.1) % UInt64.size) ∧
      ∀ value, (g.field, value) ∈ seen rows → value ∉ g.values.map (·.1) →
        ∀ e ∈ g.values,
          Precedes e (value, (seen rows).count (g.field, value) % UInt64.size) := by
  refine ⟨h.pairwise_fields pipe, fun name => ?_, fun g hg => ?_⟩
  · have hgroup : name ∈ (FacetGroup.ofRows (p.finalize pipe)).map (·.field) ↔
        listed p pipe (p.hits name) ≠ [] := by
      rw [List.mem_map]
      constructor
      · rintro ⟨g, hg, rfl⟩
        obtain ⟨hvalues, hne⟩ := h.mem_ofRows_finalize.1 hg
        exact hvalues ▸ hne
      · exact fun hne => ⟨⟨name, _⟩, h.mem_ofRows_finalize.2 ⟨rfl, hne⟩, rfl⟩
    rw [hgroup, listed_ne_nil, Ne, h.hits_eq_nil]
    simp only [h.hits_eq_singleton, h.rows_eq, not_forall, not_not]
  · obtain ⟨hvalues, hne⟩ := h.mem_ofRows_finalize.1 hg
    have hsorted := h.wellFormed.sorted_hits g.field
    rw [hvalues] at hne ⊢
    refine ⟨?_, pairwise_listed p pipe hsorted, fun e he => ?_, fun value hvalue hnot e he => ?_⟩
    · rw [length_listed hne, h.length_hits]
    · have hmem := h.mem_hits.1 (mem_of_mem_listed he)
      rw [tally, Option.ite_none_right_eq_some, Option.some.injEq] at hmem
      exact ⟨hmem.1, hmem.2.symm⟩
    · refine precedes_of_not_mem_listed hsorted (h.mem_hits.2 (if_pos hvalue)) ?_ he
      exact fun hmem => hnot (List.mem_map_of_mem (f := (·.1)) hmem)

/-- Of two values in merged counts the one with more hits is listed, before the other one. -/
theorem top_value_of_merged_rows :
    FacetGroup.ofRows (finalize
      (merge (addRow (addRow .empty {} ⟨none, [⟨"a", "x"⟩]⟩) {} ⟨none, [⟨"a", "y"⟩]⟩)
        (addRow .empty {} ⟨none, [⟨"a", "y"⟩, ⟨"b", ""⟩]⟩)) { limit := 1 }) = [⟨"a", [("y", 2)]⟩] ∧
    Precedes ("y", 2) ("x", 1) := by
  have hcounts := Counts.merge
    (.addRow {} ⟨none, [⟨"a", "y"⟩]⟩ (.addRow {} ⟨none, [⟨"a", "x"⟩]⟩ .empty))
    (.addRow {} ⟨none, [⟨"a", "y"⟩, ⟨"b", ""⟩]⟩ .empty)
  have hgroups : FacetGroup.ofRows (finalize
      (merge (addRow (addRow .empty {} ⟨none, [⟨"a", "x"⟩]⟩) {} ⟨none, [⟨"a", "y"⟩]⟩)
        (addRow .empty {} ⟨none, [⟨"a", "y"⟩, ⟨"b", ""⟩]⟩)) { limit := 1 })
      = [⟨"a", [("y", 2)]⟩] := by cbv
  have hlisted := (groups_list_top_values hcounts { limit := 1 }).2.2 ⟨"a", [("y", 2)]⟩
    (hgroups ▸ List.mem_singleton_self _)
  exact ⟨hgroups, hlisted.2.2.2 "x" (by decide +kernel) (by decide) _ (List.mem_singleton_self _)⟩

end PartialFacets

end Logbook
