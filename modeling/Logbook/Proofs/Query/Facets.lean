import Logbook.Proofs.SortedMap
import Logbook.Query.Facets

set_option autoImplicit false

/-! # Facets of many sets of rows

Counting the rows of two sets one after the other gives what counting each set and merging gives.
Counts wrap around at sixty-four bits on both sides alike, so that this holds of any rows. -/

namespace Logbook

namespace PartialFacets

open SortedMap (Sorted sorted_nil sorted_alter sorted_merge get?_alter_self get?_alter_of_ne)

/-- Counts as they come from rows: fields and values in order and the number of rows in range. -/
structure WellFormed (p : PartialFacets) : Prop where
  rows_lt : p.rows < UInt64.size
  sorted : Sorted p.fields
  sorted_values : ∀ {name values}, SortedMap.get? p.fields name = some values → Sorted values

theorem wellFormed_empty : WellFormed empty :=
  ⟨by decide, sorted_nil, nofun⟩

theorem addHits_lt (a b : Nat) : addHits a b < UInt64.size :=
  Nat.mod_lt _ (by decide)

theorem addHits_zero {a : Nat} (h : a < UInt64.size) : addHits a 0 = a :=
  Nat.mod_eq_of_lt h

theorem addHits_assoc (a b c : Nat) : addHits a (addHits b c) = addHits (addHits a b) c := by
  simp only [addHits, Nat.add_mod_mod, Nat.mod_add_mod, Nat.add_assoc]

/-! ## One value -/

theorem sorted_addValue {values : SortedMap String Nat} (h : Sorted values) (value : String) :
    Sorted (addValue values value) :=
  sorted_alter h ..

theorem merge_addValue {a b : SortedMap String Nat} (ha : Sorted a) (hb : Sorted b)
    (value : String) :
    SortedMap.merge addHits a (addValue b value)
      = addValue (SortedMap.merge addHits a b) value := by
  refine SortedMap.merge_alter ha hb ?_
  cases SortedMap.get? a value with
  | none => cases SortedMap.get? b value <;> rfl
  | some x =>
    cases SortedMap.get? b value with
    | none => rfl
    | some y => exact congrArg some (addHits_assoc x y 1)

/-! ## One field -/

theorem wellFormed_addField {p : PartialFacets} (h : WellFormed p) (pipe : FacetsPipe) (f : Field) :
    WellFormed { p with fields := addField pipe p.fields f } := by
  by_cases hf : f.value = "" ∨ f.name = timeName
  · simp only [addField, if_pos hf]
    exact h
  simp only [addField, if_neg hf]
  refine ⟨h.rows_lt, sorted_alter h.sorted .., ?_⟩
  intro name values hget
  by_cases hname : name = f.name
  · subst hname
    rw [get?_alter_self h.sorted, Option.some.injEq] at hget
    subst hget
    cases hold : SortedMap.get? p.fields f.name with
    | none => exact sorted_addValue sorted_nil _
    | some old => exact sorted_addValue (h.sorted_values hold) _
  · rw [get?_alter_of_ne _ _ hname] at hget
    exact h.sorted_values hget

theorem merge_addField {a b : PartialFacets} (ha : WellFormed a) (hb : WellFormed b)
    (pipe : FacetsPipe) (f : Field) :
    SortedMap.merge (SortedMap.merge addHits) a.fields (addField pipe b.fields f)
      = addField pipe (SortedMap.merge (SortedMap.merge addHits) a.fields b.fields) f := by
  by_cases hf : f.value = "" ∨ f.name = timeName
  · simp only [addField, if_pos hf]
  simp only [addField, if_neg hf]
  refine SortedMap.merge_alter ha.sorted hb.sorted ?_
  cases hx : SortedMap.get? a.fields f.name with
  | none => cases SortedMap.get? b.fields f.name <;> rfl
  | some x =>
    cases hy : SortedMap.get? b.fields f.name with
    | none => exact congrArg some (merge_addValue (ha.sorted_values hx) sorted_nil _)
    | some y =>
      exact congrArg some (merge_addValue (ha.sorted_values hx) (hb.sorted_values hy) _)

/-! ## Rows -/

/-- The counts after some more fields of the row that is being counted. -/
def addFields (p : PartialFacets) (pipe : FacetsPipe) (fields : List Field) : PartialFacets :=
  { p with fields := fields.foldl (addField pipe) p.fields }

theorem wellFormed_addFields {p : PartialFacets} (h : WellFormed p) (pipe : FacetsPipe)
    (fields : List Field) : WellFormed (p.addFields pipe fields) := by
  induction fields generalizing p with
  | nil => exact h
  | cons f rest ih => exact ih (wellFormed_addField h pipe f)

theorem wellFormed_addRow {p : PartialFacets} (h : WellFormed p) (pipe : FacetsPipe)
    (row : QueryRow) : WellFormed (p.addRow pipe row) := by
  have hfields := wellFormed_addFields h pipe row.fields
  exact ⟨addHits_lt .., hfields.sorted, hfields.sorted_values⟩

theorem merge_addFields {a b : PartialFacets} (ha : WellFormed a) (hb : WellFormed b)
    (pipe : FacetsPipe) (fields : List Field) :
    a.merge (b.addFields pipe fields) = (a.merge b).addFields pipe fields := by
  induction fields generalizing b with
  | nil => rfl
  | cons f rest ih =>
    have hstep := ih (wellFormed_addField hb pipe f)
    simp only [addFields, merge, List.foldl_cons, mk.injEq] at hstep ⊢
    rw [hstep.2, merge_addField ha hb]
    exact ⟨trivial, rfl⟩

theorem merge_addRow {a b : PartialFacets} (ha : WellFormed a) (hb : WellFormed b)
    (pipe : FacetsPipe) (row : QueryRow) :
    a.merge (b.addRow pipe row) = (a.merge b).addRow pipe row := by
  have hfields := merge_addFields ha hb pipe row.fields
  simp only [addFields, merge, addRow, mk.injEq] at hfields ⊢
  exact ⟨addHits_assoc .., hfields.2⟩

theorem merge_empty {p : PartialFacets} (h : WellFormed p) : p.merge empty = p := by
  show (⟨addHits p.rows 0, p.fields⟩ : PartialFacets) = p
  rw [addHits_zero h.rows_lt]

/-- The counts after some more rows. -/
def addRows (p : PartialFacets) (pipe : FacetsPipe) (rows : List QueryRow) : PartialFacets :=
  rows.foldl (fun (acc : PartialFacets) row => acc.addRow pipe row) p

theorem wellFormed_addRows {p : PartialFacets} (h : WellFormed p) (pipe : FacetsPipe)
    (rows : List QueryRow) : WellFormed (p.addRows pipe rows) := by
  induction rows generalizing p with
  | nil => exact h
  | cons row rest ih => exact ih (wellFormed_addRow h pipe row)

theorem merge_addRows {a b : PartialFacets} (ha : WellFormed a) (hb : WellFormed b)
    (pipe : FacetsPipe) (rows : List QueryRow) :
    a.merge (b.addRows pipe rows) = (a.merge b).addRows pipe rows := by
  induction rows generalizing b with
  | nil => rfl
  | cons row rest ih =>
    show a.merge ((b.addRow pipe row).addRows pipe rest) = _
    rw [ih (wellFormed_addRow hb pipe row), merge_addRow ha hb]
    rfl

/-- **Merging the counts of rows counts them after those before.** -/
theorem merge_ofRows {p : PartialFacets} (h : WellFormed p) (pipe : FacetsPipe)
    (rows : List QueryRow) : p.merge (addRows empty pipe rows) = p.addRows pipe rows := by
  rw [merge_addRows h wellFormed_empty, merge_empty h]

theorem addRows_append (p : PartialFacets) (pipe : FacetsPipe) (rows rows' : List QueryRow) :
    p.addRows pipe (rows ++ rows') = (p.addRows pipe rows).addRows pipe rows' :=
  List.foldl_append

end PartialFacets

end Logbook
