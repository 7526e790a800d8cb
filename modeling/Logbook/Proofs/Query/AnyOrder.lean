import Mathlib.Data.List.Dedup
import Mathlib.Data.List.Permutation
import Mathlib.Data.List.Sublists
import Logbook.Proofs.Query.ScatterGather

set_option autoImplicit false

/-! # Results that no order of rows shows in

Facets, counts and distinct values come to the same for rows in any order. Sums, averages and
extremes do if the operation behind them is associative and commutative on the numbers that occur
(`StatsFunc.LawfulInAnyOrder`). One argument carries all of them: a fold comes to the same for a
permuted list if any two neighbours can be swapped behind whatever came before them
(`foldl_eq_of_perm`). -/

namespace Logbook

/-- A fold comes to the same in any order if neighbours can be swapped. What comes before them is
    some of all elements, so that a condition on these is enough. -/
theorem foldl_eq_of_perm {α β : Type} {step : β → α → β} {init : β} {all l l' : List α}
    (hswap : ∀ front x y, (front ++ [x, y]).Subperm all →
      step (step (front.foldl step init) x) y = step (step (front.foldl step init) y) x)
    (h : l.Perm l') (hall : l.Subperm all) : l.foldl step init = l'.foldl step init := by
  suffices ∀ front, (front ++ l).Subperm all →
      (front ++ l).foldl step init = (front ++ l').foldl step init from this [] hall
  -- the induction is on the permutation, behind any elements that were folded already
  clear hall
  intro front hfront
  induction h generalizing front with
  | nil => rfl
  | cons x _ ih =>
    rw [List.append_cons] at hfront
    rw [List.append_cons, ih _ hfront, ← List.append_cons]
  | swap x y l =>
    have hpair : front ++ [y, x] <+: front ++ y :: x :: l := ⟨l, by simp⟩
    have hstep := hswap front y x (hpair.sublist.subperm.trans hfront)
    simp only [List.foldl_append, List.foldl_cons, hstep]
  | trans h₁ _ ih₁ ih₂ =>
    have hpermuted := (h₁.append_left front).symm.subperm.trans hfront
    exact (ih₁ front hfront).trans (ih₂ front hpermuted)

/-! ## Numbers -/

namespace Numbers

/-- The numbers themselves and the sums of some of them, taken in any order. -/
def OccursInAnyOrder (numbers : List Float) (x : Float) : Prop :=
  x ∈ numbers ∨ ∃ l : List Float, l.Subperm numbers ∧ sum l = x

/-- Addition is associative and commutative and zero neutral on the numbers that occur. -/
structure AddLawsInAnyOrder (numbers : List Float) : Prop where
  assoc : ∀ {x y z}, OccursInAnyOrder numbers x → OccursInAnyOrder numbers y →
    OccursInAnyOrder numbers z → x + y + z = x + (y + z)
  comm : ∀ {x y}, OccursInAnyOrder numbers x → OccursInAnyOrder numbers y → x + y = y + x
  zero_add : ∀ {x}, OccursInAnyOrder numbers x → 0.0 + x = x

/-- The operation is commutative on the numbers. -/
def CommOn (op : Float → Float → Float) (numbers : List Float) : Prop :=
  ∀ x ∈ numbers, ∀ y ∈ numbers, op x y = op y x

/-- All numbers that occur in any order, each of them once. -/
def occurringInAnyOrder (numbers : List Float) : List Float :=
  (numbers ++ (numbers.sublists.flatMap List.permutations').map sum).dedup

theorem occursInAnyOrder_iff_mem {numbers : List Float} {x : Float} :
    OccursInAnyOrder numbers x ↔ x ∈ occurringInAnyOrder numbers := by
  have hsubperm (l : List Float) :
      l.Subperm numbers ↔ ∃ l' : List Float, l'.Perm l ∧ l'.Sublist numbers := Iff.rfl
  simp only [OccursInAnyOrder, occurringInAnyOrder, List.mem_dedup, List.mem_append,
    List.mem_map, List.mem_flatMap, List.mem_sublists, List.mem_permutations', hsubperm,
    List.perm_comm, and_comm]

instance (numbers : List Float) : Decidable (AddLawsInAnyOrder numbers) :=
  decidable_of_iff
    ((∀ x ∈ occurringInAnyOrder numbers, ∀ y ∈ occurringInAnyOrder numbers,
        x + y = y + x ∧ ∀ z ∈ occurringInAnyOrder numbers, x + y + z = x + (y + z)) ∧
      ∀ x ∈ occurringInAnyOrder numbers, 0.0 + x = x) <| by
    simp only [← occursInAnyOrder_iff_mem]
    exact ⟨fun ⟨hpair, hzero⟩ => ⟨fun hx hy hz => (hpair _ hx _ hy).2 _ hz,
        fun hx hy => (hpair _ hx _ hy).1, fun hx => hzero _ hx⟩,
      fun laws => ⟨fun _ hx _ hy => ⟨laws.comm hx hy, fun _ hz => laws.assoc hx hy hz⟩,
        fun _ hx => laws.zero_add hx⟩⟩

instance (op : Float → Float → Float) (numbers : List Float) : Decidable (CommOn op numbers) :=
  inferInstanceAs (Decidable (∀ x ∈ numbers, ∀ y ∈ numbers, _))

theorem Occurs.inAnyOrder {numbers numbers' : List Float} (h : numbers'.Perm numbers) {x : Float}
    (hx : Occurs numbers' x) : OccursInAnyOrder numbers x := by
  rcases hx with hx | ⟨l, hl, hx⟩
  · exact Or.inl (h.mem_iff.1 hx)
  · exact Or.inr ⟨l, hl.sublist.subperm.trans h.subperm, hx⟩

/-- Laws for any order hold for each of them. -/
theorem AddLawsInAnyOrder.addLaws {numbers numbers' : List Float}
    (laws : AddLawsInAnyOrder numbers) (h : numbers'.Perm numbers) : AddLaws numbers' where
  assoc hx hy hz := laws.assoc (hx.inAnyOrder h) (hy.inAnyOrder h) (hz.inAnyOrder h)
  zero_add hx := laws.zero_add (hx.inAnyOrder h)
  add_zero hx := by
    have hzero : OccursInAnyOrder numbers 0.0 := Or.inr ⟨[], List.nil_subperm, rfl⟩
    rw [laws.comm (hx.inAnyOrder h) hzero, laws.zero_add (hx.inAnyOrder h)]

theorem AddLawsInAnyOrder.sum_eq {numbers numbers' : List Float}
    (laws : AddLawsInAnyOrder numbers) (h : numbers'.Perm numbers) :
    sum numbers' = sum numbers := by
  refine foldl_eq_of_perm (fun front x y hsub => ?_) h h.subperm
  have hfront : OccursInAnyOrder numbers (sum front) :=
    Or.inr ⟨front, (List.sublist_append_left front [x, y]).subperm.trans hsub, rfl⟩
  have hx : OccursInAnyOrder numbers x := Or.inl (hsub.subset (by simp))
  have hy : OccursInAnyOrder numbers y := Or.inl (hsub.subset (by simp))
  calc sum front + x + y
      = sum front + (x + y) := laws.assoc hfront hx hy
    _ = sum front + (y + x) := by rw [laws.comm hx hy]
    _ = sum front + y + x := (laws.assoc hfront hy hx).symm

theorem AddLawsInAnyOrder.total_eq {numbers numbers' : List Float}
    (laws : AddLawsInAnyOrder numbers) (h : numbers'.Perm numbers) :
    total numbers' = total numbers := by
  rw [total, total, h.isEmpty_eq, laws.sum_eq h]

theorem AssocOn.of_perm {op : Float → Float → Float} {numbers numbers' : List Float}
    (assoc : AssocOn op numbers) (h : numbers'.Perm numbers) : AssocOn op numbers' :=
  fun x hx y hy z hz => assoc x (h.mem_iff.1 hx) y (h.mem_iff.1 hy) z (h.mem_iff.1 hz)

theorem choose_eq_of_perm {op : Float → Float → Float} {numbers numbers' : List Float}
    (assoc : AssocOn op numbers) (comm : CommOn op numbers)
    (choice : ∀ x y, op x y = x ∨ op x y = y) (h : numbers'.Perm numbers) :
    choose op numbers' = choose op numbers := by
  rw [← foldl_choose, ← foldl_choose]
  refine foldl_eq_of_perm (fun front x y hsub => ?_) h h.subperm
  have hx : x ∈ numbers := hsub.subset (by simp)
  have hy : y ∈ numbers := hsub.subset (by simp)
  rw [foldl_choose]
  -- the choice so far is one of the numbers, if there is one
  cases front with
  | nil => exact congrArg some (comm x hx y hy)
  | cons z front =>
    have hz : front.foldl op z ∈ numbers :=
      hsub.subset (List.mem_append_left _ (foldl_choice_mem choice z front))
    show some (op (op (front.foldl op z) x) y) = some (op (op (front.foldl op z) y) x)
    rw [assoc _ hz x hx y hy, comm x hx y hy, assoc _ hz y hy x hx]

end Numbers

/-! ## Statistics -/

namespace StatsFunc

/-- The operation behind the function is associative and commutative on the numbers that occur in
    the rows. -/
def LawfulInAnyOrder (f : StatsFunc) (rows : List QueryRow) : Prop :=
  match f.kind with
  | .count | .countUniq => True
  | .sum | .avg => Numbers.AddLawsInAnyOrder (f.numbersOf rows)
  | .min => Numbers.AssocOn StatsState.lesser (f.numbersOf rows) ∧
      Numbers.CommOn StatsState.lesser (f.numbersOf rows)
  | .max => Numbers.AssocOn StatsState.greater (f.numbersOf rows) ∧
      Numbers.CommOn StatsState.greater (f.numbersOf rows)

instance (f : StatsFunc) (rows : List QueryRow) : Decidable (f.LawfulInAnyOrder rows) :=
  match f with
  | ⟨.count, _, _⟩ | ⟨.countUniq, _, _⟩ => inferInstanceAs (Decidable True)
  | ⟨.sum, _, _⟩ | ⟨.avg, _, _⟩ => inferInstanceAs (Decidable (Numbers.AddLawsInAnyOrder _))
  | ⟨.min, _, _⟩ | ⟨.max, _, _⟩ => inferInstanceAs (Decidable (_ ∧ Numbers.CommOn _ _))

theorem numbersOf_perm (f : StatsFunc) {rows rows' : List QueryRow} (h : rows'.Perm rows) :
    (f.numbersOf rows').Perm (f.numbersOf rows) :=
  h.flatMap_right _

theorem LawfulInAnyOrder.lawful {f : StatsFunc} {rows rows' : List QueryRow}
    (laws : f.LawfulInAnyOrder rows) (h : rows'.Perm rows) : f.Lawful rows' := by
  have hnumbers := f.numbersOf_perm h
  unfold LawfulInAnyOrder at laws
  unfold Lawful
  cases hkind : f.kind with
  | count | countUniq => trivial
  | sum | avg =>
    rw [hkind] at laws
    exact laws.addLaws hnumbers
  | min | max =>
    rw [hkind] at laws
    exact laws.1.of_perm hnumbers

end StatsFunc

theorem StatsState.foldl_insertValue_perm {keys keys' : List (List String)}
    (h : keys'.Perm keys) : keys'.foldl insertValue [] = keys.foldl insertValue [] :=
  foldl_eq_of_perm (fun front _ _ _ => SortedMap.alter_comm
    (sorted_foldl_insertValue SortedMap.sorted_nil front) fun _ => rfl) h h.subperm

theorem StatsState.ofRows_perm {f : StatsFunc} {rows rows' : List QueryRow}
    (laws : f.LawfulInAnyOrder rows) (h : rows'.Perm rows) : ofRows f rows' = ofRows f rows := by
  have hnumbers := f.numbersOf_perm h
  rw [ofRows_eq, ofRows_eq]
  unfold StatsFunc.LawfulInAnyOrder at laws
  cases hkind : f.kind with
  | count => simp only [h.countP_eq]
  | countUniq => simp only [foldl_insertValue_perm ((h.map (uniqueKey f)).filter _), uniqueKeys]
  | sum =>
    rw [hkind] at laws
    simp only [laws.total_eq hnumbers]
  | min =>
    rw [hkind] at laws
    simp only [Numbers.choose_eq_of_perm laws.1 laws.2 lesser_choice hnumbers]
  | max =>
    rw [hkind] at laws
    simp only [Numbers.choose_eq_of_perm laws.1 laws.2 greater_choice hnumbers]
  | avg =>
    rw [hkind] at laws
    simp only [laws.sum_eq hnumbers, hnumbers.length_eq]

/-- The groups of rows are the same in any order of the rows. -/
theorem PartialStats.ofRows_perm {pipe : StatsPipe} {rows rows' : List QueryRow}
    (laws : ∀ f ∈ pipe.funcs, ∀ key, f.LawfulInAnyOrder (groupRows pipe key rows))
    (h : rows'.Perm rows) : ofRows pipe rows' = ofRows pipe rows := by
  refine SortedMap.eq_of_get? (sorted_ofRows ..) (sorted_ofRows ..) fun key => ?_
  have hgroup : (groupRows pipe key rows').Perm (groupRows pipe key rows) := h.filter _
  have hstates : statesOf pipe (groupRows pipe key rows')
      = statesOf pipe (groupRows pipe key rows) :=
    List.map_congr_left fun f hf => StatsState.ofRows_perm (laws f hf key) hgroup
  rw [get?_ofRows, get?_ofRows, hgroup.isEmpty_eq, hstates]

/-! ## Facets -/

namespace PartialFacets

theorem addValue_comm {values : SortedMap String Nat} (h : SortedMap.Sorted values)
    (value value' : String) :
    addValue (addValue values value) value' = addValue (addValue values value') value :=
  SortedMap.alter_comm h fun _ => rfl

theorem addField_comm {p : PartialFacets} (h : WellFormed p) (pipe : FacetsPipe) (f g : Field) :
    addField pipe (addField pipe p.fields f) g = addField pipe (addField pipe p.fields g) f := by
  by_cases hf : f.value = "" ∨ f.name = timeName
  · simp only [addField, if_pos hf]
  by_cases hg : g.value = "" ∨ g.name = timeName
  · simp only [addField, if_pos hg]
  simp only [addField, if_neg hf, if_neg hg]
  refine SortedMap.alter_comm h.sorted fun _ => ?_
  cases hvalues : SortedMap.get? p.fields f.name with
  | none => exact addValue_comm SortedMap.sorted_nil ..
  | some values => exact addValue_comm (h.sorted_values hvalues) ..

theorem addFields_perm {p : PartialFacets} (h : WellFormed p) (pipe : FacetsPipe)
    {fields fields' : List Field} (hperm : fields.Perm fields') :
    p.addFields pipe fields = p.addFields pipe fields' :=
  congrArg (PartialFacets.mk p.rows) <| foldl_eq_of_perm
    (fun front f g _ => addField_comm (wellFormed_addFields h pipe front) pipe f g)
    hperm hperm.subperm

theorem addRow_comm {p : PartialFacets} (h : WellFormed p) (pipe : FacetsPipe)
    (row row' : QueryRow) :
    (p.addRow pipe row).addRow pipe row' = (p.addRow pipe row').addRow pipe row := by
  have hcomm : (row.fields ++ row'.fields).Perm (row'.fields ++ row.fields) :=
    List.perm_append_comm
  have hfields := addFields_perm h pipe hcomm
  simp only [addFields, List.foldl_append, mk.injEq] at hfields
  exact congrArg (PartialFacets.mk _) hfields.2

theorem addRows_perm {p : PartialFacets} (h : WellFormed p) (pipe : FacetsPipe)
    {rows rows' : List QueryRow} (hperm : rows'.Perm rows) :
    p.addRows pipe rows' = p.addRows pipe rows :=
  foldl_eq_of_perm (fun front row row' _ =>
    addRow_comm (wellFormed_addRows h pipe front) pipe row row') hperm hperm.subperm

end PartialFacets

/-! ## Queries -/

/-- The pipe comes to the same for the rows in any order. -/
def Pipe.IgnoresOrderOf (rows : List QueryRow) : Pipe → Prop
  | .stats s => ∀ f ∈ s.funcs, ∀ key, f.LawfulInAnyOrder (PartialStats.groupRows s key rows)
  | .facets _ => True
  | _ => False

namespace Pipe

/-- Counts and distinct values come to the same in any order, whatever the rows. -/
theorem ignoresOrderOf_of_counts {s : StatsPipe}
    (h : ∀ f ∈ s.funcs, f.kind = .count ∨ f.kind = .countUniq) (rows : List QueryRow) :
    (stats s).IgnoresOrderOf rows := by
  intro f hf key
  unfold StatsFunc.LawfulInAnyOrder
  rcases h f hf with hkind | hkind <;> rw [hkind] <;> trivial

theorem IgnoresOrderOf.mergesOver {p : Pipe} {rows rows' : List QueryRow}
    (h : p.IgnoresOrderOf rows) (hperm : rows'.Perm rows) : p.MergesOver rows' := by
  cases p with
  | stats s => exact fun f hf key => (h f hf key).lawful (hperm.filter _)
  | facets f => trivial
  | _ => exact h.elim

theorem IgnoresOrderOf.apply_perm {p : Pipe} {rows rows' : List QueryRow}
    (h : p.IgnoresOrderOf rows) (hperm : rows'.Perm rows) : p.apply rows' = p.apply rows := by
  cases p with
  | stats s => exact congrArg (PartialStats.finalize · s) (PartialStats.ofRows_perm h hperm)
  | facets f =>
    exact congrArg (PartialFacets.finalize · f)
      (PartialFacets.addRows_perm PartialFacets.wellFormed_empty f hperm)
  | _ => exact h.elim

end Pipe

/-- What the stores collect merges into what the pipes give for the selected rows in any order. -/
theorem Query.finish_perm {q : Query} {p : Pipe} {rows : List QueryRow} {stores : List Storage}
    (hfirst : q.gathering.head? = some p) (h : p.IgnoresOrderOf rows)
    (hperm : (stores.flatMap q.selected).Perm rows) :
    (Plan.ofQuery q).finish (stores.map (Plan.ofQuery q).remote.run)
      = .ok (Pipe.applyAll q.gathering rows) := by
  obtain ⟨rest, hgathering⟩ := List.head?_eq_some_iff.1 hfirst
  have hflat : stores.flatMap q.selected = (stores.map q.selected).flatten := List.flatMap_def
  have hnot : p.isRowLocal = false := by
    cases p <;> first | rfl | exact h.elim
  have hfinish : (Plan.ofQuery q).finish ((stores.map q.selected).map
      (Plan.ofQuery q).remote.collect)
        = .ok (Pipe.applyAll q.gathering (stores.map q.selected).flatten) := by
    refine Plan.finish_map_collect rfl ?_ ?_
    · rw [hfirst]
      rintro _ ⟨⟩
      exact hnot
    · rw [hfirst, ← hflat]
      rintro _ ⟨⟩
      exact h.mergesOver hperm
  rw [q.map_run_ofQuery, hfinish, ← hflat, hgathering]
  exact congrArg (fun rows => Except.ok (Pipe.applyAll rest rows)) (h.apply_perm hperm)

end Logbook
