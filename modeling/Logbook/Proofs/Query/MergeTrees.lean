import Mathlib.Data.List.Flatten
import Logbook.Proofs.Query.AnyOrder
import Logbook.Proofs.Query.PartialShapes

set_option autoImplicit false

/-! # Merging in any tree

Partial results are merged two by two, in whatever way they come together. Aggregating rows turns
lists of rows into partial results such that putting lists behind one another becomes merging
(`MergesLikeRows`): the partial result of no rows is neutral, merging is associative and
commutative, and every tree of merges over every split of the rows comes to the same
(**`partials_merge_like_rows`**). Merging never fails, whatever the rows; the laws are asked of the
numbers that occur only where numbers are added or compared. -/

namespace Logbook

/-! ## Trees -/

/-- Lists of rows that are aggregated by themselves, and the order in which the results merge. -/
inductive MergeTree where
  | leaf (rows : List QueryRow)
  | node (left right : MergeTree)

namespace MergeTree

/-- The rows of all lists. -/
def allRows : MergeTree → List QueryRow
  | .leaf rows => rows
  | .node left right => left.allRows ++ right.allRows

/-- What the lists are aggregated and merged into. -/
def eval {α : Type} (ofRows : List QueryRow → α) (merge : α → α → Except MergeError α) :
    MergeTree → Except MergeError α
  | .leaf rows => .ok (ofRows rows)
  | .node left right => do merge (← left.eval ofRows merge) (← right.eval ofRows merge)

end MergeTree

/-! ## Merging and rows -/

/-- Merging does with the aggregates of rows what appending does with the rows, in any order, as far
    as the rows are lawful. -/
structure MergesLikeRows {α : Type} (ofRows : List QueryRow → α)
    (merge : α → α → Except MergeError α) (Lawful : List QueryRow → Prop) : Prop where
  never_fails : ∀ t : MergeTree, ∃ x, t.eval ofRows merge = .ok x
  empty_merge : ∀ xs, merge (ofRows []) (ofRows xs) = .ok (ofRows xs)
  merge_empty : ∀ xs, merge (ofRows xs) (ofRows []) = .ok (ofRows xs)
  append : ∀ {xs ys}, Lawful (xs ++ ys) →
    merge (ofRows xs) (ofRows ys) = .ok (ofRows (xs ++ ys))
  comm : ∀ {xs ys}, Lawful (xs ++ ys) →
    merge (ofRows xs) (ofRows ys) = merge (ofRows ys) (ofRows xs)
  assoc : ∀ {xs ys zs}, Lawful (xs ++ ys ++ zs) →
    (do merge (← merge (ofRows xs) (ofRows ys)) (ofRows zs))
      = do merge (ofRows xs) (← merge (ofRows ys) (ofRows zs))
  tree : ∀ {t : MergeTree} {rows}, Lawful rows → t.allRows.Perm rows →
    t.eval ofRows merge = .ok (ofRows rows)

section

variable {α : Type} {ofRows : List QueryRow → α} {merge : α → α → Except MergeError α}
  {Lawful : List QueryRow → Prop}

/-- A tree comes to the aggregate of its rows, list by list. -/
theorem MergeTree.eval_eq_ofRows
    (hmono : ∀ {rows rows'}, Lawful rows → rows'.Subperm rows → Lawful rows')
    (happend : ∀ {xs ys}, Lawful (xs ++ ys) →
      merge (ofRows xs) (ofRows ys) = .ok (ofRows (xs ++ ys)))
    (t : MergeTree) (h : Lawful t.allRows) : t.eval ofRows merge = .ok (ofRows t.allRows) := by
  induction t with
  | leaf rows => rfl
  | node left right ihl ihr =>
    have hl := ihl (hmono h (List.sublist_append_left left.allRows _).subperm)
    have hr := ihr (hmono h (List.sublist_append_right _ right.allRows).subperm)
    rw [eval, hl, hr]
    exact happend h

/-- The laws follow from that of appending and from one that rows in another order aggregate to the
    same. -/
theorem MergesLikeRows.of_append_perm
    (hnever : ∀ t : MergeTree, ∃ x, t.eval ofRows merge = .ok x)
    (hempty : ∀ xs, merge (ofRows []) (ofRows xs) = .ok (ofRows xs))
    (hempty' : ∀ xs, merge (ofRows xs) (ofRows []) = .ok (ofRows xs))
    (hmono : ∀ {rows rows'}, Lawful rows → rows'.Subperm rows → Lawful rows')
    (happend : ∀ {xs ys}, Lawful (xs ++ ys) →
      merge (ofRows xs) (ofRows ys) = .ok (ofRows (xs ++ ys)))
    (hperm : ∀ {rows rows'}, Lawful rows → rows'.Perm rows → ofRows rows' = ofRows rows) :
    MergesLikeRows ofRows merge Lawful where
  never_fails := hnever
  empty_merge := hempty
  merge_empty := hempty'
  append := happend
  comm {xs ys} h := by
    have hswap : (ys ++ xs).Perm (xs ++ ys) := List.perm_append_comm
    rw [happend h, happend (hmono h hswap.subperm), hperm h hswap]
  assoc {xs ys zs} h := by
    have hleft : Lawful (xs ++ ys) := hmono h (List.sublist_append_left _ _).subperm
    rw [List.append_assoc] at h
    have hright : Lawful (ys ++ zs) := hmono h (List.sublist_append_right _ _).subperm
    have hall : Lawful (xs ++ ys ++ zs) := by rwa [List.append_assoc]
    rw [happend hleft, happend hright]
    show merge (ofRows (xs ++ ys)) (ofRows zs) = merge (ofRows xs) (ofRows (ys ++ zs))
    rw [happend hall, happend h, List.append_assoc]
  tree {t rows} h hrows := by
    rw [t.eval_eq_ofRows hmono happend (hmono h hrows.subperm), hperm h hrows]

end

/-! ## Laws of fewer rows -/

namespace Numbers

theorem AddLawsInAnyOrder.mono {numbers numbers' : List Float}
    (laws : AddLawsInAnyOrder numbers) (h : numbers'.Subperm numbers) :
    AddLawsInAnyOrder numbers' := by
  have hoccurs : ∀ {x}, OccursInAnyOrder numbers' x → OccursInAnyOrder numbers x := by
    rintro x (hx | ⟨l, hl, hx⟩)
    · exact .inl (h.subset hx)
    · exact .inr ⟨l, hl.trans h, hx⟩
  exact ⟨fun hx hy hz => laws.assoc (hoccurs hx) (hoccurs hy) (hoccurs hz),
    fun hx hy => laws.comm (hoccurs hx) (hoccurs hy), fun hx => laws.zero_add (hoccurs hx)⟩

end Numbers

theorem StatsFunc.LawfulInAnyOrder.mono {f : StatsFunc} {rows rows' : List QueryRow}
    (laws : f.LawfulInAnyOrder rows) (h : rows'.Subperm rows) : f.LawfulInAnyOrder rows' := by
  have hnumbers : (f.numbersOf rows').Subperm (f.numbersOf rows) := by
    obtain ⟨l, hperm, hsub⟩ := h
    exact ⟨f.numbersOf l, f.numbersOf_perm hperm, hsub.flatMap _⟩
  unfold LawfulInAnyOrder at laws ⊢
  cases hkind : f.kind with
  | count | countUniq => trivial
  | sum | avg =>
    rw [hkind] at laws
    exact laws.mono hnumbers
  | min | max =>
    rw [hkind] at laws
    exact ⟨fun x hx y hy z hz =>
        laws.1 x (hnumbers.subset hx) y (hnumbers.subset hy) z (hnumbers.subset hz),
      fun x hx y hy => laws.2 x (hnumbers.subset hx) y (hnumbers.subset hy)⟩

/-! ## Statistics -/

theorem StatsFunc.kind_ofRows (f : StatsFunc) (rows : List QueryRow) :
    (StatsState.ofRows f rows).kind = f.kind := by
  rw [StatsState.ofRows_eq]
  cases f.kind <;> rfl

/-- Nothing is asked of rows that are counted. -/
theorem StatsFunc.lawfulInAnyOrder_of_counts {f : StatsFunc}
    (h : f.kind = .count ∨ f.kind = .countUniq) (rows : List QueryRow) :
    f.LawfulInAnyOrder rows := by
  unfold LawfulInAnyOrder
  rcases h with h | h <;> rw [h] <;> trivial

namespace PartialStats

open SortedMap (Sorted)

/-- There is a group for every key of the rows, with a state for every function. The state is that
    of the rows of the group if they are lawful for the function, whatever they are for the
    others. -/
structure AggregateOf (pipe : StatsPipe) (rows : List QueryRow) (p : PartialStats) : Prop where
  sorted : Sorted p
  key : ∀ key, SortedMap.get? p key = none ↔ groupRows pipe key rows = []
  shape : ∀ {key states}, SortedMap.get? p key = some states →
    shape states = pipe.funcs.map (·.kind)
  state : ∀ {key states} {i : Nat} {f : StatsFunc}, SortedMap.get? p key = some states →
    pipe.funcs[i]? = some f → f.LawfulInAnyOrder (groupRows pipe key rows) →
    states[i]? = some (StatsState.ofRows f (groupRows pipe key rows))

theorem aggregateOf_ofRows (pipe : StatsPipe) (rows : List QueryRow) :
    AggregateOf pipe rows (ofRows pipe rows) := by
  refine ⟨sorted_ofRows pipe rows, fun key => ?_, fun {key states} h => ?_,
    fun {key states i f} h hf _ => ?_⟩
  · simp [get?_ofRows]
  all_goals
    rw [get?_ofRows] at h
    split at h <;> cases h
    unfold statesOf
  · rw [shape, List.map_map]
    exact List.map_congr_left fun f _ => f.kind_ofRows _
  · rw [List.getElem?_map, hf, Option.map_some]

/-- States merge place by place. -/
theorem getElem?_mergeStates {old new : List StatsState} {i : Nat} {a b s : StatsState}
    (h : (mergeStates old new).2 = none) (ha : old[i]? = some a) (hb : new[i]? = some b)
    (hs : a.merge b = .ok s) : (mergeStates old new).1[i]? = some s := by
  induction old generalizing new i with
  | nil => cases ha
  | cons a' old ih =>
    cases new with
    | nil => cases hb
    | cons b' new =>
      simp only [mergeStates] at h ⊢
      cases hs' : a'.merge b' with
      | error e => simp [hs'] at h
      | ok s' =>
        rw [hs'] at h
        cases i with
        | zero =>
          cases ha
          cases hb
          rw [hs] at hs'
          cases hs'
          rfl
        | succ i => exact ih h ha hb

/-- **Groups of one pipe merge, whatever numbers they hold**, and each function by itself. -/
theorem AggregateOf.exists_merge {pipe : StatsPipe} {rows rows' : List QueryRow}
    {p q : PartialStats} (hp : AggregateOf pipe rows p) (hq : AggregateOf pipe rows' q) :
    ∃ m, p.merge q = .ok m ∧ AggregateOf pipe (rows ++ rows') m := by
  have hshapes : ∀ {key old new}, SortedMap.get? p key = some old →
      SortedMap.get? q key = some new → PartialStats.shape old = PartialStats.shape new :=
    fun hold hnew => (hp.shape hold).trans (hq.shape hnew).symm
  obtain ⟨m, hm, hsorted, hget⟩ := mergeGroups_eq hp.sorted hq.sorted fun key old new hold hnew =>
    ⟨by simpa [PartialStats.shape] using congrArg List.length (hshapes hold hnew),
      (mergeStates_of_shape_eq (hshapes hold hnew)).1⟩
  refine ⟨m, merge_eq_ok_iff.2 hm, hsorted, fun key => ?_, fun {key states} h => ?_,
    fun {key states i f} h hf laws => ?_⟩
  · rw [hget, groupRows_append, List.append_eq_nil_iff, ← hp.key, ← hq.key]
    cases SortedMap.get? p key <;> cases SortedMap.get? q key <;> simp
  -- a group of both results is merged, and one of a single result stays as it is
  · rw [hget] at h
    cases hold : SortedMap.get? p key with
    | none =>
      rw [hold, Option.merge_none_left] at h
      exact hq.shape h
    | some old =>
      cases hnew : SortedMap.get? q key with
      | none =>
        rw [hold, hnew] at h
        cases h
        exact hp.shape hold
      | some new =>
        rw [hold, hnew] at h
        cases h
        exact (mergeStates_of_shape_eq (hshapes hold hnew)).2.trans (hp.shape hold)
  · rw [hget] at h
    rw [groupRows_append] at laws ⊢
    cases hold : SortedMap.get? p key with
    | none =>
      rw [hold, Option.merge_none_left] at h
      rw [(hp.key key).1 hold, List.nil_append] at laws ⊢
      exact hq.state h hf laws
    | some old =>
      cases hnew : SortedMap.get? q key with
      | none =>
        rw [hold, hnew] at h
        cases h
        rw [(hq.key key).1 hnew, List.append_nil] at laws ⊢
        exact hp.state hold hf laws
      | some new =>
        rw [hold, hnew] at h
        cases h
        have hleft := laws.mono (List.sublist_append_left _ _).subperm
        have hright := laws.mono (List.sublist_append_right _ _).subperm
        exact getElem?_mergeStates (mergeStates_of_shape_eq (hshapes hold hnew)).1
          (hp.state hold hf hleft) (hq.state hnew hf hright)
          (StatsState.merge_ofRows (laws.lawful (List.Perm.refl _)))

/-- The order of the rows does not matter. -/
theorem AggregateOf.perm {pipe : StatsPipe} {rows rows' : List QueryRow} {p : PartialStats}
    (h : AggregateOf pipe rows' p) (hperm : rows'.Perm rows) : AggregateOf pipe rows p := by
  have hgroup : ∀ key, (groupRows pipe key rows').Perm (groupRows pipe key rows) :=
    fun key => hperm.filter _
  refine ⟨h.sorted, fun key => ?_, h.shape, fun {key states i f} hstates hf laws => ?_⟩
  · rw [h.key, ← List.length_eq_zero_iff, (hgroup key).length_eq, List.length_eq_zero_iff]
  · rw [h.state hstates hf (laws.mono (hgroup key).subperm),
      StatsState.ofRows_perm laws (hgroup key)]

/-- **A tree of merges comes to an aggregate of its rows.** -/
theorem exists_eval (pipe : StatsPipe) (t : MergeTree) :
    ∃ p, t.eval (ofRows pipe) merge = .ok p ∧ AggregateOf pipe t.allRows p := by
  induction t with
  | leaf rows => exact ⟨_, rfl, aggregateOf_ofRows pipe rows⟩
  | node left right ihl ihr =>
    obtain ⟨p, hp, hpagg⟩ := ihl
    obtain ⟨q, hq, hqagg⟩ := ihr
    obtain ⟨m, hm, hagg⟩ := hpagg.exists_merge hqagg
    exact ⟨m, by rw [MergeTree.eval, hp, hq]; exact hm, hagg⟩

/-- **Partial results of one pipe merge one after the other into an aggregate of all rows.** -/
theorem AggregateOf.exists_mergeStats {pipe : StatsPipe} {acc : PartialStats}
    {rows : List QueryRow} (hacc : AggregateOf pipe rows acc) (lists : List (List QueryRow)) :
    ∃ groups, PartialResult.mergeStats acc (lists.map fun rows => .stats (ofRows pipe rows))
        = .ok groups ∧ AggregateOf pipe (rows ++ lists.flatten) groups := by
  induction lists generalizing acc rows with
  | nil => exact ⟨acc, rfl, by rwa [List.flatten_nil, List.append_nil]⟩
  | cons next lists ih =>
    obtain ⟨m, hm, hagg⟩ := hacc.exists_merge (aggregateOf_ofRows pipe next)
    obtain ⟨groups, hgroups, hall⟩ := ih hagg
    refine ⟨groups, ?_, ?_⟩
    · rw [List.map_cons, PartialResult.mergeStats, hm]
      exact hgroups
    · rwa [List.flatten_cons, ← List.append_assoc]

theorem empty_merge {p : PartialStats} (hp : Sorted p) : merge [] p = .ok p := by
  obtain ⟨m, hm, hsorted, hget⟩ := mergeGroups_eq SortedMap.sorted_nil hp
    fun key old new hold _ => nomatch hold
  have hnone : ∀ key, SortedMap.get? ([] : PartialStats) key = none := fun _ => rfl
  have heq : m = p := SortedMap.eq_of_get? hsorted hp fun key => by
    rw [hget, hnone, Option.merge_none_left]
  rw [merge_eq_ok_iff, hm, heq]

/-- **Statistics of rows merge like the rows.** -/
theorem mergesLikeRows (pipe : StatsPipe) :
    MergesLikeRows (ofRows pipe) merge (Pipe.stats pipe).IgnoresOrderOf := by
  refine .of_append_perm (fun t => ?_) (fun xs => empty_merge (sorted_ofRows pipe xs))
    (fun _ => rfl) (fun laws h f hf key => (laws f hf key).mono (h.filter _))
    (fun laws => merge_ofRows fun f hf key => (laws f hf key).lawful (List.Perm.refl _))
    ofRows_perm
  obtain ⟨p, hp, -⟩ := exists_eval pipe t
  exact ⟨p, hp⟩

end PartialStats

/-! ## Facets -/

namespace PartialFacets

/-- **Facets of rows merge like the rows**, whatever the rows. -/
theorem mergesLikeRows (pipe : FacetsPipe) :
    MergesLikeRows (addRows empty pipe) (fun a b => .ok (a.merge b))
      (Pipe.facets pipe).IgnoresOrderOf := by
  have hwell : ∀ rows, WellFormed (addRows empty pipe rows) :=
    wellFormed_addRows wellFormed_empty pipe
  have happend : ∀ xs ys, (addRows empty pipe xs).merge (addRows empty pipe ys)
      = addRows empty pipe (xs ++ ys) := fun xs ys => by
    rw [merge_ofRows (hwell xs), ← addRows_append]
  refine .of_append_perm (fun t => ?_) (fun xs => congrArg Except.ok (happend [] xs))
    (fun xs => congrArg Except.ok (merge_empty (hwell xs))) (fun _ _ => trivial)
    (fun _ => congrArg Except.ok (happend _ _)) fun _ => addRows_perm wellFormed_empty pipe
  induction t with
  | leaf rows => exact ⟨_, rfl⟩
  | node left right ihl ihr =>
    obtain ⟨p, hp⟩ := ihl
    obtain ⟨q, hq⟩ := ihr
    exact ⟨_, by rw [MergeTree.eval, hp, hq]; rfl⟩

end PartialFacets

/-- **Partial results are a commutative monoid of which aggregating rows is a homomorphism.** A tree
    of merges over any split of the rows ends in the rows that the pipe gives for all of them. -/
theorem partials_merge_like_rows :
    (∀ pipe : StatsPipe,
      MergesLikeRows (PartialStats.ofRows pipe) PartialStats.merge
          (Pipe.stats pipe).IgnoresOrderOf ∧
        ∀ (t : MergeTree) (rows : List QueryRow), t.allRows.Perm rows →
          (∃ p, t.eval (PartialStats.ofRows pipe) PartialStats.merge = .ok p ∧
            PartialStats.AggregateOf pipe rows p) ∧
          ((Pipe.stats pipe).IgnoresOrderOf rows →
            (t.eval (PartialStats.ofRows pipe) PartialStats.merge).map (·.finalize pipe)
              = .ok ((Pipe.stats pipe).apply rows))) ∧
      (∀ (f : StatsFunc) (rows : List QueryRow), f.kind = .count ∨ f.kind = .countUniq →
        f.LawfulInAnyOrder rows) ∧
      ∀ pipe : FacetsPipe,
        MergesLikeRows (PartialFacets.addRows .empty pipe) (fun a b => .ok (a.merge b))
            (fun _ => True) ∧
          ∀ (t : MergeTree) (rows : List QueryRow), t.allRows.Perm rows →
            (t.eval (PartialFacets.addRows .empty pipe) fun a b => .ok (a.merge b)).map
                (·.finalize pipe)
              = .ok ((Pipe.facets pipe).apply rows) := by
  refine ⟨fun pipe => ⟨PartialStats.mergesLikeRows pipe, fun t rows hrows => ⟨?_, fun laws => ?_⟩⟩,
    fun f rows h => StatsFunc.lawfulInAnyOrder_of_counts h rows,
    fun pipe => ⟨PartialFacets.mergesLikeRows pipe, fun t rows hrows => ?_⟩⟩
  · obtain ⟨p, hp, hagg⟩ := PartialStats.exists_eval pipe t
    exact ⟨p, hp, hagg.perm hrows⟩
  · rw [(PartialStats.mergesLikeRows pipe).tree laws hrows]
    rfl
  · rw [(PartialFacets.mergesLikeRows pipe).tree trivial hrows]
    rfl

/-! ### Three rows -/

def sampleNumbers : List QueryRow :=
  [⟨none, [⟨"n", "7"⟩]⟩, ⟨none, [⟨"n", "1.5"⟩]⟩, ⟨none, [⟨"n", "x"⟩]⟩]

def sampleSums : StatsPipe :=
  ⟨[], [⟨.sum, ["n"], "total"⟩, ⟨.count, [], "rows"⟩]⟩

/-- The last row first, merged with what no rows and the others come to. -/
def sampleTree : MergeTree :=
  .node (.leaf (sampleNumbers.drop 2)) (.node (.leaf []) (.leaf (sampleNumbers.take 2).reverse))

theorem sums_in_another_tree :
    (Pipe.stats sampleSums).IgnoresOrderOf sampleNumbers ∧
      sampleTree.allRows.Perm sampleNumbers ∧
      (sampleTree.eval (PartialStats.ofRows sampleSums) PartialStats.merge).map
          (·.finalize sampleSums)
        = .ok ((Pipe.stats sampleSums).apply sampleNumbers) := by
  have hlaws : ∀ f ∈ sampleSums.funcs,
      f.LawfulInAnyOrder sampleNumbers ∧ f.LawfulInAnyOrder [] := by
    decide +kernel
  have hignores : (Pipe.stats sampleSums).IgnoresOrderOf sampleNumbers := by
    intro f hf key
    -- there is one group
    by_cases hkey : [] = key
    · have hall : PartialStats.groupRows sampleSums key sampleNumbers = sampleNumbers :=
        List.filter_eq_self.2 fun _ _ => beq_iff_eq.2 hkey
      rw [hall]
      exact (hlaws f hf).1
    · have hnone : PartialStats.groupRows sampleSums key sampleNumbers = [] :=
        List.filter_eq_nil_iff.2 fun _ _ heq => hkey (beq_iff_eq.1 heq)
      rw [hnone]
      exact (hlaws f hf).2
  have hperm : sampleTree.allRows.Perm sampleNumbers := by
    decide +kernel
  exact ⟨hignores, hperm,
    ((partials_merge_like_rows.1 sampleSums).2 sampleTree sampleNumbers hperm).2 hignores⟩

end Logbook
