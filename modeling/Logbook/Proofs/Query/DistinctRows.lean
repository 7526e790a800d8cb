import Mathlib.Data.Finset.Card
import Logbook.Proofs.Query.Stats

set_option autoImplicit false

/-! # Counting distinct rows

Without fields, distinct rows are told apart by the texts of their fields: each name, an equals sign
and the value. Two fields have one text just if they are equal or the name of one goes on with an
equals sign where the other's value begins (`Field.equation_eq_iff`). So what is counted is the
number of distinct rows exactly if no two rows of the group differ in nothing but where a name ends
(**`distinct_rows_counted`**), as when no name holds an equals sign. -/

namespace Logbook

/-! ## Texts of fields -/

/-- Two texts around a mark are those around another place of it: the same two, or the front of one
    goes on with the mark. -/
theorem append_mark_eq_iff {α : Type} {front front' back back' : List α} {mark : α} :
    front ++ mark :: back = front' ++ mark :: back' ↔
      (front = front' ∧ back = back') ∨
        (∃ middle, front' = front ++ mark :: middle ∧ back = middle ++ mark :: back') ∨
        ∃ middle, front = front' ++ mark :: middle ∧ back' = middle ++ mark :: back := by
  constructor
  · intro h
    obtain ⟨rest, hfront, hback⟩ | ⟨rest, hfront, hback⟩ := List.append_eq_append_iff.1 h
    · cases rest with
      | nil => exact .inl ⟨by simpa using hfront.symm, by simpa using hback⟩
      | cons c middle =>
        obtain ⟨rfl, rfl⟩ := List.cons.inj hback
        exact .inr (.inl ⟨middle, hfront, rfl⟩)
    · cases rest with
      | nil => exact .inl ⟨by simpa using hfront, by simpa using hback.symm⟩
      | cons c middle =>
        obtain ⟨rfl, rfl⟩ := List.cons.inj hback
        exact .inr (.inr ⟨middle, hfront, rfl⟩)
  · rintro (⟨rfl, rfl⟩ | ⟨middle, rfl, rfl⟩ | ⟨middle, rfl, rfl⟩) <;> simp

namespace Field

/-- A field as it is written among distinct rows. -/
def equation (f : Field) : String :=
  f.name ++ "=" ++ f.value

/-- The name of the second field goes on with an equals sign where the value of the first begins. -/
def Extends (f g : Field) : Prop :=
  ∃ middle, g.name = f.name ++ "=" ++ middle ∧ f.value = middle ++ "=" ++ g.value

/-- The fields are equal but for the place of the equals sign between name and value. -/
def Resembles (f g : Field) : Prop :=
  f = g ∨ Extends f g ∨ Extends g f

theorem toList_equation (f : Field) :
    f.equation.toList = f.name.toList ++ '=' :: f.value.toList := by
  simp [equation]

theorem extends_iff {f g : Field} : Extends f g ↔ ∃ middle : List Char,
    g.name.toList = f.name.toList ++ '=' :: middle ∧
      f.value.toList = middle ++ '=' :: g.value.toList := by
  constructor
  · rintro ⟨middle, hname, hvalue⟩
    exact ⟨middle.toList, by simp [hname], by simp [hvalue]⟩
  · rintro ⟨middle, hname, hvalue⟩
    exact ⟨String.ofList middle, String.toList_inj.1 (by simp [hname]),
      String.toList_inj.1 (by simp [hvalue])⟩

/-- **Fields are written alike just if they resemble each other.** -/
theorem equation_eq_iff {f g : Field} : f.equation = g.equation ↔ Resembles f g := by
  rw [← String.toList_inj, toList_equation, toList_equation, append_mark_eq_iff, Resembles,
    extends_iff, extends_iff, Field.ext_iff, String.toList_inj, String.toList_inj]

/-- A name without an equals sign ends where it does. -/
theorem Resembles.eq_of_not_mem {f g : Field} (h : Resembles f g) (hf : '=' ∉ f.name.toList)
    (hg : '=' ∉ g.name.toList) : f = g := by
  obtain h | h | h := h
  · exact h
  · obtain ⟨middle, hname, -⟩ := extends_iff.1 h
    exact absurd (by simp [hname]) hg
  · obtain ⟨middle, hname, -⟩ := extends_iff.1 h
    exact absurd (by simp [hname]) hf

theorem equation_ne_empty (f : Field) : f.equation ≠ "" := by
  rw [Ne, ← String.toList_inj, toList_equation]
  simp

end Field

namespace QueryRow

/-- The rows have as many fields, which resemble each other one by one. -/
def Resembles (a b : QueryRow) : Prop :=
  List.Forall₂ Field.Resembles a.fields b.fields

theorem equations_eq_iff {a b : QueryRow} :
    a.fields.map Field.equation = b.fields.map Field.equation ↔ Resembles a b := by
  rw [← List.forall₂_eq_eq_eq, List.forall₂_map_left_iff, List.forall₂_map_right_iff, Resembles]
  simp only [Field.equation_eq_iff]

/-- Rows that resemble each other are equal if no name holds an equals sign. -/
theorem Resembles.fields_eq {a b : QueryRow} (h : Resembles a b)
    (ha : ∀ f ∈ a.fields, '=' ∉ f.name.toList) (hb : ∀ f ∈ b.fields, '=' ∉ f.name.toList) :
    a.fields = b.fields := by
  rw [Resembles, List.forall₂_iff_get] at h
  rw [← List.forall₂_eq_eq_eq]
  refine List.forall₂_iff_get.2 ⟨h.1, fun i hi hi' => ?_⟩
  exact (h.2 i hi hi').eq_of_not_mem (ha _ (List.get_mem ..)) (hb _ (List.get_mem ..))

end QueryRow

/-! ## Numbers of distinct elements -/

/-- There are no more distinct images than distinct elements, and as many just if distinct elements
    have distinct images. -/
theorem length_dedup_map {α β : Type} [DecidableEq α] [DecidableEq β] (f : α → β) (xs : List α) :
    (xs.map f).dedup.length ≤ xs.dedup.length ∧
      ((xs.map f).dedup.length = xs.dedup.length ↔ ∀ a ∈ xs, ∀ b ∈ xs, f a = f b → a = b) := by
  have himage : (xs.map f).toFinset = xs.toFinset.image f := by
    ext y
    simp
  rw [← List.card_toFinset, ← List.card_toFinset, himage, Finset.card_image_iff]
  refine ⟨Finset.card_image_le, ?_⟩
  simp [Set.InjOn]

namespace StatsState

theorem get?_foldl_insertValue {vs : SortedMap (List String) Unit} (h : SortedMap.Sorted vs)
    (keys : List (List String)) (key : List String) :
    SortedMap.get? (keys.foldl insertValue vs) key
      = if key ∈ keys then some () else SortedMap.get? vs key := by
  induction keys generalizing vs with
  | nil => rfl
  | cons k keys ih =>
    have hnext : SortedMap.Sorted (insertValue vs k) := SortedMap.sorted_alter h ..
    rw [List.foldl_cons, ih hnext, insertValue, SortedMap.insert]
    by_cases hk : key = k
    · subst hk
      rw [SortedMap.get?_alter_self h, if_pos List.mem_cons_self, ite_self]
    · rw [SortedMap.get?_alter_of_ne _ _ hk]
      simp [hk]

/-- A set of values has as many entries as there are distinct values. -/
theorem length_foldl_insertValue (keys : List (List String)) :
    (keys.foldl insertValue []).length = keys.dedup.length := by
  have hsorted := sorted_foldl_insertValue SortedMap.sorted_nil keys
  have hmem : ∀ key, key ∈ (keys.foldl insertValue []).map (·.1) ↔ key ∈ keys.dedup := by
    intro key
    rw [List.mem_dedup, List.mem_map]
    constructor
    · rintro ⟨⟨k, u⟩, he, rfl⟩
      rw [SortedMap.mem_iff_get? hsorted, get?_foldl_insertValue SortedMap.sorted_nil] at he
      by_contra hnot
      rw [if_neg hnot] at he
      cases he
    · intro hkey
      refine ⟨(key, ()), (SortedMap.mem_iff_get? hsorted).2 ?_, rfl⟩
      rw [get?_foldl_insertValue SortedMap.sorted_nil, if_pos hkey]
  have hnodup : ((keys.foldl insertValue []).map (·.1)).Nodup :=
    (SortedMap.sorted_iff_keys.1 hsorted).imp fun hlt heq => by
      rw [heq, Std.ReflOrd.compare_self] at hlt
      cases hlt
  have hperm := (List.perm_ext_iff_of_nodup hnodup (List.nodup_dedup keys)).2 hmem
  rw [← hperm.length_eq, List.length_map]

theorem uniqueKey_of_fields_eq_nil {f : StatsFunc} (h : f.fields = []) (row : QueryRow) :
    uniqueKey f row = row.fields.map Field.equation := by
  rw [uniqueKey, h]
  rfl

/-- Every row with a field counts. -/
theorem uniqueKeys_of_fields_eq_nil {f : StatsFunc} (h : f.fields = []) {rows : List QueryRow}
    (hrows : ∀ row ∈ rows, row.fields ≠ []) :
    uniqueKeys f rows = rows.map fun row => row.fields.map Field.equation := by
  have hkeys : rows.map (uniqueKey f) = rows.map fun row => row.fields.map Field.equation :=
    List.map_congr_left fun row _ => uniqueKey_of_fields_eq_nil h row
  rw [uniqueKeys, hkeys, List.filter_eq_self]
  rintro _ hkey
  obtain ⟨row, hrow, rfl⟩ := List.mem_map.1 hkey
  cases hfields : row.fields with
  | nil => exact absurd hfields (hrows row hrow)
  | cons g rest => simp [g.equation_ne_empty]

end StatsState

namespace PartialStats

open StatsState (uniqueKey)

/-- **What is counted as distinct rows.** In every group of rows that have fields, the result is the
    number of distinct lists of texts. Two rows count as one just if they resemble each other, so
    that the result is the number of distinct lists of fields just if no two different rows do, and
    it is so whenever no name holds an equals sign. -/
theorem distinct_rows_counted {pipe : StatsPipe} {i : Nat} {f : StatsFunc}
    (hf : pipe.funcs[i]? = some f) (hkind : f.kind = .countUniq) (hfields : f.fields = [])
    {rows : List QueryRow} (hrows : ∀ row ∈ rows, row.fields ≠ []) {key : List String}
    {states : List StatsState} (hstates : SortedMap.get? (ofRows pipe rows) key = some states) :
    ∃ n, states[i]?.map StatsState.render = some (toString n) ∧
      n = ((groupRows pipe key rows).map (uniqueKey f)).dedup.length ∧
      (∀ a b, uniqueKey f a = uniqueKey f b ↔ a.Resembles b) ∧
      n ≤ ((groupRows pipe key rows).map (·.fields)).dedup.length ∧
      (n = ((groupRows pipe key rows).map (·.fields)).dedup.length ↔
        ∀ a ∈ groupRows pipe key rows, ∀ b ∈ groupRows pipe key rows,
          a.Resembles b → a.fields = b.fields) ∧
      ((∀ row ∈ groupRows pipe key rows, ∀ g ∈ row.fields, '=' ∉ g.name.toList) →
        n = ((groupRows pipe key rows).map (·.fields)).dedup.length) := by
  have hgroup : ∀ row ∈ groupRows pipe key rows, row.fields ≠ [] :=
    fun row hrow => hrows row (List.mem_of_mem_filter hrow)
  rw [get?_ofRows] at hstates
  split at hstates <;> cases hstates
  generalize groupRows pipe key rows = group at hgroup
  have hkeys : group.map (uniqueKey f) = (group.map (·.fields)).map (·.map Field.equation) := by
    rw [List.map_map]
    exact List.map_congr_left fun row _ => StatsState.uniqueKey_of_fields_eq_nil hfields row
  have hstate : (StatsState.ofRows f group).render
      = toString (group.map (uniqueKey f)).dedup.length := by
    rw [StatsState.ofRows_eq, hkind, hkeys, List.map_map]
    dsimp only
    rw [StatsState.uniqueKeys_of_fields_eq_nil hfields hgroup, StatsState.render,
      StatsState.length_foldl_insertValue]
    rfl
  obtain ⟨hle, hiff⟩ := length_dedup_map (·.map Field.equation) (group.map (·.fields))
  have halike : (group.map (uniqueKey f)).dedup.length = (group.map (·.fields)).dedup.length ↔
      ∀ a ∈ group, ∀ b ∈ group, a.Resembles b → a.fields = b.fields := by
    rw [hkeys, hiff]
    simp only [List.forall_mem_map, QueryRow.equations_eq_iff]
  refine ⟨_, ?_, rfl, fun a b => ?_, hkeys ▸ hle, halike, fun hnames => halike.2 ?_⟩
  · rw [statesOf, List.getElem?_map, hf, Option.map_some, Option.map_some, hstate]
  · rw [StatsState.uniqueKey_of_fields_eq_nil hfields,
      StatsState.uniqueKey_of_fields_eq_nil hfields, QueryRow.equations_eq_iff]
  · intro a ha b hb hab
    exact hab.fields_eq (hnames a ha) (hnames b hb)

/-- Rows of two applications. Those of the first differ in where the name of a field ends. -/
def sampleAlike : List QueryRow :=
  [⟨none, [⟨"app", "web"⟩, ⟨"a=b", "c"⟩]⟩, ⟨none, [⟨"app", "web"⟩, ⟨"a", "b=c"⟩]⟩,
    ⟨none, [⟨"app", "db"⟩, ⟨"a", "b=c"⟩]⟩, ⟨none, [⟨"app", "db"⟩, ⟨"a", "c"⟩]⟩]

/-- Distinct rows by application. -/
def sampleDistinct : StatsPipe :=
  ⟨[⟨"app", none⟩], [⟨.countUniq, [], "n"⟩]⟩

/-- Of two distinct rows that resemble each other one is counted, of two others both. -/
theorem alike_rows_counted_once :
    sampleDistinct.funcs[0]? = some ⟨.countUniq, [], "n"⟩ ∧
      (∀ row ∈ sampleAlike, row.fields ≠ []) ∧
      ∀ e ∈ [(["web"], "1", 2), (["db"], "2", 2)], ∃ states,
        SortedMap.get? (ofRows sampleDistinct sampleAlike) e.1 = some states ∧
          states[0]?.map StatsState.render = some e.2.1 ∧
          ((groupRows sampleDistinct e.1 sampleAlike).map (·.fields)).dedup.length = e.2.2 := by
  have hfunc : sampleDistinct.funcs[0]? = some ⟨.countUniq, [], "n"⟩ := rfl
  have hrows : ∀ row ∈ sampleAlike, row.fields ≠ [] := by decide
  have hgroups : ∀ e ∈ [(["web"], "1", 2), (["db"], "2", 2)],
      (groupRows sampleDistinct e.1 sampleAlike).isEmpty = false ∧
        toString ((groupRows sampleDistinct e.1 sampleAlike).map (uniqueKey
          ⟨.countUniq, [], "n"⟩)).dedup.length = e.2.1 ∧
        ((groupRows sampleDistinct e.1 sampleAlike).map (·.fields)).dedup.length = e.2.2 := by
    decide +kernel
  refine ⟨hfunc, hrows, fun e he => ?_⟩
  obtain ⟨hsome, hcounted, hdistinct⟩ := hgroups e he
  have hstates := get?_ofRows sampleDistinct sampleAlike e.1
  rw [hsome, if_neg Bool.false_ne_true] at hstates
  obtain ⟨n, hrender, rfl, -⟩ := distinct_rows_counted hfunc rfl rfl hrows hstates
  exact ⟨_, hstates, hcounted ▸ hrender, hdistinct⟩

end PartialStats

end Logbook
