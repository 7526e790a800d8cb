import Mathlib.Data.List.Induction
import Mathlib.Data.List.Nodup
import Logbook.Field

set_option autoImplicit false

/-! # Fields as a map

A list of fields is read as a map from names to values in two ways: by the first field of a name
(`Field.first?`) or by the last (`Field.last?`). On lists with distinct names the two agree, and
both are membership; on lists that are sorted by name, halving the list gives the same
(`Field.bisect?_eq_first?`). `Field.put` updates the first reading at one name, so that
`Field.dedup` turns the last reading of any list into the only reading of a list with distinct names
(`Field.first?_dedup`, `Field.last?_dedup`). -/

namespace Logbook.Field

/-! ## The two readings -/

@[simp] theorem first?_nil (name : String) : first? [] name = none := rfl

theorem first?_cons (f : Field) (fs : List Field) (name : String) :
    first? (f :: fs) name = if f.name = name then some f.value else first? fs name := by
  by_cases h : f.name = name
  · simp [first?, h]
  · have hb : (f.name == name) = false := beq_eq_false_iff_ne.2 h
    simp [first?, h, hb]

theorem first?_append (fs gs : List Field) (name : String) :
    first? (fs ++ gs) name = (first? fs name).or (first? gs name) := by
  induction fs with
  | nil => simp
  | cons f fs ih =>
    rw [List.cons_append, first?_cons, first?_cons, ih]
    by_cases h : f.name = name <;> simp [h]

@[simp] theorem last?_nil (name : String) : last? [] name = none := rfl

theorem last?_append (fs gs : List Field) (name : String) :
    last? (fs ++ gs) name = (last? gs name).or (last? fs name) := by
  simp only [last?, List.reverse_append, first?_append]

theorem last?_cons (f : Field) (fs : List Field) (name : String) :
    last? (f :: fs) name = (last? fs name).or (if f.name = name then some f.value else none) := by
  have h := last?_append [f] fs name
  simpa [last?, first?_cons] using h

theorem first?_eq_none_iff {fs : List Field} {name : String} :
    first? fs name = none ↔ name ∉ names fs := by
  induction fs with
  | nil => simp
  | cons f fs ih =>
    rw [first?_cons, names_cons, List.mem_cons, not_or]
    by_cases h : f.name = name
    · simp [h]
    · have h' : ¬ name = f.name := fun e => h e.symm
      simp [h, h', ih]

theorem names_reverse (fs : List Field) : names fs.reverse = (names fs).reverse := by
  simp [names]

theorem last?_eq_none_iff {fs : List Field} {name : String} :
    last? fs name = none ↔ name ∉ names fs := by
  rw [last?, first?_eq_none_iff, names_reverse, List.mem_reverse]

theorem mem_of_first? {fs : List Field} {name value : String} (h : first? fs name = some value) :
    ⟨name, value⟩ ∈ fs := by
  induction fs with
  | nil => simp at h
  | cons f fs ih =>
    rw [first?_cons] at h
    split at h
    · next hname =>
      cases h
      subst hname
      exact List.mem_cons_self
    · exact List.mem_cons_of_mem _ (ih h)

/-- Fields of other names may be left out. -/
theorem first?_filter_name_ne {name other : String} (h : name ≠ other) (fs : List Field) :
    first? (fs.filter (·.name != other)) name = first? fs name := by
  induction fs with
  | nil => rfl
  | cons f fs ih =>
    by_cases hf : f.name = other
    · have hname : f.name ≠ name := fun e => h (e.symm.trans hf)
      rw [List.filter_cons_of_neg (by simp [hf]), ih, first?_cons, if_neg hname]
    · rw [List.filter_cons_of_pos (by simp [hf]), first?_cons, first?_cons, ih]

/-! ## Distinct names -/

theorem first?_eq_some_iff {fs : List Field} (h : (names fs).Nodup) {name value : String} :
    first? fs name = some value ↔ ⟨name, value⟩ ∈ fs := by
  refine ⟨mem_of_first?, ?_⟩
  intro hmem
  induction fs with
  | nil => simp at hmem
  | cons f fs ih =>
    rw [names_cons, List.nodup_cons] at h
    rw [first?_cons]
    rcases List.mem_cons.1 hmem with rfl | hmem
    · simp
    · have hne : f.name ≠ name := fun e => h.1 (e ▸ mem_names_of_mem hmem)
      rw [if_neg hne, ih h.2 hmem]

theorem last?_eq_some_iff {fs : List Field} (h : (names fs).Nodup) {name value : String} :
    last? fs name = some value ↔ ⟨name, value⟩ ∈ fs := by
  have hrev : (names fs.reverse).Nodup := by
    rw [names_reverse]
    exact List.nodup_reverse.2 h
  rw [last?, first?_eq_some_iff hrev, List.mem_reverse]

theorem last?_eq_first? {fs : List Field} (h : (names fs).Nodup) (name : String) :
    last? fs name = first? fs name := by
  apply Option.ext
  intro value
  rw [last?_eq_some_iff h, first?_eq_some_iff h]

/-! ## Lists that are sorted by name -/

theorem first?_eq_none_of_forall {fs : List Field} {name : String}
    (h : ∀ f ∈ fs, f.name ≠ name) : first? fs name = none := by
  refine first?_eq_none_iff.2 fun hmem => ?_
  obtain ⟨f, hf, rfl⟩ := List.mem_map.1 hmem
  exact h f hf rfl

/-- In a sorted list a field tells on which side of it a name may be. -/
theorem first?_append_cons_of_sorted {before after : List Field} {f : Field}
    (h : (before ++ f :: after).Pairwise fun a b => a.name < b.name) (name : String) :
    first? (before ++ f :: after) name
      = if f.name = name then some f.value
        else if f.name < name then first? after name
        else first? before name := by
  rw [List.pairwise_append, List.pairwise_cons] at h
  obtain ⟨-, ⟨hafter, -⟩, hbefore⟩ := h
  have hlow : ∀ g ∈ before, g.name < f.name := fun g hg => hbefore g hg f List.mem_cons_self
  rw [first?_append, first?_cons]
  split
  · next heq =>
    rw [first?_eq_none_of_forall fun g hg => Std.ne_of_lt (heq ▸ hlow g hg), Option.none_or]
  · next hne =>
    split
    · next hlt =>
      rw [first?_eq_none_of_forall fun g hg => Std.ne_of_lt (Std.lt_trans (hlow g hg) hlt),
        Option.none_or]
    · next hnot =>
      have hgt : name < f.name := Std.lt_of_le_of_ne (Std.not_lt.1 hnot) (Ne.symm hne)
      have hhigh : ∀ g ∈ after, g.name ≠ name := fun g hg =>
        Ne.symm (Std.ne_of_lt (Std.lt_trans hgt (hafter g hg)))
      rw [first?_eq_none_of_forall hhigh, Option.or_none]

/-- **Halving a sorted list finds what looking through it finds.** -/
theorem bisect?_eq_first? {fs : List Field} (h : fs.Pairwise fun a b => a.name < b.name)
    (name : String) : bisect? fs name = first? fs name := by
  induction hlen : fs.length using Nat.strongRecOn generalizing fs with
  | ind n ih =>
    subst hlen
    have hsplit := List.take_append_drop (fs.length / 2) fs
    rw [bisect?]
    split
    · next hdrop =>
      have hnil : fs.length = 0 := by
        rw [List.drop_eq_nil_iff] at hdrop
        omega
      rw [List.eq_nil_of_length_eq_zero hnil, first?_nil]
    · next f after hdrop =>
      rw [hdrop] at hsplit
      generalize fs.take (fs.length / 2) = before at hsplit ⊢
      subst hsplit
      have hparts := h
      rw [List.pairwise_append, List.pairwise_cons] at hparts
      have hbefore := ih before.length (by simp) hparts.1 rfl
      have hafter := ih after.length (by simp; omega) hparts.2.1.2 rfl
      rw [first?_append_cons_of_sorted h, hbefore, hafter]

/-! ## Writing and resolving repetitions -/

theorem first?_put (fs : List Field) (f : Field) (name : String) :
    first? (put fs f) name = if f.name = name then some f.value else first? fs name := by
  induction fs with
  | nil => simp [put, first?_cons]
  | cons g fs ih =>
    rw [put]
    split
    · next h =>
      rw [first?_cons, first?_cons, h]
      by_cases hf : f.name = name <;> simp [hf]
    · next h =>
      rw [first?_cons, ih, first?_cons]
      by_cases hf : f.name = name
      · have hg : ¬ g.name = name := fun e => h (e.trans hf.symm)
        simp [hf, hg]
      · simp [hf]

theorem first?_foldl_put (fs acc : List Field) (name : String) :
    first? (fs.foldl put acc) name = (last? fs name).or (first? acc name) := by
  induction fs generalizing acc with
  | nil => simp
  | cons f fs ih =>
    rw [List.foldl_cons, ih, first?_put, last?_cons]
    by_cases h : f.name = name <;> simp [h]

theorem first?_dedup (fs : List Field) (name : String) :
    first? (dedup fs) name = last? fs name := by
  simp [dedup, first?_foldl_put]

theorem last?_dedup (fs : List Field) (name : String) :
    last? (dedup fs) name = last? fs name := by
  rw [last?_eq_first? (nodup_names_dedup fs), first?_dedup]

theorem mem_names_dedup {fs : List Field} {name : String} :
    name ∈ names (dedup fs) ↔ name ∈ names fs := by
  rw [← not_iff_not, ← first?_eq_none_iff, first?_dedup, last?_eq_none_iff]

theorem put_of_not_mem {fs : List Field} {f : Field} (h : f.name ∉ names fs) :
    put fs f = fs ++ [f] := by
  induction fs with
  | nil => rfl
  | cons g fs ih =>
    rw [names_cons, List.mem_cons, not_or] at h
    rw [put, if_neg fun e => h.1 e.symm, ih h.2, List.cons_append]

theorem foldl_put_eq_append {fs acc : List Field} (h : (names (acc ++ fs)).Nodup) :
    fs.foldl put acc = acc ++ fs := by
  induction fs generalizing acc with
  | nil => simp
  | cons f fs ih =>
    have hnew : f.name ∉ names acc := by
      rw [names_append, names_cons, List.nodup_append] at h
      exact fun hmem => h.2.2 _ hmem _ List.mem_cons_self rfl
    rw [List.foldl_cons, put_of_not_mem hnew, ih (by simpa using h)]
    simp

/-- Where no name repeats there is nothing to resolve. -/
theorem dedup_eq_self {fs : List Field} (h : (names fs).Nodup) : dedup fs = fs :=
  foldl_put_eq_append (by simpa using h)

/-! ## Writing into one of two lists -/

theorem put_append_of_mem {fs : List Field} {f : Field} (h : f.name ∈ names fs) (gs : List Field) :
    put (fs ++ gs) f = put fs f ++ gs := by
  induction fs with
  | nil => cases h
  | cons g fs ih =>
    rw [List.cons_append, put, put]
    by_cases hg : g.name = f.name
    · rw [if_pos hg, if_pos hg, List.cons_append]
    · rw [names_cons, List.mem_cons] at h
      rw [if_neg hg, if_neg hg, ih (h.resolve_left fun e => hg e.symm), List.cons_append]

theorem put_append_of_not_mem {fs : List Field} {f : Field} (h : f.name ∉ names fs)
    (gs : List Field) : put (fs ++ gs) f = fs ++ put gs f := by
  induction fs with
  | nil => rfl
  | cons g fs ih =>
    rw [names_cons, List.mem_cons, not_or] at h
    rw [List.cons_append, put, if_neg fun e => h.1 e.symm, ih h.2, List.cons_append]

/-- Fields whose name occurs in the first list are written into it, the others into the second. -/
theorem foldl_put_append (es fs gs : List Field) :
    es.foldl put (fs ++ gs)
      = (es.filter fun f => f.name ∈ names fs).foldl put fs
        ++ (es.filter fun f => f.name ∉ names fs).foldl put gs := by
  induction es generalizing fs gs with
  | nil => rfl
  | cons e es ih =>
    by_cases h : e.name ∈ names fs
    · have hnames : names (put fs e) = names fs := by rw [names_put, if_pos h]
      rw [List.foldl_cons, put_append_of_mem h, ih, hnames]
      simp [h]
    · rw [List.foldl_cons, put_append_of_not_mem h, ih]
      simp [h]

theorem last?_filter_cons_of_ne {f : Field} {name : String} (h : f.name ≠ name) (p : Field → Bool)
    (fs : List Field) : last? ((f :: fs).filter p) name = last? (fs.filter p) name := by
  rw [List.filter_cons]
  split
  · rw [last?_cons, if_neg h, Option.or_none]
  · rfl

/-- Under a name, only what is kept of the fields of that name matters. -/
theorem last?_filter_congr {p q : Field → Bool} {name : String} {fs : List Field}
    (h : ∀ f ∈ fs, f.name = name → p f = q f) :
    last? (fs.filter p) name = last? (fs.filter q) name := by
  induction fs with
  | nil => rfl
  | cons f fs ih =>
    have ih := ih fun g hg => h g (List.mem_cons_of_mem _ hg)
    by_cases hf : f.name = name
    · rw [List.filter_cons, List.filter_cons, h f List.mem_cons_self hf]
      split
      · rw [last?_cons, last?_cons, ih]
      · exact ih
    · rw [last?_filter_cons_of_ne hf, last?_filter_cons_of_ne hf, ih]

theorem last?_filter_put_of_ne {f : Field} {name : String} (h : f.name ≠ name) (p : Field → Bool)
    (fs : List Field) : last? ((put fs f).filter p) name = last? (fs.filter p) name := by
  induction fs with
  | nil => exact last?_filter_cons_of_ne h p []
  | cons g fs ih =>
    rw [put]
    by_cases hg : g.name = f.name
    · have hname : g.name ≠ name := fun e => h (hg.symm.trans e)
      rw [if_pos hg, last?_filter_cons_of_ne hname]
      refine last?_filter_cons_of_ne ?_ p fs
      exact hname
    · rw [if_neg hg, List.filter_cons, List.filter_cons]
      split
      · rw [last?_cons, last?_cons, ih]
      · exact ih

/-- What is written under other names is not read under this one. -/
theorem last?_filter_foldl_put {es : List Field} {name : String} (h : name ∉ names es)
    (p : Field → Bool) (fs : List Field) :
    last? ((es.foldl put fs).filter p) name = last? (fs.filter p) name := by
  induction es generalizing fs with
  | nil => rfl
  | cons e es ih =>
    rw [names_cons, List.mem_cons, not_or] at h
    rw [List.foldl_cons, ih h.2, last?_filter_put_of_ne fun e' => h.1 e'.symm]

/-! ## Behind the first field of a name -/

/-- The fields behind the first one of a name; none if there is no field of that name. -/
def behind (name : String) : List Field → List Field
  | [] => []
  | f :: fs => if f.name = name then fs else behind name fs

/-- To write over the first field of a name changes nothing behind it. -/
theorem last?_filter_behind_put (f : Field) (name : String) (p : Field → Bool) (fs : List Field) :
    last? ((behind name (put fs f)).filter p) name = last? ((behind name fs).filter p) name := by
  induction fs with
  | nil =>
    unfold put behind
    split <;> rfl
  | cons g fs ih =>
    rw [put]
    by_cases hg : g.name = f.name
    · rw [if_pos hg]
      rfl
    · rw [if_neg hg, behind, behind]
      by_cases hname : g.name = name
      · rw [if_pos hname, if_pos hname]
        exact last?_filter_put_of_ne (fun e => hg (hname.trans e.symm)) p fs
      · rw [if_neg hname, if_neg hname, ih]

theorem last?_filter_put_self {f : Field} {p : Field → Bool} (h : p f = true) (fs : List Field) :
    last? ((put fs f).filter p) f.name
      = (last? ((behind f.name fs).filter p) f.name).or (some f.value) := by
  induction fs with
  | nil => simp [put, behind, h, last?_cons]
  | cons g fs ih =>
    rw [put, behind]
    by_cases hg : g.name = f.name
    · have hwritten : { g with value := f.value } = f := by rw [hg]
      rw [if_pos hg, if_pos hg, hwritten, List.filter_cons_of_pos h, last?_cons, if_pos rfl]
    · rw [if_neg hg, if_neg hg, last?_filter_cons_of_ne hg, ih]

/-- **What is written under a name is read unless a later field of that name is kept.** Only the
    first field of the name is written over. -/
theorem last?_filter_foldl_put_of_last? {es : List Field} {name value : String}
    {p : Field → Bool} (h : last? es name = some value) (hp : p ⟨name, value⟩ = true)
    (fs : List Field) :
    last? ((es.foldl put fs).filter p) name
      = (last? ((behind name fs).filter p) name).or (some value) := by
  have hbehind : ∀ (es fs : List Field), last? ((behind name (es.foldl put fs)).filter p) name
      = last? ((behind name fs).filter p) name := by
    intro es
    induction es with
    | nil => intro fs; rfl
    | cons e es ih => intro fs; rw [List.foldl_cons, ih, last?_filter_behind_put]
  -- from the back, since the last of the fields that are written counts
  induction es using List.reverseRecOn with
  | nil => cases h
  | append_singleton es e ih =>
    rw [List.foldl_append, List.foldl_cons, List.foldl_nil]
    rw [last?_append, last?_cons, last?_nil, Option.none_or] at h
    by_cases he : e.name = name
    · rw [if_pos he, Option.some_or] at h
      cases h
      subst he
      rw [last?_filter_put_self hp, hbehind]
    · rw [if_neg he, Option.none_or] at h
      rw [last?_filter_put_of_ne he, ih h]

end Logbook.Field
