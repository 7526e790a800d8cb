import Mathlib.Data.List.Induction
import Logbook.Proofs.Fields
import Logbook.Proofs.SortedMap

set_option autoImplicit false

/-! # Each name once

`Field.dedup` looks for the name of every field among the fields that it has kept. A loop that keeps
an index of their places besides (`Field.Indexed`) need not look: after any number of fields the
index tells of each name where it stands, so that both write the same
(**`Field.Indexed.fields_ofFields`**).

What is left is told by two facts: the names stand in the order of their first occurrence, and each
is read with its last value. No other list has both (**`Field.eq_dedup_iff`**). To resolve again
changes nothing, so that a prefix can be resolved ahead of the rest
(**`Field.first_place_last_value`**). -/

namespace Logbook.Field

/-! ## Writing at a place -/

@[simp] theorem length_names (fs : List Field) : (names fs).length = fs.length :=
  List.length_map ..

/-- To write a value at a place leaves the names alone. -/
theorem names_set_value (fs : List Field) {i : Nat} (h : i < fs.length) (value : String) :
    names (fs.set i { fs[i] with value := value }) = names fs := by
  have hnames : i < (names fs).length := by rwa [length_names]
  have hname : fs[i].name = (names fs)[i] := (List.getElem_map ..).symm
  show names (fs.set i ⟨fs[i].name, value⟩) = names fs
  rw [hname, names, List.map_set]
  exact List.set_getElem_self hnames

theorem idxOf?_append_singleton (xs : List String) (x y : String) :
    (xs ++ [x]).idxOf? y = (xs.idxOf? y).or (if x = y then some xs.length else none) := by
  show (xs ++ [x]).findIdx? (· == y) = (xs.findIdx? (· == y)).or _
  rw [List.findIdx?_append]
  by_cases h : x = y <;> simp [h]

/-- A name that is there is written at its first place. -/
theorem put_of_idxOf? {fs : List Field} {f : Field} {i : Nat}
    (h : (names fs).idxOf? f.name = some i) (hi : i < fs.length) :
    put fs f = fs.set i { fs[i] with value := f.value } := by
  induction fs generalizing i with
  | nil => cases h
  | cons g fs ih =>
    rw [names_cons, List.idxOf?_cons] at h
    rw [put]
    by_cases hg : g.name = f.name
    · rw [if_pos (beq_iff_eq.2 hg)] at h
      cases h
      rw [if_pos hg]
      rfl
    · rw [if_neg fun e => hg (beq_iff_eq.1 e)] at h
      obtain ⟨j, hj, rfl⟩ := Option.map_eq_some_iff.1 h
      rw [if_neg hg, ih hj (Nat.lt_of_succ_lt_succ hi)]
      rfl

/-! ## The loop with an index -/

/-- Fields, and the first place of each name among them. -/
structure Indexed where
  fields : List Field
  places : SortedMap String Nat
  sorted : places.Sorted
  get?_places : ∀ name, places.get? name = (names fields).idxOf? name

namespace Indexed

/-- No fields. -/
def empty : Indexed where
  fields := []
  places := []
  sorted := SortedMap.sorted_nil
  get?_places _ := rfl

/-- A place that the index knows is a place of the list. -/
theorem lt_length (s : Indexed) {name : String} {i : Nat} (h : s.places.get? name = some i) :
    i < s.fields.length := by
  rw [s.get?_places] at h
  obtain ⟨hlt, -⟩ := List.idxOf?_eq_some_iff.1 h
  rwa [length_names] at hlt

theorem get?_insert_places (s : Indexed) {f : Field} (h : s.places.get? f.name = none)
    (name : String) :
    (s.places.insert f.name s.fields.length).get? name
      = (names (s.fields ++ [f])).idxOf? name := by
  rw [names_append, names_cons, names_nil, idxOf?_append_singleton, ← s.get?_places, length_names,
    SortedMap.insert]
  by_cases hname : f.name = name
  · rw [← hname, SortedMap.get?_alter_self s.sorted, h, if_pos rfl, Option.none_or]
  · rw [SortedMap.get?_alter_of_ne _ _ (Ne.symm hname), if_neg hname, Option.or_none]

/-- Writes a field: over the value at the place of its name, or at the end if it has none. -/
def push (s : Indexed) (f : Field) : Indexed :=
  match h : s.places.get? f.name with
  | some i =>
    -- the index never leads past the end, so that there is a field to write over
    have hi : i < s.fields.length := s.lt_length h
    { s with
      fields := s.fields.set i { s.fields[i] with value := f.value }
      get?_places := fun name => by rw [names_set_value s.fields hi, s.get?_places] }
  | none =>
    { fields := s.fields ++ [f]
      places := s.places.insert f.name s.fields.length
      sorted := SortedMap.sorted_alter s.sorted ..
      get?_places := s.get?_insert_places h }

/-- Writes the fields one by one. -/
def ofFields (fs : List Field) : Indexed :=
  fs.foldl push empty

/-- With the index a field is written where it is written without. -/
theorem fields_push (s : Indexed) (f : Field) : (s.push f).fields = put s.fields f := by
  unfold push
  split
  · next i h => exact (put_of_idxOf? (s.get?_places _ ▸ h) (s.lt_length h)).symm
  · next h => exact (put_of_not_mem (List.idxOf?_eq_none_iff.1 (s.get?_places _ ▸ h))).symm

theorem fields_foldl_push (fs : List Field) (s : Indexed) :
    (fs.foldl push s).fields = fs.foldl put s.fields := by
  induction fs generalizing s with
  | nil => rfl
  | cons f fs ih => rw [List.foldl_cons, List.foldl_cons, ih, fields_push]

/-- **The loop with an index resolves repetitions as the loop without does.** -/
theorem fields_ofFields (fs : List Field) : (ofFields fs).fields = dedup fs :=
  fields_foldl_push fs empty

end Indexed

/-! ## Names in the order of their first occurrence -/

theorem dedup_append (fs gs : List Field) : dedup (fs ++ gs) = gs.foldl put (dedup fs) :=
  List.foldl_append

/-- The names that are left stand in the order in which they first occur. -/
theorem pairwise_names_dedup (fs : List Field) :
    (names (dedup fs)).Pairwise fun a b => (names fs).idxOf a < (names fs).idxOf b := by
  -- from the back, since a field behind all others moves the first place of no name
  induction fs using List.reverseRecOn with
  | nil => exact List.Pairwise.nil
  | append_singleton fs f ih =>
    have hplace : ∀ a ∈ names (dedup fs),
        (names (fs ++ [f])).idxOf a = (names fs).idxOf a := fun a ha => by
      rw [names_append, List.idxOf_append_of_mem (mem_names_dedup.1 ha)]
    have hkept : (names (dedup fs)).Pairwise fun a b =>
        (names (fs ++ [f])).idxOf a < (names (fs ++ [f])).idxOf b := by
      refine ih.imp_of_mem ?_
      intro a b ha hb hab
      rwa [hplace a ha, hplace b hb]
    rw [dedup_append, List.foldl_cons, List.foldl_nil, names_put]
    split
    · exact hkept
    · next hnew =>
      refine List.pairwise_append.2 ⟨hkept, List.pairwise_singleton .., ?_⟩
      intro a ha b hb
      rw [List.mem_singleton.1 hb, hplace a ha, names_append,
        List.idxOf_append_of_notMem fun h => hnew (mem_names_dedup.2 h)]
      exact Nat.lt_add_right _ (List.idxOf_lt_length_iff.2 (mem_names_dedup.1 ha))

theorem nodup_names_of_pairwise {fs : List Field} {place : String → Nat}
    (h : (names fs).Pairwise fun a b => place a < place b) : (names fs).Nodup :=
  h.imp fun hlt heq => Nat.ne_of_lt hlt (congrArg place heq)

/-- Fields in the order of given places of their names are told by their values. -/
theorem eq_of_pairwise_of_first? {fs gs : List Field} {place : String → Nat}
    (hfs : (names fs).Pairwise fun a b => place a < place b)
    (hgs : (names gs).Pairwise fun a b => place a < place b)
    (h : ∀ name, first? fs name = first? gs name) : fs = gs := by
  have hfsNodup := nodup_names_of_pairwise hfs
  have hgsNodup := nodup_names_of_pairwise hgs
  have hmem : ∀ f, f ∈ fs ↔ f ∈ gs := fun f => by
    rw [← first?_eq_some_iff hfsNodup, ← first?_eq_some_iff hgsNodup, h]
  have hperm : fs.Perm gs :=
    (List.perm_ext_iff_of_nodup (List.Nodup.of_map _ hfsNodup) (List.Nodup.of_map _ hgsNodup)).2
      hmem
  have hfsOrder := List.pairwise_map.1 hfs
  have hgsOrder := List.pairwise_map.1 hgs
  refine hperm.eq_of_pairwise ?_ hfsOrder hgsOrder
  intro f g _ _ hlt hgt
  exact absurd (Nat.lt_trans hlt hgt) (Nat.lt_irrefl _)

/-- **What is left is told by the order of its names and by their values.** -/
theorem eq_dedup_iff {fs gs : List Field} :
    gs = dedup fs ↔
      ((names gs).Pairwise fun a b => (names fs).idxOf a < (names fs).idxOf b) ∧
        ∀ name, first? gs name = last? fs name := by
  constructor
  · rintro rfl
    exact ⟨pairwise_names_dedup fs, first?_dedup fs⟩
  · rintro ⟨horder, hvalues⟩
    refine eq_of_pairwise_of_first? horder (pairwise_names_dedup fs) ?_
    intro name
    rw [hvalues, first?_dedup]

/-! ## Resolving twice -/

theorem dedup_dedup (fs : List Field) : dedup (dedup fs) = dedup fs :=
  dedup_eq_self (nodup_names_dedup fs)

/-- A prefix can be resolved ahead of the rest. -/
theorem dedup_dedup_append (fs gs : List Field) : dedup (dedup fs ++ gs) = dedup (fs ++ gs) := by
  rw [dedup_append, dedup_dedup, dedup_append]

/-- **Each name keeps its first place and its last value.** The loop with an index and the one
    without leave every name once, in the order of the first occurrences, and it is read from either
    end with the last value that it had. To resolve again changes nothing, neither afterwards nor
    before more fields follow. -/
theorem first_place_last_value (fs : List Field) :
    (Indexed.ofFields fs).fields = dedup fs ∧
      (names (dedup fs)).Nodup ∧
      ((names (dedup fs)).Pairwise fun a b => (names fs).idxOf a < (names fs).idxOf b) ∧
      (∀ name, name ∈ names (dedup fs) ↔ name ∈ names fs) ∧
      (∀ name, first? (dedup fs) name = last? fs name ∧ last? (dedup fs) name = last? fs name) ∧
      dedup (dedup fs) = dedup fs ∧
      ∀ gs, dedup (fs ++ gs) = dedup (dedup fs ++ gs) :=
  ⟨Indexed.fields_ofFields fs, nodup_names_dedup fs, pairwise_names_dedup fs,
    fun _ => mem_names_dedup, fun name => ⟨first?_dedup fs name, last?_dedup fs name⟩,
    dedup_dedup fs, fun gs => (dedup_dedup_append fs gs).symm⟩

example : dedup [⟨"a", "1"⟩, ⟨"b", "2"⟩, ⟨"a", "3"⟩] = [⟨"a", "3"⟩, ⟨"b", "2"⟩] := by decide

end Logbook.Field
