import Mathlib.Data.List.Count
import Mathlib.Data.List.Sublists
import Logbook.Proofs.Query.FieldOrder

set_option autoImplicit false

/-! # Selecting fields

A selection makes up no field and shows no name that is not listed. Fields are taken out one by one,
and the last field moves to the place of the one that is taken. Where names of a row repeat, a later
field can come to stand before an earlier one in this way, so that another value is shown than the
row has under the name. A selection does no more than select, whatever the list, just if the names
of the row are distinct or are all one name with equal fields behind the first
(**`project_selects_iff`**). -/

namespace Logbook

namespace QueryRow

/-! ## One name -/

theorem takeFields_nil (names : List String) : takeFields names [] = [] := by
  induction names with
  | nil => rfl
  | cons name names ih => exact ih

theorem takeFields_cons_of_not_mem {name : String} {fields : List Field}
    (h : name ∉ Field.names fields) (names : List String) :
    takeFields (name :: names) fields = takeFields names fields := by
  rw [takeFields, takeField?_eq_none_iff.2 h]

/-- The field that is taken for a name is of that name, and the others stay. -/
theorem exists_takeFields_cons {name : String} {fields : List Field}
    (h : name ∈ Field.names fields) (names : List String) :
    ∃ f rest, f.name = name ∧ (f :: rest).Perm fields ∧
      takeFields (name :: names) fields = f :: takeFields names rest := by
  cases htake : takeField? name fields with
  | none => exact absurd h (takeField?_eq_none_iff.1 htake)
  | some taken =>
    obtain ⟨f, rest⟩ := taken
    obtain ⟨hname, hperm⟩ := perm_of_takeField? htake
    exact ⟨f, rest, hname, hperm, by rw [takeFields, htake]⟩

/-- The first field of a row is taken for its name. -/
theorem exists_takeFields_cons_self (f : Field) (fields : List Field) (names : List String) :
    ∃ rest, rest.Perm fields ∧ takeFields (f.name :: names) (f :: fields)
      = f :: takeFields names rest := by
  have htake : ∃ rest, takeField? f.name (f :: fields) = some (f, rest) := by
    rw [takeField?, if_pos rfl]
    cases fields.getLast? <;> exact ⟨_, rfl⟩
  obtain ⟨rest, htake⟩ := htake
  exact ⟨rest, (perm_of_takeField? htake).2.cons_inv, by rw [takeFields, htake]⟩

/-! ## Any list of names -/

/-- No field is made up. -/
theorem subperm_takeFields (names : List String) (fields : List Field) :
    (takeFields names fields).Subperm fields := by
  induction names generalizing fields with
  | nil => exact List.nil_subperm
  | cons name names ih =>
    by_cases h : name ∈ Field.names fields
    · obtain ⟨f, rest, -, hperm, htake⟩ := exists_takeFields_cons h names
      rw [htake]
      exact ((List.subperm_cons f).2 (ih rest)).trans hperm.subperm
    · rw [takeFields_cons_of_not_mem h]
      exact ih fields

/-- The names that are shown are listed, one behind the other. -/
theorem sublist_names_takeFields (names : List String) (fields : List Field) :
    (Field.names (takeFields names fields)).Sublist names := by
  induction names generalizing fields with
  | nil => exact List.Sublist.refl []
  | cons name names ih =>
    by_cases h : name ∈ Field.names fields
    · obtain ⟨f, rest, hname, -, htake⟩ := exists_takeFields_cons h names
      rw [htake, Field.names_cons, hname]
      exact (ih rest).cons_cons name
    · rw [takeFields_cons_of_not_mem h]
      exact (ih fields).cons name

theorem mem_of_mem_names_takeFields {names : List String} {fields : List Field} {name : String}
    (h : name ∈ Field.names (takeFields names fields)) : name ∈ Field.names fields :=
  List.map_subset _ (subperm_takeFields names fields).subset h

/-- A listed name that the row has is shown. -/
theorem mem_names_takeFields {names : List String} {fields : List Field} {name : String}
    (hlisted : name ∈ names) (h : name ∈ Field.names fields) :
    name ∈ Field.names (takeFields names fields) := by
  induction names generalizing fields with
  | nil => cases hlisted
  | cons other names ih =>
    by_cases hother : other ∈ Field.names fields
    · obtain ⟨f, rest, hname, hperm, htake⟩ := exists_takeFields_cons hother names
      rw [htake, Field.names_cons, hname]
      by_cases heq : name = other
      · exact heq ▸ List.mem_cons_self
      · have hrest : name ∈ Field.names (f :: rest) := (hperm.map _).mem_iff.2 h
        rw [Field.names_cons, hname, List.mem_cons] at hrest
        exact List.mem_cons_of_mem _
          (ih ((List.mem_cons.1 hlisted).resolve_left heq) (hrest.resolve_left heq))
    · have heq : name ≠ other := fun heq => hother (heq ▸ h)
      rw [takeFields_cons_of_not_mem hother]
      exact ih ((List.mem_cons.1 hlisted).resolve_left heq) h

/-! ## Order -/

/-- Names are shown in the order in which they are first listed, unless a name is listed twice and
    the row has it twice. -/
theorem pairwise_idxOf_takeFields {names : List String} {fields : List Field}
    (h : names.Nodup ∨ (Field.names fields).Nodup) :
    (Field.names (takeFields names fields)).Pairwise fun a b => names.idxOf a ≤ names.idxOf b := by
  induction names generalizing fields with
  | nil => exact List.Pairwise.nil
  | cons name names ih =>
    have hshift : ∀ {fields : List Field}, name ∉ Field.names (takeFields names fields) →
        names.Nodup ∨ (Field.names fields).Nodup →
        (Field.names (takeFields names fields)).Pairwise
          fun a b => (name :: names).idxOf a ≤ (name :: names).idxOf b := by
      intro fields hname h
      refine (ih h).imp_of_mem fun {a b} ha hb hle => ?_
      rw [List.idxOf_cons_ne _ (ne_of_mem_of_not_mem ha hname).symm,
        List.idxOf_cons_ne _ (ne_of_mem_of_not_mem hb hname).symm]
      exact Nat.succ_le_succ hle
    by_cases hmem : name ∈ Field.names fields
    · obtain ⟨f, rest, rfl, hperm, htake⟩ := exists_takeFields_cons hmem names
      have hnames : (Field.names (f :: rest)).Perm (Field.names fields) := hperm.map _
      rw [htake, Field.names_cons]
      refine List.Pairwise.cons (fun b _ => ?_) (hshift ?_ ?_)
      · rw [List.idxOf_cons_self]
        exact Nat.zero_le _
      · rcases h with h | h
        · exact fun hshown => (List.nodup_cons.1 h).1
            ((sublist_names_takeFields names rest).subset hshown)
        · exact fun hshown => (List.nodup_cons.1 (hnames.nodup_iff.2 h)).1
            (mem_of_mem_names_takeFields hshown)
      · rcases h with h | h
        · exact .inl (List.nodup_cons.1 h).2
        · exact .inr (List.nodup_cons.1 (hnames.nodup_iff.2 h)).2
    · rw [takeFields_cons_of_not_mem hmem]
      exact hshift (fun hshown => hmem (mem_of_mem_names_takeFields hshown))
        (h.imp_left fun h => (List.nodup_cons.1 h).2)

/-- Fields that are listed, each once and in the order of the list, are all taken as they are. -/
theorem takeFields_eq_self {names : List String} {fields : List Field}
    (hnodup : (Field.names fields).Nodup) (hlisted : ∀ f ∈ fields, f.name ∈ names)
    (hordered : (Field.names fields).Pairwise fun a b => names.idxOf a ≤ names.idxOf b) :
    takeFields names fields = fields := by
  induction names generalizing fields with
  | nil =>
    cases fields with
    | nil => rfl
    | cons f fields => cases hlisted f List.mem_cons_self
  | cons name names ih =>
    have hshift : ∀ {fields : List Field}, (Field.names fields).Nodup →
        name ∉ Field.names fields → (∀ f ∈ fields, f.name ∈ name :: names) →
        ((Field.names fields).Pairwise
          fun a b => (name :: names).idxOf a ≤ (name :: names).idxOf b) →
        takeFields names fields = fields := by
      intro fields hnodup hname hlisted hordered
      have hne : ∀ f ∈ fields, f.name ≠ name :=
        fun f hf heq => hname (heq ▸ Field.mem_names_of_mem hf)
      refine ih hnodup (fun f hf => (List.mem_cons.1 (hlisted f hf)).resolve_left (hne f hf))
        (hordered.imp_of_mem fun {a b} ha hb hle => ?_)
      rw [List.idxOf_cons_ne _ (ne_of_mem_of_not_mem ha hname).symm,
        List.idxOf_cons_ne _ (ne_of_mem_of_not_mem hb hname).symm] at hle
      exact Nat.le_of_succ_le_succ hle
    cases fields with
    | nil => exact takeFields_nil _
    | cons f fields =>
      obtain ⟨hfirst, hfields⟩ := List.pairwise_cons.1 hordered
      obtain ⟨hf, hnodup'⟩ := List.nodup_cons.1 hnodup
      by_cases hname : f.name = name
      · subst hname
        obtain ⟨rest, hperm, htake⟩ := exists_takeFields_cons_self f fields names
        rw [htake, takeFields_perm names hperm ((hperm.map _).nodup_iff.2 hnodup'),
          hshift hnodup' hf (fun g hg => hlisted g (List.mem_cons_of_mem _ hg)) hfields]
      · -- the name is listed first, so that it would be shown first
        have hmem : name ∉ Field.names (f :: fields) := by
          intro hmem
          have hle := hfirst name ((List.mem_cons.1 hmem).resolve_left (Ne.symm hname))
          rw [List.idxOf_cons_self, List.idxOf_cons_ne _ (Ne.symm hname)] at hle
          exact absurd hle (Nat.not_succ_le_zero _)
        rw [takeFields_cons_of_not_mem hmem]
        exact hshift hnodup hmem hlisted hordered

/-- Selecting once more changes nothing, unless a name is listed twice and the row has it twice. -/
theorem takeFields_takeFields {names : List String} {fields : List Field}
    (h : names.Nodup ∨ (Field.names fields).Nodup) :
    takeFields names (takeFields names fields) = takeFields names fields := by
  have hsub := sublist_names_takeFields names fields
  refine takeFields_eq_self ?_ (fun f hf => hsub.subset (Field.mem_names_of_mem hf))
    (pairwise_idxOf_takeFields h)
  rcases h with h | h
  · exact h.sublist hsub
  · obtain ⟨l, hperm, hl⟩ := subperm_takeFields names fields
    exact (hperm.map _).nodup_iff.1 (h.sublist (hl.map _))

/-! ## Rows of one name -/

/-- For a name that all fields have, the first field is taken and then the others from the last. -/
theorem takeFields_replicate {name : String} {f : Field} {fields : List Field}
    (h : ∀ g ∈ f :: fields, g.name = name) (n : Nat) :
    takeFields (List.replicate n name) (f :: fields) = (f :: fields.reverse).take n := by
  induction n generalizing f fields with
  | zero => rfl
  | succ n ih =>
    rw [List.forall_mem_cons] at h
    rw [List.replicate_succ, takeFields, takeField?, if_pos h.1, List.take_succ_cons]
    rcases List.eq_nil_or_concat fields with rfl | ⟨front, last, rfl⟩
    · simp [takeFields_nil]
    · have hlast : ∀ g ∈ last :: front, g.name = name := by
        intro g hg
        exact h.2 g (by simpa [or_comm] using hg)
      rw [List.concat_eq_append, List.getLast?_append, List.dropLast_concat, List.reverse_append]
      exact congrArg (f :: ·) (ih hlast)

/-- Where all fields but the first are equal, it does not matter which is taken. -/
theorem takeFields_cons_replicate {f g : Field} (h : g.name = f.name) (n : Nat)
    (names : List String) :
    takeFields names (f :: List.replicate n g)
      = (f :: List.replicate n g).take (names.count f.name) := by
  induction names generalizing f n with
  | nil => rfl
  | cons name names ih =>
    by_cases hname : name = f.name
    · subst hname
      obtain ⟨rest, hperm, htake⟩ := exists_takeFields_cons_self f (List.replicate n g) names
      rw [htake, List.perm_replicate.1 hperm, List.count_cons_self, List.take_succ_cons]
      cases n with
      | zero => simp [takeFields_nil]
      | succ n => rw [List.replicate_succ, ih rfl, h]
    · have hmem : name ∉ Field.names (f :: List.replicate n g) := by
        rw [Field.names_cons, Field.names, List.map_replicate, h, List.mem_cons, not_or]
        exact ⟨hname, fun hmem => hname (List.eq_of_mem_replicate hmem)⟩
      rw [takeFields_cons_of_not_mem hmem, ih h, List.count_cons_of_ne hname]

/-! ## Selections -/

/-- Projecting the row to the list does no more than select: what is listed keeps its value, nothing
    else is there, names stand in the order in which they are first listed, and selecting once more
    changes nothing. -/
structure Selects (row : QueryRow) (names : List String) : Prop where
  value : ∀ name ∈ names, (row.project names).value name = row.value name
  listed : ∀ f ∈ (row.project names).fields, f.name ∈ names
  ordered : (Field.names (row.project names).fields).Pairwise
    fun a b => names.idxOf a ≤ names.idxOf b
  again : (row.project names).project names = row.project names

theorem listed_of_mem_project {row : QueryRow} {names : List String} {f : Field}
    (h : f ∈ (row.project names).fields) : f.name ∈ names :=
  (sublist_names_takeFields names row.fields).subset (Field.mem_names_of_mem h)

theorem project_project_iff {row : QueryRow} {names : List String} :
    (row.project names).project names = row.project names ↔
      takeFields names (takeFields names row.fields) = takeFields names row.fields := by
  simp only [project, mk.injEq, and_iff_right_iff_imp]
  intro _
  split <;> rfl

/-- A listed name keeps its value if all fields of that name have one value. -/
theorem value_project {row : QueryRow} {names : List String} {name : String}
    (hlisted : name ∈ names)
    (h : ∀ f ∈ row.fields, ∀ g ∈ row.fields, f.name = name → g.name = name → f.value = g.value) :
    (row.project names).value name = row.value name := by
  refine congrArg (Option.getD · "") ?_
  show Field.first? (takeFields names row.fields) name = Field.first? row.fields name
  cases hrow : Field.first? row.fields name with
  | none =>
    rw [Field.first?_eq_none_iff] at hrow ⊢
    exact fun hmem => hrow (mem_of_mem_names_takeFields hmem)
  | some value =>
    have hmem := Field.mem_of_first? hrow
    have hshown := mem_names_takeFields hlisted (Field.mem_names_of_mem hmem)
    rw [← not_not (a := name ∈ _), ← Field.first?_eq_none_iff, ← ne_eq,
      Option.ne_none_iff_exists'] at hshown
    obtain ⟨shown, hshown⟩ := hshown
    have hmem' := (subperm_takeFields names row.fields).subset (Field.mem_of_first? hshown)
    rw [hshown, show shown = value from h _ hmem' _ hmem rfl rfl]

theorem selects_of_nodup {row : QueryRow} (h : (Field.names row.fields).Nodup)
    (names : List String) : row.Selects names where
  value name hname := value_project hname fun f hf g hg hfname hgname => by
    rw [List.inj_on_of_nodup_map h hf hg (hfname.trans hgname.symm)]
  listed _ := listed_of_mem_project
  ordered := pairwise_idxOf_takeFields (.inr h)
  again := project_project_iff.2 (takeFields_takeFields (.inr h))

theorem selects_of_replicate {row : QueryRow} {f g : Field} {n : Nat}
    (hfields : row.fields = f :: List.replicate n g) (hname : g.name = f.name)
    (names : List String) : row.Selects names where
  value name hlisted := by
    show (Field.first? (takeFields names row.fields) name).getD ""
      = (Field.first? row.fields name).getD ""
    rw [hfields, takeFields_cons_replicate hname]
    by_cases heq : f.name = name
    · subst heq
      obtain ⟨k, hk⟩ := Nat.exists_eq_add_one.2 (List.count_pos_iff.2 hlisted)
      rw [hk, List.take_succ_cons, Field.first?_cons, Field.first?_cons, if_pos rfl, if_pos rfl]
    · have hrow : name ∉ Field.names (f :: List.replicate n g) := by
        rw [Field.names_cons, Field.names, List.map_replicate, hname, List.mem_cons, not_or]
        exact ⟨Ne.symm heq, fun hmem => heq (List.eq_of_mem_replicate hmem).symm⟩
      have hshown : name ∉ Field.names ((f :: List.replicate n g).take (names.count f.name)) :=
        fun hmem => hrow (((List.take_sublist _ _).map _).subset hmem)
      rw [Field.first?_eq_none_iff.2 hrow, Field.first?_eq_none_iff.2 hshown]
  listed _ := listed_of_mem_project
  ordered := by
    have hone : ∀ a ∈ Field.names (takeFields names row.fields), a = f.name := by
      intro a ha
      have hmem := mem_of_mem_names_takeFields ha
      rw [hfields, Field.names_cons, Field.names, List.map_replicate, hname,
        ← List.replicate_succ] at hmem
      exact List.eq_of_mem_replicate hmem
    exact List.pairwise_of_forall_mem_list fun a ha b hb => by rw [hone a ha, hone b hb]
  again := by
    rw [project_project_iff, hfields, takeFields_cons_replicate hname]
    cases hcount : names.count f.name with
    | zero => exact takeFields_nil names
    | succ k =>
      rw [List.take_succ_cons, List.take_replicate, takeFields_cons_replicate hname, hcount]
      exact List.take_of_length_le (by simp)

/-! ## Rows that every list only selects from -/

/-- A list is shown whole if the row has every name as often as it is listed. -/
theorem names_takeFields_eq {names : List String} {fields : List Field}
    (h : ∀ name, names.count name ≤ (Field.names fields).count name) :
    Field.names (takeFields names fields) = names := by
  induction names generalizing fields with
  | nil => rfl
  | cons name names ih =>
    have hmem : name ∈ Field.names fields := by
      have hcount := h name
      rw [List.count_cons_self] at hcount
      exact List.count_pos_iff.1 (by omega)
    obtain ⟨f, rest, rfl, hperm, htake⟩ := exists_takeFields_cons hmem names
    have hnames : (Field.names (f :: rest)).Perm (Field.names fields) := hperm.map _
    rw [htake, Field.names_cons, ih]
    intro other
    have hcount := h other
    rw [← hnames.count_eq, Field.names_cons, List.count_cons, List.count_cons] at hcount
    exact Nat.le_of_add_le_add_right hcount

/-- A name that the row has twice can be listed before and behind any other name. -/
theorem eq_of_selects {row : QueryRow} {name other : String}
    (htwice : 2 ≤ (Field.names row.fields).count name) (hother : other ∈ Field.names row.fields)
    (h : row.Selects [name, other, name]) : other = name := by
  by_contra hne
  have hshown : Field.names (row.project [name, other, name]).fields = [name, other, name] := by
    refine names_takeFields_eq fun n => ?_
    have hpos := List.count_pos_iff.2 hother
    by_cases hname : n = name
    · subst hname
      simpa [hne] using htwice
    · by_cases hn : n = other
      · subst hn
        simpa [hne, Ne.symm hne] using hpos
      · simp [Ne.symm hname, Ne.symm hn]
  have hordered := h.ordered
  rw [hshown] at hordered
  have hle := (List.pairwise_cons.1 (List.pairwise_cons.1 hordered).2).1 name (by simp)
  rw [List.idxOf_cons_self, List.idxOf_cons_ne _ (Ne.symm hne)] at hle
  exact absurd hle (Nat.not_succ_le_zero _)

/-- If every beginning of a list reads the same from both ends, it repeats its first element. -/
theorem eq_of_reverse_take {α : Type} {a : α} {l : List α}
    (h : ∀ n, ((a :: l).take n).reverse = (a :: l).take n) {b : α} (hb : b ∈ a :: l) : b = a := by
  obtain ⟨i, hi⟩ := List.getElem?_of_mem hb
  have hfirst := congrArg List.head? (h (i + 1))
  rw [List.head?_reverse, List.getLast?_take, if_neg (Nat.succ_ne_zero i), Nat.add_sub_cancel, hi,
    List.take_succ_cons] at hfirst
  exact Option.some.inj hfirst

/-- If all fields have one name, those behind the first have to be equal. -/
theorem exists_replicate_of_selects {row : QueryRow} {f : Field} {fields : List Field}
    (hfields : row.fields = f :: fields) (hone : ∀ g ∈ fields, g.name = f.name)
    (h : ∀ names, row.Selects names) : ∃ g n, fields = List.replicate n g := by
  have hone' : ∀ g ∈ f :: fields, g.name = f.name := List.forall_mem_cons.2 ⟨rfl, hone⟩
  have hreverse : ∀ n, (fields.reverse.take n).reverse = fields.reverse.take n := by
    intro n
    have hagain := project_project_iff.1 (h (List.replicate (n + 1) f.name)).again
    have hshown : ∀ g ∈ f :: fields.reverse.take n, g.name = f.name := by
      refine List.forall_mem_cons.2 ⟨rfl, fun g hg => hone g ?_⟩
      exact List.mem_reverse.1 (List.mem_of_mem_take hg)
    rw [hfields, takeFields_replicate hone', List.take_succ_cons, takeFields_replicate hshown,
      List.take_succ_cons, List.take_of_length_le (by simp)] at hagain
    exact List.tail_eq_of_cons_eq hagain
  cases hlast : fields.reverse with
  | nil => exact ⟨f, 0, List.reverse_eq_nil_iff.1 hlast⟩
  | cons g rest =>
    rw [hlast] at hreverse
    refine ⟨g, fields.length, List.eq_replicate_of_mem fun b hb => eq_of_reverse_take hreverse ?_⟩
    rw [← hlast]
    exact List.mem_reverse.2 hb

/-- **When a selection of fields does no more than select.** It never makes up a field, shows
    nothing that is not listed, and keeps the value of a name whose fields have one value. A list
    without repetitions gives the order, and selecting once more changes nothing. All this is so for
    every list just if the names of the row are distinct, or are one name with equal fields behind
    the first. -/
theorem project_selects_iff (row : QueryRow) :
    (∀ names, (row.project names).fields.Subperm row.fields ∧
      ∀ f ∈ (row.project names).fields, f.name ∈ names) ∧
    (∀ names, ∀ name ∈ names,
      (∀ f ∈ row.fields, ∀ g ∈ row.fields, f.name = name → g.name = name → f.value = g.value) →
        (row.project names).value name = row.value name) ∧
    (∀ names : List String, names.Nodup →
      (Field.names (row.project names).fields).Sublist names ∧
        (row.project names).project names = row.project names) ∧
    ((∀ names, row.Selects names) ↔
      (Field.names row.fields).Nodup ∨
        ∃ f g n, row.fields = f :: List.replicate n g ∧ g.name = f.name) := by
  refine ⟨fun names => ⟨subperm_takeFields names row.fields, fun _ => listed_of_mem_project⟩,
    fun names name => value_project, fun names h => ⟨sublist_names_takeFields names row.fields,
      project_project_iff.2 (takeFields_takeFields (.inl h))⟩, fun h => ?_, ?_⟩
  · rw [or_iff_not_imp_left, List.nodup_iff_count_le_one]
    intro htwice
    obtain ⟨name, htwice⟩ := not_forall.1 htwice
    have hone : ∀ f ∈ row.fields, f.name = name := fun f hf =>
      eq_of_selects (not_le.1 htwice) (Field.mem_names_of_mem hf) (h _)
    cases hfields : row.fields with
    | nil =>
      rw [hfields] at htwice
      exact absurd (Nat.zero_le 1) htwice
    | cons f fields =>
      rw [hfields, List.forall_mem_cons] at hone
      have hnames : ∀ g ∈ fields, g.name = f.name := fun g hg => (hone.2 g hg).trans hone.1.symm
      obtain ⟨g, n, rfl⟩ := exists_replicate_of_selects hfields hnames h
      cases n with
      | zero => exact ⟨f, f, 0, rfl, rfl⟩
      | succ n => exact ⟨f, g, n + 1, rfl, hnames g List.mem_cons_self⟩
  · rintro (h | ⟨f, g, n, hfields, hname⟩)
    · exact selects_of_nodup h
    · exact selects_of_replicate hfields hname

/-- The row of a group by `b` and `a` with a result that is named `a` too. -/
def sampleGroup : QueryRow :=
  ⟨none, [⟨"b", "x"⟩, ⟨"a", "key"⟩, ⟨"a", "7"⟩]⟩

/-- The result takes the place of the key, which was the value of the name. -/
theorem result_shown_for_key :
    ["b", "a"].Nodup ∧
      (sampleGroup.project ["b", "a"]).project ["b", "a"] = sampleGroup.project ["b", "a"] ∧
      "b" ∈ ["b", "a"] ∧ (sampleGroup.project ["b", "a"]).value "b" = sampleGroup.value "b" ∧
      sampleGroup.value "a" = "key" ∧ (sampleGroup.project ["b", "a"]).value "a" = "7" ∧
      ¬ ∀ names, sampleGroup.Selects names := by
  have hnodup : ["b", "a"].Nodup := by decide
  have hlisted : "b" ∈ ["b", "a"] := by decide
  obtain ⟨-, hvalue, hagain, hiff⟩ := project_selects_iff sampleGroup
  refine ⟨hnodup, (hagain _ hnodup).2, hlisted, hvalue _ _ hlisted (by decide), by decide,
    by decide, ?_⟩
  rw [hiff]
  rintro (h | ⟨f, g, n, hfields, hname⟩)
  · exact absurd h (by decide)
  · have htail : ∀ f ∈ [(⟨"a", "key"⟩ : Field), ⟨"a", "7"⟩], f = g := fun f hf => by
      rw [(List.cons.inj hfields).2] at hf
      exact List.eq_of_mem_replicate hf
    have hequal := (htail ⟨"a", "key"⟩ (by simp)).trans (htail ⟨"a", "7"⟩ (by simp)).symm
    exact absurd hequal (by decide)

end QueryRow

end Logbook
