import Logbook.SortedMap

set_option autoImplicit false

/-! # Maps by their values

Sorted maps are told apart by the values at their keys alone, so that two ways of building a map are
compared key by key. **`merge_alter`** is the case from which folds over merged maps follow: a
change to the second of two maps can be made after they are merged. -/

namespace Logbook

namespace SortedMap

open Std (TransOrd LawfulEqOrd)

variable {α β : Type} [Ord α]

/-- The keys ascend strictly. -/
def Sorted (m : SortedMap α β) : Prop :=
  m.Pairwise fun a b => compare a.1 b.1 = .lt

theorem sorted_nil : Sorted ([] : SortedMap α β) :=
  List.Pairwise.nil

theorem sorted_iff_keys {m : SortedMap α β} :
    Sorted m ↔ (m.map (·.1)).Pairwise fun a b => compare a b = .lt := by
  rw [List.pairwise_map, Sorted]

theorem mem_keys_alter {m : SortedMap α β} {key x : α} {f : Option β → β}
    (h : x ∈ (alter m key f).map (·.1)) : x = key ∨ x ∈ m.map (·.1) := by
  induction m with
  | nil => exact Or.inl (by simpa [alter] using h)
  | cons e rest ih =>
    obtain ⟨k, v⟩ := e
    rw [alter] at h
    split at h
    · exact List.mem_cons.1 h
    · exact Or.inr h
    · rcases List.mem_cons.1 h with rfl | h
      · exact Or.inr (List.mem_cons_self ..)
      · exact (ih h).imp_right (List.mem_cons_of_mem _)

theorem sorted_alter [TransOrd α] {m : SortedMap α β} (h : Sorted m) (key : α)
    (f : Option β → β) : Sorted (alter m key f) := by
  induction m with
  | nil => exact List.pairwise_singleton ..
  | cons e rest ih =>
    obtain ⟨k, v⟩ := e
    obtain ⟨hk, hrest⟩ := List.pairwise_cons.1 h
    rw [alter]
    split
    · next hlt =>
      refine List.pairwise_cons.2 ⟨?_, h⟩
      intro b hb
      rcases List.mem_cons.1 hb with rfl | hb
      · exact hlt
      · exact Std.TransCmp.lt_trans hlt (hk b hb)
    · exact List.pairwise_cons.2 ⟨hk, hrest⟩
    · next hgt =>
      refine List.pairwise_cons.2 ⟨?_, ih hrest⟩
      intro b hb
      rcases mem_keys_alter (List.mem_map_of_mem hb) with heq | hmem
      · rw [heq]
        exact Std.OrientedCmp.lt_of_gt hgt
      · obtain ⟨c, hc, heq⟩ := List.mem_map.1 hmem
        rw [← heq]
        exact hk c hc

/-- A property of every value is kept by a change that keeps it. -/
theorem forall_mem_alter {P : β → Prop} {m : SortedMap α β} (h : ∀ e ∈ m, P e.2) (key : α)
    {f : Option β → β} (hf : ∀ old : Option β, (∀ v ∈ old, P v) → P (f old)) :
    ∀ e ∈ alter m key f, P e.2 := by
  induction m with
  | nil => exact List.forall_mem_singleton.2 (hf none nofun)
  | cons e rest ih =>
    obtain ⟨k, v⟩ := e
    rw [List.forall_mem_cons] at h
    rw [alter]
    split
    · exact List.forall_mem_cons.2 ⟨hf none nofun, List.forall_mem_cons.2 h⟩
    · exact List.forall_mem_cons.2 ⟨hf (some v) fun _ hv => Option.mem_some.1 hv ▸ h.1, h.2⟩
    · exact List.forall_mem_cons.2 ⟨h.1, ih h.2⟩

theorem sorted_merge [TransOrd α] {a : SortedMap α β} (h : Sorted a) (combine : β → β → β)
    (b : SortedMap α β) : Sorted (merge combine a b) := by
  induction b generalizing a with
  | nil => exact h
  | cons e rest ih => exact ih (sorted_alter h e.1 _)

/-! ## Values at keys -/

/-- No entry has a key at or before this one. -/
theorem get?_eq_none_of_lt {m : SortedMap α β} {key : α}
    (h : ∀ e ∈ m, compare key e.1 = .lt) : get? m key = none := by
  induction m with
  | nil => rfl
  | cons e rest ih =>
    obtain ⟨k, v⟩ := e
    have hlt : compare key k = .lt := h (k, v) (List.mem_cons_self ..)
    rw [get?, hlt]
    exact ih fun e he => h e (List.mem_cons_of_mem _ he)

/-! ## Keys behind all others -/

theorem alter_eq_append [Std.OrientedOrd α] {m : SortedMap α β} {key : α}
    (h : ∀ e ∈ m, compare e.1 key = .lt) (f : Option β → β) :
    alter m key f = m ++ [(key, f none)] := by
  induction m with
  | nil => rfl
  | cons e rest ih =>
    rw [List.forall_mem_cons] at h
    rw [alter, Std.OrientedCmp.gt_of_lt h.1]
    exact congrArg (e :: ·) (ih h.2)

theorem get?_eq_none_of_gt [Std.OrientedOrd α] {m : SortedMap α β} {key : α}
    (h : ∀ e ∈ m, compare e.1 key = .lt) : get? m key = none := by
  induction m with
  | nil => rfl
  | cons e rest ih =>
    rw [List.forall_mem_cons] at h
    rw [get?, Std.OrientedCmp.gt_of_lt h.1]
    exact ih h.2

theorem Sorted.lt_of_append {a b : SortedMap α β} {e : α × β} (h : Sorted (a ++ e :: b)) :
    ∀ e' ∈ a, compare e'.1 e.1 = .lt :=
  fun e' he' => (List.pairwise_append.1 h).2.2 e' he' e List.mem_cons_self

/-- A map is built again from its entries. -/
theorem foldl_insert_eq_append [Std.OrientedOrd α] {a b : SortedMap α β} (h : Sorted (a ++ b)) :
    b.foldl (fun m e => insert m e.1 e.2) a = a ++ b := by
  induction b generalizing a with
  | nil => exact (List.append_nil a).symm
  | cons e rest ih =>
    rw [List.foldl_cons, insert, alter_eq_append h.lt_of_append, ih (by simpa using h),
      List.append_assoc]
    rfl

section Lawful

variable [LawfulEqOrd α]

theorem get?_cons_self (m : SortedMap α β) (k : α) (v : β) : get? ((k, v) :: m) k = some v := by
  rw [get?, if_pos Std.ReflOrd.compare_self]

theorem get?_cons_of_ne (m : SortedMap α β) {k x : α} (v : β) (h : x ≠ k) :
    get? ((k, v) :: m) x = get? m x := by
  rw [get?, if_neg fun heq => h (Std.LawfulEqOrd.compare_eq_iff_eq.1 heq)]

theorem get?_alter_self [TransOrd α] {m : SortedMap α β} (h : Sorted m) (key : α)
    (f : Option β → β) : get? (alter m key f) key = some (f (get? m key)) := by
  induction m with
  | nil => exact get?_cons_self ..
  | cons e rest ih =>
    obtain ⟨k, v⟩ := e
    obtain ⟨hk, hrest⟩ := List.pairwise_cons.1 h
    rw [alter]
    split
    · next hlt =>
      rw [get?_cons_self, get?_eq_none_of_lt]
      intro e he
      rcases List.mem_cons.1 he with rfl | he
      · exact hlt
      · exact Std.TransCmp.lt_trans hlt (hk e he)
    · next heq =>
      rw [Std.LawfulEqOrd.compare_eq_iff_eq.1 heq, get?_cons_self, get?_cons_self]
    · next hgt =>
      have hne : key ≠ k := fun heq => by rw [heq, Std.ReflOrd.compare_self] at hgt; cases hgt
      rw [get?_cons_of_ne _ _ hne, get?_cons_of_ne _ _ hne, ih hrest]

theorem get?_alter_of_ne (m : SortedMap α β) {key x : α} (f : Option β → β) (h : x ≠ key) :
    get? (alter m key f) x = get? m x := by
  induction m with
  | nil => exact get?_cons_of_ne _ _ h
  | cons e rest ih =>
    obtain ⟨k, v⟩ := e
    rw [alter]
    split
    · exact get?_cons_of_ne _ _ h
    · next heq =>
      have hne : x ≠ k := fun hx => h (hx.trans (Std.LawfulEqOrd.compare_eq_iff_eq.1 heq).symm)
      rw [get?_cons_of_ne _ _ hne, get?_cons_of_ne _ _ hne]
    · rw [get?, ih, ← get?]

theorem mem_iff_get? {m : SortedMap α β} (h : Sorted m) {key : α} {value : β} :
    (key, value) ∈ m ↔ get? m key = some value := by
  induction m with
  | nil => exact ⟨nofun, nofun⟩
  | cons e rest ih =>
    obtain ⟨k, v⟩ := e
    obtain ⟨hk, hrest⟩ := List.pairwise_cons.1 h
    by_cases heq : key = k
    · subst heq
      rw [get?_cons_self, Option.some.injEq]
      constructor
      · intro hmem
        rcases List.mem_cons.1 hmem with hmem | hmem
        · exact (congrArg Prod.snd hmem).symm
        · have := hk _ hmem
          rw [Std.ReflOrd.compare_self] at this
          cases this
      · rintro rfl
        exact List.mem_cons_self ..
    · rw [get?_cons_of_ne _ _ heq, ← ih hrest]
      constructor
      · intro hmem
        rcases List.mem_cons.1 hmem with hmem | hmem
        · exact absurd (congrArg Prod.fst hmem) heq
        · exact hmem
      · exact List.mem_cons_of_mem _

theorem nodup_of_sorted {m : SortedMap α β} (h : Sorted m) : m.Nodup := by
  refine h.imp ?_
  intro e e' hlt heq
  rw [heq, Std.ReflOrd.compare_self] at hlt
  cases hlt

/-- A map is told by its values. -/
theorem eq_of_get? [TransOrd α] {a b : SortedMap α β} (ha : Sorted a) (hb : Sorted b)
    (h : ∀ x, get? a x = get? b x) : a = b := by
  have hmem : ∀ e, e ∈ a ↔ e ∈ b := by
    intro e
    rw [mem_iff_get? ha, mem_iff_get? hb, h]
  have hperm : a.Perm b :=
    (List.perm_ext_iff_of_nodup (nodup_of_sorted ha) (nodup_of_sorted hb)).2 hmem
  refine hperm.eq_of_pairwise ?_ ha hb
  intro e e' _ _ hlt hgt
  have hself : compare e.1 e.1 = .lt := Std.TransCmp.lt_trans hlt hgt
  rw [Std.ReflOrd.compare_self] at hself
  cases hself

/-- Two changes can be made in either order if they can at one key. -/
theorem alter_comm [TransOrd α] {m : SortedMap α β} (hm : Sorted m) {key key' : α}
    {f g : Option β → β}
    (h : key = key' → g (some (f (get? m key))) = f (some (g (get? m key)))) :
    alter (alter m key f) key' g = alter (alter m key' g) key f := by
  have hf := sorted_alter hm key f
  have hg := sorted_alter hm key' g
  refine eq_of_get? (sorted_alter hf ..) (sorted_alter hg ..) fun x => ?_
  by_cases hx : x = key
  · subst hx
    by_cases hkey : x = key'
    · subst hkey
      rw [get?_alter_self hf, get?_alter_self hm, get?_alter_self hg, get?_alter_self hm, h rfl]
    · rw [get?_alter_of_ne _ _ hkey, get?_alter_self hm, get?_alter_self hg,
        get?_alter_of_ne _ _ hkey]
  · rw [get?_alter_of_ne _ _ hx]
    by_cases hkey : x = key'
    · subst hkey
      rw [get?_alter_self hf, get?_alter_of_ne _ _ hx, get?_alter_self hm]
    · rw [get?_alter_of_ne _ _ hkey, get?_alter_of_ne _ _ hx, get?_alter_of_ne _ _ hkey]

/-! ## Merging -/

theorem get?_merge [TransOrd α] {a b : SortedMap α β} (ha : Sorted a) (hb : Sorted b)
    (combine : β → β → β) (x : α) :
    get? (merge combine a b) x = Option.merge combine (get? a x) (get? b x) := by
  induction b generalizing a with
  | nil => cases h : get? a x <;> simp [merge, get?, h]
  | cons e rest ih =>
    obtain ⟨k, v⟩ := e
    obtain ⟨hk, hrest⟩ := List.pairwise_cons.1 hb
    show get? (merge combine (alter a k (combined combine v)) rest) x = _
    rw [ih (sorted_alter ha k _) hrest]
    by_cases h : x = k
    · subst h
      rw [get?_alter_self ha, get?_cons_self, get?_eq_none_of_lt hk]
      cases get? a x <;> rfl
    · rw [get?_alter_of_ne _ _ h, get?_cons_of_ne _ _ h]

/-- **A change to the second map can be made after merging.** It has to give the same value whether
    the value of the first map joins before or after it. -/
theorem merge_alter [TransOrd α] {a b : SortedMap α β} (ha : Sorted a) (hb : Sorted b)
    {combine : β → β → β} {key : α} {f : Option β → β}
    (h : Option.merge combine (get? a key) (some (f (get? b key)))
      = some (f (Option.merge combine (get? a key) (get? b key)))) :
    merge combine a (alter b key f) = alter (merge combine a b) key f := by
  refine eq_of_get? (sorted_merge ha ..) (sorted_alter (sorted_merge ha ..) ..) ?_
  intro x
  rw [get?_merge ha (sorted_alter hb ..)]
  by_cases hx : x = key
  · subst hx
    rw [get?_alter_self hb, get?_alter_self (sorted_merge ha ..), get?_merge ha hb, h]
  · rw [get?_alter_of_ne _ _ hx, get?_alter_of_ne _ _ hx, get?_merge ha hb]

end Lawful

end SortedMap

end Logbook
