import Mathlib.Data.List.Induction
import Logbook.Query.Sort

set_option autoImplicit false

/-! # Stable sorting

If the keys order the rows consistently, there is just one way to sort them so that rows that
compare as equal keep their order (**`StableSort.unique`**). Sorting by insertion and sorting by
merging both find it (**`stableSort_sortRows`**). -/

namespace Logbook

namespace SortPipe

/-- The comparison is a total preorder on the rows. -/
structure Orders (s : SortPipe) (rows : List QueryRow) : Prop where
  swap : ∀ {a b}, a ∈ rows → b ∈ rows → s.compareRows b a = (s.compareRows a b).swap
  trans : ∀ {a b c}, a ∈ rows → b ∈ rows → c ∈ rows →
    s.compareRows a b ≠ .gt → s.compareRows b c ≠ .gt → s.compareRows a c ≠ .gt

/-- Whether two rows compare as equal. -/
def same (s : SortPipe) (a b : QueryRow) : Bool :=
  s.compareRows a b == .eq

/-- No row follows a later one. -/
def Ascending (s : SortPipe) (rows : List QueryRow) : Prop :=
  rows.Pairwise fun a b => s.compareRows a b ≠ .gt

/-- The rows in order, those that compare as equal with a row of `all` as they were. -/
structure StableSort (s : SortPipe) (all rows sorted : List QueryRow) : Prop where
  perm : sorted.Perm rows
  ascending : s.Ascending sorted
  stable : ∀ a ∈ all, sorted.filter (s.same a) = rows.filter (s.same a)

variable {s : SortPipe} {all : List QueryRow}

/-! ## Comparing -/

namespace Orders

variable (h : s.Orders all)
include h

theorem compare_self {a : QueryRow} (ha : a ∈ all) : s.compareRows a a = .eq := by
  have hswap := h.swap ha ha
  cases hcmp : s.compareRows a a <;> rw [hcmp] at hswap <;> first | rfl | cases hswap

/-- A row that precedes `b` precedes every row that does not precede `b`. -/
theorem gt_trans {a b c : QueryRow} (ha : a ∈ all) (hb : b ∈ all) (hc : c ∈ all)
    (hab : s.compareRows b a = .gt) (hbc : s.compareRows b c ≠ .gt) : s.compareRows c a = .gt := by
  by_cases hca : s.compareRows c a = .gt
  · exact hca
  · exact absurd hab (h.trans hb hc ha hbc hca)

theorem le_of_gt {a b : QueryRow} (ha : a ∈ all) (hb : b ∈ all) (hab : s.compareRows b a = .gt) :
    s.compareRows a b ≠ .gt := by
  rw [h.swap hb ha, hab]
  nofun

theorem le_of_not_lt {a b : QueryRow} (ha : a ∈ all) (hb : b ∈ all)
    (hab : s.compareRows b a ≠ .lt) : s.compareRows a b ≠ .gt := by
  rw [h.swap hb ha]
  cases hcmp : s.compareRows b a with
  | lt => exact absurd hcmp hab
  | eq => nofun
  | gt => nofun

/-- Rows of one kind do not precede each other. -/
theorem le_of_same {a b c : QueryRow} (ha : a ∈ all) (hb : b ∈ all) (hc : c ∈ all)
    (hab : s.same a b = true) (hac : s.same a c = true) : s.compareRows b c ≠ .gt := by
  have hab : s.compareRows a b = .eq := beq_iff_eq.1 hab
  have hac : s.compareRows a c = .eq := beq_iff_eq.1 hac
  have hba : s.compareRows b a ≠ .gt := by
    rw [h.swap ha hb, hab]
    nofun
  refine h.trans hb ha hc hba ?_
  rw [hac]
  nofun

end Orders

/-! ## Uniqueness -/

/-- Two rows of which neither follows the other compare as equal. -/
theorem Orders.same_of_le (h : s.Orders all) {a b : QueryRow} (ha : a ∈ all) (hb : b ∈ all)
    (hab : s.compareRows a b ≠ .gt) (hba : s.compareRows b a ≠ .gt) : s.same a b = true := by
  have hswap := h.swap ha hb
  refine beq_iff_eq.2 ?_
  cases hcmp : s.compareRows a b with
  | eq => rfl
  | gt => exact absurd hcmp hab
  | lt => rw [hcmp] at hswap; exact absurd hswap hba

theorem eq_of_ascending (h : s.Orders all) {xs ys : List QueryRow} (hperm : xs.Perm ys)
    (hall : ∀ r ∈ xs, r ∈ all) (hxs : s.Ascending xs) (hys : s.Ascending ys)
    (hstable : ∀ a ∈ all, xs.filter (s.same a) = ys.filter (s.same a)) : xs = ys := by
  induction xs generalizing ys with
  | nil => exact hperm.nil_eq
  | cons x xs ih =>
    cases ys with
    | nil => exact absurd hperm.length_eq (by simp)
    | cons y ys =>
      obtain ⟨hx, hxtail⟩ := List.pairwise_cons.1 hxs
      obtain ⟨hy, hytail⟩ := List.pairwise_cons.1 hys
      have hxall : x ∈ all := hall x (List.mem_cons_self ..)
      have hxx : s.same x x = true := beq_iff_eq.2 (h.compare_self hxall)
      -- both heads are least rows, so that they are the first of one kind
      have heq : x = y := by
        rcases List.mem_cons.1 (hperm.mem_iff.1 (List.mem_cons_self ..)) with heq | hxy
        · exact heq
        rcases List.mem_cons.1 (hperm.mem_iff.2 (List.mem_cons_self ..)) with heq | hyx
        · exact heq.symm
        have hyall : y ∈ all := hall y (List.mem_cons_of_mem _ hyx)
        have hsame : s.same x y = true := h.same_of_le hxall hyall (hx y hyx) (hy x hxy)
        have hfilter := hstable x hxall
        rw [List.filter_cons_of_pos hxx, List.filter_cons_of_pos hsame] at hfilter
        exact (List.cons.inj hfilter).1
      subst heq
      rw [ih hperm.cons_inv (fun r hr => hall r (List.mem_cons_of_mem _ hr)) hxtail hytail]
      intro a ha
      have hfilter := hstable a ha
      rw [List.filter_cons, List.filter_cons] at hfilter
      split at hfilter
      · exact (List.cons.inj hfilter).2
      · exact hfilter

/-- **There is one stable sort.** -/
theorem StableSort.unique (h : s.Orders all) {rows xs ys : List QueryRow}
    (hall : ∀ r ∈ rows, r ∈ all) (hxs : s.StableSort all rows xs) (hys : s.StableSort all rows ys) :
    xs = ys :=
  eq_of_ascending h (hxs.perm.trans hys.perm.symm) (fun r hr => hall r (hxs.perm.mem_iff.1 hr))
    hxs.ascending hys.ascending fun a ha => (hxs.stable a ha).trans (hys.stable a ha).symm

/-- Sorting rows piece by piece first does not matter. -/
theorem StableSort.flatten_map {sort : List QueryRow → List QueryRow}
    {lists : List (List QueryRow)} {sorted : List QueryRow}
    (hsort : ∀ rows ∈ lists, s.StableSort all rows (sort rows))
    (h : s.StableSort all (lists.map sort).flatten sorted) :
    s.StableSort all lists.flatten sorted := by
  have hperm : (lists.map sort).flatten.Perm lists.flatten := by
    clear h
    induction lists with
    | nil => exact .nil
    | cons rows rest ih =>
      exact (hsort rows (List.mem_cons_self ..)).perm.append
        (ih fun rows hrows => hsort rows (List.mem_cons_of_mem _ hrows))
  refine ⟨h.perm.trans hperm, h.ascending, ?_⟩
  intro a ha
  rw [h.stable a ha, List.filter_flatten, List.filter_flatten, List.map_map]
  congr 1
  exact List.map_congr_left fun rows hrows => (hsort rows hrows).stable a ha

/-! ## Sorting by insertion -/

/-- A row goes behind the last row that it does not precede. -/
theorem insertBehind_eq (s : SortPipe) (row : QueryRow) (front back : List QueryRow) :
    ∃ moved kept, front = moved ++ kept ∧ (∀ r ∈ moved, s.compareRows row r = .lt) ∧
      (∀ r ∈ kept.head?, s.compareRows row r ≠ .lt) ∧
      s.insertBehind row front back = kept.reverse ++ row :: (moved.reverse ++ back) := by
  induction front generalizing back with
  | nil => exact ⟨[], [], rfl, nofun, nofun, rfl⟩
  | cons r front ih =>
    rw [insertBehind]
    by_cases hlt : s.compareRows row r = .lt
    · obtain ⟨moved, kept, rfl, hmoved, hkept, heq⟩ := ih (r :: back)
      refine ⟨r :: moved, kept, rfl, ?_, hkept, ?_⟩
      · intro x hx
        rcases List.mem_cons.1 hx with rfl | hx
        · exact hlt
        · exact hmoved x hx
      · rw [if_pos (beq_iff_eq.2 hlt), heq, List.reverse_cons, List.append_assoc]
        rfl
    · refine ⟨[], r :: front, rfl, nofun, ?_, ?_⟩
      · intro x hx
        exact Option.some.inj hx ▸ hlt
      · rw [if_neg fun heq => hlt (beq_iff_eq.1 heq)]
        rfl

/-- Rows that ascend to one that does not follow a row do not follow it either. -/
theorem le_of_last (h : s.Orders all) {rows : List QueryRow} {row : QueryRow}
    (hall : ∀ r ∈ rows, r ∈ all) (hrow : row ∈ all) (hascending : s.Ascending rows)
    (hlast : ∀ r ∈ rows.getLast?, s.compareRows r row ≠ .gt) :
    ∀ r ∈ rows, s.compareRows r row ≠ .gt := by
  induction rows with
  | nil => nofun
  | cons x xs ih =>
    obtain ⟨hx, hxs⟩ := List.pairwise_cons.1 hascending
    cases xs with
    | nil => exact List.forall_mem_singleton.2 (hlast x rfl)
    | cons y ys =>
      have hrest := ih (fun r hr => hall r (List.mem_cons_of_mem _ hr)) hxs hlast
      have hxall : x ∈ all := hall x (List.mem_cons_self ..)
      have hyall : y ∈ all := hall y (by simp)
      refine List.forall_mem_cons.2 ⟨?_, hrest⟩
      exact h.trans hxall hyall hrow (hx y (List.mem_cons_self ..))
        (hrest y (List.mem_cons_self ..))

/-- A row that comes last goes between the sorted rows that do not follow it and those that do. -/
theorem StableSort.insert (h : s.Orders all) {rows front back : List QueryRow} {row : QueryRow}
    (hrow : row ∈ all) (hall : ∀ r ∈ rows, r ∈ all) (hsort : s.StableSort all rows (front ++ back))
    (hle : ∀ r ∈ front, s.compareRows r row ≠ .gt) (hlt : ∀ r ∈ back, s.compareRows row r = .lt) :
    s.StableSort all (rows ++ [row]) (front ++ row :: back) := by
  obtain ⟨hfront, hback, hcross⟩ := List.pairwise_append.1 hsort.ascending
  refine ⟨?_, ?_, fun a ha => ?_⟩
  · exact (List.perm_middle.trans (hsort.perm.cons row)).trans (List.perm_append_singleton ..).symm
  · refine List.pairwise_append.2 ⟨hfront, List.pairwise_cons.2 ⟨fun r hr => ?_, hback⟩, ?_⟩
    · rw [hlt r hr]
      nofun
    · intro r hr x hx
      rcases List.mem_cons.1 hx with rfl | hx
      · exact hle r hr
      · exact hcross r hr x hx
  · have hfilter := hsort.stable a ha
    rw [List.filter_append] at hfilter
    rw [List.filter_append, List.filter_append, ← hfilter, List.filter_cons]
    by_cases hsame : s.same a row = true
    · -- no row of this kind is behind the new one
      have hnone : back.filter (s.same a) = [] := by
        refine List.filter_eq_nil_iff.2 ?_
        intro r hr hsame'
        have hrall : r ∈ all := hall r (hsort.perm.mem_iff.1 (List.mem_append_right _ hr))
        have hgt : s.compareRows r row = .gt := by rw [h.swap hrow hrall, hlt r hr]; rfl
        exact h.le_of_same ha hrall hrow hsame' hsame hgt
      simp [hsame, hnone]
    · simp [hsame]

theorem stableSort_insertBehind (h : s.Orders all) {rows sorted : List QueryRow} {row : QueryRow}
    (hrow : row ∈ all) (hall : ∀ r ∈ rows, r ∈ all) (hsort : s.StableSort all rows sorted) :
    s.StableSort all (rows ++ [row]) (s.insertBehind row sorted.reverse []) := by
  obtain ⟨moved, kept, hsplit, hmoved, hkept, heq⟩ := insertBehind_eq s row sorted.reverse []
  have hsorted : sorted = kept.reverse ++ moved.reverse := by
    rw [← List.reverse_append, ← hsplit, List.reverse_reverse]
  rw [heq, List.append_nil]
  rw [hsorted] at hsort
  have hmem : ∀ r ∈ kept.reverse, r ∈ all := fun r hr =>
    hall r (hsort.perm.mem_iff.1 (List.mem_append_left _ hr))
  refine StableSort.insert h hrow hall hsort ?_ fun r hr => hmoved r (List.mem_reverse.1 hr)
  refine le_of_last h hmem hrow (List.pairwise_append.1 hsort.ascending).1 ?_
  intro r hr
  rw [List.getLast?_reverse] at hr
  have hrall : r ∈ all := hmem r (List.mem_reverse.2 (List.mem_of_mem_head? hr))
  exact h.le_of_not_lt hrall hrow (hkept r hr)

theorem stableSort_insertionSort (h : s.Orders all) {rows : List QueryRow}
    (hall : ∀ r ∈ rows, r ∈ all) : s.StableSort all rows (s.insertionSort rows) := by
  induction rows using List.reverseRecOn with
  | nil => exact ⟨.nil, .nil, fun _ _ => rfl⟩
  | append_singleton rows row ih =>
    rw [insertionSort, List.foldl_append]
    exact stableSort_insertBehind h (hall row (by simp)) (fun r hr => hall r (by simp [hr]))
      (ih fun r hr => hall r (by simp [hr]))

/-! ## Sorting by merging -/

theorem stableSort_mergeSort (h : s.Orders all) {rows : List QueryRow}
    (hall : ∀ r ∈ rows, r ∈ all) : s.StableSort all rows (rows.mergeSort s.le) := by
  -- the laws hold on the rows only, so that it is the rows as a type that are sorted
  let le' : {r // r ∈ rows} → {r // r ∈ rows} → Bool := fun a b => s.le a.1 b.1
  have hmap : (rows.attach.mergeSort le').map Subtype.val = rows.mergeSort s.le := by
    rw [List.map_mergeSort (s := s.le) fun a _ b _ => rfl, List.attach_map_subtype_val]
  have htrans : ∀ a b c, le' a b = true → le' b c = true → le' a c = true := by
    intro a b c hab hbc
    simp only [le', le, bne_iff_ne] at hab hbc ⊢
    exact h.trans (hall _ a.2) (hall _ b.2) (hall _ c.2) hab hbc
  have htotal : ∀ a b, (le' a b || le' b a) = true := by
    intro a b
    rw [Bool.or_eq_true]
    simp only [le', le, bne_iff_ne]
    by_cases hgt : s.compareRows a.1 b.1 = .gt
    · exact Or.inr (h.le_of_gt (hall _ b.2) (hall _ a.2) hgt)
    · exact Or.inl hgt
  refine ⟨List.mergeSort_perm .., ?_, fun a ha => ?_⟩
  · rw [← hmap]
    refine List.pairwise_map.2 ((List.pairwise_mergeSort htrans htotal _).imp ?_)
    intro a b hab
    simpa only [le', le, bne_iff_ne] using hab
  · have hkind : (rows.attach.filter fun r => s.same a r.1).Pairwise fun a b => le' a b = true := by
      refine List.pairwise_of_forall_mem_list ?_
      intro b hb c hc
      simp only [le', le, bne_iff_ne]
      exact h.le_of_same ha (hall _ b.2) (hall _ c.2) (List.mem_filter.1 hb).2
        (List.mem_filter.1 hc).2
    have hsub := (List.sublist_mergeSort htrans htotal hkind List.filter_sublist).map Subtype.val
    rw [hmap] at hsub
    have hmapped : (rows.attach.filter fun r => s.same a r.1).map Subtype.val
        = rows.filter (s.same a) := by
      have h := List.filter_map (p := s.same a) (f := Subtype.val) (l := rows.attach)
      rw [List.attach_map_subtype_val] at h
      exact h.symm
    rw [hmapped] at hsub
    have hsub := hsub.filter (s.same a)
    rw [List.filter_filter] at hsub
    simp only [Bool.and_self] at hsub
    exact (hsub.eq_of_length ((List.mergeSort_perm rows s.le).filter _).length_eq.symm).symm

theorem stableSort_sortRows (h : s.Orders all) {rows : List QueryRow} (hall : ∀ r ∈ rows, r ∈ all) :
    s.StableSort all rows (s.sortRows rows) := by
  rw [sortRows]
  split
  · exact stableSort_insertionSort h hall
  · exact stableSort_mergeSort h hall

/-! ## Other limits -/

/-- How rows are sorted is a matter of the comparison alone. -/
theorem sortRows_congr {s s' : SortPipe} (h : s.compareRows = s'.compareRows)
    (rows : List QueryRow) : s.sortRows rows = s'.sortRows rows := by
  have hinsert : ∀ row front back,
      s.insertBehind row front back = s'.insertBehind row front back := by
    intro row front
    induction front with
    | nil => exact fun _ => rfl
    | cons r front ih =>
      intro back
      rw [insertBehind, insertBehind, h, ih]
  have hle : s.le = s'.le := by
    funext a b
    rw [le, le, h]
  simp only [sortRows, insertionSort, hinsert, hle]

end SortPipe

end Logbook
