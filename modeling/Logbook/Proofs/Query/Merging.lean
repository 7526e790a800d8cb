import Logbook.Proofs.Query.Sorting

set_option autoImplicit false

/-! # Merging sorted rows

Merging lists that are sorted gives the stable sort of all of them, as of equal heads that of the
earliest list is taken. A merge looks no further into a list than the number of rows wanted,
whatever the comparison (`merge_map_apply_eq_truncate`), so that rows can be sorted in pieces, each
of which is cut to the limit, and merged (**`merge_map_apply`**). -/

namespace Logbook

namespace SortPipe

variable {s : SortPipe} {all : List QueryRow}

/-! ## The least head -/

/-- The head of a list becomes the choice if it precedes the choice before. -/
theorem leastHead?_cons (s : SortPipe) (best : Option (Nat × QueryRow)) (i : Nat) (x : QueryRow)
    (xs : List QueryRow) (lists : List (List QueryRow)) :
    (s.leastHead? best i ((x :: xs) :: lists) = s.leastHead? (some (i, x)) (i + 1) lists ∧
      ∀ k b, best = some (k, b) → s.compareRows b x = .gt) ∨
    (s.leastHead? best i ((x :: xs) :: lists) = s.leastHead? best (i + 1) lists ∧
      ∃ k b, best = some (k, b) ∧ s.compareRows b x ≠ .gt) := by
  cases best with
  | none => exact Or.inl ⟨rfl, nofun⟩
  | some best =>
    obtain ⟨k, b⟩ := best
    rw [leastHead?]
    by_cases hle : s.le b x = true
    · exact Or.inr ⟨if_pos hle, k, b, rfl, bne_iff_ne.1 hle⟩
    · refine Or.inl ⟨if_neg hle, ?_⟩
      intro k' b' heq
      cases heq
      exact Classical.not_not.1 fun hgt => hle (bne_iff_ne.2 hgt)

/-- A row is the head of the list behind the first `n` ones, all earlier heads follow it, and it
    follows no later one. -/
def LeastAt (s : SortPipe) (n : Nat) (row : QueryRow) (lists : List (List QueryRow)) : Prop :=
  ∃ pre tail post, lists = pre ++ (row :: tail) :: post ∧ n = pre.length ∧
    (∀ rows ∈ pre, ∀ r ∈ rows.head?, s.compareRows r row = .gt) ∧
    ∀ rows ∈ post, ∀ r ∈ rows.head?, s.compareRows row r ≠ .gt

theorem leastAt_zero {row : QueryRow} {tail : List QueryRow} {lists : List (List QueryRow)}
    (h : ∀ rows ∈ lists, ∀ r ∈ rows.head?, s.compareRows row r ≠ .gt) :
    s.LeastAt 0 row ((row :: tail) :: lists) :=
  ⟨[], tail, lists, rfl, rfl, nofun, h⟩

theorem LeastAt.cons {n : Nat} {row : QueryRow} {lists : List (List QueryRow)}
    (h : s.LeastAt n row lists) {rows : List QueryRow}
    (hhead : ∀ r ∈ rows.head?, s.compareRows r row = .gt) :
    s.LeastAt (n + 1) row (rows :: lists) := by
  obtain ⟨pre, tail, post, rfl, rfl, hpre, hpost⟩ := h
  exact ⟨rows :: pre, tail, post, rfl, rfl, List.forall_mem_cons.2 ⟨hhead, hpre⟩, hpost⟩

theorem LeastAt.mem {n : Nat} {row : QueryRow} {lists : List (List QueryRow)}
    (h : s.LeastAt n row lists) (hall : ∀ rows ∈ lists, ∀ r ∈ rows, r ∈ all) : row ∈ all := by
  obtain ⟨pre, tail, post, rfl, -⟩ := h
  exact hall (row :: tail) (by simp) row (List.mem_cons_self ..)

/-- Where the least head of lists is found: the choice before stays if no head precedes it, and
    otherwise it follows the least head. -/
theorem leastHead?_eq_some (h : s.Orders all) {lists : List (List QueryRow)}
    (hall : ∀ rows ∈ lists, ∀ r ∈ rows, r ∈ all) {best : Option (Nat × QueryRow)}
    (hbest : ∀ k b, best = some (k, b) → b ∈ all) {i j : Nat} {row : QueryRow}
    (hsome : s.leastHead? best i lists = some (j, row)) :
    (best = some (j, row) ∧ ∀ rows ∈ lists, ∀ r ∈ rows.head?, s.compareRows row r ≠ .gt) ∨
    ∃ n, j = i + n ∧ s.LeastAt n row lists ∧
      ∀ k b, best = some (k, b) → s.compareRows b row = .gt := by
  induction lists generalizing best i with
  | nil => exact Or.inl ⟨hsome, nofun⟩
  | cons rows lists ih =>
    have hlists : ∀ rows ∈ lists, ∀ r ∈ rows, r ∈ all := fun rows hrows =>
      hall rows (List.mem_cons_of_mem _ hrows)
    cases rows with
    | nil =>
      rw [leastHead?] at hsome
      rcases ih hlists hbest hsome with ⟨heq, hle⟩ | ⟨n, rfl, hleast, hb⟩
      · exact Or.inl ⟨heq, List.forall_mem_cons.2 ⟨nofun, hle⟩⟩
      · exact Or.inr ⟨n + 1, Nat.succ_add_eq_add_succ i n, hleast.cons nofun, hb⟩
    | cons x xs =>
      have hx : x ∈ all := hall _ (List.mem_cons_self ..) x (List.mem_cons_self ..)
      have hhead : ∀ {P : QueryRow → Prop}, P x → ∀ r ∈ (x :: xs).head?, P r := fun hP r hr =>
        Option.some.inj hr ▸ hP
      rcases leastHead?_cons s best i x xs lists with ⟨hstep, hgt⟩ | ⟨hstep, k, b, rfl, hle⟩
      · -- the head is the choice for the lists that follow
        rw [hstep] at hsome
        have hx' : ∀ k b, some (i, x) = some (k, b) → b ∈ all := by
          intro k b heq
          cases heq
          exact hx
        rcases ih hlists hx' hsome with ⟨heq, hle⟩ | ⟨n, rfl, hleast, hb⟩
        · cases heq
          exact Or.inr ⟨0, rfl, leastAt_zero hle, hgt⟩
        · have hxrow : s.compareRows x row = .gt := hb i x rfl
          have hrow : row ∈ all := hleast.mem hlists
          refine Or.inr ⟨n + 1, Nat.succ_add_eq_add_succ i n, hleast.cons (hhead hxrow), ?_⟩
          intro k b heq
          by_cases hbrow : s.compareRows b row = .gt
          · exact hbrow
          · exact absurd (hgt k b heq)
              (h.trans (hbest k b heq) hrow hx hbrow (h.le_of_gt hrow hx hxrow))
      · -- the choice stays
        rw [hstep] at hsome
        rcases ih hlists hbest hsome with ⟨heq, hrest⟩ | ⟨n, rfl, hleast, hb⟩
        · cases heq
          exact Or.inl ⟨rfl, List.forall_mem_cons.2 ⟨hhead hle, hrest⟩⟩
        · have hxrow : s.compareRows x row = .gt :=
            h.gt_trans (hleast.mem hlists) (hbest k b rfl) hx (hb k b rfl) hle
          exact Or.inr ⟨n + 1, Nat.succ_add_eq_add_succ i n, hleast.cons (hhead hxrow), hb⟩

theorem leastHead?_eq_none {best : Option (Nat × QueryRow)} {i : Nat}
    {lists : List (List QueryRow)} (hnone : s.leastHead? best i lists = none) :
    best = none ∧ lists.flatten = [] := by
  induction lists generalizing best i with
  | nil => exact ⟨hnone, rfl⟩
  | cons rows lists ih =>
    cases rows with
    | nil => exact ih hnone
    | cons x xs =>
      rcases leastHead?_cons s best i x xs lists with ⟨hstep, -⟩ | ⟨hstep, k, b, rfl, -⟩
      · cases (ih (hstep ▸ hnone)).1
      · cases (ih (hstep ▸ hnone)).1

/-! ## Merging whole lists -/

/-- A least row goes in front of the other rows sorted, if it precedes those that were before it. -/
theorem StableSort.cons (h : s.Orders all) {pre post sorted : List QueryRow} {row : QueryRow}
    (hall : ∀ r ∈ pre ++ row :: post, r ∈ all) (hsort : s.StableSort all (pre ++ post) sorted)
    (hpre : ∀ r ∈ pre, s.compareRows r row = .gt) (hpost : ∀ r ∈ post, s.compareRows row r ≠ .gt) :
    s.StableSort all (pre ++ row :: post) (row :: sorted) := by
  have hrow : row ∈ all := hall row (by simp)
  have hpreall : ∀ r ∈ pre, r ∈ all := fun r hr => hall r (List.mem_append_left _ hr)
  refine ⟨(hsort.perm.cons row).trans List.perm_middle.symm, ?_, fun a ha => ?_⟩
  · refine List.pairwise_cons.2 ⟨?_, hsort.ascending⟩
    intro r hr
    rcases List.mem_append.1 (hsort.perm.mem_iff.1 hr) with hr | hr
    · exact h.le_of_gt hrow (hpreall r hr) (hpre r hr)
    · exact hpost r hr
  · have hfilter := hsort.stable a ha
    rw [List.filter_append] at hfilter
    rw [List.filter_append, List.filter_cons, List.filter_cons, hfilter]
    by_cases hsame : s.same a row = true
    · -- no row of this kind was before it
      have hnone : pre.filter (s.same a) = [] := by
        refine List.filter_eq_nil_iff.2 ?_
        intro r hr hsame'
        exact h.le_of_same ha (hpreall r hr) hrow hsame' hsame (hpre r hr)
      simp [hsame, hnone]
    · simp [hsame]

theorem modify_length_append {pre post : List (List QueryRow)} (rows : List QueryRow)
    (f : List QueryRow → List QueryRow) :
    (pre ++ rows :: post).modify pre.length f = pre ++ f rows :: post := by
  induction pre with
  | nil => rfl
  | cons x pre ih => exact congrArg (x :: ·) ih

/-- What holds of the head of an ascending list and passes from a row to those that do not precede
    it holds of the whole list. -/
theorem forall_mem_of_head {P : QueryRow → Prop} {rows : List QueryRow}
    (hascending : s.Ascending rows)
    (hpasses : ∀ a ∈ rows, ∀ b ∈ rows, s.compareRows a b ≠ .gt → P a → P b)
    (hhead : ∀ r ∈ rows.head?, P r) : ∀ r ∈ rows, P r := by
  cases rows with
  | nil => nofun
  | cons x xs =>
    refine List.forall_mem_cons.2 ⟨hhead x rfl, ?_⟩
    intro r hr
    have hle := (List.pairwise_cons.1 hascending).1 r hr
    exact hpasses x (List.mem_cons_self ..) r (List.mem_cons_of_mem _ hr) hle (hhead x rfl)

/-- A list among others is replaced by one of which the same holds. -/
theorem forall_mem_replace {P : List QueryRow → Prop} {pre post : List (List QueryRow)}
    {old new : List QueryRow} (h : ∀ rows ∈ pre ++ old :: post, P rows) (hnew : P old → P new) :
    ∀ rows ∈ pre ++ new :: post, P rows := by
  rw [List.forall_mem_append, List.forall_mem_cons] at h ⊢
  exact ⟨h.1, hnew h.2.1, h.2.2⟩

theorem stableSort_mergeLists (h : s.Orders all) {fuel : Nat} {lists : List (List QueryRow)}
    (hall : ∀ rows ∈ lists, ∀ r ∈ rows, r ∈ all) (hascending : ∀ rows ∈ lists, s.Ascending rows)
    (hfuel : fuel = lists.flatten.length) :
    s.StableSort all lists.flatten (s.mergeLists fuel lists) := by
  induction fuel generalizing lists with
  | zero =>
    rw [List.length_eq_zero_iff.1 hfuel.symm]
    exact ⟨.nil, .nil, fun _ _ => rfl⟩
  | succ fuel ih =>
    rw [mergeLists]
    cases hleast : s.leastHead? none 0 lists with
    | none =>
      rw [(leastHead?_eq_none hleast).2] at hfuel
      cases hfuel
    | some found =>
      obtain ⟨i, row⟩ := found
      rcases leastHead?_eq_some h hall (fun _ _ heq => by cases heq) hleast with
        ⟨heq, -⟩ | ⟨n, rfl, ⟨pre, tail, post, rfl, rfl, hpre, hpost⟩, -⟩
      · cases heq
      simp only [Nat.zero_add, modify_length_append, List.drop_one, List.tail_cons]
      have hmem : ∀ rows ∈ pre ++ tail :: post, ∀ r ∈ rows, r ∈ all :=
        forall_mem_replace hall fun hrows r hr => hrows r (List.mem_cons_of_mem _ hr)
      have hasc : ∀ rows ∈ pre ++ tail :: post, s.Ascending rows :=
        forall_mem_replace hascending fun hrows => (List.pairwise_cons.1 hrows).2
      have hrow : row ∈ all := hall (row :: tail) (by simp) row (List.mem_cons_self ..)
      have htail := (List.pairwise_cons.1 (hascending (row :: tail) (by simp))).1
      have hsort := ih hmem hasc (by simp at hfuel ⊢; omega)
      have hflat : (pre ++ (row :: tail) :: post).flatten
          = pre.flatten ++ row :: (tail ++ post.flatten) := by simp
      rw [List.flatten_append, List.flatten_cons] at hsort
      rw [hflat]
      refine StableSort.cons h ?_ hsort ?_ ?_
      · intro r hr
        rw [← hflat] at hr
        obtain ⟨rows, hrows, hr⟩ := List.mem_flatten.1 hr
        exact hall rows hrows r hr
      · intro r hr
        obtain ⟨rows, hrows, hr⟩ := List.mem_flatten.1 hr
        have hin : rows ∈ pre ++ tail :: post := by simp [hrows]
        refine forall_mem_of_head (hasc rows hin) ?_ (hpre rows hrows) r hr
        intro a ha b hb hab hgt
        exact h.gt_trans hrow (hmem rows hin a ha) (hmem rows hin b hb) hgt hab
      · intro r hr
        rcases List.mem_append.1 hr with hr | hr
        · exact htail r hr
        · obtain ⟨rows, hrows, hr⟩ := List.mem_flatten.1 hr
          have hin : rows ∈ pre ++ tail :: post := by simp [hrows]
          refine forall_mem_of_head (hasc rows hin) ?_ (hpost rows hrows) r hr
          intro a ha b hb hab hle
          exact h.trans hrow (hmem rows hin a ha) (hmem rows hin b hb) hle hab

/-! ## Merging lists that were cut -/

theorem mergeLists_eq_take (s : SortPipe) (fuel k : Nat) (lists : List (List QueryRow)) :
    s.mergeLists fuel lists = (s.mergeLists (fuel + k) lists).take fuel := by
  induction fuel generalizing lists with
  | zero => rfl
  | succ fuel ih =>
    rw [Nat.succ_add, mergeLists, mergeLists]
    cases s.leastHead? none 0 lists with
    | none => rfl
    | some found => exact congrArg (found.2 :: ·) (ih _)

/-- Only heads are compared. -/
theorem leastHead?_map_take (s : SortPipe) (best : Option (Nat × QueryRow)) (i n : Nat)
    (lists : List (List QueryRow)) :
    s.leastHead? best i (lists.map (List.take (n + 1))) = s.leastHead? best i lists := by
  induction lists generalizing best i with
  | nil => rfl
  | cons rows lists ih =>
    cases rows with
    | nil => exact ih ..
    | cons x xs =>
      cases best with
      | none => exact ih ..
      | some best =>
        obtain ⟨k, b⟩ := best
        rw [List.map_cons, List.take_succ_cons, leastHead?, leastHead?, ih, ih]

theorem map_take_modify (lists : List (List QueryRow)) (i n : Nat) :
    (lists.modify i (List.drop 1)).map (List.take n)
      = (((lists.map (List.take (n + 1))).modify i (List.drop 1)).map (List.take n)) := by
  have htake : ∀ lists : List (List QueryRow),
      lists.map (List.take n) = (lists.map (List.take (n + 1))).map (List.take n) := by
    intro lists
    rw [List.map_map]
    exact List.map_congr_left fun rows _ => by simp [List.take_take]
  induction lists generalizing i with
  | nil => simp
  | cons rows lists ih =>
    cases i with
    | zero =>
      cases rows with
      | nil =>
        simp only [List.map_cons, List.modify_zero_cons, List.take_nil, List.drop_nil]
        exact congrArg ([] :: ·) (htake lists)
      | cons x xs =>
        simp only [List.map_cons, List.modify_zero_cons, List.take_succ_cons, List.drop_succ_cons,
          List.drop_zero, List.take_take, Nat.min_self]
        exact congrArg (_ :: ·) (htake lists)
    | succ i =>
      simp only [List.map_cons, List.modify_succ_cons, ih i]
      rw [List.take_take, Nat.min_eq_left (Nat.le_succ n)]

/-- Lists that begin alike merge alike. -/
theorem mergeLists_congr (s : SortPipe) {fuel : Nat} {lists lists' : List (List QueryRow)}
    (h : lists.map (List.take fuel) = lists'.map (List.take fuel)) :
    s.mergeLists fuel lists = s.mergeLists fuel lists' := by
  induction fuel generalizing lists lists' with
  | zero => rfl
  | succ fuel ih =>
    have hleast : s.leastHead? none 0 lists = s.leastHead? none 0 lists' := by
      rw [← leastHead?_map_take s none 0 fuel lists, h, leastHead?_map_take]
    rw [mergeLists, mergeLists, hleast]
    cases s.leastHead? none 0 lists' with
    | none => rfl
    | some found =>
      refine congrArg (found.2 :: ·) (ih ?_)
      rw [map_take_modify, h, ← map_take_modify]

theorem length_mergeLists_le (s : SortPipe) (fuel : Nat) (lists : List (List QueryRow)) :
    (s.mergeLists fuel lists).length ≤ fuel := by
  rw [mergeLists_eq_take s fuel 0 lists]
  exact List.length_take_le ..

/-- Cutting every list to the rows wanted does not change the rows that are merged. -/
theorem mergeLists_map_take (s : SortPipe) (n : Nat) (lists : List (List QueryRow)) :
    s.mergeLists (min n (lists.map (List.take n)).flatten.length) (lists.map (List.take n))
      = (s.mergeLists lists.flatten.length lists).take n := by
  have hcut : ∀ rows ∈ lists, min n rows.length ≤ (lists.map (List.take n)).flatten.length := by
    intro rows hrows
    rw [← List.length_take]
    exact (List.sublist_flatten_of_mem (List.mem_map_of_mem hrows)).length_le
  by_cases hn : n ≤ (lists.map (List.take n)).flatten.length
  · -- both merges are cut to `n` rows, and the lists agree that far
    have htotal : n ≤ lists.flatten.length := by
      refine Nat.le_trans hn (List.Sublist.length_le ?_)
      clear hcut hn
      induction lists with
      | nil => exact .slnil
      | cons rows rest ih => exact (List.take_sublist ..).append ih
    obtain ⟨k, hk⟩ := Nat.exists_eq_add_of_le htotal
    rw [Nat.min_eq_left hn, hk, ← mergeLists_eq_take]
    refine mergeLists_congr s ?_
    rw [List.map_map]
    exact List.map_congr_left fun rows _ => by simp [List.take_take]
  · -- no list is longer than what is wanted
    have hsame : lists.map (List.take n) = lists := by
      refine (List.map_congr_left ?_).trans (List.map_id _)
      intro rows hrows
      have := hcut rows hrows
      exact List.take_of_length_le (by omega)
    rw [hsame] at hn ⊢
    rw [Nat.min_eq_right (by omega)]
    exact (List.take_of_length_le (Nat.le_trans (length_mergeLists_le ..) (by omega))).symm

/-- Rows sorted piece by piece and merged, whatever the limit. -/
def mergeSorted (s : SortPipe) (lists : List (List QueryRow)) : List QueryRow :=
  s.mergeLists (lists.map s.sortRows).flatten.length (lists.map s.sortRows)

/-- Cutting the sorted pieces to the limit before they are merged is cutting what they merge to. As
    a merge looks at heads only, this asks nothing of the comparison. -/
theorem merge_map_apply_eq_truncate (s : SortPipe) (lists : List (List QueryRow)) :
    s.merge (lists.map s.apply) = s.truncate (s.mergeSorted lists) := by
  cases hlimit : s.limit with
  | none =>
    have happly : s.apply = s.sortRows := funext fun rows => by rw [apply, truncate, hlimit]
    rw [merge, truncate, hlimit, happly]
    rfl
  | some n =>
    have happly : s.apply = List.take n ∘ s.sortRows := funext fun rows => by
      rw [apply, truncate, hlimit]
      rfl
    rw [merge, truncate, hlimit, happly, ← List.map_map]
    exact mergeLists_map_take s n _

/-- Pieces that are ordered consistently merge to the sorted whole. -/
theorem mergeSorted_eq_sortRows {lists : List (List QueryRow)} (h : s.Orders lists.flatten) :
    s.mergeSorted lists = s.sortRows lists.flatten := by
  have hmem : ∀ rows ∈ lists, ∀ r ∈ rows, r ∈ lists.flatten := fun rows hrows r hr =>
    List.mem_flatten_of_mem hrows hr
  have hpieces : ∀ rows ∈ lists, s.StableSort lists.flatten rows (s.sortRows rows) :=
    fun rows hrows => stableSort_sortRows h (hmem rows hrows)
  refine StableSort.unique h (fun r hr => hr) (StableSort.flatten_map hpieces ?_)
    (stableSort_sortRows h fun r hr => hr)
  refine stableSort_mergeLists h (fun sorted hsorted r hr => ?_) (fun sorted hsorted => ?_) rfl
  · obtain ⟨rows, hrows, rfl⟩ := List.mem_map.1 hsorted
    exact hmem rows hrows r ((hpieces rows hrows).perm.mem_iff.1 hr)
  · obtain ⟨rows, hrows, rfl⟩ := List.mem_map.1 hsorted
    exact (hpieces rows hrows).ascending

/-- **Sorting pieces, cutting them to the limit and merging them is sorting and cutting all.** -/
theorem merge_map_apply {lists : List (List QueryRow)} (h : s.Orders lists.flatten) :
    s.merge (lists.map s.apply) = s.apply lists.flatten := by
  rw [merge_map_apply_eq_truncate, mergeSorted_eq_sortRows h, apply]

/-! ## Other limits -/

/-- Which head is the least is a matter of the comparison alone. -/
theorem leastHead?_congr {s' : SortPipe} (h : s.compareRows = s'.compareRows)
    (best : Option (Nat × QueryRow)) (i : Nat) (lists : List (List QueryRow)) :
    s.leastHead? best i lists = s'.leastHead? best i lists := by
  induction lists generalizing best i with
  | nil => rfl
  | cons rows lists ih =>
    cases rows with
    | nil => exact ih ..
    | cons x xs =>
      cases best with
      | none => exact ih ..
      | some best =>
        obtain ⟨k, b⟩ := best
        rw [leastHead?, leastHead?, le, le, h, ih, ih]

theorem mergeLists_eq_of_compareRows_eq {s' : SortPipe} (h : s.compareRows = s'.compareRows)
    (fuel : Nat) (lists : List (List QueryRow)) :
    s.mergeLists fuel lists = s'.mergeLists fuel lists := by
  induction fuel generalizing lists with
  | zero => rfl
  | succ fuel ih =>
    rw [mergeLists, mergeLists, leastHead?_congr h]
    cases s'.leastHead? none 0 lists with
    | none => rfl
    | some found => exact congrArg (found.2 :: ·) (ih _)

/-- How sorted pieces merge is a matter of the comparison alone. -/
theorem mergeSorted_congr {s' : SortPipe} (h : s.compareRows = s'.compareRows)
    (lists : List (List QueryRow)) : s.mergeSorted lists = s'.mergeSorted lists := by
  have hsort : s.sortRows = s'.sortRows := funext (sortRows_congr h)
  rw [mergeSorted, mergeSorted, hsort, mergeLists_eq_of_compareRows_eq h]

end SortPipe

end Logbook
