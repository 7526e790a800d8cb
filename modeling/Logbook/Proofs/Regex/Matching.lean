import Mathlib.Data.List.Basic
import Logbook.Regex.Basic

set_option autoImplicit false

/-! # What an expression matches

An expression matches a stretch of a text between two places (`Spans`), which is said of each kind
of expression by itself. The sets of places that the matcher computes are exactly those where such a
stretch ends (`exact_ends`), so that it finds a match if and only if there is one
(**`isMatch_iff`**). Repetition without a bound takes as many rounds as a text has places. -/

namespace Logbook.Regex

/-! ## Stretches of a text -/

/-- A chain of steps. -/
def Steps (R : Nat → Nat → Prop) : (n : Nat) → Nat → Nat → Prop
  | 0, i, j => i = j
  | n + 1, i, j => ∃ k, R i k ∧ Steps R n k j

/-- The character before a place of a text. -/
def charBefore (text : List Char) : (i : Nat) → Option Char
  | 0 => none
  | i + 1 => text[i]?

/-- The expression matches the stretch of the text from place `i` to place `j`. -/
def Spans (text : List Char) : Regex → (i j : Nat) → Prop
  | .empty, i, j => i = j
  | .chars mode set, i, j => ∃ c, text[i]? = some c ∧ set.contains mode c = true ∧ i + 1 = j
  | .look l, i, j => l.holds (charBefore text i) text[i]? = true ∧ i = j
  | .seq a b, i, j => ∃ k, Spans text a i k ∧ Spans text b k j
  | .alt a b, i, j => Spans text a i j ∨ Spans text b i j
  | .repeated least most a, i, j =>
    ∃ n, least ≤ n ∧ (∀ m ∈ most, n ≤ max least m) ∧ Steps (Spans text a) n i j

/-- The expression matches the text from its first to its last character. -/
def MatchesWhole (r : Regex) (text : String) : Prop :=
  Spans text.toList r 0 text.toList.length

theorem steps_add {R : Nat → Nat → Prop} {m n i j : Nat} :
    Steps R (m + n) i j ↔ ∃ k, Steps R m i k ∧ Steps R n k j := by
  induction m generalizing i with
  | zero => simp [Steps]
  | succ m ih =>
    rw [Nat.succ_add, Steps]
    simp only [ih, Steps]
    constructor
    · rintro ⟨k, hik, l, hkl, hlj⟩
      exact ⟨l, ⟨k, hik, hkl⟩, hlj⟩
    · rintro ⟨l, ⟨k, hik, hkl⟩, hlj⟩
      exact ⟨k, hik, l, hkl, hlj⟩

/-- A repetition is as many steps as it must take, and then as many more as it may. -/
theorem spans_repeated {text : List Char} {least : Nat} {most : Option Nat} {a : Regex}
    {i j : Nat} :
    Spans text (.repeated least most a) i j ↔
      ∃ l, Steps (Spans text a) least i l ∧
        ∃ k, (∀ m ∈ most, k ≤ m - least) ∧ Steps (Spans text a) k l j := by
  rw [Spans]
  constructor
  · rintro ⟨n, hle, hmost, hsteps⟩
    obtain ⟨k, rfl⟩ := Nat.exists_eq_add_of_le hle
    obtain ⟨l, hil, hlj⟩ := steps_add.1 hsteps
    refine ⟨l, hil, k, fun m hm => ?_, hlj⟩
    have := hmost m hm
    omega
  · rintro ⟨l, hil, k, hmost, hlj⟩
    refine ⟨least + k, Nat.le_add_right .., fun m hm => ?_, steps_add.2 ⟨l, hil, hlj⟩⟩
    have := hmost m hm
    omega

/-! ## Sets of places -/

/-- A place belongs to the set. -/
def Has (s : Places) (i : Nat) : Prop :=
  s[i]? = some true

theorem Has.lt {s : Places} {i : Nat} (h : Has s i) : i < s.length :=
  (List.getElem?_eq_some_iff.1 h).1

theorem contains_true_iff {s : Places} : s.contains true = true ↔ ∃ i, Has s i := by
  rw [List.contains_iff_mem, List.mem_iff_getElem?]
  rfl

theorem has_either {a b : Places} (h : a.length = b.length) {i : Nat} :
    Has (either a b) i ↔ Has a i ∨ Has b i := by
  unfold Has either
  rw [List.getElem?_zipWith]
  by_cases hi : i < a.length
  · rw [List.getElem?_eq_getElem hi, List.getElem?_eq_getElem (h ▸ hi)]
    simp
  · rw [List.getElem?_eq_none (by omega), List.getElem?_eq_none (by omega)]
    simp

theorem has_zipWith {α : Type} {p : α → Bool} {s : Places} {xs : List α} {i : Nat} :
    Has (List.zipWith (fun b x => b && p x) s xs) i ↔
      Has s i ∧ ∃ x, xs[i]? = some x ∧ p x = true := by
  unfold Has
  rw [List.getElem?_zipWith]
  cases s[i]? <;> cases xs[i]? <;> simp

theorem count_le_count_either {a b : Places} (h : a.length = b.length) :
    a.count true ≤ (either a b).count true ∧
      ((either a b).count true = a.count true → either a b = a) := by
  induction a generalizing b with
  | nil => exact ⟨Nat.zero_le _, fun _ => rfl⟩
  | cons x a ih =>
    obtain ⟨y, b, rfl⟩ := List.exists_cons_of_length_eq_add_one h.symm
    obtain ⟨hle, heq⟩ := ih (Nat.succ.inj h)
    rw [either, List.zipWith_cons_cons, ← either, List.count_cons, List.count_cons]
    cases x <;> cases y <;> simp <;> grind

/-- A function on sets of places takes a step of the relation from each of the places. -/
structure Exact (n : Nat) (step : Places → Places) (R : Nat → Nat → Prop) : Prop where
  length : ∀ {s : Places}, s.length = n → (step s).length = n
  has : ∀ {s : Places}, s.length = n → ∀ {j}, Has (step s) j ↔ ∃ i, Has s i ∧ R i j

namespace Exact

variable {n : Nat} {step step' : Places → Places} {R R' : Nat → Nat → Prop}

theorem congr (h : Exact n step R) (hR : ∀ i j, R i j ↔ R' i j) : Exact n step R' :=
  ⟨h.length, fun hs j => by simp only [h.has hs, hR]⟩

theorem comp (h : Exact n step R) (h' : Exact n step' R') :
    Exact n (fun s => step' (step s)) fun i j => ∃ k, R i k ∧ R' k j := by
  refine ⟨fun hs => h'.length (h.length hs), fun {s} hs j => ?_⟩
  rw [h'.has (h.length hs)]
  simp only [h.has hs]
  constructor
  · rintro ⟨k, ⟨i, hi, hik⟩, hkj⟩
    exact ⟨i, hi, k, hik, hkj⟩
  · rintro ⟨i, hi, k, hik, hkj⟩
    exact ⟨k, ⟨i, hi, hik⟩, hkj⟩

theorem stepTimes (h : Exact n step R) (m : Nat) : Exact n (stepTimes step m) (Steps R m) := by
  induction m with
  | zero => exact ⟨fun hs => hs, fun hs j => by simp [Regex.stepTimes, Steps]⟩
  | succ m ih =>
    refine ⟨fun {s} hs => ?_, fun {s} hs j => ?_⟩ <;> rw [Regex.stepTimes]
    · split
      · exact ih.length (h.length hs)
      · exact hs
    · split
      · exact (h.comp ih).has hs
      · next hnone =>
        -- no step leads out of no place
        have hempty : ∀ i, ¬ Has s i := fun i hi => hnone (contains_true_iff.2 ⟨i, hi⟩)
        exact iff_of_false (hempty j) fun ⟨i, hi, _⟩ => hempty i hi

theorem stepUpTo_both (h : Exact n step R) (m : Nat) {s all : Places} (hs : s.length = n)
    (hall : all.length = n) :
    (stepUpTo step m s all).length = n ∧
      ∀ {j}, Has (stepUpTo step m s all) j ↔
        Has all j ∨ ∃ k < m, ∃ i, Has s i ∧ Steps R (k + 1) i j := by
  induction m generalizing s all with
  | zero => exact ⟨hall, fun {j} => by simp [Regex.stepUpTo]⟩
  | succ m ih =>
    have hnext := h.length hs
    have hunion : (either all (step s)).length = n := by
      rw [either, List.length_zipWith, hall, hnext, Nat.min_self]
    rw [Regex.stepUpTo]
    split
    · obtain ⟨hlength, hhas⟩ := ih hnext hunion
      refine ⟨hlength, fun {j} => ?_⟩
      rw [hhas, has_either (hall.trans hnext.symm), or_assoc]
      refine or_congr_right ⟨?_, ?_⟩
      · rintro (hj | ⟨k, hk, i, hi, hij⟩)
        · obtain ⟨i, hi, hij⟩ := (h.has hs).1 hj
          exact ⟨0, Nat.succ_pos m, i, hi, j, hij, rfl⟩
        · obtain ⟨i', hi', hstep⟩ := (h.has hs).1 hi
          exact ⟨k + 1, Nat.succ_lt_succ hk, i', hi', i, hstep, hij⟩
      · rintro ⟨k, hk, i, hi, l, hil, hlj⟩
        have hl := (h.has hs).2 ⟨i, hi, hil⟩
        cases k with
        | zero => exact .inl (hlj ▸ hl)
        | succ k => exact .inr ⟨k, Nat.lt_of_succ_lt_succ hk, l, hl, hlj⟩
    · next hnone =>
      have hempty : ∀ i, ¬ Has (step s) i := fun i hi => hnone (contains_true_iff.2 ⟨i, hi⟩)
      refine ⟨hall, fun {j} => ⟨.inl, ?_⟩⟩
      rintro (hj | ⟨k, -, i, hi, l, hil, -⟩)
      · exact hj
      · exact absurd ((h.has hs).2 ⟨i, hi, hil⟩) (hempty l)

theorem stepUpTo (h : Exact n step R) (m : Nat) :
    Exact n (fun s => stepUpTo step m s s) fun i j => ∃ k ≤ m, Steps R k i j := by
  refine ⟨fun hs => (h.stepUpTo_both m hs hs).1, fun {s} hs j => ?_⟩
  rw [(h.stepUpTo_both m hs hs).2]
  constructor
  · rintro (hj | ⟨k, hk, i, hi, hij⟩)
    · exact ⟨j, hj, 0, Nat.zero_le m, rfl⟩
    · exact ⟨i, hi, k + 1, hk, hij⟩
  · rintro ⟨i, hi, k, hk, hij⟩
    cases k with
    | zero => exact .inl (hij ▸ hi)
    | succ k => exact .inr ⟨k, hk, i, hi, hij⟩

/-- Each round that changes the set adds a place to it, so that as many rounds as there are places
    are enough. -/
theorem saturate_of_count (h : Exact n step R) (fuel : Nat) {s : Places} (hs : s.length = n)
    (hfuel : n ≤ fuel + s.count true) :
    (saturate step fuel s).length = n ∧
      ∀ {j}, Has (saturate step fuel s) j ↔ ∃ i, Has s i ∧ ∃ k, Steps R k i j := by
  -- a set that a step does not leave has all places that any number of steps lead to
  have hclosed : ∀ {s : Places}, (∀ {i j}, Has s i → R i j → Has s j) →
      ∀ {j}, Has s j ↔ ∃ i, Has s i ∧ ∃ k, Steps R k i j := by
    intro s hstep j
    refine ⟨fun hj => ⟨j, hj, 0, rfl⟩, ?_⟩
    rintro ⟨i, hi, k, hk⟩
    induction k generalizing i with
    | zero => exact hk ▸ hi
    | succ k ih =>
      obtain ⟨l, hil, hlj⟩ := hk
      exact ih l (hstep hi hil) hlj
  induction fuel generalizing s with
  | zero =>
    refine ⟨hs, hclosed fun {i j} hi hij => ?_⟩
    have hall : ∀ b ∈ s, true = b := List.count_eq_length.1 (by
      have := s.count_le_length (a := true)
      omega)
    have hj : j < s.length := by
      rw [hs, ← h.length hs]
      exact ((h.has hs).2 ⟨i, hi, hij⟩).lt
    exact List.getElem?_eq_some_iff.2 ⟨hj, (hall _ (List.getElem_mem hj)).symm⟩
  | succ fuel ih =>
    have hnext := h.length hs
    have hunion : (either s (step s)).length = n := by
      rw [either, List.length_zipWith, hs, hnext, Nat.min_self]
    have hor : ∀ {j}, Has (either s (step s)) j ↔ Has s j ∨ ∃ i, Has s i ∧ R i j := by
      intro j
      rw [has_either (hs.trans hnext.symm), h.has hs]
    rw [Regex.saturate]
    split
    · next heq =>
      refine ⟨hs, hclosed fun {i j} hi hij => ?_⟩
      rw [← beq_iff_eq.1 heq]
      exact hor.2 (.inr ⟨i, hi, hij⟩)
    · next hne =>
      obtain ⟨hle, heq⟩ := count_le_count_either (hs.trans hnext.symm)
      have hlt : s.count true < (either s (step s)).count true :=
        Nat.lt_of_le_of_ne hle fun h => hne (beq_iff_eq.2 (heq h.symm))
      obtain ⟨hlength, hhas⟩ := ih hunion (by omega)
      refine ⟨hlength, fun {j} => ?_⟩
      rw [hhas]
      simp only [hor]
      constructor
      · rintro ⟨i, hi | ⟨l, hl, hli⟩, k, hk⟩
        · exact ⟨i, hi, k, hk⟩
        · exact ⟨l, hl, k + 1, i, hli, hk⟩
      · rintro ⟨i, hi, k, hk⟩
        exact ⟨i, .inl hi, k, hk⟩

theorem saturate (h : Exact n step R) {fuel : Nat} (hfuel : n ≤ fuel) :
    Exact n (saturate step fuel) fun i j => ∃ k, Steps R k i j where
  length hs := (h.saturate_of_count fuel hs (Nat.le_add_right_of_le hfuel)).1
  has hs := (h.saturate_of_count fuel hs (Nat.le_add_right_of_le hfuel)).2

end Exact

/-! ## Expressions -/

theorem getElem?_surroundings (text : List Char) {before : Option Char} {i : Nat}
    (h : i ≤ text.length) :
    (surroundings before text)[i]?
      = some (if i = 0 then before else charBefore text i, text[i]?) := by
  induction text generalizing before i with
  | nil =>
    obtain rfl := Nat.le_zero.1 h
    rfl
  | cons c text ih =>
    cases i with
    | zero => rfl
    | succ i =>
      rw [surroundings, List.getElem?_cons_succ, ih (Nat.le_of_succ_le_succ h)]
      cases i <;> rfl

theorem length_surroundings (before : Option Char) (text : List Char) :
    (surroundings before text).length = text.length + 1 := by
  induction text generalizing before with
  | nil => rfl
  | cons c text ih => rw [surroundings, List.length_cons, ih, List.length_cons]

theorem exact_chars (text : List Char) (mode : ClassMode) (set : ClassSet) :
    Exact (text.length + 1) (ends text (.chars mode set)) (Spans text (.chars mode set)) := by
  refine ⟨fun {s} hs => by simp [ends, advance, hs], fun {s} hs j => ?_⟩
  rw [ends, advance]
  cases j with
  | zero => simp [Has, Spans]
  | succ j =>
    refine Iff.trans (has_zipWith (s := s)) ⟨fun ⟨hj, c, hc, hmem⟩ => ⟨j, hj, c, hc, hmem, rfl⟩, ?_⟩
    rintro ⟨i, hi, c, hc, hmem, hij⟩
    obtain rfl := Nat.succ.inj hij
    exact ⟨hi, c, hc, hmem⟩

theorem exact_look (text : List Char) (l : Look) :
    Exact (text.length + 1) (ends text (.look l)) (Spans text (.look l)) := by
  refine ⟨fun {s} hs => by simp [ends, length_surroundings, hs], fun {s} hs j => ?_⟩
  have haround : ∀ {i}, Has s i →
      (surroundings none text)[i]? = some (charBefore text i, text[i]?) :=
    fun {i} hi => by
      rw [getElem?_surroundings text (by have := hi.lt; omega)]
      cases i <;> rfl
  refine (has_zipWith
    (p := fun around : Option Char × Option Char => l.holds around.1 around.2)).trans ⟨?_, ?_⟩
  · rintro ⟨hj, around, hget, hl⟩
    rw [haround hj, Option.some.injEq] at hget
    subst hget
    exact ⟨j, hj, hl, rfl⟩
  · rintro ⟨_, hi, hl, rfl⟩
    exact ⟨hi, _, haround hi, hl⟩

/-- **The matcher computes where matches end.** -/
theorem exact_ends (text : List Char) (r : Regex) :
    Exact (text.length + 1) (ends text r) (Spans text r) := by
  induction r with
  | empty => exact ⟨fun hs => hs, fun hs j => by simp [ends, Spans]⟩
  | chars mode set => exact exact_chars text mode set
  | look l => exact exact_look text l
  | seq a b iha ihb => exact iha.comp ihb
  | alt a b iha ihb =>
    have hlengths : ∀ {s : Places}, s.length = text.length + 1 →
        (ends text a s).length = (ends text b s).length :=
      fun hs => (iha.length hs).trans (ihb.length hs).symm
    refine ⟨fun {s} hs => ?_, fun {s} hs j => ?_⟩
    · rw [ends, either, List.length_zipWith, hlengths hs, Nat.min_self, ihb.length hs]
    · rw [ends, has_either (hlengths hs), iha.has hs, ihb.has hs, ← exists_or]
      simp only [Spans, and_or_left]
  | repeated least most a ih =>
    cases most with
    | none =>
      refine ((ih.stepTimes least).comp (ih.saturate (Nat.le_refl _))).congr fun i j => ?_
      simp [spans_repeated]
    | some most =>
      refine ((ih.stepTimes least).comp (ih.stepUpTo (most - least))).congr fun i j => ?_
      simp [spans_repeated]

/-- All places of a text. -/
theorem has_replicate {text : List Char} {i : Nat} :
    Has (List.replicate (text.length + 1) true) i ↔ i ≤ text.length := by
  rw [← Nat.lt_succ_iff]
  simp [Has, List.getElem?_replicate]

theorem Spans.le_length {text : List Char} {r : Regex} {i j : Nat} (h : Spans text r i j)
    (hi : i ≤ text.length) : j ≤ text.length := by
  have hends := exact_ends text r
  have hj := ((hends.has List.length_replicate).2 ⟨i, has_replicate.2 hi, h⟩).lt
  rw [hends.length List.length_replicate] at hj
  exact Nat.le_of_lt_succ hj

/-- **The matcher finds a match if and only if there is one.** -/
theorem isMatch_iff {r : Regex} {text : String} :
    r.isMatch text = true ↔ ∃ i ≤ text.toList.length, ∃ j, Spans text.toList r i j := by
  rw [isMatch, contains_true_iff]
  simp only [(exact_ends text.toList r).has List.length_replicate, has_replicate]
  exact exists_comm.trans (exists_congr fun i => by simp)

/-- What matches somewhere between the start and the end of the text matches the whole of it. -/
theorem isMatch_between_anchors {r : Regex} {text : String} :
    isMatch (.seq (.look .textStart) (.seq r (.seq (.look .textEnd) .empty))) text = true ↔
      r.MatchesWhole text := by
  rw [isMatch_iff, MatchesWhole]
  constructor
  · rintro ⟨i, hi, j, _, ⟨hstart, rfl⟩, k, hk, _, ⟨hend, rfl⟩, -⟩
    have hzero : i = 0 := by
      cases i with
      | zero => rfl
      | succ i =>
        rw [Look.holds, charBefore, List.getElem?_eq_getElem hi] at hstart
        cases hstart
    rw [Look.holds, Option.isNone_iff_eq_none, List.getElem?_eq_none_iff] at hend
    subst hzero
    rwa [Nat.le_antisymm hend (hk.le_length (Nat.zero_le _))]
  · intro h
    refine ⟨0, Nat.zero_le _, text.toList.length, 0, ⟨rfl, rfl⟩, _, h, _, ⟨?_, rfl⟩, rfl⟩
    rw [Look.holds, List.getElem?_eq_none (Nat.le_refl _)]
    rfl

end Logbook.Regex
