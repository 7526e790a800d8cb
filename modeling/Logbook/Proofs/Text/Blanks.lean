import Mathlib.Algebra.Group.Nat.Defs
import Logbook.Text.Class

set_option autoImplicit false

/-! # Blanks are no letters and no numbers

Words end at blanks, and names are made of letters and numbers, so that a name has no blank in it
(**`Text.isAlphanumeric_of_isBlank`**). The category of a character is that of the run of the table
in which it lies (`Text.Category.exists_run`), so one walk along the runs tells that every blank
beyond ASCII lies in a run of separators or controls. -/

namespace Logbook.Text

/-! ## Looking up a run -/

namespace Category

/-- Halving finds an entry that is at most `n`, and behind which the next one is above `n`. -/
theorem lastAtMost_spec (starts : Nat → Nat) {n fuel lo hi : Nat} (hlo : starts lo ≤ n)
    (hlt : lo < hi) (hfuel : hi - lo ≤ 2 ^ fuel) :
    starts (lastAtMost starts n fuel lo hi) ≤ n ∧ lastAtMost starts n fuel lo hi < hi ∧
      (lastAtMost starts n fuel lo hi + 1 = hi ∨
        n < starts (lastAtMost starts n fuel lo hi + 1)) := by
  induction fuel generalizing lo hi with
  | zero =>
    rw [lastAtMost]
    exact ⟨hlo, hlt, .inl (by omega)⟩
  | succ fuel ih =>
    rw [lastAtMost]
    rw [Nat.pow_succ] at hfuel
    split
    · exact ⟨hlo, hlt, .inl (by omega)⟩
    · dsimp only
      split
      · next hmid => exact ih hmid (by omega) (by omega)
      · next hmid =>
        obtain ⟨hle, hbelow, hnext⟩ :=
          ih hlo (show lo < (lo + hi) / 2 by omega) (by omega)
        refine ⟨hle, by omega, .inr ?_⟩
        rcases hnext with hnext | hnext
        · rw [hnext]
          omega
        · exact hnext

/-- Runs of which the first starts at zero and which are not too many to be halved. -/
structure Searchable (runs : List (Nat × Category)) : Prop where
  zero : runs.head?.map (·.1) = some 0
  length : runs.length ≤ 2 ^ 32

/-- A code point has the category of a run that starts at or before it while the next run starts
    behind it. -/
theorem exists_run {runs : List (Nat × Category)} (h : Searchable runs) (n : Nat) :
    ∃ before start after, runs = before ++ (start, ofRuns runs.toArray n) :: after ∧ start ≤ n ∧
      ∀ next ∈ after.head?, n < next.1 := by
  obtain ⟨hzero, hlength⟩ := h
  have hpos : 0 < runs.length := by
    cases runs with
    | nil => contradiction
    | cons _ _ => simp
  have hget : ∀ i (hi : i < runs.length), runs.toArray.getD i (0, .unassigned) = runs[i] :=
    fun i hi => by simp [hi]
  have hfirst : (runs.toArray.getD 0 (0, .unassigned)).1 ≤ n := by
    rw [hget 0 hpos]
    rw [List.head?_eq_getElem?, List.getElem?_eq_getElem hpos] at hzero
    exact Nat.le_trans (Nat.le_of_eq (Option.some.inj hzero)) (Nat.zero_le n)
  obtain ⟨hle, hlt, hnext⟩ :=
    lastAtMost_spec (fun i => (runs.toArray.getD i (0, .unassigned)).1) hfirst hpos
      (show runs.length - 0 ≤ 2 ^ 32 by omega)
  unfold ofRuns
  rw [List.size_toArray]
  generalize lastAtMost (fun i => (runs.toArray.getD i (0, .unassigned)).1) n 32 0 runs.length = i
    at hle hlt hnext ⊢
  dsimp only
  rw [hget i hlt] at hle ⊢
  refine ⟨runs.take i, runs[i].1, runs.drop (i + 1), ?_, hle, ?_⟩
  · rw [List.getElem_cons_drop, List.take_append_drop]
  · intro next hmem
    rw [List.head?_drop, Option.mem_def, List.getElem?_eq_some_iff] at hmem
    obtain ⟨hi, rfl⟩ := hmem
    rcases hnext with hnext | hnext
    · omega
    · rwa [hget (i + 1) hi] at hnext

end Category

/-! ## Blanks beyond ASCII -/

/-- The blanks beyond ASCII. -/
def highBlanks : Ranges :=
  blanks.drop 2

/-- Whether no blank beyond ASCII lies in a run of characters that are seen. No run above the last
    blank is looked at. -/
def blanksUnseen : List (Nat × Category) → Bool
  | [] => true
  | (start, category) :: rest =>
    (category.isUnseen || Nat.blt 0x3000 start
      || highBlanks.all fun (lo, hi) =>
          Nat.blt hi start || rest.head?.any fun next => Nat.ble next.1 lo)
      && blanksUnseen rest

theorem isUnseen_of_blanksUnseen {before after : List (Nat × Category)} {start n : Nat}
    {category : Category} (h : blanksUnseen (before ++ (start, category) :: after) = true)
    (hn : highBlanks.contains n = true) (hstart : start ≤ n)
    (hnext : ∀ next ∈ after.head?, n < next.1) : category.isUnseen = true := by
  induction before with
  | nil =>
    have hmax : n ≤ 0x3000 := by
      simp [Ranges.contains, highBlanks, blanks] at hn
      omega
    obtain ⟨⟨lo, hi⟩, hrange, hin⟩ := List.any_eq_true.1 hn
    rw [Bool.and_eq_true, decide_eq_true_eq, decide_eq_true_eq] at hin
    simp only [List.nil_append, blanksUnseen, Bool.and_eq_true, Bool.or_eq_true, Nat.blt_eq] at h
    rcases h.1 with (hunseen | habove) | hall
    · exact hunseen
    · omega
    · -- the range of the blank lies before the run or behind it
      have hout := List.all_eq_true.1 hall (lo, hi) hrange
      simp only [Bool.or_eq_true, Nat.blt_eq, Option.any_eq_true, Nat.ble_eq] at hout
      rcases hout with hbefore | ⟨next, hmem, hbehind⟩
      · omega
      · have := hnext next hmem
        omega
  | cons run before ih =>
    rw [List.cons_append, blanksUnseen, Bool.and_eq_true] at h
    exact ih h.2

/-- What is checked of a table of categories. -/
def checkRuns (runs : List (Nat × Category)) : Bool :=
  runs.head?.map (·.1) == some 0 && Nat.ble runs.length 5000 && blanksUnseen runs

theorem isUnseen_of_checkRuns (texts : List (List Char))
    (htexts : Category.runTexts = texts.map String.ofList)
    (hcheck : checkRuns (Category.readRuns texts.flatten 0 0 none) = true) {c : Char}
    (hc : highBlanks.contains c.toNat = true) : (Category.of c).isUnseen = true := by
  have hruns : Category.runs = (Category.readRuns texts.flatten 0 0 none).toArray := by
    have hchars : (texts.map String.ofList).flatMap String.toList = texts.flatten := by
      rw [List.flatMap_map]
      simp only [String.toList_ofList, List.flatMap_id']
    rw [Category.runs, htexts, hchars]
  rw [Category.of, hruns]
  generalize Category.readRuns texts.flatten 0 0 none = runs at hcheck
  rw [checkRuns, Bool.and_eq_true, Bool.and_eq_true, beq_iff_eq, Nat.ble_eq] at hcheck
  obtain ⟨⟨hzero, hlength⟩, hunseen⟩ := hcheck
  obtain ⟨before, start, after, hsplit, hstart, hnext⟩ :=
    Category.exists_run ⟨hzero, by omega⟩ c.toNat
  rw [hsplit] at hunseen
  exact isUnseen_of_blanksUnseen hunseen hc hstart hnext

/-! ## The tables -/

-- the texts are spelled out, since they are too long to be taken apart by computing with them
set_option maxRecDepth 20000 in
theorem isUnseen_of_highBlank {c : Char} (hc : highBlanks.contains c.toNat = true) :
    (Category.of c).isUnseen = true :=
  isUnseen_of_checkRuns [_, _, _, _, _, _, _, _, _, _, _, _, _, _, _, _, _, _] rfl
    (by decide +kernel) hc

/-- Whether two sets have no code point in common. -/
def disjointRanges (r s : Ranges) : Bool :=
  r.all fun (lo, hi) => s.all fun (lo', hi') => Nat.blt hi lo' || Nat.blt hi' lo

theorem not_contains_of_disjointRanges {r s : Ranges} (h : disjointRanges r s = true) {n : Nat}
    (hn : s.contains n = true) : r.contains n = false := by
  rw [Bool.eq_false_iff]
  intro hr
  obtain ⟨⟨lo, hi⟩, hrange, hin⟩ := List.any_eq_true.1 hr
  obtain ⟨⟨lo', hi'⟩, hrange', hin'⟩ := List.any_eq_true.1 hn
  have hout := List.all_eq_true.1 (List.all_eq_true.1 h (lo, hi) hrange) (lo', hi') hrange'
  simp only [Bool.and_eq_true, Bool.or_eq_true, decide_eq_true_eq, Nat.blt_eq] at hin hin' hout
  omega

theorem otherAlphabetic_of_chars (cs : List Char)
    (htext : otherAlphabetic = Ranges.ofText (String.ofList cs))
    (hcheck : disjointRanges ((Ranges.words cs []).map Ranges.readOne) highBlanks = true) {n : Nat}
    (hn : highBlanks.contains n = true) : otherAlphabetic.contains n = false := by
  rw [htext, Ranges.ofText, String.toList_ofList]
  exact not_contains_of_disjointRanges hcheck hn

set_option maxRecDepth 20000 in
theorem not_otherAlphabetic_of_highBlank {n : Nat} (hn : highBlanks.contains n = true) :
    otherAlphabetic.contains n = false :=
  otherAlphabetic_of_chars _ rfl (by decide +kernel) hn

/-! ## Blanks -/

theorem highBlanks_of_isBlank {c : Char} (h : isBlank c = true) (hhigh : ¬ c.toNat < 128) :
    highBlanks.contains c.toNat = true := by
  simp only [isBlank, Ranges.contains, blanks, highBlanks, List.any_cons, List.drop_succ_cons,
    List.any_nil, List.drop_zero, Bool.or_eq_true, Bool.and_eq_true, decide_eq_true_eq,
    Bool.false_eq_true, or_false] at h ⊢
  omega

theorem Category.isUnseen_excludes {category : Category} (h : category.isUnseen = true) :
    category.isLetter = false ∧ (category == .letterNumber) = false ∧
      category.isNumber = false := by
  cases category <;> first | contradiction | decide

/-- **A blank is neither a letter nor a number.** -/
theorem isAlphanumeric_of_isBlank {c : Char} (h : isBlank c = true) : isAlphanumeric c = false := by
  unfold isAlphanumeric
  split
  · next hascii =>
    have hlow : c.toNat ≤ 32 := by
      simp only [isBlank, Ranges.contains, blanks, List.any_cons, List.any_nil, Bool.or_eq_true,
        Bool.and_eq_true, decide_eq_true_eq, Bool.false_eq_true, or_false] at h
      omega
    have hbefore : ∀ d : Char, 32 < d.toNat → ¬ d ≤ c := fun d hd hle =>
      Nat.not_lt_of_le hlow (Nat.lt_of_lt_of_le hd hle)
    simp [isAsciiAlpha, isAsciiDigit, hbefore]
  · next hhigh =>
    have hrange := highBlanks_of_isBlank h hhigh
    obtain ⟨hletter, hnumber, hnumbers⟩ := Category.isUnseen_excludes (isUnseen_of_highBlank hrange)
    rw [isAlphabetic, if_neg hhigh, not_otherAlphabetic_of_highBlank hrange]
    dsimp only
    rw [hletter, hnumber, hnumbers]
    rfl

/-- Visible ASCII characters are no blanks. -/
theorem isBlank_of_toNat {c : Char} (hlow : 33 ≤ c.toNat) (hhigh : c.toNat ≤ 126) :
    isBlank c = false := by
  simp only [isBlank, Ranges.contains, blanks, List.any_cons, List.any_nil, Bool.or_false,
    Bool.or_eq_false_iff, Bool.and_eq_false_imp, decide_eq_true_eq, decide_eq_false_iff_not]
  omega

/-! ## Trimming -/

theorem trimChars_of_not_blank {cs : List Char} (h : ∀ c ∈ cs, isBlank c = false) :
    trimChars cs = cs := by
  have hkeep : ∀ {l : List Char}, (∀ c ∈ l, isBlank c = false) → l.dropWhile isBlank = l := by
    intro l hl
    cases l with
    | nil => rfl
    | cons c l => exact List.dropWhile_cons_of_neg (by simp [hl c List.mem_cons_self])
  rw [trimChars, hkeep h, hkeep fun c hc => h c (List.mem_reverse.1 hc), List.reverse_reverse]

end Logbook.Text
