import Logbook.Query.Filter

set_option autoImplicit false

/-! # Finding phrases

A phrase is found exactly if it occurs in the value as words (`Phrase.Occurs`). The search
looks at one occurrence after the other, each time from the character behind the beginning of the
last one on. What carries it is that no occurrence that will do begins in the part that is already
behind (`Phrase.exists_search`): the search goes to the first occurrence in the rest, so that it
leaves none out, and each place at which it cuts the value is one between two characters. -/

namespace Logbook.Phrase

/-! ## Words -/

/-- The text begins with a character of a word. -/
def BeginsInWord (s : String) : Prop :=
  ∃ c ∈ s.toList.head?, isWordChar c = true

/-- The text ends with a character of a word. -/
def EndsInWord (s : String) : Prop :=
  ∃ c ∈ s.toList.getLast?, isWordChar c = true

/-- The phrase stands somewhere in the value, and there it neither begins nor ends inside a longer
    word. It may end inside one if `asPrefix`. -/
def Occurs (asPrefix : Bool) (phrase value : String) : Prop :=
  ∃ left right, value = left ++ phrase ++ right ∧
    (BeginsInWord phrase → ¬ EndsInWord left) ∧
    (asPrefix = true ∨ ¬ EndsInWord phrase ∨ ¬ BeginsInWord right)

/-- What the search asks of an occurrence between two texts. -/
def fits (asPrefix : Bool) (phrase left right : List Char) : Bool :=
  startsFreely phrase left.getLast? && (asPrefix || endsFreely phrase right.head?)

theorem any_eq_true_iff {p : Char → Bool} {c? : Option Char} :
    c?.any p = true ↔ ∃ c ∈ c?, p c = true := by
  cases c? <;> simp

theorem fits_iff {asPrefix : Bool} {phrase left right : String} :
    fits asPrefix phrase.toList left.toList right.toList = true
      ↔ (BeginsInWord phrase → ¬ EndsInWord left) ∧
        (asPrefix = true ∨ ¬ EndsInWord phrase ∨ ¬ BeginsInWord right) := by
  simp only [BeginsInWord, EndsInWord, ← any_eq_true_iff, fits, startsFreely, endsFreely,
    Bool.and_eq_true, Bool.or_eq_true, Bool.not_eq_true', Bool.not_eq_true]
  grind

theorem occurs_iff {asPrefix : Bool} {phrase value : String} :
    Occurs asPrefix phrase value
      ↔ ∃ left right, value.toList = left ++ phrase.toList ++ right ∧
        fits asPrefix phrase.toList left right = true := by
  constructor
  · rintro ⟨left, right, rfl, hfits⟩
    exact ⟨left.toList, right.toList, by simp, fits_iff.2 hfits⟩
  · rintro ⟨left, right, hvalue, hfits⟩
    refine ⟨String.ofList left, String.ofList right, ?_, fits_iff.1 ?_⟩
    · rw [← String.toList_inj, hvalue]
      simp
    · simpa using hfits

/-! ## The first occurrence -/

theorem find?_eq_none {phrase cs : List Char} (h : find? phrase cs = none)
    (left right : List Char) : cs ≠ left ++ phrase ++ right := by
  induction cs generalizing left with
  | nil =>
    rintro heq
    have hphrase : phrase = [] := by
      have := congrArg List.length heq
      simp only [List.length_nil, List.length_append] at this
      exact List.eq_nil_of_length_eq_zero (by omega)
    simp [find?, hphrase] at h
  | cons c cs ih =>
    rw [find?] at h
    split at h
    · cases h
    · next hprefix =>
      cases left with
      | nil =>
        intro heq
        exact hprefix (List.isPrefixOf_iff_prefix.2 ⟨right, heq.symm⟩)
      | cons d left =>
        intro heq
        exact ih (Option.map_eq_none_iff.1 h) left (List.cons.inj heq).2

/-- What is found is an occurrence, and no other one begins before it. -/
theorem eq_append_of_find? {phrase cs : List Char} {offset : Nat}
    (h : find? phrase cs = some offset) :
    ∃ left right, cs = left ++ phrase ++ right ∧ (String.ofList left).utf8ByteSize = offset ∧
      ∀ l r, cs = l ++ phrase ++ r → left.length ≤ l.length := by
  induction cs generalizing offset with
  | nil =>
    rw [find?] at h
    split at h
    · next hphrase =>
      cases h
      exact ⟨[], [], by simp [List.isEmpty_iff.1 hphrase], rfl, fun _ _ _ => Nat.zero_le _⟩
    · cases h
  | cons c cs ih =>
    rw [find?] at h
    split at h
    · next hprefix =>
      cases h
      obtain ⟨right, hright⟩ := List.isPrefixOf_iff_prefix.1 hprefix
      exact ⟨[], right, hright.symm, rfl, fun _ _ _ => Nat.zero_le _⟩
    · next hprefix =>
      obtain ⟨offset', hfind, rfl⟩ := Option.map_eq_some_iff.1 h
      obtain ⟨left, right, rfl, rfl, hfirst⟩ := ih hfind
      refine ⟨c :: left, right, rfl, utf8ByteSize_cons c left, fun l r heq => ?_⟩
      cases l with
      | nil => exact absurd (List.isPrefixOf_iff_prefix.2 ⟨r, heq.symm⟩) hprefix
      | cons d l => exact Nat.succ_le_succ (hfirst l r (List.cons.inj heq).2)

/-! ## The search -/

theorem utf8ByteSize_append (cs cs' : List Char) :
    (String.ofList (cs ++ cs')).utf8ByteSize
      = (String.ofList cs).utf8ByteSize + (String.ofList cs').utf8ByteSize := by
  rw [String.ofList_append, String.utf8ByteSize_append]

/-- A text is parted where several texts that make it up end. -/
theorem cut?_toList {value : String} {front back : List Char} (h : value.toList = front ++ back) :
    cut? value.toList (String.ofList front).utf8ByteSize = some (front, back) := by
  rw [h, cut?_append]

variable {phrase value : String} {skipped rest : List Char}

theorem search_of_find?_eq_none (asPrefix : Bool) (hvalue : value.toList = skipped ++ rest)
    (hfind : find? phrase.toList rest = none) :
    search phrase value asPrefix (String.ofList skipped).utf8ByteSize = some false := by
  rw [search]
  split
  · next hcut => rw [cut?_toList hvalue] at hcut; cases hcut
  · next front back hcut =>
    rw [cut?_toList hvalue] at hcut
    cases hcut
    rw [hfind]

/-- What the search does at an occurrence: it stops or starts again behind its first character. -/
theorem search_of_find?_eq_some {left right : List Char} (asPrefix : Bool)
    (hvalue : value.toList = skipped ++ (left ++ phrase.toList ++ right))
    (hfind : find? phrase.toList (left ++ phrase.toList ++ right)
      = some (String.ofList left).utf8ByteSize) :
    search phrase value asPrefix (String.ofList skipped).utf8ByteSize
      = if fits asPrefix phrase.toList (skipped ++ left) right then some true
        else search phrase value asPrefix ((String.ofList (skipped ++ left)).utf8ByteSize
          + (phrase.toList ++ right).head?.elim 1 Char.utf8Size) := by
  have hhere : value.toList = (skipped ++ left) ++ (phrase.toList ++ right) := by
    rw [hvalue]
    simp only [List.append_assoc]
  have hback : value.toList = (skipped ++ left ++ phrase.toList) ++ right := by
    rw [hvalue]
    simp only [List.append_assoc]
  have hcut := cut?_toList hback
  rw [utf8ByteSize_append, String.ofList_toList] at hcut
  rw [search]
  split
  · next hnone => rw [cut?_toList hvalue] at hnone; cases hnone
  · next front back hstart =>
    rw [cut?_toList hvalue] at hstart
    cases hstart
    rw [hfind]
    simp only [← utf8ByteSize_append, cut?_toList hhere, hcut, fits]
    rfl

/-- If the first occurrence will not do, those that will are the ones behind its first
    character. -/
theorem exists_behind_iff {P : List Char → List Char → Prop} {c : Char} {cs left right : List Char}
    (hfirst : ∀ l r, left ++ c :: cs ++ right = l ++ c :: cs ++ r → left.length ≤ l.length)
    (hnot : ¬ P left right) :
    (∃ l r, cs ++ right = l ++ c :: cs ++ r ∧ P (left ++ c :: l) r)
      ↔ ∃ l r, left ++ c :: cs ++ right = l ++ c :: cs ++ r ∧ P l r := by
  constructor
  · rintro ⟨l, r, heq, hP⟩
    refine ⟨left ++ c :: l, r, ?_, hP⟩
    rw [List.append_assoc, List.cons_append, heq]
    simp only [List.append_assoc, List.cons_append]
  · rintro ⟨l, r, heq, hP⟩
    have hlength := hfirst l r heq
    rw [List.append_assoc, List.append_assoc] at heq
    -- the other occurrence does not begin before the first one
    obtain ⟨between, rfl, hrest⟩ : ∃ between, l = left ++ between ∧
        c :: cs ++ right = between ++ (c :: cs ++ r) := by
      rcases List.append_eq_append_iff.1 heq with h | ⟨between, rfl, hrest⟩
      · exact h
      · have hnil : between = [] := List.eq_nil_of_length_eq_zero (by
          rw [List.length_append] at hlength
          omega)
        rw [hnil, List.nil_append] at hrest
        exact ⟨[], by simp [hnil], hrest.symm⟩
    cases between with
    | nil =>
      rw [List.append_nil] at hP
      exact absurd (List.append_cancel_left hrest ▸ hP) hnot
    | cons d between =>
      obtain ⟨rfl, htail⟩ := List.cons.inj hrest
      exact ⟨between, r, htail.trans (List.append_assoc ..).symm, hP⟩

/-- **The search answers, and rightly, from any place on**: it finds the phrase if and only if it
    occurs as words in the rest. -/
theorem exists_search (hphrase : phrase ≠ "") (asPrefix : Bool)
    (hvalue : value.toList = skipped ++ rest) :
    ∃ found, search phrase value asPrefix (String.ofList skipped).utf8ByteSize = some found ∧
      (found = true ↔ ∃ left right, rest = left ++ phrase.toList ++ right ∧
        fits asPrefix phrase.toList (skipped ++ left) right = true) := by
  induction hlength : rest.length using Nat.strongRecOn generalizing skipped rest with
  | ind n ih =>
    subst hlength
    cases hfind : find? phrase.toList rest with
    | none =>
      refine ⟨false, search_of_find?_eq_none asPrefix hvalue hfind, iff_of_false (by simp) ?_⟩
      rintro ⟨left, right, heq, -⟩
      exact find?_eq_none hfind left right heq
    | some offset =>
      obtain ⟨left, right, rfl, rfl, hfirst⟩ := eq_append_of_find? hfind
      rw [search_of_find?_eq_some asPrefix hvalue hfind]
      cases hfits : fits asPrefix phrase.toList (skipped ++ left) right with
      | true => exact ⟨true, rfl, iff_of_true rfl ⟨left, right, rfl, hfits⟩⟩
      | false =>
        -- the occurrence will not do, and the next one may overlap it
        obtain ⟨c, cs, hc⟩ := List.exists_cons_of_ne_nil
          (show phrase.toList ≠ [] by simpa using hphrase)
        rw [hc] at hfirst hfits ⊢
        have hnext : (String.ofList (skipped ++ left)).utf8ByteSize
            + (c :: cs ++ right).head?.elim 1 Char.utf8Size
            = (String.ofList (skipped ++ left ++ [c])).utf8ByteSize := by
          rw [utf8ByteSize_append _ [c], utf8ByteSize_cons]
          rfl
        have hbehind : value.toList = skipped ++ left ++ [c] ++ (cs ++ right) := by
          rw [hvalue, hc]
          simp only [List.append_assoc, List.cons_append, List.nil_append]
        have hshorter : (cs ++ right).length < (left ++ phrase.toList ++ right).length := by
          simp only [hc, List.length_append, List.length_cons]
          omega
        obtain ⟨found, hsearch, hfound⟩ := ih _ hshorter hbehind rfl
        refine ⟨found, by rw [if_neg Bool.false_ne_true, hnext, hsearch], hfound.trans ?_⟩
        have hnot : ¬ fits asPrefix (c :: cs) (skipped ++ left) right = true :=
          Bool.eq_false_iff.1 hfits
        rw [hc, ← exists_behind_iff
          (P := fun l r => fits asPrefix (c :: cs) (skipped ++ l) r = true) hfirst hnot]
        simp only [List.append_assoc, List.cons_append, List.nil_append]

/-! ## Filters -/

/-- **A phrase is found exactly if it occurs as words.** The search comes to an answer, which means
    that it never cuts the value inside a character, and the answer is right. So a filter for a
    phrase accepts the rows whose value holds the phrase between words, and one for the beginning of
    a word those whose value holds it where a word may begin. -/
theorem search_finds_iff_occurs (phrase value : String) (hphrase : phrase ≠ "") :
    (∀ asPrefix, ∃ found, search phrase value asPrefix 0 = some found ∧
      (found = true ↔ Occurs asPrefix phrase value)) ∧
    ∀ (field : String) (row : QueryRow), row.value field = value →
      ((Filter.phrase field phrase).accepts row = true ↔ Occurs false phrase value) ∧
      ((Filter.startsWith field phrase).accepts row = true ↔ Occurs true phrase value) := by
  have hsearch : ∀ asPrefix, ∃ found, search phrase value asPrefix 0 = some found ∧
      (found = true ↔ Occurs asPrefix phrase value) := by
    intro asPrefix
    obtain ⟨found, hsearch, hfound⟩ :=
      exists_search hphrase asPrefix (List.nil_append value.toList).symm
    exact ⟨found, hsearch, hfound.trans occurs_iff.symm⟩
  have hanswer : ∀ asPrefix, (search phrase value asPrefix 0 == some true) = true
      ↔ Occurs asPrefix phrase value := by
    intro asPrefix
    obtain ⟨found, hsearch, hfound⟩ := hsearch asPrefix
    rw [hsearch, ← hfound, beq_iff_eq, Option.some_inj]
  have hne : phrase.isEmpty = false := by simpa using hphrase
  refine ⟨hsearch, ?_⟩
  rintro field row rfl
  refine ⟨?_, ?_⟩
  · rw [Filter.accepts, isIn, hne, if_neg Bool.false_ne_true, hanswer]
  · rw [Filter.accepts, startsIn, hne, if_neg Bool.false_ne_true, hanswer]

/-- Of two occurrences that overlap, the first begins inside a word. -/
theorem overlapping_phrase_found :
    "a a" ≠ "" ∧ search "a a" "ü xa a a" false 0 = some true := by
  have hleft : ¬ EndsInWord "ü xa " := by
    rintro ⟨c, hc, hword⟩
    cases hc
    exact absurd hword (by decide +kernel)
  have hright : ¬ BeginsInWord "" := by
    rintro ⟨c, hc, -⟩
    cases hc
  obtain ⟨found, hsearch, hfound⟩ :=
    (search_finds_iff_occurs "a a" "ü xa a a" (by decide)).1 false
  have hoccurs : Occurs false "a a" "ü xa a a" :=
    ⟨"ü xa ", "", by decide, fun _ => hleft, .inr (.inr hright)⟩
  exact ⟨by decide, by rw [hsearch, hfound.2 hoccurs]⟩

end Logbook.Phrase
