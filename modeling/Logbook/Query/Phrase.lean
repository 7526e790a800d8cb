import Logbook.Text.Class

set_option autoImplicit false

/-! # Phrases

Words and phrases are found in a value where they do not begin or end inside a longer word. The
search goes from one occurrence to the next and starts again one character behind the beginning of
an occurrence that will not do, so that occurrences may overlap. Places are counted in bytes, and a
text can be cut only between two of its characters. -/

namespace Logbook.Phrase

/-- Characters of which words consist. -/
def isWordChar (c : Char) : Bool :=
  Text.isAlphanumeric c || c = '_'

/-- Whether a phrase may begin after this character. -/
def startsFreely (phrase : List Char) (before : Option Char) : Bool :=
  !phrase.head?.any isWordChar || !before.any isWordChar

/-- Whether a phrase may end before this character. -/
def endsFreely (phrase : List Char) (after : Option Char) : Bool :=
  !phrase.getLast?.any isWordChar || !after.any isWordChar

/-! ## Places in a text -/

/-- The parts of a text before and behind a place. A place inside a character or past the end of
    the text parts nothing. -/
def cut? : List Char → (place : Nat) → Option (List Char × List Char)
  | [], place => if place = 0 then some ([], []) else none
  | c :: cs, place =>
    if place = 0 then some ([], c :: cs)
    else if c.utf8Size ≤ place then
      (cut? cs (place - c.utf8Size)).map fun parts => (c :: parts.1, parts.2)
    else none

/-- The place at which a phrase first occurs in a text. -/
def find? (phrase : List Char) : List Char → Option Nat
  | [] => if phrase.isEmpty then some 0 else none
  | c :: cs =>
    if phrase.isPrefixOf (c :: cs) then some 0 else (find? phrase cs).map (c.utf8Size + ·)

theorem utf8ByteSize_cons (c : Char) (cs : List Char) :
    (String.ofList (c :: cs)).utf8ByteSize = c.utf8Size + (String.ofList cs).utf8ByteSize := by
  rw [String.ofList_cons, String.utf8ByteSize_append, String.utf8ByteSize_singleton]

/-- A text is parted where one of two texts that make it up ends. -/
theorem cut?_append (front back : List Char) :
    cut? (front ++ back) (String.ofList front).utf8ByteSize = some (front, back) := by
  induction front with
  | nil => cases back <;> rfl
  | cons c front ih =>
    have hpos := c.utf8Size_pos
    rw [utf8ByteSize_cons, List.cons_append, cut?, if_neg (by omega), if_pos (by omega),
      Nat.add_sub_cancel_left, ih]
    rfl

/-- The parts of a text make it up, and the place is where the first one ends. -/
theorem eq_append_of_cut? {cs front back : List Char} {place : Nat}
    (h : cut? cs place = some (front, back)) :
    cs = front ++ back ∧ (String.ofList front).utf8ByteSize = place := by
  induction cs generalizing place front with
  | nil =>
    rw [cut?] at h
    split at h
    · next hzero =>
      cases h
      exact ⟨rfl, hzero.symm⟩
    · cases h
  | cons c cs ih =>
    rw [cut?] at h
    split at h
    · next hzero =>
      cases h
      exact ⟨rfl, hzero.symm⟩
    split at h
    · obtain ⟨⟨front', back'⟩, hcut, heq⟩ := Option.map_eq_some_iff.1 h
      cases heq
      obtain ⟨rfl, hplace⟩ := ih hcut
      refine ⟨rfl, ?_⟩
      rw [utf8ByteSize_cons, hplace]
      omega
    · cases h

theorem le_utf8ByteSize_of_cut? {value : String} {place : Nat} {front back : List Char}
    (h : cut? value.toList place = some (front, back)) : place ≤ value.utf8ByteSize := by
  obtain ⟨hvalue, rfl⟩ := eq_append_of_cut? h
  have hsize := congrArg (fun cs => (String.ofList cs).utf8ByteSize) hvalue
  simp only [String.ofList_toList, String.ofList_append, String.utf8ByteSize_append] at hsize
  omega

/-! ## Searching -/

/-- Whether a phrase occurs as words in a value from a place on. The end may run into a word if
    `asPrefix`. There is no answer if the value would be cut inside a character. -/
def search (phrase value : String) (asPrefix : Bool) (start : Nat) : Option Bool :=
  match _h : cut? value.toList start with
  | none => none
  | some (_, rest) =>
    match find? phrase.toList rest with
    | none => some false
    | some offset =>
      let place := start + offset
      match cut? value.toList place, cut? value.toList (place + phrase.utf8ByteSize) with
      | some (front, here), some (_, back) =>
        if startsFreely phrase.toList front.getLast?
            && (asPrefix || endsFreely phrase.toList back.head?) then some true
        else search phrase value asPrefix (place + here.head?.elim 1 Char.utf8Size)
      | _, _ => none
termination_by value.utf8ByteSize + 1 - start
decreasing_by
  have hstart := le_utf8ByteSize_of_cut? _h
  have hstep : 0 < here.head?.elim 1 Char.utf8Size := by
    cases here with
    | nil => exact Nat.one_pos
    | cons c _ => exact c.utf8Size_pos
  omega

/-- Whether a value holds the phrase as words. An empty phrase stands for the empty value. -/
def isIn (phrase value : String) : Bool :=
  if phrase.isEmpty then value.isEmpty else search phrase value false 0 == some true

/-- Whether a value holds a word that begins as given. The empty beginning stands for any value that
    is not empty. -/
def startsIn (phrase value : String) : Bool :=
  if phrase.isEmpty then !value.isEmpty else search phrase value true 0 == some true

end Logbook.Phrase
