import Logbook.Proofs.Parsing.Progress
import Logbook.Query.Phrase

set_option autoImplicit false

/-! # Keywords in bytes

Readers look for keywords among characters. In bytes, what is ahead is what the text leaves when it
is cut at the cursor (`Cursor.StandsIn.cut?`), and a keyword is at its front if another cut, as many
bytes further on as the keyword has, leaves the keyword in front. This finds the same keywords and
goes to the same place (`QueryReader.run_peekKeyword`, `QueryReader.run_eatKeyword`), because a
letter has as many bytes in upper case as in lower case. -/

namespace Logbook

namespace Cursor

/-- Cut at the cursor, the text leaves what is ahead. -/
theorem StandsIn.cut? {text : String} {c : Cursor} (h : StandsIn text c) :
    ∃ past, Phrase.cut? text.toList c.pos = some (past, c.rest) := by
  obtain ⟨past, hrest, hpos, -⟩ := h
  refine ⟨past, ?_⟩
  change text.toList = past ++ c.rest at hrest
  rw [hpos, Nat.zero_add, byteLength_eq, hrest, Phrase.cut?_append]

theorem utf8Size_toLower (c : Char) : c.toLower.utf8Size = c.utf8Size := by
  by_cases hupper : c.val ≥ 'A'.val ∧ c.val ≤ 'Z'.val
  · have hhigh : c.val.toNat ≤ 90 := hupper.2
    have hshift : ('a'.val - 'A'.val).toNat ≤ 37 := by decide
    have hval : c.toLower.val = c.val + ('a'.val - 'A'.val) := congrArg Char.val (dif_pos hupper)
    have hlower : c.toLower.val.toNat ≤ 127 := by
      rw [hval, UInt32.toNat_add]
      exact (Nat.mod_le _ _).trans (Nat.add_le_add hhigh hshift)
    have hone : c.utf8Size = 1 := Char.utf8Size_eq_one_iff.2 (hhigh.trans (by decide))
    rw [hone, Char.utf8Size_eq_one_iff]
    exact hlower
  · have hsame : c.toLower = c := dif_neg hupper
    rw [hsame]

theorem byteLength_map_toLower (cs : List Char) :
    byteLength (cs.map Char.toLower) = byteLength cs := by
  simp only [byteLength, List.foldl_map, utf8Size_toLower]

end Cursor

namespace QueryReader

open Cursor (byteLength byteLength_eq byteLength_map_toLower)

variable {keyword : String} {cs front back : List Char}

/-- What is behind a keyword, in any case, at the front of a text. The text is cut where the bytes
    of the keyword would end. -/
def behindKeyword? (keyword : String) (cs : List Char) : Option (List Char) :=
  match Phrase.cut? cs keyword.utf8ByteSize with
  | some (front, back) =>
    if front.map Char.toLower = keyword.toList.map Char.toLower ∧ back.head?.all endsKeyword then
      some back
    else none
  | none => none

theorem byteLength_of_map_toLower_eq (h : front.map Char.toLower = keyword.toList) :
    byteLength front = keyword.utf8ByteSize := by
  rw [← byteLength_map_toLower, h, byteLength_eq, String.ofList_toList]

theorem startsWithKeyword_iff :
    startsWithKeyword keyword cs = true ↔
      ∃ front back, cs = front ++ back ∧ front.map Char.toLower = keyword.toList
        ∧ back.head?.all endsKeyword = true := by
  simp only [startsWithKeyword, Bool.and_eq_true, beq_iff_eq]
  constructor
  · rintro ⟨hfront, hback⟩
    exact ⟨_, _, (List.take_append_drop ..).symm, hfront, hback⟩
  · rintro ⟨front, back, rfl, hfront, hback⟩
    have hlength : keyword.toList.length = front.length := by rw [← hfront, List.length_map]
    rw [hlength, List.take_left, List.drop_left]
    exact ⟨hfront, hback⟩

theorem behindKeyword?_eq_some_iff (hlower : keyword.toList.map Char.toLower = keyword.toList) :
    behindKeyword? keyword cs = some back ↔
      ∃ front, cs = front ++ back ∧ front.map Char.toLower = keyword.toList
        ∧ back.head?.all endsKeyword = true := by
  unfold behindKeyword?
  rw [hlower]
  constructor
  · intro h
    split at h
    · next front back' hcut =>
      obtain ⟨rfl, -⟩ := Phrase.eq_append_of_cut? hcut
      split at h
      · next hfits =>
        cases h
        exact ⟨front, rfl, hfits⟩
      · cases h
    · cases h
  · rintro ⟨front, rfl, hfits⟩
    rw [← byteLength_of_map_toLower_eq hfits.1, byteLength_eq, Phrase.cut?_append]
    exact if_pos hfits

theorem isSome_behindKeyword? (hlower : keyword.toList.map Char.toLower = keyword.toList) :
    (behindKeyword? keyword cs).isSome = startsWithKeyword keyword cs := by
  rw [Bool.eq_iff_iff, Option.isSome_iff_exists, startsWithKeyword_iff]
  simp only [behindKeyword?_eq_some_iff hlower]
  exact exists_comm

/-- A keyword comes next exactly if one does in bytes. -/
theorem run_peekKeyword (hlower : keyword.toList.map Char.toLower = keyword.toList) (c : Cursor) :
    (peekKeyword keyword).run c
      = .ok ((behindKeyword? keyword c.skipBlanks.rest).isSome, c.skipBlanks) := by
  rw [isSome_behindKeyword? hlower]
  rfl

/-- Going past the characters of a keyword is going forward by its bytes. -/
theorem skip_length_of_behindKeyword?
    (hlower : keyword.toList.map Char.toLower = keyword.toList) {c : Cursor}
    (h : behindKeyword? keyword c.rest = some back) :
    c.skip keyword.length = ⟨back, c.pos + keyword.utf8ByteSize⟩ := by
  obtain ⟨front, hrest, hfront, -⟩ := (behindKeyword?_eq_some_iff hlower).1 h
  have hlength : keyword.length = front.length := by
    rw [← String.length_toList, ← hfront, List.length_map]
  rw [Cursor.skip, hrest, hlength, List.take_left, List.drop_left,
    byteLength_of_map_toLower_eq hfront]

/-- A keyword that comes next in bytes is gone past, and nothing else but blanks is. -/
theorem run_eatKeyword (hlower : keyword.toList.map Char.toLower = keyword.toList) (c : Cursor) :
    (eatKeyword keyword).run c = .ok (match behindKeyword? keyword c.skipBlanks.rest with
      | some back => (true, ⟨back, c.skipBlanks.pos + keyword.utf8ByteSize⟩)
      | none => (false, c.skipBlanks)) := by
  rw [eatKeyword, StateT.run_bind, run_peekKeyword hlower]
  cases hbehind : behindKeyword? keyword c.skipBlanks.rest with
  | none => rfl
  | some back =>
    have hskip := skip_length_of_behindKeyword? hlower hbehind
    exact congrArg (fun d => Except.ok (true, d)) hskip

/-- The words that queries are read for are in lower case. -/
example : ∀ keyword ∈ ["and", "or", "not", "by", "as", "asc", "desc", "limit",
      "max_values_per_field", "max_value_len", "keep_const_fields"],
    keyword.toList.map Char.toLower = keyword.toList := by
  decide

end QueryReader

end Logbook
