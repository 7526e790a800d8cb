set_option autoImplicit false

/-! # Pieces between separators

A list is cut at each of its separators. There is always one piece more than there are separators
(`length_pieces`), and the pieces with separators between them make up the list: lists put together
around a separator are cut into the pieces of each (`pieces_append`). -/

namespace Logbook

/-- Puts an element in front of the first piece. -/
def extendPiece {α : Type} (x : α) : List (List α) → List (List α)
  | [] => [[x]]
  | piece :: more => (x :: piece) :: more

theorem length_extendPiece {α : Type} (x : α) {ps : List (List α)} (h : ps ≠ []) :
    (extendPiece x ps).length = ps.length := by
  cases ps with
  | nil => contradiction
  | cons p ps => rfl

theorem extendPiece_append {α : Type} (x : α) {ps : List (List α)} (h : ps ≠ [])
    (qs : List (List α)) :
    extendPiece x (ps ++ qs) = extendPiece x ps ++ qs := by
  cases ps with
  | nil => contradiction
  | cons p ps => rfl

/-- The pieces of a list between the elements that equal the separator. -/
def pieces {α : Type} [DecidableEq α] (separator : α) (xs : List α) : List (List α) :=
  xs.foldr (fun x ps => if x = separator then [] :: ps else extendPiece x ps) [[]]

section Pieces

variable {α : Type} [DecidableEq α] {separator : α} {xs : List α}

theorem pieces_cons (separator x : α) (xs : List α) :
    pieces separator (x :: xs) = if x = separator then [] :: pieces separator xs
      else extendPiece x (pieces separator xs) :=
  rfl

theorem pieces_ne_nil (separator : α) (xs : List α) : pieces separator xs ≠ [] := by
  cases xs with
  | nil => exact List.cons_ne_nil _ _
  | cons x xs =>
    rw [pieces_cons]
    split
    · exact List.cons_ne_nil _ _
    · cases pieces separator xs <;> exact List.cons_ne_nil _ _

theorem pieces_append (separator : α) (xs ys : List α) :
    pieces separator (xs ++ separator :: ys) = pieces separator xs ++ pieces separator ys := by
  induction xs with
  | nil => rw [List.nil_append, pieces_cons, if_pos rfl]; rfl
  | cons x xs ih =>
    rw [List.cons_append, pieces_cons, pieces_cons, ih]
    split
    · rfl
    · exact extendPiece_append x (pieces_ne_nil separator xs) _

theorem length_pieces (separator : α) (xs : List α) :
    (pieces separator xs).length = xs.count separator + 1 := by
  induction xs with
  | nil => rfl
  | cons x xs ih =>
    rw [pieces_cons, List.count_cons]
    by_cases hx : x = separator
    · rw [if_pos hx, if_pos (beq_iff_eq.2 hx), List.length_cons, ih]
    · rw [if_neg hx, if_neg (mt beq_iff_eq.1 hx), length_extendPiece x (pieces_ne_nil _ _), ih]

/-- A list without separators is one piece. -/
theorem pieces_of_not_mem (h : separator ∉ xs) : pieces separator xs = [xs] := by
  induction xs with
  | nil => rfl
  | cons x xs ih =>
    rw [List.mem_cons, not_or] at h
    rw [pieces_cons, if_neg (Ne.symm h.1), ih h.2]
    rfl

/-- No piece has a separator in it. -/
theorem not_mem_of_mem_pieces {piece : List α} (h : piece ∈ pieces separator xs) :
    separator ∉ piece := by
  induction xs generalizing piece with
  | nil =>
    rw [List.mem_singleton.1 h]
    exact List.not_mem_nil
  | cons x xs ih =>
    rw [pieces_cons] at h
    split at h
    · rcases List.mem_cons.1 h with rfl | h
      · exact List.not_mem_nil
      · exact ih h
    · next hx =>
      cases hps : pieces separator xs with
      | nil => exact absurd hps (pieces_ne_nil separator xs)
      | cons p ps =>
        rw [hps] at h ih
        rcases List.mem_cons.1 h with rfl | h
        · rw [List.mem_cons, not_or]
          exact ⟨Ne.symm hx, ih List.mem_cons_self⟩
        · exact ih (List.mem_cons_of_mem p h)

end Pieces

end Logbook
