import Logbook.Proofs.Json.RoundTrip
import Logbook.Query.Wire.Value

set_option autoImplicit false

/-! # Values on the way between nodes

Texts, truth values, times and counts are received as they were sent (`Wire.Exact`). A number is
received as what its text reads as, which need not be the same number; one that is not finite is not
received at all (`Wire.received?`). -/

namespace Logbook

namespace Wire

/-- The number that a number is received as. -/
def received? (x : Float) : Option Float :=
  (ofFloat x).received?.bind float?

/-- The value is received as it is. -/
def Exact (v : Json) : Prop :=
  v.received? = some v

theorem exact_bool (b : Bool) : Exact (.bool b) := rfl

theorem exact_str (s : String) : Exact (.str s) := rfl

theorem exact_ofCount {n : Nat} (h : n < UInt64.size) : Exact (ofCount n) := by
  have hsize : UInt64.size = 2 ^ 64 := rfl
  exact Json.received?_int (by omega) (by omega)

theorem exact_ofTime (t : Int64) : Exact (ofTime t) := by
  have hlow := Int64.le_toInt t
  have hhigh := Int64.toInt_lt t
  exact Json.received?_int (by omega) (by omega)

@[simp] theorem time?_ofTime (t : Int64) : time? (ofTime t) = some t := by
  have hrange : Int64.minValue.toInt ≤ t.toInt ∧ t.toInt ≤ Int64.maxValue.toInt :=
    ⟨Int64.le_iff_toInt_le.1 (Int64.minValue_le t), Int64.le_iff_toInt_le.1 (Int64.le_maxValue t)⟩
  rw [ofTime, time?, Time.ofInt?, if_pos hrange, Int64.ofInt_toInt]

theorem count?_ofCount {n : Nat} (h : n < UInt64.size) : count? (ofCount n) = some n := by
  rw [ofCount, count?, if_pos (by omega), Int.toNat_natCast]

theorem nullable?_of_ne_null {α : Type} (read : Json → Option α) {v : Json} (h : v ≠ .null) :
    nullable? read v = (read v).map some := by
  cases v with
  | null => contradiction
  | _ => rfl

@[simp] theorem nullable?_ofTime (t : Int64) : nullable? time? (ofTime t) = some (some t) := by
  show (time? (ofTime t)).map some = _
  rw [time?_ofTime, Option.map_some]

theorem nullable?_ofCount {n : Nat} (h : n < UInt64.size) :
    nullable? count? (ofCount n) = some (some n) := by
  show (count? (ofCount n)).map some = _
  rw [count?_ofCount h, Option.map_some]

/-! ## Lists -/

theorem receivedAll?_eq_mapM (vs : List Json) : Json.receivedAll? vs = vs.mapM Json.received? := by
  induction vs with
  | nil => rfl
  | cons v vs ih => rw [Json.receivedAll?, ih, List.mapM_cons]

/-- A list is received item by item. -/
theorem mapM_receivedAll? {α β : Type} {write : α → Json} {read : Json → Option β}
    {receive : α → Option β} {xs : List α}
    (h : ∀ x ∈ xs, (write x).received?.bind read = receive x) :
    (Json.receivedAll? (xs.map write)).bind (·.mapM read) = xs.mapM receive := by
  induction xs with
  | nil => rfl
  | cons x xs ih =>
    rw [List.forall_mem_cons] at h
    rw [List.mapM_cons, ← ih h.2, ← h.1, List.map_cons, Json.receivedAll?]
    cases (write x).received? with
    | none => rfl
    | some v =>
      cases Json.receivedAll? (xs.map write) with
      | none => cases hv : read v <;> simp [hv]
      | some vs => simp [List.mapM_cons]

theorem mapM_eq_some {α β : Type} {f : α → Option β} {g : α → β} {xs : List α}
    (h : ∀ x ∈ xs, f x = some (g x)) : xs.mapM f = some (xs.map g) := by
  induction xs with
  | nil => rfl
  | cons x xs ih =>
    rw [List.forall_mem_cons] at h
    rw [List.mapM_cons, h.1, ih h.2]
    rfl

/-- What is received as it is just if its parts are makes up lists of the same kind. -/
theorem mapM_eq_some_iff {α β : Type} {f : α → Option α} {parts : α → List β} {P : β → Prop}
    (h : ∀ x, f x = some x ↔ ∀ y ∈ parts x, P y) (xs : List α) :
    xs.mapM f = some xs ↔ ∀ y ∈ xs.flatMap parts, P y := by
  induction xs with
  | nil => simp
  | cons x xs ih =>
    rw [List.flatMap_cons, List.forall_mem_append, ← ih, ← h, List.mapM_cons]
    cases f x <;> cases xs.mapM f <;> simp

theorem exact_arr {vs : List Json} (h : ∀ v ∈ vs, Exact v) : Exact (.arr vs) := by
  have hmap := mapM_eq_some (g := id) h
  rw [List.map_id] at hmap
  rw [Exact, Json.received?, receivedAll?_eq_mapM, hmap]
  rfl

theorem exact_map {α : Type} {write : α → Json} (h : ∀ x, Exact (write x)) (xs : List α) :
    Exact (.arr (xs.map write)) :=
  exact_arr fun v hv => by
    obtain ⟨x, -, rfl⟩ := List.mem_map.1 hv
    exact h x

theorem exact_obj {ms : List (String × Json)} (h : ∀ m ∈ ms, Exact m.2) : Exact (.obj ms) := by
  have hms : Json.receivedMembers? ms = some ms := by
    induction ms with
    | nil => rfl
    | cons m ms ih =>
      rw [List.forall_mem_cons] at h
      rw [Json.receivedMembers?, show Json.received? m.2 = some m.2 from h.1, ih h.2]
      rfl
  rw [Exact, Json.received?, hms]
  rfl

theorem exact_ofTexts (ss : List String) : Exact (ofTexts ss) :=
  exact_map exact_str ss

theorem list?_map {α : Type} {write : α → Json} {read : Json → Option α} {xs : List α}
    (h : ∀ x ∈ xs, read (write x) = some x) : list? read (.arr (xs.map write)) = some xs := by
  rw [list?, List.mapM_map]
  exact (mapM_eq_some (g := id) h).trans (congrArg some xs.map_id)

@[simp] theorem list?_ofTexts (ss : List String) : list? text? (ofTexts ss) = some ss :=
  list?_map fun _ _ => rfl

end Wire

end Logbook
