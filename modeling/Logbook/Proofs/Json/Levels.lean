import Logbook.Proofs.Json.RoundTrip

set_option autoImplicit false

/-! # Levels of nesting

How deep a value lies inside another (`Json.Inside`), and what the reader does about values that are
nested deeply: a text that is read with some number of levels is read alike with any other number
that its value keeps below, and refused with all smaller ones
(`Json.parse?_of_parseWithin?`). -/

namespace Logbook.Json

/-! ## Values inside values -/

/-- The value `x` lies inside a value, below as many arrays and objects as given. -/
inductive Inside : Json → Nat → Json → Prop
  | self (v : Json) : Inside v 0 v
  | item {items : List Json} {v x : Json} {n : Nat} (hv : v ∈ items) (h : Inside v n x) :
    Inside (.arr items) (n + 1) x
  | member {members : List (String × Json)} {key : String} {v x : Json} {n : Nat}
    (hv : (key, v) ∈ members) (h : Inside v n x) : Inside (.obj members) (n + 1) x

theorem forall_inside_arr {items : List Json} {p : Nat → Prop} :
    (∀ n x, (arr items).Inside n x → p n) ↔ p 0 ∧ ∀ v ∈ items, ∀ n x, v.Inside n x → p (n + 1) := by
  constructor
  · exact fun h => ⟨h 0 _ (.self _), fun v hv n x hx => h (n + 1) x (.item hv hx)⟩
  · intro h n x hx
    cases hx with
    | self => exact h.1
    | item hv hx => exact h.2 _ hv _ x hx

theorem forall_inside_obj {members : List (String × Json)} {p : Nat → Prop} :
    (∀ n x, (obj members).Inside n x → p n)
      ↔ p 0 ∧ ∀ m ∈ members, ∀ n x, m.2.Inside n x → p (n + 1) := by
  constructor
  · exact fun h => ⟨h 0 _ (.self _), fun m hm n x hx => h (n + 1) x (.member hm hx)⟩
  · intro h n x hx
    cases hx with
    | self => exact h.1
    | member hm hx => exact h.2 _ hm _ x hx

theorem forall_inside_of_depth_eq_zero {v : Json} {p : Nat → Prop} (hv : v.depth = 0) :
    (∀ n x, v.Inside n x → p n) ↔ p 0 := by
  constructor
  · exact fun h => h 0 v (.self v)
  · intro h n x hx
    cases hx with
    | self => exact h
    | item => contradiction
    | member => contradiction

theorem lt_depthAll_iff {n : Nat} {items : List Json} :
    n < depthAll items ↔ ∃ v ∈ items, n < v.depth := by
  induction items with
  | nil => simp [depthAll]
  | cons v rest ih =>
    have hmax : n < depthAll (v :: rest) ↔ n < v.depth ∨ n < depthAll rest := by
      rw [depthAll]
      omega
    rw [hmax, ih]
    simp

theorem lt_depthMembers_iff {n : Nat} {members : List (String × Json)} :
    n < depthMembers members ↔ ∃ m ∈ members, n < m.2.depth := by
  induction members with
  | nil => simp [depthMembers]
  | cons m rest ih =>
    have hmax : n < depthMembers (m :: rest) ↔ n < m.2.depth ∨ n < depthMembers rest := by
      rw [depthMembers]
      omega
    rw [hmax, ih]
    simp

/-- A value with some levels has a value inside on each of them. -/
theorem exists_inside {v : Json} {n : Nat} (h : n < v.depth) : ∃ x, v.Inside n x := by
  induction n generalizing v with
  | zero => exact ⟨v, .self v⟩
  | succ n ih =>
    cases v with
    | arr items =>
      obtain ⟨w, hw, hlt⟩ := lt_depthAll_iff.1 (Nat.lt_of_succ_lt_succ h)
      obtain ⟨x, hx⟩ := ih hlt
      exact ⟨x, .item hw hx⟩
    | obj members =>
      obtain ⟨m, hm, hlt⟩ := lt_depthMembers_iff.1 (Nat.lt_of_succ_lt_succ h)
      obtain ⟨x, hx⟩ := ih hlt
      exact ⟨x, .member hm hx⟩
    | _ => contradiction

/-! ## Numbers have no levels -/

variable {v : Json} {rest : List Char}

theorem depth_of_map_float {x : Option Float} {cs : List Char}
    (h : (x.map fun x => (Json.float x, cs)) = some (v, rest)) : v.depth = 0 := by
  obtain ⟨x, -, hx⟩ := Option.map_eq_some_iff.1 h
  cases hx
  rfl

theorem depth_wholeNumber (negative : Bool) (digits : Nat) :
    (readFraction.wholeNumber negative digits).depth = 0 := by
  unfold readFraction.wholeNumber
  split
  · rfl
  · split <;> rfl

theorem depth_of_readExponent {negative : Bool} {digits : Nat} {exponent : Int} {cs : List Char}
    (h : readExponent negative digits exponent cs = some (v, rest)) : v.depth = 0 := by
  unfold readExponent at h
  simp only [bind, Option.bind] at h
  split at h
  · contradiction
  · split at h
    · split at h
      · contradiction
      · cases h
        rfl
    · split at h
      · contradiction
      · cases h
        rfl

theorem depth_of_readFraction {negative whole : Bool} {digits : Nat} {exponent : Int}
    {cs : List Char} (h : readFraction negative digits exponent whole cs = some (v, rest)) :
    v.depth = 0 := by
  unfold readFraction at h
  split at h
  · simp only at h
    split at h
    · contradiction
    · split at h
      · split at h
        · exact depth_of_readExponent h
        · exact depth_of_map_float h
      · exact depth_of_map_float h
  · split at h
    · exact depth_of_readExponent h
    · split at h
      · cases h
        exact depth_wholeNumber negative digits
      · exact depth_of_map_float h
  · split at h
    · cases h
      exact depth_wholeNumber negative digits
    · exact depth_of_map_float h

theorem depth_of_readNumber {cs : List Char} (h : readNumber cs = some (v, rest)) :
    v.depth = 0 := by
  unfold readNumber at h
  simp only at h
  split at h
  · contradiction
  · contradiction
  · exact depth_of_readFraction h

/-! ## Reading with other limits -/

/-- What is no array and no object is read with any number of levels. -/
theorem levels_of_depth_eq_zero {r : Option (Json × List Char)} {d : Nat} (hd : 0 < d)
    (h : r = some (v, rest)) (hdepth : v.depth = 0) :
    r = if v.depth < d then some (v, rest) else none := by
  rw [h, hdepth, if_pos hd]

theorem levels_of_word {r : Option (List Char)} {w : Json} {d : Nat} (hd : 0 < d)
    (hdepth : w.depth = 0) (h : r.map (w, ·) = some (v, rest)) :
    r.map (w, ·) = if v.depth < d then some (v, rest) else none := by
  obtain ⟨cs, -, hcs⟩ := Option.map_eq_some_iff.1 h
  cases hcs
  exact levels_of_depth_eq_zero hd h hdepth

theorem levels_of_container {α : Type} {r : Option α} {a : α} {d : Nat} (n : Nat)
    (h : 0 < d - 1 → r = if n < d - 1 then some a else none) :
    (if d ≤ 1 then none else r) = if n + 1 < d then some a else none := by
  by_cases hd : d ≤ 1
  · rw [if_pos hd, if_neg (by omega)]
  · rw [if_neg hd, h (by omega)]
    exact if_congr (by omega) rfl rfl

theorem bind_ite_none {α β : Type} (p : Prop) [Decidable p] (a : α) (f : α → Option β) :
    (if p then some a else none).bind f = if p then f a else none := by
  split <;> rfl

theorem ite_max_lt_none {α : Type} (a b d : Nat) (x : Option α) :
    (if a < d then if b < d then x else none else none) = if max a b < d then x else none := by
  rw [← ite_and]
  exact if_congr Nat.max_lt.symm rfl rfl

mutual

theorem readValue_levels : ∀ (fuel : Nat) {d d' : Nat} {cs rest : List Char} {v : Json}, 0 < d →
    readValue fuel d' cs = some (v, rest) →
      readValue fuel d cs = if v.depth < d then some (v, rest) else none
  | 0, _, _, _, _, _, _, h => by contradiction
  | fuel + 1, d, d', cs, rest, v, hd, h => by
    rw [readValue] at h ⊢
    generalize skipSpace cs = t at h ⊢
    split at h
    · contradiction
    · exact levels_of_word hd rfl h
    · exact levels_of_word hd rfl h
    · exact levels_of_word hd rfl h
    · obtain ⟨⟨s, cs⟩, -, hs⟩ := Option.map_eq_some_iff.1 h
      cases hs
      exact levels_of_depth_eq_zero hd h rfl
    · next t =>
      split at h
      · contradiction
      · generalize skipSpace t = t' at h ⊢
        split at h
        · cases h
          exact levels_of_container 0 fun hd' => (if_pos hd').symm
        · obtain ⟨⟨vs, cs⟩, hvs, hv⟩ := Option.map_eq_some_iff.1 h
          cases hv
          refine levels_of_container (depthAll vs) fun hd' => ?_
          rw [readItems_levels fuel hd' hvs]
          split <;> rfl
    · next t =>
      split at h
      · contradiction
      · generalize skipSpace t = t' at h ⊢
        split at h
        · cases h
          exact levels_of_container 0 fun hd' => (if_pos hd').symm
        · obtain ⟨⟨ms, cs⟩, hms, hm⟩ := Option.map_eq_some_iff.1 h
          cases hm
          refine levels_of_container (depthMembers ms) fun hd' => ?_
          rw [readMembers_levels fuel hd' hms]
          split <;> rfl
    · split at h
      · next hc =>
        rw [if_pos hc]
        exact levels_of_depth_eq_zero hd h (depth_of_readNumber h)
      · contradiction

theorem readItems_levels : ∀ (fuel : Nat) {d d' : Nat} {cs rest : List Char} {vs : List Json},
    0 < d → readItems fuel d' cs = some (vs, rest) →
      readItems fuel d cs = if depthAll vs < d then some (vs, rest) else none
  | 0, _, _, _, _, _, _, h => by contradiction
  | fuel + 1, d, d', cs, rest, vs, hd, h => by
    rw [readItems] at h ⊢
    obtain ⟨⟨v, cs⟩, hv, h⟩ := Option.bind_eq_some_iff.1 h
    rw [readValue_levels fuel hd hv]
    simp only [bind, bind_ite_none] at h ⊢
    generalize skipSpace cs = t at h ⊢
    split at h
    · obtain ⟨⟨vs, cs⟩, hvs, h⟩ := Option.bind_eq_some_iff.1 h
      cases h
      rw [readItems_levels fuel hd hvs, bind_ite_none]
      exact ite_max_lt_none ..
    · cases h
      rw [depthAll, depthAll, Nat.max_zero]
      rfl
    · contradiction

theorem readMembers_levels : ∀ (fuel : Nat) {d d' : Nat} {cs rest : List Char}
    {ms : List (String × Json)}, 0 < d → readMembers fuel d' cs = some (ms, rest) →
      readMembers fuel d cs = if depthMembers ms < d then some (ms, rest) else none
  | 0, _, _, _, _, _, _, h => by contradiction
  | fuel + 1, d, d', cs, rest, vs, hd, h => by
    rw [readMembers] at h ⊢
    generalize skipSpace cs = t at h ⊢
    split at h
    · obtain ⟨⟨key, cs⟩, hkey, h⟩ := Option.bind_eq_some_iff.1 h
      simp only [hkey, bind, Option.bind_some] at h ⊢
      generalize skipSpace cs = t at h ⊢
      split at h
      · obtain ⟨⟨v, cs⟩, hv, h⟩ := Option.bind_eq_some_iff.1 h
        rw [readValue_levels fuel hd hv]
        simp only [bind_ite_none] at h ⊢
        generalize skipSpace cs = t at h ⊢
        split at h
        · obtain ⟨⟨ms, cs⟩, hms, h⟩ := Option.bind_eq_some_iff.1 h
          cases h
          rw [readMembers_levels fuel hd hms, bind_ite_none]
          exact ite_max_lt_none ..
        · cases h
          rw [depthMembers, depthMembers, Nat.max_zero]
          rfl
        · contradiction
      · contradiction
    · contradiction

end

/-- The value that a text consists of if values may have fewer levels than given. -/
def parseWithin? (levels : Nat) (cs : List Char) : Option Json := do
  let (v, rest) ← readValue (2 * cs.length + 2) levels cs
  if (skipSpace rest).isEmpty then return v else none

theorem parseWithin?_maxDepth (cs : List Char) : parseWithin? maxDepth cs = parse? cs :=
  rfl

/-- **A text whose value has too many levels is refused, and every other is read**, whatever the
    number of levels with which its value is told. -/
theorem parse?_of_parseWithin? {levels : Nat} {cs : List Char}
    (h : parseWithin? levels cs = some v) :
    parse? cs = if v.depth < maxDepth then some v else none := by
  obtain ⟨⟨w, rest⟩, hread, h⟩ := Option.bind_eq_some_iff.1 h
  have hlevels := readValue_levels (2 * cs.length + 2) (d := maxDepth) (by decide) hread
  simp only at h
  split at h
  · next hrest =>
    cases h
    rw [parse?, hlevels]
    simp only [bind, bind_ite_none, if_pos hrest]
    rfl
  · contradiction

end Logbook.Json
