import Logbook.Ingest.JsonLines
import Logbook.Proofs.Ingest.KeyPaths
import Logbook.Proofs.Json.Levels

set_option autoImplicit false

/-! # The limit of nesting in JSON lines

Objects are flattened and arrays are only checked, each with a count of its own, but the limit is
one: a line is skipped as too deep if any value in it lies more than `JsonLines.maxDepth` levels
below the line's object, through whatever arrays and objects it is reached. Every other line gives
the fields of the values that objects alone lead to (**`JsonLines.readLine_of_nested`**). -/

namespace Logbook

namespace Json

mutual

/-- The values inside a value that are no objects and that objects alone lead to, in the order of
    the text, each with its keys. -/
def leaves : Json → List (List String × Json)
  | .obj members => leavesOf members
  | v => [([], v)]

def leavesOf : List (String × Json) → List (List String × Json)
  | [] => []
  | (key, v) :: rest => below key v.leaves ++ leavesOf rest

end

/-- The text of a value as a field: a string is its own text, and neither nulls nor empty strings
    become fields. -/
def fieldText? : Json → Option String
  | .null => none
  | .str s => if s.isEmpty then none else some s
  | v => some v.render

end Json

namespace JsonLines

open Json (Inside leaves leavesOf fieldText?)

/-! ## The limit -/

mutual

theorem fits_iff (depth : Nat) (v : Json) :
    fits depth v = true ↔ ∀ n x, v.Inside n x → depth + n ≤ maxDepth := by
  cases v with
  | arr items =>
    simp only [fits, Bool.and_eq_true, decide_eq_true_eq, fitsItems_iff (depth + 1) items,
      Json.forall_inside_arr (p := (depth + · ≤ maxDepth)), Nat.add_zero, Nat.add_right_comm,
      Nat.add_assoc]
  | obj members =>
    simp only [fits, Bool.and_eq_true, decide_eq_true_eq, fitsMembers_iff (depth + 1) members,
      Json.forall_inside_obj (p := (depth + · ≤ maxDepth)), Nat.add_zero, Nat.add_right_comm,
      Nat.add_assoc]
  | _ =>
    simp only [fits, decide_eq_true_eq]
    exact (Json.forall_inside_of_depth_eq_zero (p := (depth + · ≤ maxDepth)) rfl).symm

theorem fitsItems_iff (depth : Nat) (items : List Json) :
    fitsItems depth items = true ↔ ∀ v ∈ items, ∀ n x, v.Inside n x → depth + n ≤ maxDepth := by
  cases items with
  | nil => simp [fitsItems]
  | cons v rest =>
    rw [fitsItems, Bool.and_eq_true, fits_iff depth v, fitsItems_iff depth rest]
    simp

theorem fitsMembers_iff (depth : Nat) (members : List (String × Json)) :
    fitsMembers depth members = true ↔
      ∀ m ∈ members, ∀ n x, m.2.Inside n x → depth + n ≤ maxDepth := by
  cases members with
  | nil => simp [fitsMembers]
  | cons m rest =>
    obtain ⟨key, v⟩ := m
    rw [fitsMembers, Bool.and_eq_true, fits_iff depth v, fitsMembers_iff depth rest]
    simp

end

/-- Arrays and objects that alternate, up to the limit and beyond it. -/
example :
    fits 1 (.arr [Nat.repeat (fun v => .obj [("k", .arr [v])]) 15 .null]) = true ∧
      fits 1 (Nat.repeat (fun v => .obj [("k", .arr [v])]) 16 .null) = false := by
  decide

/-! ## Flattening -/

/-- The fields of values that are no objects. -/
def leafFields (nameOf : List String → String) (leaves : List (List String × Json)) : List Field :=
  leaves.filterMap fun leaf => (fieldText? leaf.2).map (⟨nameOf leaf.1, ·⟩)

theorem leafFields_append (nameOf : List String → String) (as bs : List (List String × Json)) :
    leafFields nameOf (as ++ bs) = leafFields nameOf as ++ leafFields nameOf bs :=
  List.filterMap_append

theorem leafFields_below (nameOf : List String → String) (key : String)
    (leaves : List (List String × Json)) :
    leafFields nameOf (below key leaves)
      = leafFields (fun path => nameOf (key :: path)) leaves := by
  rw [leafFields, below, List.filterMap_map]
  rfl

theorem leaf_eq (name : String) (v : Json) :
    flatten.leaf name v = leafFields (fun path => dotted (name :: path)) [([], v)] := by
  cases v with
  | str s =>
    by_cases h : s = "" <;> simp [flatten.leaf, leafFields, fieldText?, dotted_singleton, h]
  | _ => simp [flatten.leaf, leafFields, fieldText?, dotted_singleton]

mutual

theorem flatten_eq (depth : Nat) (name : String) (v : Json) :
    flatten depth name v = if fits depth v then
      .ok (leafFields (fun path => dotted (name :: path)) v.leaves) else .error .tooDeep := by
  cases v with
  | obj members =>
    rw [flatten, flattenMembers_eq (depth + 1) name members, fits, leaves]
    by_cases hdepth : depth ≤ maxDepth <;> simp [hdepth]
  | _ => simp only [flatten, leaf_eq, leaves]

theorem flattenMembers_eq (depth : Nat) (name : String) (members : List (String × Json)) :
    flattenMembers depth name members = if fitsMembers depth members then
      .ok (leafFields (fun path => dotted (name :: path)) (leavesOf members))
        else .error .tooDeep := by
  cases members with
  | nil => rfl
  | cons m rest =>
    obtain ⟨key, v⟩ := m
    rw [flattenMembers, flatten_eq depth _ v, flattenMembers_eq depth name rest, fitsMembers,
      leavesOf, leafFields_append, leafFields_below]
    simp only [dotted_join_cons]
    cases fits depth v <;> cases fitsMembers depth rest <;> rfl

end

theorem foldlM_addMember (members : List (String × Json)) (row : DecodedRow) :
    members.foldlM (addMember none) row = if fitsMembers 1 members then
      .ok { row with otherFields := row.otherFields ++ leafFields dotted (leavesOf members) }
        else .error .tooDeep := by
  induction members generalizing row with
  | nil => simp [fitsMembers, leafFields, leavesOf, pure, Except.pure]
  | cons m rest ih =>
    obtain ⟨key, v⟩ := m
    have hmember : addMember none row (key, v) = if fits 1 v then
        .ok { row with otherFields := row.otherFields
          ++ leafFields (fun path => dotted (key :: path)) v.leaves } else .error .tooDeep := by
      rw [addMember, if_neg (by simp), flatten_eq]
      cases fits 1 v <;> rfl
    rw [List.foldlM_cons, hmember, fitsMembers, leavesOf, leafFields_append, leafFields_below]
    cases fits 1 v with
    | false => rfl
    | true =>
      simp only [bind, Except.bind, if_true, Bool.true_and, ih, List.append_assoc]

/-! ## Lines -/

theorem ofMembers_of_no_time {timeFields : List String} {members : List (String × Json)}
    (h : ∀ key ∈ timeFields, key ∉ members.map (·.1)) :
    ofMembers timeFields members = if fitsMembers 1 members then
      .ok ⟨none, [], leafFields dotted (leavesOf members)⟩ else .error .tooDeep := by
  have hfind : (timeFields.find? fun key => members.any (·.1 == key)) = none := by
    refine List.find?_eq_none.2 fun key hkey hany => h key hkey ?_
    obtain ⟨m, hm, heq⟩ := List.any_eq_true.1 hany
    exact List.mem_map.2 ⟨m, hm, beq_iff_eq.1 heq⟩
  rw [ofMembers, hfind, foldlM_addMember]
  rfl

theorem fitsMembers_one_iff {members : List (String × Json)} :
    fitsMembers 1 members = true ↔ ∀ n x, (Json.obj members).Inside n x → n ≤ maxDepth := by
  rw [fitsMembers_iff, Json.forall_inside_obj (p := (· ≤ maxDepth))]
  simp only [Nat.zero_le, true_and, Nat.add_comm 1]

/-- **One limit on every path.** Take a line whose text is an object without a time field, however
    many levels reading it takes. If the reader gets through it, the line is too deep exactly if
    some value inside the object lies deeper than the limit, and gives its fields otherwise. If the
    reader does not, the text is refused for nothing but its nesting, and there is such a value. -/
theorem readLine_of_nested {timeFields : List String} {line : Bytes} {s : String} {levels : Nat}
    {v : Json} {members : List (String × Json)} (htext : Bytes.toString? line = some s)
    (hread : Json.parseWithin? levels s.toList = some v) (hobject : v.resolve = .obj members)
    (htime : ∀ key ∈ timeFields, key ∉ members.map (·.1)) :
    (v.depth < Json.maxDepth →
      (readLine timeFields line = .error .tooDeep
        ↔ ∃ n x, (Json.obj members).Inside n x ∧ maxDepth < n) ∧
      ((∀ n x, (Json.obj members).Inside n x → n ≤ maxDepth) →
        readLine timeFields line = .ok ⟨none, [], leafFields dotted (leavesOf members)⟩)) ∧
    (Json.maxDepth ≤ v.depth →
      readLine timeFields line = .error .malformed ∧ ∃ n x, v.Inside n x ∧ maxDepth < n) := by
  have hparse := Json.parse?_of_parseWithin? hread
  constructor
  · intro hdepth
    rw [if_pos hdepth] at hparse
    have hline : readLine timeFields line = ofMembers timeFields members := by
      simp only [readLine, htext, Option.bind_some, hparse, hobject]
    rw [hline, ofMembers_of_no_time htime]
    by_cases hfits : fitsMembers 1 members = true
    · rw [if_pos hfits]
      rw [fitsMembers_one_iff] at hfits
      exact ⟨iff_of_false nofun fun ⟨n, x, hx, hn⟩ => Nat.not_lt.2 (hfits n x hx) hn, fun _ => rfl⟩
    · rw [if_neg hfits]
      rw [fitsMembers_one_iff] at hfits
      refine ⟨iff_of_true rfl ?_, fun h => absurd h hfits⟩
      by_contra hnone
      exact hfits fun n x hx => Nat.not_lt.1 fun hn => hnone ⟨n, x, hx, hn⟩
  · intro hdepth
    rw [if_neg (Nat.not_lt.2 hdepth)] at hparse
    have hlt : maxDepth + 1 < v.depth := Nat.lt_of_lt_of_le (by decide) hdepth
    obtain ⟨x, hx⟩ := Json.exists_inside hlt
    refine ⟨?_, maxDepth + 1, x, hx, Nat.lt_succ_self maxDepth⟩
    simp only [readLine, htext, Option.bind_some, hparse]

/-- An array inside an object, and an empty text. -/
def sampleMembers : List (String × Json) :=
  [("a", .obj [("b", .arr [.bool true])]), ("c", .str "")]

theorem nested_array_read :
    readLine ["t"] (Bytes.ofString (Json.obj sampleMembers).render)
      = .ok ⟨none, [], [⟨"a.b", "[true]"⟩]⟩ := by
  have hread : Json.parseWithin? Json.maxDepth (Json.obj sampleMembers).render.toList
      = some (.obj sampleMembers) := by
    rw [Json.parseWithin?_maxDepth, Json.render, String.toList_ofList, Json.parse?_renderChars]
    rfl
  have hobject : (Json.obj sampleMembers).resolve = .obj sampleMembers := rfl
  have htime : ∀ key ∈ ["t"], key ∉ sampleMembers.map (·.1) := by decide
  have hfields : leafFields dotted (leavesOf sampleMembers) = [⟨"a.b", "[true]"⟩] := by
    decide +kernel
  have hline := readLine_of_nested (Bytes.toString?_ofString _) hread hobject htime
  rw [← hfields]
  exact (hline.1 (by decide)).2 (fitsMembers_one_iff.1 rfl)

end JsonLines

end Logbook
