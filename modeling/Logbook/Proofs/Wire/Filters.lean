import Mathlib.Data.Option.Basic
import Logbook.Proofs.Wire.Values
import Logbook.Query.Wire.Filter

set_option autoImplicit false

/-! # Filters on the way between nodes

A filter is received with nothing changed but its numbers, each of which is received as what its
text reads as (`Filter.bind_ofJson?_toJson`). Filters inside another one are read together with it,
which comes to the same as reading each by itself (`Filter.filter?_read`). -/

namespace Logbook

open Wire

/-! ## Leaves -/

theorem Pattern.ofSource_source (p : Pattern) : ofSource p.source = .ok p := by
  unfold ofSource
  split
  · next regex h =>
    cases p with
    | mk source regex' parse_source => cases h.symm.trans parse_source; rfl
  · next e h => cases h.symm.trans p.parse_source

@[simp] theorem Pattern.ofJson?_source (p : Pattern) : ofJson? (.str p.source) = some p := by
  rw [ofJson?]
  simp [text?, ofSource_source]

theorem CompareOp.ofName?_name (op : CompareOp) : ofName? op.name = some op := by
  cases op <;> decide

theorem StreamOp.ofJson?_toJson (op : StreamOp) : ofJson? op.toJson = some op := by
  cases op <;> simp [toJson, ofJson?, text?]

theorem StreamOp.exact_toJson (op : StreamOp) : Exact op.toJson := by
  cases op <;> exact exact_obj (by simp [exact_str])

theorem StreamMatcher.exact_toJson (m : StreamMatcher) : Exact m.toJson :=
  exact_obj (by simp [exact_str, m.op.exact_toJson])

theorem StreamMatcher.ofJson?_toJson (m : StreamMatcher) : ofJson? m.toJson = some m := by
  simp [toJson, ofJson?, members?, required?, text?, StreamOp.ofJson?_toJson]

namespace Filter

mutual

/-- The filter that a filter is received as: its numbers may have changed. -/
def received? : Filter → Option Filter
  | .and fs => (receivedAll? fs).map .and
  | .or fs => (receivedAll? fs).map .or
  | .not f => (received? f).map .not
  | .range field op x => (Wire.received? x).map (.range field op)
  | f => some f

def receivedAll? : List Filter → Option (List Filter)
  | [] => some []
  | f :: fs => do return (← received? f) :: (← receivedAll? fs)

end

/-! ## Reading filters -/

/-- A filter whose tag is a text reads alike inside another one and by itself. -/
theorem filter?_read (tag : String) (ms : List (String × Json)) :
    (read (.obj (("type", .str tag) :: ms))).filter?
      = ofJson? (.obj (("type", .str tag) :: ms)) := by
  rw [read, ofJson?, ofTagged?, ofTagged?, readMembers, required?, List.filter_cons_of_pos rfl]
  cases (readMembers ms).filter (·.1 == "type") <;> rfl

theorem ofJson?_and (vs : List Json) :
    ofJson? (.obj [("type", .str "and"), ("filters", .arr vs)])
      = ((readItems vs).mapM Reading.filter?).map .and := by
  simp [ofJson?, ofTagged?, readMembers, required?, read, text?, ofMembers?, Option.map_eq_bind]

theorem ofJson?_or (vs : List Json) :
    ofJson? (.obj [("type", .str "or"), ("filters", .arr vs)])
      = ((readItems vs).mapM Reading.filter?).map .or := by
  simp [ofJson?, ofTagged?, readMembers, required?, read, text?, ofMembers?, Option.map_eq_bind]

theorem ofJson?_not (v : Json) :
    ofJson? (.obj [("type", .str "not"), ("filter", v)]) = (read v).filter?.map .not := by
  simp [ofJson?, ofTagged?, readMembers, required?, read, text?, ofMembers?, Option.map_eq_bind]

theorem value_read (v : Json) : (read v).value = v := by
  cases v <;> rfl

theorem ofJson?_range (field : String) (op : CompareOp) (v : Json) :
    ofJson? (.obj [("type", .str "range"), ("field", .str field), ("op", .str op.name),
        ("value", v)])
      = (float? v).map (.range field op) := by
  simp [ofJson?, ofTagged?, readMembers, required?, read, text?, ofMembers?, ofMembers?.field,
    innerChoice?, choice?, CompareOp.ofName?_name, Option.map_eq_bind, value_read]

/-- Whether a filter has neither inner filters nor a number. -/
def isLeaf : Filter → Bool
  | .and _ | .or _ | .not _ | .range .. => false
  | _ => true

theorem ofJson?_leaf {f : Filter} (h : f.isLeaf = true) :
    Exact f.toJson ∧ ofJson? f.toJson = some f := by
  have hread : ∀ ms : List StreamMatcher, list? StreamMatcher.ofJson?
      (.arr (ms.map StreamMatcher.toJson)) = some ms := fun ms =>
    list?_map fun m _ => m.ofJson?_toJson
  cases f with
  | and | or | not | range => contradiction
  | stream ms =>
    refine ⟨exact_obj ?_, ?_⟩
    · simp only [List.forall_mem_cons]
      exact ⟨exact_str _, exact_map StreamMatcher.exact_toJson ms, nofun⟩
    · simp [toJson, ofJson?, ofTagged?, readMembers, required?, text?, ofMembers?, value_read,
        hread]
  | _ =>
    refine ⟨exact_obj ?_, ?_⟩
    · simp [exact_str, exact_ofTime, exact_ofTexts]
    · simp [toJson, ofJson?, ofTagged?, readMembers, required?, text?, ofMembers?, ofMembers?.field,
        value_read]

/-! ## Sending filters -/

theorem toJson_tagged (f : Filter) : ∃ tag ms, f.toJson = .obj (("type", .str tag) :: ms) := by
  cases f <;> exact ⟨_, _, rfl⟩

/-- The form of a filter is received as a filter with the same tag, which reads alike inside another
    filter and by itself. -/
theorem bind_filter?_read (f : Filter) :
    (f.toJson.received?.bind fun v => (read v).filter?) = f.toJson.received?.bind ofJson? := by
  obtain ⟨tag, ms, htag⟩ := f.toJson_tagged
  rw [htag]
  simp only [Json.received?, Json.receivedMembers?]
  cases Json.receivedMembers? ms with
  | none => rfl
  | some ms => exact filter?_read tag ms

theorem bind_ofJson?_leaf {f : Filter} (h : f.isLeaf = true) :
    f.toJson.received?.bind ofJson? = f.received? := by
  obtain ⟨hexact, hread⟩ := ofJson?_leaf h
  rw [hexact, Option.bind_some, hread]
  cases f <;> first | rfl | contradiction

mutual

/-- A filter is received with its numbers as they are received. -/
theorem bind_ofJson?_toJson (f : Filter) : f.toJson.received?.bind ofJson? = f.received? := by
  match f with
  | .and fs =>
    rw [received?, ← mapM_filter?_toJsonAll fs, toJson]
    simp only [Json.received?, Json.receivedMembers?]
    cases Json.receivedAll? (toJsonAll fs) with
    | none => rfl
    | some vs => exact ofJson?_and vs
  | .or fs =>
    rw [received?, ← mapM_filter?_toJsonAll fs, toJson]
    simp only [Json.received?, Json.receivedMembers?]
    cases Json.receivedAll? (toJsonAll fs) with
    | none => rfl
    | some vs => exact ofJson?_or vs
  | .not f =>
    have hinner := bind_ofJson?_toJson f
    rw [← bind_filter?_read] at hinner
    rw [received?, ← hinner, toJson]
    simp only [Json.received?, Json.receivedMembers?]
    cases f.toJson.received? with
    | none => rfl
    | some v => exact ofJson?_not v
  | .range field op x =>
    rw [received?, Wire.received?, toJson]
    simp only [Json.received?, Json.receivedMembers?]
    cases (ofFloat x).received? with
    | none => rfl
    | some v => exact ofJson?_range field op v
  | .all | .phrase .. | .startsWith .. | .exact .. | .isIn .. | .regex .. | .time .. | .stream _ =>
    exact bind_ofJson?_leaf rfl

theorem mapM_filter?_toJsonAll (fs : List Filter) :
    ((Json.receivedAll? (toJsonAll fs)).bind fun vs => (readItems vs).mapM Reading.filter?)
      = receivedAll? fs := by
  match fs with
  | [] => rfl
  | f :: fs =>
    rw [receivedAll?, ← bind_ofJson?_toJson f, ← bind_filter?_read, ← mapM_filter?_toJsonAll fs,
      toJsonAll, Json.receivedAll?]
    cases f.toJson.received? with
    | none => rfl
    | some v =>
      cases Json.receivedAll? (toJsonAll fs) with
      | none => cases h : (read v).filter? <;> simp [h]
      | some vs => simp [readItems, List.mapM_cons]

end

/-! ## Numbers in filters -/

mutual

/-- The numbers that a filter compares with. -/
def numbers : Filter → List Float
  | .and fs => numbersAll fs
  | .or fs => numbersAll fs
  | .not f => numbers f
  | .range _ _ x => [x]
  | _ => []

def numbersAll : List Filter → List Float
  | [] => []
  | f :: fs => numbers f ++ numbersAll fs

end

mutual

/-- A filter is received as it is just if each of its numbers is. -/
theorem received?_eq_some (f : Filter) :
    f.received? = some f ↔ ∀ x ∈ f.numbers, Wire.received? x = some x := by
  match f with
  | .and fs => simp [received?, numbers, receivedAll?_eq_some fs]
  | .or fs => simp [received?, numbers, receivedAll?_eq_some fs]
  | .not f => simp [received?, numbers, received?_eq_some f]
  | .range field op x => simp [received?, numbers]
  | .all | .phrase .. | .startsWith .. | .exact .. | .isIn .. | .regex .. | .time .. | .stream _ =>
    simp [received?, numbers]

theorem receivedAll?_eq_some (fs : List Filter) :
    receivedAll? fs = some fs ↔ ∀ x ∈ numbersAll fs, Wire.received? x = some x := by
  match fs with
  | [] => simp [receivedAll?, numbersAll]
  | f :: fs =>
    rw [numbersAll, List.forall_mem_append, ← received?_eq_some f, ← receivedAll?_eq_some fs,
      receivedAll?]
    cases received? f <;> cases receivedAll? fs <;> simp

end

end Filter

end Logbook
