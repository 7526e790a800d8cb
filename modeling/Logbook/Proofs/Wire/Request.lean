import Logbook.Proofs.Wire.Filters
import Logbook.Query.Document

set_option autoImplicit false

/-! # Queries on the way between nodes

A remote query whose counts fit into sixty-four bits is received with nothing changed but its
numbers (`RemoteQuery.bind_ofJson?_toJson`), and as it is just if each of its numbers is
(`RemoteQuery.received?_eq_some`). -/

namespace Logbook

open Wire

/-! ## Parts of pipes -/

theorem SortKey.exact_toJson (k : SortKey) : Exact k.toJson :=
  exact_obj (by simp [exact_str, exact_bool])

theorem SortKey.ofJson?_toJson (k : SortKey) : ofJson? k.toJson = some k := by
  simp [toJson, ofJson?, members?, required?, text?, bool?]

theorem StatsKind.ofChoice?_name (k : StatsKind) : ofChoice? (.str k.name) = some k := by
  cases k <;> decide

theorem StatsFunc.exact_toJson (f : StatsFunc) : Exact f.toJson :=
  exact_obj (by simp [exact_str, exact_ofTexts])

theorem StatsFunc.ofJson?_toJson (f : StatsFunc) : ofJson? f.toJson = some f := by
  simp [toJson, ofJson?, members?, required?, text?, StatsKind.ofChoice?_name]

theorem ByField.exact_toJson (b : ByField) : Exact b.toJson := by
  refine exact_obj ?_
  cases b.step <;> simp [optionalMember, exact_str, exact_ofTime]

theorem ByField.ofJson?_toJson (b : ByField) : ofJson? b.toJson = some b := by
  obtain ⟨name, step⟩ := b
  cases step with
  | none => simp [toJson, ofJson?, members?, required?, optional?, optionalMember, text?, nullable?]
  | some d => simp [toJson, ofJson?, members?, required?, optional?, optionalMember, text?]

/-! ## Pipes -/

namespace Pipe

/-- The counts of a pipe fit into sixty-four bits. -/
def Fits : Pipe → Prop
  | .limit n => n < UInt64.size
  | .sort s => ∀ n ∈ s.limit, n < UInt64.size
  | .facets f => f.limit < UInt64.size ∧ f.maxValuesPerField < UInt64.size ∧
    f.maxValueLength < UInt64.size
  | _ => True

/-- The pipe that a pipe is received as. -/
def received? : Pipe → Option Pipe
  | .filter f => f.received?.map .filter
  | p => some p

/-- The numbers that a pipe compares with. -/
def numbers : Pipe → List Float
  | .filter f => f.numbers
  | _ => []

theorem received?_eq_some (p : Pipe) :
    p.received? = some p ↔ ∀ x ∈ p.numbers, Wire.received? x = some x := by
  cases p with
  | filter f => simp [received?, numbers, f.received?_eq_some]
  | _ => simp [received?, numbers]

theorem ofJson?_filter (v : Json) :
    ofJson? (.obj [("pipe", .str "filter"), ("filter", v)])
      = (Filter.read v).filter?.map .filter := by
  simp [ofJson?, required?, text?, ofMembers?, Option.map_eq_bind]

theorem ofJson?_limit (v : Json) :
    ofJson? (.obj [("pipe", .str "limit"), ("limit", v)]) = (count? v).map .limit := by
  simp [ofJson?, required?, text?, ofMembers?, Option.map_eq_bind]

theorem ofJson?_sort (keys limit : Json) (desc : Bool) :
    ofJson? (.obj [("pipe", .str "sort"), ("keys", keys), ("desc", .bool desc), ("limit", limit)])
      = (list? SortKey.ofJson? keys).bind fun keys =>
        (nullable? count? limit).map fun limit => .sort ⟨keys, desc, limit⟩ := by
  simp [ofJson?, required?, optional?, text?, bool?, ofMembers?, Option.map_eq_bind]

theorem ofJson?_facets (limit values length : Json) (keepConst : Bool) :
    ofJson? (.obj [("pipe", .str "facets"), ("limit", limit), ("max_values_per_field", values),
        ("max_value_len", length), ("keep_const_fields", .bool keepConst)])
      = (count? limit).bind fun limit => (count? values).bind fun values =>
        (count? length).map fun length => .facets ⟨limit, values, length, keepConst⟩ := by
  simp [ofJson?, required?, text?, bool?, ofMembers?, Option.map_eq_bind]

/-- A pipe other than a filter reads back. -/
theorem ofJson?_leaf {p : Pipe} (hfits : p.Fits) (hleaf : ∀ f, p ≠ .filter f) :
    Exact p.toJson ∧ ofJson? p.toJson = some p := by
  cases p with
  | filter f => exact absurd rfl (hleaf f)
  | fields names =>
    exact ⟨exact_obj (by simp [exact_str, exact_ofTexts]),
      by simp [toJson, ofJson?, required?, text?, ofMembers?]⟩
  | limit n =>
    have hn : n < UInt64.size := hfits
    exact ⟨exact_obj (by simp [exact_str, exact_ofCount hn]),
      by rw [toJson, ofJson?_limit, count?_ofCount hn]; rfl⟩
  | sort s =>
    obtain ⟨keys, desc, limit⟩ := s
    have hkeys := exact_map SortKey.exact_toJson keys
    have hread : list? SortKey.ofJson? (.arr (keys.map SortKey.toJson)) = some keys :=
      list?_map fun k _ => k.ofJson?_toJson
    cases limit with
    | none =>
      exact ⟨exact_obj (by simp [optionalMember, exact_str, exact_bool, hkeys]), by
        simp [toJson, ofJson?, required?, optional?, optionalMember, text?, ofMembers?, hread,
          bool?, nullable?]⟩
    | some n =>
      have hn := hfits n rfl
      exact ⟨exact_obj (by simp [optionalMember, exact_str, exact_bool, hkeys, exact_ofCount hn]),
        (ofJson?_sort ..).trans (by rw [hread, nullable?_ofCount hn]; rfl)⟩
  | stats s =>
    have hby := exact_map ByField.exact_toJson s.groupBy
    have hfuncs := exact_map StatsFunc.exact_toJson s.funcs
    have hreadBy : list? ByField.ofJson? (.arr (s.groupBy.map ByField.toJson)) = some s.groupBy :=
      list?_map fun b _ => b.ofJson?_toJson
    have hreadFuncs : list? StatsFunc.ofJson? (.arr (s.funcs.map StatsFunc.toJson))
        = some s.funcs := list?_map fun f _ => f.ofJson?_toJson
    exact ⟨exact_obj (by simp [exact_str, hby, hfuncs]),
      by simp [toJson, ofJson?, required?, text?, ofMembers?, hreadBy, hreadFuncs]⟩
  | facets f =>
    obtain ⟨hlimit, hvalues, hlength⟩ := hfits
    exact ⟨exact_obj (by
        simp [exact_str, exact_bool, exact_ofCount hlimit, exact_ofCount hvalues,
          exact_ofCount hlength]),
      by rw [toJson, ofJson?_facets, count?_ofCount hlimit, count?_ofCount hvalues,
        count?_ofCount hlength]; rfl⟩

/-- A pipe is received with its numbers as they are received. -/
theorem bind_ofJson?_toJson {p : Pipe} (h : p.Fits) :
    p.toJson.received?.bind ofJson? = p.received? := by
  by_cases hleaf : ∃ f, p = .filter f
  · obtain ⟨f, rfl⟩ := hleaf
    rw [received?, ← f.bind_ofJson?_toJson, ← f.bind_filter?_read, toJson]
    simp only [Json.received?, Json.receivedMembers?]
    cases f.toJson.received? with
    | none => rfl
    | some v => exact ofJson?_filter v
  · obtain ⟨hexact, hread⟩ := ofJson?_leaf h (not_exists.1 hleaf)
    rw [hexact, Option.bind_some, hread]
    cases p with
    | filter f => exact absurd ⟨f, rfl⟩ hleaf
    | _ => rfl

end Pipe

/-! ## Queries -/

namespace RemoteQuery

/-- The counts of a query fit into sixty-four bits. -/
def Fits (q : RemoteQuery) : Prop :=
  (∀ p ∈ q.pipes, p.Fits) ∧ ∀ p ∈ q.terminal, p.Fits

/-- The query that a query is received as. -/
def received? (q : RemoteQuery) : Option RemoteQuery := do
  let filter ← q.filter.received?
  let pipes ← q.pipes.mapM Pipe.received?
  let terminal ← q.terminal.mapM Pipe.received?
  return { q with filter, pipes, terminal }

/-- The numbers that a query compares with. -/
def numbers (q : RemoteQuery) : List Float :=
  q.filter.numbers ++ q.pipes.flatMap Pipe.numbers ++ q.terminal.toList.flatMap Pipe.numbers

/-- A query is received as it is just if each of its numbers is. -/
theorem received?_eq_some (q : RemoteQuery) :
    q.received? = some q ↔ ∀ x ∈ q.numbers, Wire.received? x = some x := by
  have hterminal : q.terminal.mapM Pipe.received? = some q.terminal ↔
      ∀ x ∈ q.terminal.toList.flatMap Pipe.numbers, Wire.received? x = some x := by
    cases q.terminal with
    | none => simp
    | some p => simp [← p.received?_eq_some, Functor.map]
  rw [numbers, List.forall_mem_append, List.forall_mem_append, ← q.filter.received?_eq_some,
    ← mapM_eq_some_iff Pipe.received?_eq_some, ← hterminal, received?]
  cases q with
  | mk filter pipes terminal lo hi =>
    cases filter.received? <;> cases pipes.mapM Pipe.received? <;>
      cases terminal.mapM Pipe.received? <;> simp [and_assoc]

theorem ofJson?_without_terminal (filter : Json) (pipes : List Json) (lo hi : Int64) :
    ofJson? (.obj [("filter", filter), ("pipes", .arr pipes), ("min_ts", ofTime lo),
        ("max_ts", ofTime hi)])
      = (Filter.ofJson? filter).bind fun filter => (pipes.mapM Pipe.ofJson?).map fun pipes =>
        ⟨filter, pipes, none, lo, hi⟩ := by
  simp [ofJson?, members?, required?, optional?, nullable?, list?, Option.map_eq_bind]

theorem ofJson?_with_terminal (filter terminal : Json) (pipes : List Json) (lo hi : Int64) :
    ofJson? (.obj [("filter", filter), ("pipes", .arr pipes), ("terminal", terminal),
        ("min_ts", ofTime lo), ("max_ts", ofTime hi)])
      = (Filter.ofJson? filter).bind fun filter => (pipes.mapM Pipe.ofJson?).bind fun pipes =>
        (nullable? Pipe.ofJson? terminal).map fun terminal =>
          ⟨filter, pipes, terminal, lo, hi⟩ := by
  simp [ofJson?, members?, required?, optional?, list?, Option.map_eq_bind]

/-- The form of a pipe is received as an object. -/
theorem received?_toJson_ne_null (p : Pipe) : p.toJson.received? ≠ some .null := by
  have hobj : ∃ ms, p.toJson = .obj ms := by
    cases p <;> exact ⟨_, rfl⟩
  obtain ⟨ms, hms⟩ := hobj
  rw [hms, Json.received?]
  cases Json.receivedMembers? ms <;> simp

theorem bind_nullable?_toJson {p : Pipe} (h : p.Fits) :
    p.toJson.received?.bind (nullable? Pipe.ofJson?) = p.received?.map some := by
  rw [← Pipe.bind_ofJson?_toJson h]
  cases hv : p.toJson.received? with
  | none => rfl
  | some v =>
    refine nullable?_of_ne_null Pipe.ofJson? ?_
    rintro rfl
    exact received?_toJson_ne_null p hv

/-- A query is received with its numbers as they are received. -/
theorem bind_ofJson?_toJson {q : RemoteQuery} (h : q.Fits) :
    q.toJson.received?.bind ofJson? = q.received? := by
  obtain ⟨filter, pipes, terminal, lo, hi⟩ := q
  obtain ⟨hpipes, hterminal⟩ := h
  have hlo : (ofTime lo).received? = some (ofTime lo) := exact_ofTime lo
  have hhi : (ofTime hi).received? = some (ofTime hi) := exact_ofTime hi
  rw [received?, ← mapM_receivedAll? fun p hp => Pipe.bind_ofJson?_toJson (hpipes p hp),
    ← filter.bind_ofJson?_toJson, toJson]
  cases terminal with
  | none =>
    simp only [optionalMember, List.append_nil, List.cons_append, List.nil_append, Json.received?,
      Json.receivedMembers?, hlo, hhi]
    cases filter.toJson.received? with
    | none => rfl
    | some f =>
      cases Json.receivedAll? (pipes.map Pipe.toJson) with
      | none => cases hf : Filter.ofJson? f <;> simp [hf]
      | some ps =>
        refine (ofJson?_without_terminal f ps lo hi).trans ?_
        cases hf : Filter.ofJson? f <;> cases hps : ps.mapM Pipe.ofJson? <;> simp [hf, hps]
  | some p =>
    have hmap : (some p).mapM Pipe.received?
        = p.toJson.received?.bind (nullable? Pipe.ofJson?) :=
      (bind_nullable?_toJson (hterminal p rfl)).symm
    rw [hmap]
    simp only [optionalMember, List.cons_append, List.nil_append, Json.received?,
      Json.receivedMembers?, hlo, hhi]
    cases filter.toJson.received? with
    | none => rfl
    | some f =>
      cases Json.receivedAll? (pipes.map Pipe.toJson) with
      | none => cases hf : Filter.ofJson? f <;> simp [hf]
      | some ps =>
        cases p.toJson.received? with
        | none =>
          cases hf : Filter.ofJson? f <;> cases hps : ps.mapM Pipe.ofJson? <;> simp [hf, hps]
        | some t =>
          refine (ofJson?_with_terminal f t ps lo hi).trans ?_
          cases hf : Filter.ofJson? f <;> cases hps : ps.mapM Pipe.ofJson? <;>
            simp [hf, hps, Option.map_eq_bind]

end RemoteQuery

end Logbook
