import Mathlib.Data.Option.Basic
import Logbook.Proofs.Query.Facets
import Logbook.Proofs.Query.Stats
import Logbook.Proofs.Wire.Values
import Logbook.Query.Wire.Result

set_option autoImplicit false

/-! # Partial results on the way between nodes

A partial result that was collected from rows is received with nothing changed but its numbers
(`PartialResult.bind_ofJson?_toJson`), and as it is just if each of its numbers is
(`PartialResult.received?_eq_some`). Groups and counts travel as lists, which are put together again
into what they were because they are in order. -/

namespace Logbook

open Wire

/-! ## Rows -/

theorem Field.exact_toJson (f : Field) : Exact f.toJson :=
  exact_obj (by simp [exact_str])

theorem Field.ofJson?_toJson (f : Field) : ofJson? f.toJson = some f := by
  simp [toJson, ofJson?, members?, required?, text?]

theorem QueryRow.exact_toWire (r : QueryRow) : Exact r.toWire := by
  have hfields := exact_map Field.exact_toJson r.fields
  refine exact_obj ?_
  cases r.timestamp <;> simp [optionalMember, exact_ofTime, hfields]

theorem QueryRow.ofWire?_toWire (r : QueryRow) : ofWire? r.toWire = some r := by
  obtain ⟨timestamp, fields⟩ := r
  have hfields : list? Field.ofJson? (.arr (fields.map Field.toJson)) = some fields :=
    list?_map fun f _ => f.ofJson?_toJson
  cases timestamp with
  | none =>
    simp [toWire, ofWire?, members?, required?, optional?, optionalMember, nullable?, hfields]
  | some t => simp [toWire, ofWire?, members?, required?, optional?, optionalMember, hfields]

/-! ## States -/

namespace StatsState

open SortedMap (Sorted)

/-- The counts of a state fit into sixty-four bits, and its distinct values are in order. -/
def Fits : StatsState → Prop
  | .count n => n < UInt64.size
  | .countUniq values => Sorted values
  | .avg _ n => n < UInt64.size
  | _ => True

theorem fits_ofRows (f : StatsFunc) (rows : List QueryRow) : (ofRows f rows).Fits := by
  rw [ofRows_eq]
  cases f.kind with
  | count | avg => exact Nat.mod_lt _ (by decide)
  | countUniq => exact sorted_foldl_insertValue SortedMap.sorted_nil _
  | sum | min | max => trivial

/-- The number that a number is received as, if there is one: a number that is not finite is taken
    for none. -/
def receivedNumber? (x : Option Float) : Option (Option Float) :=
  ((x.map ofFloat).getD .null).received?.bind (nullable? float?)

/-- The state that a state is received as. -/
def received? : StatsState → Option StatsState
  | .sum x => (receivedNumber? x).map .sum
  | .min x => (receivedNumber? x).map .min
  | .max x => (receivedNumber? x).map .max
  | .avg total n => (Wire.received? total).map (.avg · n)
  | s => some s

/-- The numbers in a state. -/
def numbers : StatsState → List Float
  | .sum x | .min x | .max x => x.toList
  | .avg total _ => [total]
  | _ => []

theorem receivedNumber?_eq_some (x : Option Float) :
    receivedNumber? x = some x ↔ ∀ y ∈ x.toList, Wire.received? y = some y := by
  cases x with
  | none => simp [receivedNumber?, Json.received?, nullable?]
  | some y =>
    simp only [receivedNumber?, Wire.received?, Option.map_some, Option.getD_some,
      Option.toList_some, List.forall_mem_singleton]
    cases (ofFloat y).received? with
    | none => simp
    | some v => cases v <;> simp [nullable?, float?]

theorem received?_eq_some (s : StatsState) :
    s.received? = some s ↔ ∀ x ∈ s.numbers, Wire.received? x = some x := by
  cases s with
  | sum x | min x | max x =>
    rw [numbers, ← receivedNumber?_eq_some]
    simp [received?]
  | avg total n => simp [received?, numbers]
  | count n | countUniq values => simp [received?, numbers]

theorem bind_nullable?_float? {make : Option Float → StatsState} {key : String} {x : Option Float}
    (hread : ∀ v, ofJson? (.obj [(key, v)]) = (nullable? float? v).map make) :
    (Json.received? (.obj [(key, (x.map ofFloat).getD .null)])).bind ofJson?
      = (receivedNumber? x).map make := by
  simp only [Json.received?, Json.receivedMembers?, receivedNumber?]
  cases ((x.map ofFloat).getD .null).received? with
  | none => rfl
  | some v => exact hread v

theorem ofJson?_avg (total n : Json) :
    ofJson? (.obj [("avg", .obj [("sum", total), ("count", n)])])
      = (float? total).bind fun total => (count? n).map (.avg total) := by
  simp [ofJson?, members?, required?, Option.map_eq_bind]

/-- A state is received with its numbers as they are received. -/
theorem bind_ofJson?_toJson {s : StatsState} (h : s.Fits) :
    s.toJson.received?.bind ofJson? = s.received? := by
  cases s with
  | count n =>
    have hn : n < UInt64.size := h
    have hexact : Exact (.obj [("count", ofCount n)]) := exact_obj (by simp [exact_ofCount hn])
    rw [toJson, hexact, Option.bind_some, ofJson?, count?_ofCount hn]
    rfl
  | countUniq values =>
    have htexts : Exact (.arr (values.map fun v => ofTexts v.1)) :=
      exact_map (fun v => exact_ofTexts v.1) values
    have hexact : Exact (.obj [("count_uniq", .arr (values.map fun v => ofTexts v.1))]) :=
      exact_obj (by simp [htexts])
    have hread : list? (list? text?) (.arr (values.map fun v => ofTexts v.1))
        = some (values.map (·.1)) := by
      have hmap : list? (list? text?) (.arr ((values.map (·.1)).map ofTexts))
          = some (values.map (·.1)) := list?_map fun v _ => list?_ofTexts v
      rwa [List.map_map] at hmap
    have hvalues : (values.map (·.1)).foldl insertValue [] = values := by
      have hfold := SortedMap.foldl_insert_eq_append (a := []) (b := values) h
      rw [List.foldl_map]
      exact hfold
    rw [toJson, hexact, Option.bind_some, ofJson?, hread]
    exact congrArg (some <| countUniq ·) hvalues
  | sum x => exact bind_nullable?_float? fun v => rfl
  | min x => exact bind_nullable?_float? fun v => rfl
  | max x => exact bind_nullable?_float? fun v => rfl
  | avg total n =>
    have hn : n < UInt64.size := h
    have hexact : (ofCount n).received? = some (ofCount n) := exact_ofCount hn
    rw [toJson, received?, Wire.received?]
    simp only [Json.received?, Json.receivedMembers?, hexact]
    cases (ofFloat total).received? with
    | none => rfl
    | some v =>
      refine (ofJson?_avg v (ofCount n)).trans ?_
      rw [count?_ofCount hn, Option.bind_some]
      cases float? v <;> rfl

end StatsState

/-! ## Groups -/

namespace PartialStats

open SortedMap (Sorted)

/-- The groups are in order, and their states fit. -/
structure Fits (p : PartialStats) : Prop where
  sorted : Sorted p
  states : ∀ g ∈ p, ∀ s ∈ g.2, s.Fits

theorem fits_ofRows (pipe : StatsPipe) (rows : List QueryRow) : Fits (ofRows pipe rows) where
  sorted := sorted_ofRows pipe rows
  states := by
    rintro ⟨key, states⟩ hg s hs
    rw [SortedMap.mem_iff_get? (sorted_ofRows pipe rows), get?_ofRows] at hg
    split at hg
    · cases hg
    · cases hg
      obtain ⟨f, -, rfl⟩ := List.mem_map.1 hs
      exact StatsState.fits_ofRows f _

/-- The group that a group is received as. -/
def receivedGroup? (g : List String × List StatsState) : Option (List String × List StatsState) :=
  (g.2.mapM StatsState.received?).map (g.1, ·)

/-- The groups that groups are received as. -/
def received? (p : PartialStats) : Option PartialStats :=
  p.mapM receivedGroup?

/-- The numbers in groups. -/
def numbers (p : PartialStats) : List Float :=
  p.flatMap fun g => g.2.flatMap StatsState.numbers

theorem received?_eq_some (p : PartialStats) :
    p.received? = some p ↔ ∀ x ∈ p.numbers, Wire.received? x = some x := by
  refine mapM_eq_some_iff (fun g => ?_) p
  rw [← mapM_eq_some_iff StatsState.received?_eq_some, receivedGroup?]
  obtain ⟨key, states⟩ := g
  simp

theorem groupOfJson?_obj (keys : List String) (states : List Json) :
    groupOfJson? (.obj [("keys", ofTexts keys), ("states", .arr states)])
      = (states.mapM StatsState.ofJson?).map (keys, ·) := by
  have hstates : list? StatsState.ofJson? (.arr states) = states.mapM StatsState.ofJson? := rfl
  simp [groupOfJson?, members?, required?, hstates, Option.map_eq_bind]

theorem bind_groupOfJson? {g : List String × List StatsState} (h : ∀ s ∈ g.2, s.Fits) :
    (groupToJson g).received?.bind groupOfJson? = receivedGroup? g := by
  have hkeys : (ofTexts g.1).received? = some (ofTexts g.1) := exact_ofTexts g.1
  rw [receivedGroup?, ← mapM_receivedAll? fun s hs => StatsState.bind_ofJson?_toJson (h s hs),
    groupToJson]
  simp only [Json.received?, Json.receivedMembers?, hkeys]
  cases Json.receivedAll? (g.2.map StatsState.toJson) with
  | none => rfl
  | some states => exact groupOfJson?_obj g.1 states

/-- Groups in order are merged into nothing but themselves. -/
theorem mergeGroups_eq_append {p q : PartialStats} (h : Sorted (p ++ q)) :
    mergeGroups p q = (p ++ q, none) := by
  induction q generalizing p with
  | nil => rw [mergeGroups, List.append_nil]
  | cons e rest ih =>
    obtain ⟨key, states⟩ := e
    rw [mergeGroups, mergeGroup, SortedMap.get?_eq_none_of_gt h.lt_of_append]
    dsimp only
    rw [SortedMap.insert, SortedMap.alter_eq_append h.lt_of_append, ih (by simpa using h),
      List.append_assoc]
    rfl

/-- Groups are received under the keys under which they were sent. -/
theorem map_keys_received? {p q : PartialStats} (h : p.received? = some q) :
    q.map (·.1) = p.map (·.1) := by
  unfold received? at h
  induction p generalizing q with
  | nil =>
    cases h
    rfl
  | cons g rest ih =>
    rw [List.mapM_cons] at h
    cases hg : receivedGroup? g with
    | none =>
      rw [hg] at h
      cases h
    | some g' =>
      cases hrest : rest.mapM receivedGroup? with
      | none =>
        rw [hg, hrest] at h
        cases h
      | some rest' =>
        rw [hg, hrest] at h
        cases h
        have hkey : g'.1 = g.1 := by
          obtain ⟨states, -, rfl⟩ := Option.map_eq_some_iff.1 hg
          rfl
        rw [List.map_cons, List.map_cons, ih hrest, hkey]

/-- What arrives are the groups with their numbers as they are received, yet to be merged. -/
theorem bind_ofJson?_eq_bind_merge {p : PartialStats} (h : p.Fits) :
    p.toJson.received?.bind ofJson? = p.received?.bind fun q => match mergeGroups [] q with
      | (m, none) => some m
      | (_, some _) => none := by
  have hmapM : (Json.receivedAll? (p.map groupToJson)).bind (·.mapM groupOfJson?) = p.received? :=
    mapM_receivedAll? fun g hg => bind_groupOfJson? (h.states g hg)
  rw [← hmapM, toJson, Json.received?]
  cases Json.receivedAll? (p.map groupToJson) <;> rfl

/-- Groups are received with their numbers as they are received. -/
theorem bind_ofJson?_toJson {p : PartialStats} (h : p.Fits) :
    p.toJson.received?.bind ofJson? = p.received? := by
  rw [bind_ofJson?_eq_bind_merge h]
  cases hreceived : p.received? with
  | none => rfl
  | some q =>
    have hsorted : Sorted q := by
      rw [SortedMap.sorted_iff_keys, map_keys_received? hreceived]
      exact SortedMap.sorted_iff_keys.1 h.sorted
    have hmerge := mergeGroups_eq_append (p := []) (q := q) hsorted
    rw [Option.bind_some, hmerge]
    rfl

end PartialStats

/-! ## Counts of values -/

namespace PartialFacets

open SortedMap (Sorted)

/-- How often values occur fits into sixty-four bits. -/
def HitsFit (values : SortedMap String Nat) : Prop :=
  ∀ v ∈ values, v.2 < UInt64.size

/-- The counts fit into sixty-four bits, and fields and values are in order. -/
structure Fits (p : PartialFacets) : Prop where
  rows : p.rows < UInt64.size
  sorted : Sorted p.fields
  sorted_values : ∀ e ∈ p.fields, Sorted e.2
  hits : ∀ e ∈ p.fields, HitsFit e.2

theorem hitsFit_addField {fields : SortedMap String (SortedMap String Nat)}
    (h : ∀ e ∈ fields, HitsFit e.2) (pipe : FacetsPipe) (f : Field) :
    ∀ e ∈ addField pipe fields f, HitsFit e.2 := by
  unfold addField
  split
  · exact h
  · refine SortedMap.forall_mem_alter (P := HitsFit) h f.name fun old hold => ?_
    refine SortedMap.forall_mem_alter (P := (· < UInt64.size)) ?_ _ fun _ _ => addHits_lt _ _
    cases old with
    | none => exact nofun
    | some values => exact hold values rfl

theorem hitsFit_addRows {p : PartialFacets} (h : ∀ e ∈ p.fields, HitsFit e.2) (pipe : FacetsPipe)
    (rows : List QueryRow) : ∀ e ∈ (addRows p pipe rows).fields, HitsFit e.2 := by
  have hfields : ∀ (fs : List Field) {fields : SortedMap String (SortedMap String Nat)},
      (∀ e ∈ fields, HitsFit e.2) → ∀ e ∈ fs.foldl (addField pipe) fields, HitsFit e.2 := by
    intro fs
    induction fs with
    | nil => exact fun h => h
    | cons f rest ih => exact fun h => ih (hitsFit_addField h pipe f)
  induction rows generalizing p with
  | nil => exact h
  | cons row rest ih => exact ih (hfields row.fields h)

theorem fits_addRows (pipe : FacetsPipe) (rows : List QueryRow) :
    (addRows .empty pipe rows).Fits := by
  obtain ⟨hrows, hsorted, hvalues⟩ := wellFormed_addRows wellFormed_empty pipe rows
  exact ⟨hrows, hsorted, fun e he => hvalues ((SortedMap.mem_iff_get? hsorted).1 he),
    hitsFit_addRows (fun e he => absurd he List.not_mem_nil) pipe rows⟩

theorem mapOfJson?_map {α : Type} (write : α → Json) {read : Json → Option α}
    {m : SortedMap String α} (hm : Sorted m) (h : ∀ e ∈ m, read (write e.2) = some e.2) :
    mapOfJson? read (.obj (m.map fun e => (e.1, write e.2))) = some m := by
  have hentries : (m.map fun e => (e.1, write e.2)).mapM
      (fun e : String × Json => (read e.2).map (e.1, ·)) = some m := by
    rw [List.mapM_map]
    refine (mapM_eq_some (g := id) fun e he => ?_).trans (congrArg some m.map_id)
    rw [Function.comp_apply, h e he]
    rfl
  have hfold := SortedMap.foldl_insert_eq_append (a := []) (b := m) hm
  rw [mapOfJson?]
  refine (congrArg (Option.bind · _) hentries).trans ?_
  exact congrArg some hfold

theorem exact_toJson {p : PartialFacets} (h : p.Fits) : Exact p.toJson := by
  have hvalues : ∀ e ∈ p.fields, Exact (.obj (e.2.map fun v => (v.1, ofCount v.2))) := by
    intro e he
    refine exact_obj fun m hm => ?_
    obtain ⟨v, hv, rfl⟩ := List.mem_map.1 hm
    exact exact_ofCount (h.hits e he v hv)
  have hfields : Exact (.obj (p.fields.map fun e =>
      (e.1, .obj (e.2.map fun v => (v.1, ofCount v.2))))) := by
    refine exact_obj fun m hm => ?_
    obtain ⟨e, he, rfl⟩ := List.mem_map.1 hm
    exact hvalues e he
  have hrows := exact_ofCount h.rows
  refine exact_obj ?_
  rw [List.forall_mem_cons, List.forall_mem_singleton]
  exact ⟨hrows, hfields⟩

theorem ofJson?_obj (rows fields : Json) :
    ofJson? (.obj [("rows", rows), ("fields", fields)])
      = (count? rows).bind fun rows =>
        (mapOfJson? (mapOfJson? count?) fields).map fun fields => ⟨rows, fields⟩ := by
  simp [ofJson?, members?, required?, Option.map_eq_bind]

theorem ofJson?_toJson {p : PartialFacets} (h : p.Fits) : ofJson? p.toJson = some p := by
  have hvalues : ∀ e ∈ p.fields, mapOfJson? count?
      (.obj (e.2.map fun v => (v.1, ofCount v.2))) = some e.2 := fun e he =>
    mapOfJson?_map ofCount (h.sorted_values e he) fun v hv => count?_ofCount (h.hits e he v hv)
  have hfields : mapOfJson? (mapOfJson? count?) (.obj (p.fields.map fun e =>
      (e.1, .obj (e.2.map fun v => (v.1, ofCount v.2))))) = some p.fields :=
    mapOfJson?_map
      (fun values : SortedMap String Nat => .obj (values.map fun v => (v.1, ofCount v.2)))
      h.sorted hvalues
  refine (ofJson?_obj _ _).trans ?_
  rw [count?_ofCount h.rows, Option.bind_some]
  exact congrArg (Option.map _) hfields

end PartialFacets

/-! ## Partial results -/

namespace PartialResult

/-- The result fits its form. -/
def Fits : PartialResult → Prop
  | .rows _ => True
  | .stats groups => groups.Fits
  | .facets counts => counts.Fits

/-- The numbers in a result. -/
def numbers : PartialResult → List Float
  | .stats groups => groups.numbers
  | _ => []

/-- The result that a result is received as. -/
def received? : PartialResult → Option PartialResult
  | .stats groups => groups.received?.map .stats
  | p => some p

theorem received?_eq_some (p : PartialResult) :
    p.received? = some p ↔ ∀ x ∈ p.numbers, Wire.received? x = some x := by
  cases p with
  | stats groups =>
    rw [numbers, ← groups.received?_eq_some]
    simp [received?]
  | rows | facets => simp [received?, numbers]

theorem ofJson?_obj (kind : String) (data : Json) :
    ofJson? (.obj [("kind", .str kind), ("data", data)]) = match kind with
      | "rows" => (list? QueryRow.ofWire? data).map .rows
      | "stats" => (PartialStats.ofJson? data).map .stats
      | "facets" => (PartialFacets.ofJson? data).map .facets
      | _ => none :=
  rfl

/-- A result is received with its numbers as they are received. -/
theorem bind_ofJson?_toJson {p : PartialResult} (h : p.Fits) :
    p.toJson.received?.bind ofJson? = p.received? := by
  cases p with
  | rows list =>
    have hdata := exact_map QueryRow.exact_toWire list
    have hexact : Exact (.obj [("kind", .str "rows"), ("data", .arr (list.map QueryRow.toWire))]) :=
      exact_obj (by simp [exact_str, hdata])
    rw [toJson, hexact, Option.bind_some, ofJson?_obj]
    exact congrArg (Option.map _) (list?_map fun r _ => r.ofWire?_toWire)
  | stats groups =>
    rw [received?, ← PartialStats.bind_ofJson?_toJson h, toJson]
    simp only [Json.received?, Json.receivedMembers?]
    cases groups.toJson.received? with
    | none => rfl
    | some data => exact ofJson?_obj "stats" data
  | facets counts =>
    have hdata := PartialFacets.exact_toJson h
    have hexact : Exact (.obj [("kind", .str "facets"), ("data", counts.toJson)]) :=
      exact_obj (by simp [exact_str, hdata])
    rw [toJson, hexact, Option.bind_some, ofJson?_obj]
    exact congrArg (Option.map _) (PartialFacets.ofJson?_toJson h)

end PartialResult

end Logbook
