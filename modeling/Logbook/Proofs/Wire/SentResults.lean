import Logbook.Cluster.Remote
import Logbook.Node.Service
import Logbook.Proofs.Wire.Result

set_option autoImplicit false

/-! # Partial results arrive as they were sent

What a node reads from the answer of a storage node is the partial result that was collected there,
with its numbers as their texts are read (**`RemoteQuery.result_arrives`**). No partial result is
nested too deeply to be read. -/

namespace Logbook

open Wire

/-! ## Nesting -/

namespace Json

theorem depth_arr_le {vs : List Json} {n : Nat} (h : ∀ v ∈ vs, v.depth ≤ n) :
    (arr vs).depth ≤ n + 1 := by
  rw [depth]
  refine Nat.succ_le_succ ?_
  induction vs with
  | nil => exact Nat.zero_le n
  | cons v vs ih =>
    rw [List.forall_mem_cons] at h
    exact Nat.max_le.2 ⟨h.1, ih h.2⟩

theorem depth_obj_le {ms : List (String × Json)} {n : Nat} (h : ∀ m ∈ ms, m.2.depth ≤ n) :
    (obj ms).depth ≤ n + 1 := by
  rw [depth]
  refine Nat.succ_le_succ ?_
  induction ms with
  | nil => exact Nat.zero_le n
  | cons m ms ih =>
    rw [List.forall_mem_cons] at h
    exact Nat.max_le.2 ⟨h.1, ih h.2⟩

theorem depth_map_le {α : Type} {write : α → Json} {n : Nat} (h : ∀ x, (write x).depth ≤ n)
    (xs : List α) : (arr (xs.map write)).depth ≤ n + 1 :=
  depth_arr_le fun v hv => by
    obtain ⟨x, -, rfl⟩ := List.mem_map.1 hv
    exact h x

end Json

open Json (depth_arr_le depth_obj_le depth_map_le)

theorem depth_ofTexts (ss : List String) : (ofTexts ss).depth ≤ 1 :=
  depth_map_le (fun _ => Nat.le_refl 0) ss

theorem depth_ofFloat (x : Float) : (ofFloat x).depth = 0 := by
  unfold ofFloat
  split <;> rfl

theorem StatsState.depth_toJson (s : StatsState) : s.toJson.depth ≤ 3 := by
  have hnumber : ∀ x : Option Float, ((x.map ofFloat).getD .null).depth = 0 := by
    intro x
    cases x with
    | none => rfl
    | some x => exact depth_ofFloat x
  cases s with
  | count n => exact Nat.le_of_ble_eq_true rfl
  | countUniq values =>
    exact depth_obj_le (List.forall_mem_singleton.2
      (depth_map_le (fun v => depth_ofTexts v.1) values))
  | sum x | min x | max x =>
    exact depth_obj_le (List.forall_mem_singleton.2 (by rw [hnumber]; decide))
  | avg total n =>
    refine depth_obj_le (List.forall_mem_singleton.2 (depth_obj_le ?_))
    rw [List.forall_mem_cons, List.forall_mem_singleton]
    exact ⟨by rw [depth_ofFloat]; decide, Nat.zero_le 1⟩

theorem QueryRow.depth_toWire (r : QueryRow) : r.toWire.depth ≤ 3 := by
  have hfields : (Json.arr (r.fields.map Field.toJson)).depth ≤ 2 :=
    depth_map_le (fun _ => Nat.le_refl 1) r.fields
  refine depth_obj_le fun m hm => ?_
  rcases List.mem_append.1 hm with hm | hm
  · cases htime : r.timestamp with
    | none =>
      rw [htime] at hm
      cases hm
    | some t =>
      rw [htime] at hm
      rw [List.mem_singleton.1 hm]
      exact Nat.zero_le 2
  · rw [List.mem_singleton.1 hm]
    exact hfields

theorem PartialFacets.depth_toJson (p : PartialFacets) : p.toJson.depth ≤ 3 := by
  refine depth_obj_le ?_
  rw [List.forall_mem_cons, List.forall_mem_singleton]
  refine ⟨Nat.zero_le 2, depth_obj_le fun m hm => ?_⟩
  obtain ⟨e, -, rfl⟩ := List.mem_map.1 hm
  refine depth_obj_le fun m hm => ?_
  obtain ⟨v, -, rfl⟩ := List.mem_map.1 hm
  exact Nat.zero_le 0

/-- The form of a partial result is nested no deeper than this. -/
theorem PartialResult.depth_toJson (p : PartialResult) : p.toJson.depth ≤ 7 := by
  have hdata : ∀ {kind : String} {data : Json}, data.depth ≤ 6 →
      (Json.obj [("kind", .str kind), ("data", data)]).depth ≤ 7 := by
    intro kind data h
    refine depth_obj_le ?_
    rw [List.forall_mem_cons, List.forall_mem_singleton]
    exact ⟨Nat.zero_le 6, h⟩
  cases p with
  | rows list =>
    exact hdata (Nat.le_trans (depth_map_le QueryRow.depth_toWire list) (by decide))
  | stats groups =>
    refine hdata (depth_map_le (fun g => depth_obj_le ?_) groups)
    rw [List.forall_mem_cons, List.forall_mem_singleton]
    exact ⟨Nat.le_trans (depth_ofTexts g.1) (by decide), depth_map_le StatsState.depth_toJson g.2⟩
  | facets counts => exact hdata (Nat.le_trans counts.depth_toJson (by decide))

/-! ## Results of queries -/

theorem PartialResult.fits_collect (q : RemoteQuery) (rows : List QueryRow) :
    (q.collect rows).Fits := by
  unfold RemoteQuery.collect
  split
  · trivial
  · trivial
  · exact PartialStats.fits_ofRows _ rows
  · exact PartialFacets.fits_addRows _ rows
  · trivial

theorem PartialResult.readPartial?_ofJson {p : PartialResult} (h : p.Fits) :
    Backend.readPartial? (SearchPlan.ofJson p.toJson) = p.received? := by
  have hdepth : p.toJson.depth < Json.maxDepth := Nat.lt_of_le_of_lt p.depth_toJson (by decide)
  rw [← bind_ofJson?_toJson h, Backend.readPartial?, SearchPlan.ofJson, Http.Response.ofTyped,
    Bytes.toString?_ofString, Option.bind_some, Json.render, String.toList_ofList,
    Json.parse?_renderChars, if_pos hdepth]

/-- **Partial results arrive as they were sent**, exactly those whose numbers all read back. A
    result that arrives otherwise differs in nothing but its numbers, each of which is what its text
    reads as; a sum, least or greatest number that is not finite arrives as if there were none. -/
theorem RemoteQuery.result_arrives (q : RemoteQuery) (s : Storage) :
    (Backend.readPartial? (SearchPlan.ofJson (q.run s).toJson) = some (q.run s) ↔
      ∀ x ∈ (q.run s).numbers, Wire.received? x = some x) ∧
    Backend.readPartial? (SearchPlan.ofJson (q.run s).toJson) = (q.run s).received? := by
  have hread : Backend.readPartial? (SearchPlan.ofJson (q.run s).toJson) = (q.run s).received? :=
    PartialResult.readPartial?_ofJson (PartialResult.fits_collect q _)
  exact ⟨by rw [hread, PartialResult.received?_eq_some], hread⟩

end Logbook
