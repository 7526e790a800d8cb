import Logbook.Cluster.Remote
import Logbook.Proofs.Query.Counts

set_option autoImplicit false

/-! # Queries arrive as they were sent

What a storage node reads from a request is the remote part of the query that was sent, with its
numbers as their texts are read (**`Query.remote_arrives`**). A query that is nested too deeply or
compares with a number that is not finite is refused. -/

namespace Logbook

namespace RemoteQuery

theorem toOption_ofText (cs : List Char) :
    (ofText cs).toOption
      = (Json.readValue (2 * cs.length + 2) Json.maxDepth cs).bind fun p => ofJson? p.1 := by
  unfold ofText
  cases Json.readValue (2 * cs.length + 2) Json.maxDepth cs with
  | none =>
    dsimp only
    split <;> rfl
  | some p =>
    dsimp only [Option.bind_some]
    cases ofJson? p.1 <;> rfl

/-- What a storage node reads from the request for a query. -/
theorem toOption_ofBytes_body {q : RemoteQuery} (h : q.Fits) :
    (ofBytes (Backend.queryRequest q).body).toOption
      = if q.toJson.depth < Json.maxDepth then q.received? else none := by
  rw [Backend.queryRequest, ofBytes, Bytes.toString?_ofString]
  dsimp only
  rw [Json.render, String.toList_ofList, toOption_ofText,
    Json.readValue_renderChars_self, ← bind_ofJson?_toJson h]
  split
  · cases q.toJson.received? <;> rfl
  · rfl

end RemoteQuery

/-- **Queries arrive as they were sent**, exactly those whose form is not nested too deeply and
    whose numbers all read back. A query that arrives otherwise differs in nothing but its numbers,
    each of which is what its text reads as; a query that is nested too deeply does not arrive. -/
theorem Query.remote_arrives {text : String} {now : Timestamp} {q : Query}
    (h : Query.parse text now = .ok q) :
    (RemoteQuery.ofBytes (Backend.queryRequest (Plan.ofQuery q).remote).body
        = .ok (Plan.ofQuery q).remote ↔
      (Plan.ofQuery q).remote.toJson.depth < Json.maxDepth ∧
        ∀ x ∈ (Plan.ofQuery q).remote.numbers, Wire.received? x = some x) ∧
    ∀ r, RemoteQuery.ofBytes (Backend.queryRequest (Plan.ofQuery q).remote).body = .ok r ↔
      (Plan.ofQuery q).remote.toJson.depth < Json.maxDepth ∧
        (Plan.ofQuery q).remote.received? = some r := by
  have hbody := RemoteQuery.toOption_ofBytes_body (Plan.fits_ofQuery (Query.fits_of_parse h))
  generalize (Plan.ofQuery q).remote = sent at hbody ⊢
  have hok : ∀ r, RemoteQuery.ofBytes (Backend.queryRequest sent).body = .ok r ↔
      sent.toJson.depth < Json.maxDepth ∧ sent.received? = some r := by
    intro r
    rw [← Option.ite_none_right_eq_some, ← hbody]
    cases RemoteQuery.ofBytes (Backend.queryRequest sent).body <;> simp [Except.toOption]
  exact ⟨by rw [hok, sent.received?_eq_some], hok⟩

theorem Query.remote_arrives_with_five : ∃ q, Query.parse "n:>5 | limit 3" 0 = .ok q ∧
    RemoteQuery.ofBytes (Backend.queryRequest (Plan.ofQuery q).remote).body
      = .ok (Plan.ofQuery q).remote := by
  have hsummary : ((Query.parse "n:>5 | limit 3" 0).toOption.map fun q =>
      ((Plan.ofQuery q).remote.toJson.depth, (Plan.ofQuery q).remote.numbers))
        = some (2, [5.0]) := by decide +kernel
  cases hparse : Query.parse "n:>5 | limit 3" 0 with
  | error e =>
    rw [hparse] at hsummary
    contradiction
  | ok q =>
    rw [hparse] at hsummary
    obtain ⟨hdepth, hnumbers⟩ := Prod.mk.inj (Option.some.inj hsummary)
    refine ⟨q, rfl, (Query.remote_arrives hparse).1.2 ⟨?_, ?_⟩⟩
    · rw [hdepth]
      decide
    · rw [hnumbers, List.forall_mem_singleton]
      decide +kernel

/-! A number that is not finite is not received, and some that are finite are received as their
neighbours. -/

example : Wire.received? (Decimal.infinity false) = none := by decide +kernel

example : (Wire.received? 3e30).all (3e30 < ·) = true := by decide +kernel

end Logbook
