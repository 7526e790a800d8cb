import Logbook.Proofs.Parsing.Reading
import Logbook.Proofs.Wire.Request

set_option autoImplicit false

/-! # Counts in queries

Every count in a query is read as a number of sixty-four bits, so that the counts of a parsed query
and of its remote part fit (`Query.fits_of_parse`). -/

namespace Logbook

namespace QueryReader

/-! ## What a reader yields -/

variable {α β : Type} {P : α → Prop} {m : QueryReader α}

/-- Whatever the reader yields has the property. -/
def Yields (m : QueryReader α) (P : α → Prop) : Prop :=
  ∀ c a c', m.run c = .ok (a, c') → P a

theorem Yields.pure {a : α} (h : P a) : Yields (Pure.pure a) P := by
  rintro c _ _ ⟨⟩
  exact h

theorem Yields.bind {Q : β → Prop} {m : QueryReader β} {f : β → QueryReader α} (hm : Yields m Q)
    (hf : ∀ b, Q b → Yields (f b) P) : Yields (m >>= f) P := by
  intro c a c' h
  obtain ⟨b, mid, hrun, h⟩ := exists_of_run_bind h
  exact hf b (hm c b mid hrun) mid a c' h

/-- What a reader in front yields does not matter. -/
theorem Yields.after {m : QueryReader β} {f : β → QueryReader α} (hf : ∀ b, Yields (f b) P) :
    Yields (m >>= f) P :=
  Yields.bind (Q := fun _ => True) (fun _ _ _ _ => trivial) fun b _ => hf b

theorem Yields.failAt (pos : Nat) (fault : ParseFault) : Yields (failAt pos fault) P := by
  rintro c a c' ⟨⟩

theorem Yields.fail (fault : ParseFault) : Yields (fail fault) P :=
  Yields.after fun _ => by rintro c a c' ⟨⟩

theorem Yields.mono {Q : α → Prop} (h : Yields m Q) (himp : ∀ a, Q a → P a) : Yields m P :=
  fun c a c' hrun => himp a (h c a c' hrun)

theorem Yields.ite {c : Prop} [Decidable c] {n : QueryReader α} (hm : Yields m P)
    (hn : Yields n P) : Yields (if c then m else n) P := by
  split
  · exact hm
  · exact hn

/-! ## Counts -/

theorem lt_of_readUInt64? {s : String} {n : Nat} (h : Decimal.readUInt64? s = some n) :
    n < UInt64.size := by
  simp only [Decimal.readUInt64?, Option.ite_none_left_eq_some, Option.ite_none_right_eq_some,
    Option.some.injEq] at h
  exact h.2.2 ▸ h.2.1

theorem yields_count : Yields count (· < UInt64.size) := by
  refine .after fun _ => .after fun text => ?_
  split
  · next n h => exact .pure (lt_of_readUInt64? h)
  · exact Yields.failAt _ _

theorem yields_limitPipe : Yields limitPipe Pipe.Fits := by
  refine .after fun _ => .after fun _ => .ite (.pure ?_) (.bind yields_count fun n hn => .pure hn)
  show defaultLimit < UInt64.size
  decide

theorem yields_sortPipe : Yields sortPipe Pipe.Fits := by
  have hsort : ∀ {keys desc limit}, (∀ n ∈ limit, n < UInt64.size) →
      Pipe.Fits (.sort ⟨keys, desc, limit⟩) := fun h => h
  have hlimit : Yields (some <$> count) fun limit => ∀ n ∈ limit, n < UInt64.size :=
    .bind yields_count fun n hn => .pure fun _ h => Option.mem_some.1 h ▸ hn
  refine .after fun _ => .after fun parens => ?_
  dsimp only
  -- the keys are given or not, and so is the limit
  refine .ite (.after fun keys => ?_) (.after fun keys => ?_)
  all_goals
    refine .after fun desc => .after fun limited => .ite ?_ ?_
    · exact .bind hlimit fun limit h => .pure (hsort h)
    · exact .bind (.pure rfl) fun limit h => .pure (hsort (h ▸ nofun))

theorem yields_statsPipe : Yields statsPipe Pipe.Fits := by
  refine .after fun grouped => ?_
  dsimp only
  refine .ite (.after fun _ => .after fun groupBy => ?_) (.after fun groupBy => ?_)
  all_goals exact .after fun _ => .after fun funcs => .pure trivial

theorem yields_facetsOptions (fuel : Nat) {p : FacetsPipe} (hp : Pipe.Fits (.facets p)) :
    Yields (facetsOptions fuel p) fun p => Pipe.Fits (.facets p) := by
  induction fuel generalizing p with
  | zero => exact Yields.fail _
  | succ fuel ih =>
    obtain ⟨hlimit, hvalues, hlength⟩ := hp
    refine .after fun _ => .after fun _ => .ite (.pure ⟨hlimit, hvalues, hlength⟩) ?_
    refine .after fun _ => .ite (.bind yields_count fun n hn => ih ⟨hn, hvalues, hlength⟩) ?_
    refine .after fun _ => .ite (.bind yields_count fun n hn => ih ⟨hlimit, hn, hlength⟩) ?_
    refine .after fun _ => .ite (.bind yields_count fun n hn => ih ⟨hlimit, hvalues, hn⟩) ?_
    refine .after fun _ => .ite (ih ⟨hlimit, hvalues, hlength⟩) ?_
    exact .after fun _ => Yields.fail _

theorem yields_pipe (now : Timestamp) : Yields (pipe now) Pipe.Fits := by
  have hdefault : Pipe.Fits (.facets {}) := by
    show 10 < UInt64.size ∧ 1000 < UInt64.size ∧ 1000 < UInt64.size
    decide
  refine .after fun _ => .after fun start => .after fun word => ?_
  dsimp only
  split
  · exact .after fun f => .pure trivial
  · exact .after fun f => .pure trivial
  · exact .after fun names => .pure trivial
  · exact yields_limitPipe
  · exact yields_limitPipe
  · exact yields_sortPipe
  · exact yields_statsPipe
  · exact .after fun c => .bind (yields_facetsOptions _ hdefault) fun p hp => .pure hp
  · exact Yields.fail _
  · exact .ite (.after fun _ => yields_statsPipe) (Yields.failAt _ _)

theorem yields_pipes (now : Timestamp) (fuel : Nat) :
    Yields (pipes now fuel) fun ps => ∀ p ∈ ps, p.Fits := by
  induction fuel with
  | zero => exact Yields.fail _
  | succ fuel ih =>
    refine .after fun _ => .ite ?_ (.pure nofun)
    exact .bind (yields_pipe now) fun p hp => .bind ih fun ps hps =>
      .pure (List.forall_mem_cons.2 ⟨hp, hps⟩)

theorem yields_query (now : Timestamp) : Yields (query now) fun q => ∀ p ∈ q.pipes, p.Fits := by
  refine .after fun _ => .after fun _ => ?_
  dsimp only
  refine .ite (.after fun f => ?_) (.after fun f => ?_)
  all_goals
    exact .after fun c => .bind (yields_pipes now _) fun ps hps =>
      .after fun _ => .ite (.pure hps) (.after fun _ => Yields.fail _)

end QueryReader

/-! ## Parsed queries -/

theorem Query.fits_of_parse {text : String} {now : Timestamp} {q : Query}
    (h : parse text now = .ok q) : ∀ p ∈ q.pipes, p.Fits := by
  unfold parse at h
  cases hrun : (QueryReader.query now).run ⟨text.toList, 0⟩ with
  | error e =>
    rw [hrun] at h
    cases h
  | ok p =>
    rw [hrun] at h
    cases h
    exact QueryReader.yields_query now _ _ _ hrun

namespace Plan

theorem fits_pushLimit {s : SortPipe} {rest : List Pipe} (hs : Pipe.Fits (.sort s))
    (hrest : ∀ p ∈ rest, p.Fits) : Pipe.Fits (.sort (pushLimit s rest)) := by
  unfold pushLimit
  split
  · next n rest =>
    have hn : n < UInt64.size := hrest (.limit n) List.mem_cons_self
    rintro _ ⟨⟩
    split
    · exact Nat.lt_of_le_of_lt (Nat.min_le_right _ _) hn
    · exact hn
  · exact hs

theorem fits_splitTerminal {ps : List Pipe} (h : ∀ p ∈ ps, p.Fits) :
    ∀ p ∈ (splitTerminal ps).1, p.Fits := by
  match ps with
  | [] => exact nofun
  | p :: rest =>
    rw [List.forall_mem_cons] at h
    cases p with
    | sort s =>
      rintro _ ⟨⟩
      exact fits_pushLimit h.1 h.2
    | _ =>
      rintro _ ⟨⟩
      exact h.1

/-- The remote part of a query keeps its counts and adds none. -/
theorem fits_ofQuery {q : Query} (h : ∀ p ∈ q.pipes, p.Fits) : (ofQuery q).remote.Fits :=
  ⟨fun p hp => h p ((List.takeWhile_prefix _).subset hp),
    fits_splitTerminal fun p hp => h p ((List.dropWhile_suffix _).subset hp)⟩

end Plan

end Logbook
