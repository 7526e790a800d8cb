import Logbook.Proofs.Regex.Matching
import Logbook.Proofs.Regex.Sequences
import Logbook.Proofs.Wire.Filters

set_option autoImplicit false

/-! # Patterns for whole values

A pattern for whole values is the given text inside a group between the two ends of the value. The
group ends with the text unless a parenthesis of the text closes it before (`Regex.closesEarly`).
Such a text is not an expression by itself, but the pattern around it may be one, and it then
matches other values. -/

namespace Logbook

namespace Regex

/-- The alternatives that a text begins with, and where they end. -/
def alternatives? (source : String) : Option (Node × State) :=
  readAlternation (2 * source.toList.length + 2) [] ⟨source.toList, {}, []⟩

/-- The alternatives that the text begins with end in front of a closing parenthesis. -/
def closesEarly (source : String) : Bool :=
  (alternatives? source).any fun p => p.2.rest.head? == some ')'

theorem closesEarly_iff {source : String} :
    closesEarly source = true ↔
      ∃ n s rest, alternatives? source = some (n, s) ∧ s.rest = ')' :: rest := by
  rw [closesEarly, Option.any_eq_true]
  constructor
  · rintro ⟨⟨n, s⟩, hread, hhead⟩
    obtain ⟨rest, hrest⟩ := List.head?_eq_some_iff.1 (beq_iff_eq.1 hhead)
    exact ⟨n, s, rest, hread, hrest⟩
  · rintro ⟨n, s, rest, hread, hrest⟩
    exact ⟨(n, s), hread, beq_iff_eq.2 (by rw [hrest]; rfl)⟩

/-- An expression is the alternatives that make up the whole text, within the limits. -/
theorem parse_eq_ok_iff {source : String} {r : Regex} :
    parse source = .ok r ↔ ∃ n s, alternatives? source = some (n, s) ∧ s.rest = [] ∧
      n.depth ≤ nestLimit ∧ n.regex.size ≤ sizeLimit ∧ n.regex = r := by
  constructor
  · intro h
    rw [parse] at h
    split at h
    · cases h
    · next n s hread =>
      split at h
      · cases h
      · next hinvalid =>
        split at h
        · cases h
        · next hlarge =>
          cases h
          simp only [Bool.or_eq_true, Bool.not_eq_true', List.isEmpty_eq_false_iff,
            decide_eq_true_eq, not_or, not_not, Nat.not_lt] at hinvalid
          exact ⟨n, s, hread, hinvalid.1, hinvalid.2, Nat.not_lt.1 hlarge, rfl⟩
  · rintro ⟨n, s, hread, hrest, hdepth, hsize, rfl⟩
    rw [alternatives?] at hread
    rw [parse, hread]
    dsimp only
    rw [hrest, if_neg (by simpa using hdepth), if_neg (Nat.not_lt.2 hsize)]

theorem closesEarly_eq_false_of_parse {source : String} {r : Regex} (h : parse source = .ok r) :
    closesEarly source = false := by
  obtain ⟨n, s, hread, hrest, -⟩ := parse_eq_ok_iff.1 h
  rw [closesEarly, hread, Option.any_some, hrest]
  rfl

/-! ## Between the ends -/

/-- The group between the ends of the value. -/
theorem readAlternation_anchored (fuel : Nat) (cs : List Char) :
    readAlternation (fuel + 3) [] ⟨'^' :: '(' :: '?' :: ':' :: cs, {}, []⟩
      = ((readAlternation fuel [] ⟨cs, {}, []⟩).bind
          (closeGroup fuel [⟨.look .textStart, 0, false⟩] {})).bind
          (readBranches (fuel + 2) []) := by
  have hstart : readSequence (fuel + 2) [] ⟨'^' :: '(' :: '?' :: ':' :: cs, {}, []⟩
      = readSequence (fuel + 1) [⟨.look .textStart, 0, false⟩]
          ⟨'(' :: '?' :: ':' :: cs, {}, []⟩ := by
    rw [readSequence_succ]
    rfl
  have hgroup : readSequence (fuel + 1) [⟨.look .textStart, 0, false⟩]
      ⟨'(' :: '?' :: ':' :: cs, {}, []⟩
      = (readAlternation fuel [] ⟨cs, {}, []⟩).bind
          (closeGroup fuel [⟨.look .textStart, 0, false⟩] {}) := by
    rw [readSequence_succ]
    rfl
  rw [readAlternation_succ, hstart, hgroup]

/-- Behind the group stands the end of the value. -/
theorem closeGroup_anchored (fuel : Nat) (n : Node) (flags : Flags) (names : List (List Char)) :
    closeGroup (fuel + 2) [⟨.look .textStart, 0, false⟩] {} (n, ⟨[')', '$'], flags, names⟩)
      = some (⟨.seq (.look .textStart) (.seq n.regex (.seq (.look .textEnd) .empty)),
          n.depth + 2, false⟩, ⟨[], {}, names⟩) := by
  have hend : closeGroup (fuel + 2) [⟨.look .textStart, 0, false⟩] {}
        (n, ⟨[')', '$'], flags, names⟩)
      = readSequence (fuel + 1) [⟨.look .textEnd, 0, false⟩, ⟨n.regex, n.depth + 1, false⟩,
          ⟨.look .textStart, 0, false⟩] ⟨[], {}, names⟩ := by
    rw [closeGroup]
    dsimp only
    rw [readSequence_succ]
    rfl
  have hdepth : 1 + max (max (max 0 0) (n.depth + 1)) 0 = n.depth + 2 := by omega
  rw [hend, readSequence_succ, ← hdepth]
  rfl

theorem alternatives_anchored (source : String) :
    alternatives? (Pattern.anchoredSource source)
      = ((readAlternation (2 * source.toList.length + 11) []
          (State.append ⟨source.toList, {}, []⟩ [')', '$'])).bind
          (closeGroup (2 * source.toList.length + 11) [⟨.look .textStart, 0, false⟩] {})).bind
          (readBranches (2 * source.toList.length + 13) []) := by
  have hlist : (Pattern.anchoredSource source).toList
      = '^' :: '(' :: '?' :: ':' :: (source.toList ++ [')', '$']) := by
    simp [Pattern.anchoredSource]
  have hlength : 2 * ('^' :: '(' :: '?' :: ':' :: (source.toList ++ [')', '$'])).length + 2
      = 2 * source.toList.length + 11 + 3 := by
    simp only [List.length_cons, List.length_append, List.length_nil]
    omega
  rw [alternatives?, hlist, hlength, readAlternation_anchored]
  rfl

/-- Between the ends of the value stands what the text is read as by itself, unless it closes the
    group. -/
theorem parse_between_anchors {source : String} {r : Regex}
    (h : parse (Pattern.anchoredSource source) = .ok r) (hclose : closesEarly source = false) :
    ∃ r', parse source = .ok r' ∧
      r = .seq (.look .textStart) (.seq r' (.seq (.look .textEnd) .empty)) := by
  obtain ⟨_, _, hwhole, -, hdepth, hsize, rfl⟩ := parse_eq_ok_iff.1 h
  rw [alternatives_anchored] at hwhole
  obtain ⟨q, hgroup, hwhole⟩ := Option.bind_eq_some_iff.1 hwhole
  obtain ⟨⟨n, after⟩, hinner, hgroup⟩ := Option.bind_eq_some_iff.1 hgroup
  obtain ⟨ds, hds⟩ := exists_of_closeGroup hgroup
  obtain hpast | ⟨⟨rest, flags, names⟩, rfl, hread⟩ :=
    (readsBefore ['$'] _).alternation (Nat.le_refl _) n after hinner
  · rw [hds] at hpast
    simp [List.suffix_cons_iff] at hpast
  · cases rest with
    | cons c es =>
      have hearly : closesEarly source = true :=
        closesEarly_iff.2 ⟨n, _, es, hread, congrArg (· :: es) (List.cons.inj hds).1⟩
      exact nomatch hclose.symm.trans hearly
    | nil =>
      cases (closeGroup_anchored _ n flags names).symm.trans hgroup
      cases hwhole
      refine ⟨n.regex, parse_eq_ok_iff.2 ⟨n, _, hread, rfl, ?_, ?_, rfl⟩, rfl⟩
      · change n.depth + 2 ≤ nestLimit at hdepth
        omega
      · change 32 + (n.regex.size + (32 + 0)) ≤ sizeLimit at hsize
        omega

end Regex

namespace Pattern

theorem source_of_ofSource {source : String} {p : Pattern} (h : ofSource source = .ok p) :
    p.source = source := by
  unfold ofSource at h
  split at h
  · cases h
    rfl
  · cases h

/-- **A pattern for whole values matches what its text, read by itself, matches as a whole. The
    text is no expression by itself if and only if one of its parentheses closes the group around
    it.** -/
theorem anchored_matches_whole {source : String} {p : Pattern} (h : anchored source = .ok p) :
    (∀ r, Regex.parse source = .ok r → ∀ value, p.isMatch value = true ↔ r.MatchesWhole value) ∧
      ((∃ r, Regex.parse source = .ok r) ↔ Regex.closesEarly source = false) := by
  have hparse : Regex.parse (anchoredSource source) = .ok p.regex :=
    source_of_ofSource h ▸ p.parse_source
  refine ⟨fun r hr value => ?_, ?_⟩
  · obtain ⟨r', hr', hregex⟩ :=
      Regex.parse_between_anchors hparse (Regex.closesEarly_eq_false_of_parse hr)
    cases hr.symm.trans hr'
    rw [isMatch, hregex]
    exact Regex.isMatch_between_anchors
  · constructor
    · rintro ⟨r, hr⟩
      exact Regex.closesEarly_eq_false_of_parse hr
    · intro hclose
      obtain ⟨r, hr, -⟩ := Regex.parse_between_anchors hparse hclose
      exact ⟨r, hr⟩

/-- The group of `^(?:a)|(?:b)$` ends behind its first letter, and the pattern matches whatever
    begins with it. -/
theorem anchored_matches_beyond_group :
    ∃ p, anchored "a)|(?:b" = .ok p ∧ p.isMatch "axyz" = true ∧
      ¬ ∃ r, Regex.parse "a)|(?:b" = .ok r := by
  have hparse : ∃ r, Regex.parse (anchoredSource "a)|(?:b") = .ok r ∧ r.isMatch "axyz" = true :=
    ⟨.alt
      (.seq (.look .textStart)
        (.seq (.chars ⟨true, false⟩ (.bracket false (.range 'a' 'a'))) .empty))
      (.seq (.chars ⟨true, false⟩ (.bracket false (.range 'b' 'b')))
        (.seq (.look .textEnd) .empty)), rfl, by decide +kernel⟩
  obtain ⟨r, hparse, hmatch⟩ := hparse
  have hanchored : anchored "a)|(?:b" = .ok ⟨_, r, hparse⟩ := ofSource_source ⟨_, r, hparse⟩
  refine ⟨_, hanchored, hmatch, fun hread => ?_⟩
  have hclose := (anchored_matches_whole hanchored).2.1 hread
  revert hclose
  decide +kernel

end Pattern

end Logbook
