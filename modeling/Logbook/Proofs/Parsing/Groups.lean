import Logbook.Proofs.Parsing.BeforeParen

set_option autoImplicit false

/-! # Queries made of groups

A text that is a query without pipes is a filter wherever it stands in parentheses: what it is read
as does not depend on what is around it. So negations, conjunctions and disjunctions of texts in
parentheses are read as those of their filters (`Query.parse_groups`). -/

namespace Logbook

/-- The text is not blank and is a query of a filter alone. -/
structure Query.IsFilter (text : String) (now : Timestamp) (f : Filter) : Prop where
  nonblank : ∃ c ∈ text.toList, Text.isBlank c = false
  parse : Query.parse text now = .ok ⟨f, []⟩

namespace QueryReader

variable {α β : Type} {cs tail : List Char}

/-! ## Blanks in front -/

/-- Nothing depends on the blanks in front. -/
def IgnoresBlanks (m : QueryReader α) : Prop :=
  ∀ c : Cursor, m.run c = m.run c.skipBlanks

theorem Reads.of_afterBlanks {m : QueryReader α} {a : α} {rest : List Char} (hm : IgnoresBlanks m)
    (h : Reads m (afterBlanks cs) a rest) : Reads m cs a rest := by
  intro pos
  rw [hm ⟨cs, pos⟩]
  exact h _

/-- A blank in front of a character that is none. -/
theorem Reads.blank_cons {m : QueryReader α} {a : α} {rest : List Char} (hm : IgnoresBlanks m)
    (hcs : afterBlanks cs = cs) (h : Reads m cs a rest) : Reads m (' ' :: cs) a rest :=
  .of_afterBlanks hm (hcs.symm ▸ h : Reads m (afterBlanks cs) a rest)

theorem IgnoresBlanks.bind {m : QueryReader β} (hm : IgnoresBlanks m) (f : β → QueryReader α) :
    IgnoresBlanks (m >>= f) := by
  intro c
  rw [StateT.run_bind, StateT.run_bind, hm c]

theorem skipBlanks_skipBlanks (c : Cursor) : c.skipBlanks.skipBlanks = c.skipBlanks := by
  have hnone : (c.rest.dropWhile Text.isBlank).takeWhile Text.isBlank = [] := by
    have happend := List.takeWhile_append_dropWhile (p := Text.isBlank)
      (l := c.rest.dropWhile Text.isBlank)
    rwa [List.dropWhile_idempotent, List.append_left_eq_self] at happend
  simp only [Cursor.skipBlanks, Cursor.skipWhile, hnone, List.dropWhile_idempotent]
  rfl

theorem ignoresBlanks_skipBlanks : IgnoresBlanks skipBlanks := by
  intro c
  show Except.ok ((), c.skipBlanks) = Except.ok ((), c.skipBlanks.skipBlanks)
  rw [skipBlanks_skipBlanks]

theorem ignoresBlanks_eatKeyword (keyword : String) : IgnoresBlanks (eatKeyword keyword) :=
  .bind (.bind ignoresBlanks_skipBlanks _) _

variable {now : Timestamp} {field : String} {f g : Filter} {fuel : Nat}

theorem ignoresBlanks_unaryFilter : IgnoresBlanks (unaryFilter now (fuel + 1) field) := by
  rw [unaryFilter]
  exact .bind (ignoresBlanks_eatKeyword "not") _

theorem ignoresBlanks_andFilter : IgnoresBlanks (andFilter now (fuel + 2) field) := by
  rw [andFilter]
  exact .bind ignoresBlanks_unaryFilter _

theorem ignoresBlanks_orFilter : IgnoresBlanks (orFilter now (fuel + 3) field) := by
  rw [orFilter]
  exact .bind ignoresBlanks_andFilter _

/-! ## Queries without pipes -/

/-- There are no pipes where no bar comes next. -/
theorem rest_of_run_pipes_nil {c c' : Cursor}
    (h : (pipes now (fuel + 1)).run c = .ok ([], c')) : c'.rest = afterBlanks c.rest := by
  rw [pipes] at h
  obtain ⟨bar, mid, hbar, h⟩ := exists_of_run_bind h
  cases bar with
  | true =>
    obtain ⟨p, _, -, h⟩ := exists_of_run_bind h
    obtain ⟨ps, _, -, h⟩ := exists_of_run_bind h
    cases h
  | false =>
    cases h
    by_cases hhead : (afterBlanks c.rest).head? = some '|'
    · obtain ⟨behind, hrest⟩ := List.head?_eq_some_iff.1 hhead
      exact absurd ((reads_eat_true hrest).eq_of_run hbar).1 Bool.false_ne_true
    · exact ((reads_eat_false hhead).eq_of_run hbar).2

/-- What is behind the filter of a query without pipes is blank. -/
theorem filter_eq_of_run_behind {c c' : Cursor}
    (h : StateT.run (do
      let ps ← pipes now ((← get).rest.length + 1)
      if ← atEnd then return (⟨f, ps⟩ : Query) else fail (.trailing (← get).text)) c
        = .ok (⟨g, []⟩, c')) : f = g ∧ afterBlanks c.rest = [] := by
  obtain ⟨_, _, hget, h⟩ := exists_of_run_bind h
  cases hget
  obtain ⟨ps, mid, hpipes, h⟩ := exists_of_run_bind h
  obtain ⟨ended, last, hend, h⟩ := exists_of_run_bind h
  cases ended with
  | false => cases h
  | true =>
    cases h
    have hrest := rest_of_run_pipes_nil hpipes
    obtain ⟨hended, -⟩ := (reads_atEnd mid.rest).eq_of_run hend
    rw [hrest, afterBlanks_afterBlanks, Eq.comm, Option.isNone_iff_eq_none, List.head?_eq_none_iff]
      at hended
    exact ⟨rfl, hended⟩

/-- A query without pipes is its filter up to blanks at the end. -/
theorem exists_run_of_isFilter {text : String} (h : Query.IsFilter text now f) :
    ∃ pos c, (orFilter now (6 * ((afterBlanks text.toList).length + 1)) msgName).run
        ⟨afterBlanks text.toList, pos⟩ = .ok (f, c) ∧ afterBlanks c.rest = [] := by
  obtain ⟨⟨d, hmem, hd⟩, hparse⟩ := h
  obtain ⟨c', hquery⟩ : ∃ c', (query now).run ⟨text.toList, 0⟩ = .ok (⟨f, []⟩, c') := by
    rw [Query.parse] at hparse
    cases hrun : (query now).run ⟨text.toList, 0⟩ with
    | error e =>
      rw [hrun] at hparse
      cases hparse
    | ok p =>
      rw [hrun] at hparse
      exact ⟨p.2, by rw [← Except.ok.inj hparse]⟩
  obtain ⟨ended, mid, hend, hquery⟩ := exists_of_run_bind hquery
  obtain ⟨next, ⟨rest, pos⟩, hpeek, hquery⟩ := exists_of_run_bind hquery
  have hrest : rest = afterBlanks text.toList :=
    ((reads_peek? mid.rest).eq_of_run hpeek).2.trans ((reads_atEnd _).eq_of_run hend).2
  subst hrest
  dsimp only at hquery
  split at hquery
  · -- a text without a filter is blank, since it has no pipes either
    obtain ⟨_, _, hall, hquery⟩ := exists_of_run_bind hquery
    cases hall
    have hbehind := (filter_eq_of_run_behind hquery).2
    rw [afterBlanks_afterBlanks, afterBlanks, List.dropWhile_eq_nil_iff] at hbehind
    rw [hbehind d hmem] at hd
    cases hd
  · obtain ⟨_, c, hfilter, hquery⟩ := exists_of_run_bind hquery
    obtain ⟨rfl, hbehind⟩ := filter_eq_of_run_behind hquery
    rw [filter] at hfilter
    obtain ⟨_, _, hget, hfilter⟩ := exists_of_run_bind hfilter
    cases hget
    exact ⟨pos, c, hfilter, hbehind⟩

/-! ## Groups -/

/-- A text in parentheses. -/
def group (text : String) : List Char :=
  '(' :: (text.toList ++ [')'])

@[simp]
theorem length_group (text : String) : (group text).length = text.length + 2 := by
  simp [group, String.length_toList]

theorem afterBlanks_group (text : String) (tail : List Char) :
    afterBlanks (group text ++ tail) = group text ++ tail :=
  afterBlanks_cons (by decide) _

/-- An expression in parentheses is read as it is without them. -/
theorem reads_unaryFilter_parens {mid rest : List Char}
    (h : Reads (orFilter now fuel field) cs f mid) (hmid : afterBlanks mid = ')' :: rest) :
    Reads (unaryFilter now (fuel + 1) field) ('(' :: cs) f rest := by
  have hopen : afterBlanks ('(' :: cs) = '(' :: cs := afterBlanks_cons (by decide) cs
  rw [unaryFilter]
  refine .bind (reads_eatKeyword_false (by rw [hopen]; rfl)) ?_
  rw [hopen, if_neg Bool.false_ne_true]
  refine .bind (reads_eat_false (by simp [hopen])) ?_
  rw [hopen, if_neg Bool.false_ne_true]
  refine .bind (reads_eat_true hopen) ?_
  rw [if_pos rfl]
  exact .bind h (.bind (reads_expect hmid) (.pure _ _))

/-- **A query without pipes is a filter in parentheses**, whatever follows. -/
theorem reads_unaryFilter_group {text : String} (h : Query.IsFilter text now f)
    (hfuel : 6 * (text.length + 1) ≤ fuel) (tail : List Char) :
    Reads (unaryFilter now (fuel + 1) msgName) (group text ++ tail) f tail := by
  obtain ⟨pos, c, hrun, hbehind⟩ := exists_run_of_isFilter h
  have hlength : (afterBlanks text.toList).length ≤ text.toList.length :=
    (List.dropWhile_suffix _).length_le
  rw [String.length_toList] at hlength
  obtain ⟨fuel, rfl⟩ := Nat.exists_eq_add_of_le' (Nat.le_trans (show 3 ≤ _ by omega) hfuel)
  have hfilter : Reads (orFilter now (fuel + 3) msgName) (text.toList ++ ')' :: tail) f
      (c.rest ++ ')' :: tail) := by
    apply Reads.of_afterBlanks ignoresBlanks_orFilter
    rw [afterBlanks_append]
    exact (filtersBeforeParen tail now (by omega)).orFilter _ _ pos f c hrun
  have hclose : afterBlanks (c.rest ++ ')' :: tail) = ')' :: tail := by
    rw [afterBlanks_append, hbehind]
    rfl
  have hgroup : group text ++ tail = '(' :: (text.toList ++ ')' :: tail) := by
    simp [group]
  rw [hgroup]
  exact reads_unaryFilter_parens hfilter hclose

/-- An exclamation mark negates what follows. -/
theorem reads_unaryFilter_bang {rest : List Char}
    (h : Reads (unaryFilter now fuel field) cs f rest) :
    Reads (unaryFilter now (fuel + 1) field) ('!' :: cs) (.not f) rest := by
  have hbang : afterBlanks ('!' :: cs) = '!' :: cs := afterBlanks_cons (by decide) cs
  rw [unaryFilter]
  refine .bind (reads_eatKeyword_false (by rw [hbang]; rfl)) ?_
  rw [hbang, if_neg Bool.false_ne_true]
  refine .bind (reads_eat_true hbang) ?_
  rw [if_pos rfl]
  exact .bind h (.pure _ _)

/-- The word for a negation negates what follows. -/
theorem reads_unaryFilter_keyword {mid rest : List Char}
    (hnot : startsWithKeyword "not" (afterBlanks mid) = true)
    (h : Reads (unaryFilter now fuel field) ((afterBlanks mid).drop 3) f rest) :
    Reads (unaryFilter now (fuel + 1) field) mid (.not f) rest := by
  rw [unaryFilter]
  refine .bind (reads_eatKeyword_true hnot) ?_
  rw [if_pos rfl]
  exact .bind h (.pure _ _)

theorem reads_unaryFilter_not {rest : List Char} (hcs : afterBlanks cs = cs)
    (h : Reads (unaryFilter now (fuel + 1) field) cs f rest) :
    Reads (unaryFilter now (fuel + 2) field) ("not ".toList ++ cs) (.not f) rest := by
  have hnot : afterBlanks ("not ".toList ++ cs) = "not ".toList ++ cs :=
    afterBlanks_cons (by decide) _
  refine reads_unaryFilter_keyword (by rw [hnot]; rfl) ?_
  rw [hnot]
  exact .blank_cons ignoresBlanks_unaryFilter hcs h

/-! ## Several groups -/

/-- A filter and the only one behind it that is joined to it by `and` or by nothing. -/
theorem reads_orFilter_and {mid : List Char}
    (hf : Reads (unaryFilter now (fuel + 1) field) cs f mid)
    (hg : Reads (andRest now (fuel + 1) field) mid [g] []) :
    Reads (orFilter now (fuel + 3) field) cs (.and [f, g]) [] := by
  rw [orFilter]
  refine .bind ?_ (.bind (reads_orRest_nil (fuel + 1)) (.pure _ _))
  rw [andFilter]
  exact .bind hf (.bind hg (.pure _ _))

/-- What comes next ends the terms that are joined by `and` or by nothing. -/
def EndsConjuncts (cs : List Char) : Prop :=
  ∀ c ∈ cs.head?, c = ')' ∨ c = '|' ∨ startsWithKeyword "or" cs = true

theorem endsConjuncts_nil : EndsConjuncts [] :=
  nofun

theorem reads_andRest_end {mid : List Char} (h : EndsConjuncts (afterBlanks mid)) :
    Reads (andRest now (fuel + 1) field) mid [] (afterBlanks mid) := by
  rw [andRest]
  refine .bind (reads_atEnd mid) ?_
  cases hmid : afterBlanks mid with
  | nil => exact .pure _ _
  | cons c behind =>
    have hfront : afterBlanks (c :: behind) = c :: behind := by
      rw [← hmid, afterBlanks_afterBlanks]
    rw [if_neg (by simp)]
    refine .bind (reads_peek? _) (.bind (reads_peek? _) ?_)
    split
    · exact .pure _ _
    · next hmark =>
      have hor : startsWithKeyword "or" (c :: behind) = true := by
        rw [hmid] at h
        simp only [List.head?_cons, Option.some.injEq, not_or] at hmark
        exact ((h c rfl).resolve_left hmark.1).resolve_left hmark.2
      have hread := reads_peekKeyword "or" (c :: behind)
      rw [hfront, hor] at hread
      exact .bind hread (.pure _ _)

theorem reads_andRest_cons {b : Bool} {mid rest rest' : List Char} {gs : List Filter}
    (hmid : ¬ EndsConjuncts (afterBlanks mid))
    (hand : Reads (eatKeyword "and") (afterBlanks mid) b cs)
    (hg : Reads (unaryFilter now fuel field) cs g rest)
    (hgs : Reads (andRest now fuel field) rest gs rest') :
    Reads (andRest now (fuel + 1) field) mid (g :: gs) rest' := by
  rw [andRest]
  refine .bind (reads_atEnd mid) ?_
  cases hcs : afterBlanks mid with
  | nil => exact absurd (hcs.symm ▸ endsConjuncts_nil) hmid
  | cons c behind =>
    rw [hcs] at hmid hand
    have hfront : afterBlanks (c :: behind) = c :: behind := by
      rw [← hcs, afterBlanks_afterBlanks]
    simp only [EndsConjuncts, List.head?_cons, Option.mem_some_iff, forall_eq', not_or] at hmid
    obtain ⟨hparen, hbar, hor⟩ := hmid
    rw [if_neg (by simp)]
    refine .bind (reads_peek? _) (.bind (reads_peek? _) ?_)
    rw [if_neg (by simp [hparen, hbar])]
    refine .bind (reads_peekKeyword "or" _) ?_
    rw [hfront, if_neg (by simp [hor])]
    exact .bind hand (.bind hg (.bind hgs (.pure _ _)))

theorem reads_andRest_single {b : Bool} {c : Char} {mid behind : List Char}
    (hmid : afterBlanks mid = c :: behind) (hparen : c ≠ ')') (hbar : c ≠ '|')
    (hor : startsWithKeyword "or" (c :: behind) = false)
    (hand : Reads (eatKeyword "and") (c :: behind) b cs)
    (hg : Reads (unaryFilter now (fuel + 1) field) cs g []) :
    Reads (andRest now (fuel + 2) field) mid [g] [] := by
  rw [← hmid] at hor hand
  refine reads_andRest_cons (fun hends => ?_) hand hg (reads_andRest_nil fuel)
  simpa [hparen, hbar, hor] using hends c (by rw [hmid]; rfl)

/-- What comes next is not joined to the terms in front by `or`. -/
theorem reads_orRest_end {mid : List Char} (h : startsWithKeyword "or" (afterBlanks mid) = false) :
    Reads (orRest now (fuel + 1) field) mid [] (afterBlanks mid) := by
  rw [orRest]
  exact .bind (reads_eatKeyword_false h) (.pure _ _)

theorem reads_orRest_cons {mid rest rest' : List Char} {gs : List Filter}
    (hor : startsWithKeyword "or" (afterBlanks mid) = true)
    (hg : Reads (andFilter now fuel field) ((afterBlanks mid).drop 2) g rest)
    (hgs : Reads (orRest now fuel field) rest gs rest') :
    Reads (orRest now (fuel + 1) field) mid (g :: gs) rest' := by
  rw [orRest]
  refine .bind (reads_eatKeyword_true hor) ?_
  rw [if_pos rfl]
  exact .bind hg (.bind hgs (.pure _ _))

/-- A filter and the only one that `or` joins to it. -/
theorem reads_orFilter_or {mid behind : List Char} (hmid : afterBlanks mid = 'o' :: behind)
    (hor : startsWithKeyword "or" ('o' :: behind) = true)
    (hf : Reads (unaryFilter now (fuel + 2) field) cs f mid)
    (hg : Reads (unaryFilter now (fuel + 1) field) (behind.drop 1) g []) :
    Reads (orFilter now (fuel + 4) field) cs (.or [f, g]) [] := by
  have hfront : afterBlanks ('o' :: behind) = 'o' :: behind := afterBlanks_cons (by decide) _
  have hends : EndsConjuncts (afterBlanks mid) := fun c _ => .inr (.inr (hmid ▸ hor))
  have hfirst : Reads (andFilter now (fuel + 3) field) cs f ('o' :: behind) := by
    rw [andFilter]
    exact .bind hf (.bind (hmid ▸ reads_andRest_end hends) (.pure _ _))
  have hsecond : Reads (andFilter now (fuel + 2) field) (behind.drop 1) g [] := by
    rw [andFilter]
    exact .bind hg (.bind (reads_andRest_nil fuel) (.pure _ _))
  rw [orFilter]
  refine .bind hfirst (.bind (b := [g]) ?_ (.pure _ _))
  refine reads_orRest_cons (by rw [hfront, hor]) ?_ (reads_orRest_nil (fuel + 1))
  rw [hfront]
  exact hsecond

end QueryReader

open QueryReader

namespace Query

variable {s t : String} {now : Timestamp} {f g : Filter}

/-- A text in parentheses is read as it is without them. -/
theorem parse_group (hs : IsFilter s now f) : Query.parse ("(" ++ s ++ ")") now = .ok ⟨f, []⟩ := by
  have htext : ("(" ++ s ++ ")").toList = group s ++ [] := by
    simp [group]
  refine parse_of_reads htext rfl (by decide) (by decide) ?_
  exact reads_orFilter_nil (reads_unaryFilter_group hs (by simp; omega) [])

theorem parse_bang_group (hs : IsFilter s now f) :
    Query.parse ("!(" ++ s ++ ")") now = .ok ⟨.not f, []⟩ := by
  have htext : ("!(" ++ s ++ ")").toList = '!' :: (group s ++ []) := by
    simp [group]
  refine parse_of_reads htext rfl (by decide) (by decide) ?_
  exact reads_orFilter_nil (reads_unaryFilter_bang (reads_unaryFilter_group hs (by simp; omega) []))

theorem parse_not_group (hs : IsFilter s now f) :
    Query.parse ("not (" ++ s ++ ")") now = .ok ⟨.not f, []⟩ := by
  have htext : ("not (" ++ s ++ ")").toList = "not ".toList ++ (group s ++ []) := by
    simp [group]
  refine parse_of_reads htext rfl (by decide) (by decide) ?_
  refine reads_orFilter_nil (reads_unaryFilter_not (afterBlanks_group s []) ?_)
  exact reads_unaryFilter_group hs (by simp; omega) []

theorem parse_adjacent_groups (hs : IsFilter s now f) (ht : IsFilter t now g) :
    Query.parse ("(" ++ s ++ ") (" ++ t ++ ")") now = .ok ⟨.and [f, g], []⟩ := by
  have htext : ("(" ++ s ++ ") (" ++ t ++ ")").toList = group s ++ ' ' :: (group t ++ []) := by
    simp [group]
  have hfront : afterBlanks (' ' :: (group t ++ [])) = group t ++ [] := afterBlanks_group t []
  have hand : Reads (eatKeyword "and") (group t ++ []) false (group t ++ []) := by
    have hread : Reads (eatKeyword "and") (group t ++ []) false (afterBlanks (group t ++ [])) :=
      reads_eatKeyword_false rfl
    rwa [afterBlanks_group] at hread
  refine parse_of_reads htext rfl (by decide) (by decide) ?_
  refine reads_orFilter_and (reads_unaryFilter_group hs (by simp; omega) _) ?_
  refine reads_andRest_single hfront (by decide) (by decide) rfl hand ?_
  exact reads_unaryFilter_group ht (by simp; omega) []

theorem parse_and_groups (hs : IsFilter s now f) (ht : IsFilter t now g) :
    Query.parse ("(" ++ s ++ ") and (" ++ t ++ ")") now = .ok ⟨.and [f, g], []⟩ := by
  have htext : ("(" ++ s ++ ") and (" ++ t ++ ")").toList
      = group s ++ (" and ".toList ++ (group t ++ [])) := by
    simp [group]
  have hfront : afterBlanks (" and ".toList ++ (group t ++ []))
      = 'a' :: ("nd ".toList ++ (group t ++ [])) := rfl
  refine parse_of_reads htext rfl (by decide) (by decide) ?_
  refine reads_orFilter_and (reads_unaryFilter_group hs (by simp; omega) _) ?_
  refine reads_andRest_single hfront (by decide) (by decide) rfl (reads_eatKeyword_true rfl) ?_
  refine .blank_cons ignoresBlanks_unaryFilter (afterBlanks_group t []) ?_
  exact reads_unaryFilter_group ht (by simp; omega) []

theorem parse_or_groups (hs : IsFilter s now f) (ht : IsFilter t now g) :
    Query.parse ("(" ++ s ++ ") or (" ++ t ++ ")") now = .ok ⟨.or [f, g], []⟩ := by
  have htext : ("(" ++ s ++ ") or (" ++ t ++ ")").toList
      = group s ++ (" or ".toList ++ (group t ++ [])) := by
    simp [group]
  have hfront : afterBlanks (" or ".toList ++ (group t ++ []))
      = 'o' :: ("r ".toList ++ (group t ++ [])) := rfl
  refine parse_of_reads htext rfl (by decide) (by decide) ?_
  refine reads_orFilter_or hfront rfl (reads_unaryFilter_group hs (by simp; omega) _) ?_
  refine .blank_cons ignoresBlanks_unaryFilter (afterBlanks_group t []) ?_
  exact reads_unaryFilter_group ht (by simp; omega) []

/-- **Queries are made of queries.** Texts that are filters by themselves stand for the same filters
    in parentheses, and what is written between and before the parentheses joins and negates them,
    whatever the texts hold or end with. -/
theorem parse_groups (hs : IsFilter s now f) (ht : IsFilter t now g) :
    Query.parse ("(" ++ s ++ ")") now = .ok ⟨f, []⟩ ∧
      Query.parse ("!(" ++ s ++ ")") now = .ok ⟨.not f, []⟩ ∧
      Query.parse ("not (" ++ s ++ ")") now = .ok ⟨.not f, []⟩ ∧
      Query.parse ("(" ++ s ++ ") (" ++ t ++ ")") now = .ok ⟨.and [f, g], []⟩ ∧
      Query.parse ("(" ++ s ++ ") and (" ++ t ++ ")") now = .ok ⟨.and [f, g], []⟩ ∧
      Query.parse ("(" ++ s ++ ") or (" ++ t ++ ")") now = .ok ⟨.or [f, g], []⟩ :=
  ⟨parse_group hs, parse_bang_group hs, parse_not_group hs, parse_adjacent_groups hs ht,
    parse_and_groups hs ht, parse_or_groups hs ht⟩

/-- A quoted parenthesis does not close a group, and a value may be missing in front of one that
    does. -/
theorem parse_groups_awkward :
    IsFilter "\"a)b\"" 0 (.phrase "_msg" "a)b") ∧ IsFilter "app:=" 0 (.exact "app" "") ∧
      Query.parse "(\"a)b\") or (app:=)" 0
        = .ok ⟨.or [.phrase "_msg" "a)b", .exact "app" ""], []⟩ := by
  have hs : IsFilter "\"a)b\"" 0 (.phrase "_msg" "a)b") := ⟨⟨'a', by decide, by decide⟩, by rfl⟩
  have ht : IsFilter "app:=" 0 (.exact "app" "") := ⟨⟨'a', by decide, by decide⟩, by rfl⟩
  exact ⟨hs, ht, (parse_groups hs ht).2.2.2.2.2⟩

end Query

end Logbook
