import Logbook.Proofs.Regex.Groups

set_option autoImplicit false

/-! # Expressions in front of a closing parenthesis

An alternation is read of the text in front of a closing parenthesis alone, unless the parenthesis
is read as well: in a comment, in a class, in braces or as the end of a group of the text
(`readsBefore`). -/

namespace Logbook.Regex

variable {α β : Type} {tail : List Char}

/-! ## Values in front of what is left -/

/-- What the value that is read stands for, in front of what is left. -/
def valueRead (m : Option (α × List Char)) (g : α → Option β) : Option (β × List Char) :=
  m.bind fun p => (g p.1).map fun b => (b, p.2)

theorem valueRead_eq_some_iff {m : Option (α × List Char)} {g : α → Option β} {b : β}
    {rest : List Char} :
    valueRead m g = some (b, rest) ↔ ∃ a, m = some (a, rest) ∧ g a = some b := by
  rw [valueRead, Option.bind_eq_some_iff]
  constructor
  · rintro ⟨⟨a, rest⟩, hm, h⟩
    obtain ⟨b, hb, h⟩ := Option.map_eq_some_iff.1 h
    cases h
    exact ⟨a, hm, hb⟩
  · rintro ⟨a, hm, hb⟩
    exact ⟨(a, rest), hm, Option.map_eq_some_iff.2 ⟨b, hb, rfl⟩⟩

theorem ReadsAlone.valueRead {m m' : Option (α × List Char)} (hm : ReadsAlone tail m m')
    (g : α → Option β) : ReadsAlone tail (valueRead m g) (valueRead m' g) := by
  intro b rest h
  obtain ⟨a, ha, hb⟩ := valueRead_eq_some_iff.1 h
  exact (hm a rest ha).imp_right fun ⟨before, hrest, hshort⟩ =>
    ⟨before, hrest, valueRead_eq_some_iff.2 ⟨a, hshort, hb⟩⟩

/-! ## Items -/

/-- A class after its opening bracket, and whether it is negated. -/
def readClass (f : Flags) (cs : List Char) : Option ((Bool × SetNode) × List Char) :=
  let o := readClassOpen f.verbose cs
  (readClassBody f (2 * o.2.2.length + 2) none o.2.1 o.2.2).map fun p => ((o.1, p.1), p.2)

/-- What a character that opens nothing stands for. -/
def nodeOfChar? (f : Flags) (c : Char) : Option Node :=
  if c = '.' then nodeOfDot? f
  else if c = '^' then
    some ⟨.look (if f.multiLine then .lineStart f.crlf else .textStart), 0, false⟩
  else if c = '$' then
    some ⟨.look (if f.multiLine then .lineEnd f.crlf else .textEnd), 0, false⟩
  else nodeOfAtom? f (.literal c false)

/-- How often the characters that stand for a repetition repeat. -/
def boundsOfChar? (c : Char) : Option (Nat × Option Nat) :=
  if c = '?' then some (0, some 1)
  else if c = '*' then some (0, none)
  else if c = '+' then some (1, none)
  else none

/-- An item that is no group, or the repetition of the last one, after its first character. -/
def readItem (f : Flags) (items : List Node) (c : Char) (cs : List Char) :
    Option (List Node × List Char) :=
  match boundsOfChar? c with
  | some bounds => valueRead (some (bounds, dropLazy cs)) fun b => repeatLast b.1 b.2 items
  | none =>
    if c = '{' then valueRead (readBounds f.verbose cs) fun b => repeatLast b.1 b.2 items
    else if c = '[' then
      valueRead (readClass f cs) fun o =>
        (nodeOfSet? f (.bracket o.1 o.2.set) (o.2.depth + 1)).map (· :: items)
    else if c = '\\' then valueRead (readEscape f cs) fun a => (nodeOfAtom? f a).map (· :: items)
    else valueRead (some (c, cs)) fun c => (nodeOfChar? f c).map (· :: items)

/-- The rest of the sequence behind a group that is closed. -/
def closeGroup (fuel : Nat) (items : List Node) (f : Flags) (p : Node × State) :
    Option (Node × State) :=
  match p.2.rest with
  | ')' :: rest =>
    readSequence fuel (⟨p.1.regex, p.1.depth + 1, false⟩ :: items) { p.2 with rest, flags := f }
  | _ => none

/-- What follows the opening of a group: the group, and the rest of the sequence. -/
def readGroup (fuel : Nat) (items : List Node) (f : Flags) : GroupOpen → Option (Node × State)
  | .flags s => readSequence fuel (⟨.empty, 0, true⟩ :: items) s
  | .group inner => (readAlternation fuel [] inner).bind (closeGroup fuel items f)

/-- What follows a branch: the other branches behind a vertical bar. -/
def readBranches (fuel : Nat) (branches : List Node) (p : Node × State) : Option (Node × State) :=
  match p.2.rest with
  | '|' :: rest => readAlternation fuel (p.1 :: branches) { p.2 with rest }
  | _ => some (alternationOf (p.1 :: branches), p.2)

theorem readAlternation_succ (fuel : Nat) (branches : List Node) (s : State) :
    readAlternation (fuel + 1) branches s
      = (readSequence fuel [] s).bind (readBranches fuel branches) := by
  rw [readAlternation]
  rfl

/-- One item, and the rest of the sequence. -/
theorem readSequence_succ (fuel : Nat) (items : List Node) (s : State) :
    readSequence (fuel + 1) items s
      = match skipBlanks s.flags.verbose s.rest with
        | [] => some (sequenceOf items, { s with rest := [] })
        | c :: rest =>
          if c = '|' ∨ c = ')' then some (sequenceOf items, { s with rest := c :: rest })
          else if c = '(' then (readGroupOpen s rest).bind (readGroup fuel items s.flags)
          else (readItem s.flags items c rest).bind fun p =>
            readSequence fuel p.1 { s with rest := p.2 } := by
  -- the rest of the sequence is read behind what an item leaves
  have hitems : ∀ {α : Type} (m : Option (α × List Char)) (g : α → Option (List Node)),
      (m.bind fun p => (g p.1).bind fun items => readSequence fuel items { s with rest := p.2 })
        = (valueRead m g).bind fun p => readSequence fuel p.1 { s with rest := p.2 } := by
    intro α m g
    cases m with
    | none => rfl
    | some p =>
      rw [valueRead, Option.bind_some, Option.bind_some, Option.bind_map]
      rfl
  have hnode : ∀ {α : Type} (m : Option (α × List Char)) (g : α → Option Node),
      (m.bind fun p => (g p.1).bind fun n => readSequence fuel (n :: items) { s with rest := p.2 })
        = (valueRead m fun a => (g a).map (· :: items)).bind fun p =>
          readSequence fuel p.1 { s with rest := p.2 } := by
    intro α m g
    rw [← hitems]
    simp only [Option.bind_map, Function.comp_def]
  rw [readSequence]
  split
  · next heq => rw [heq]
  · next heq =>
    rw [heq]
    rfl
  · next heq =>
    rw [heq]
    rfl
  · next heq =>
    rw [heq]
    refine congrArg (Option.bind _) (funext fun g => ?_)
    cases g <;> rfl
  · next rest heq =>
    rw [heq]
    refine Eq.trans ?_ (hnode (readClass s.flags rest) fun o =>
      nodeOfSet? s.flags (.bracket o.1 o.2.set) (o.2.depth + 1))
    rw [readClass, Option.bind_map]
    rfl
  · next rest heq =>
    rw [heq]
    exact hitems (some ((0, some 1), dropLazy rest)) fun b => repeatLast b.1 b.2 items
  · next rest heq =>
    rw [heq]
    exact hitems (some ((0, none), dropLazy rest)) fun b => repeatLast b.1 b.2 items
  · next rest heq =>
    rw [heq]
    exact hitems (some ((1, none), dropLazy rest)) fun b => repeatLast b.1 b.2 items
  · next rest heq =>
    rw [heq, readCounts_eq]
    exact (Option.bind_map ..).trans
      (hitems (readBounds s.flags.verbose rest) fun b => repeatLast b.1 b.2 items)
  · next rest heq =>
    rw [heq]
    exact hnode (readEscape s.flags rest) (nodeOfAtom? s.flags)
  · next rest heq =>
    rw [heq]
    exact hnode (some ('.', rest)) (nodeOfChar? s.flags)
  · next heq =>
    rw [heq]
    rfl
  · next heq =>
    rw [heq]
    rfl
  · next c rest hbar hclose hopen hclass hquestion hstar hplus hbrace hescape hdot hstart hend
      heq =>
    have hchar : nodeOfChar? s.flags c = nodeOfAtom? s.flags (.literal c false) := by
      rw [nodeOfChar?, if_neg hdot, if_neg hstart, if_neg hend]
    have hsingle : readItem s.flags items c rest
        = valueRead (some (c, rest)) fun c => (nodeOfChar? s.flags c).map (· :: items) := by
      simp only [readItem, boundsOfChar?, if_neg hclass, if_neg hquestion, if_neg hstar,
        if_neg hplus, if_neg hbrace, if_neg hescape]
    rw [heq, ← hchar]
    dsimp only
    rw [if_neg (not_or.2 ⟨hbar, hclose⟩), if_neg hopen, hsingle]
    exact hnode (some (c, rest)) (nodeOfChar? s.flags)

/-! ## What is left -/

theorem readClass_suffix {f : Flags} {cs rest : List Char} {o : Bool × SetNode}
    (h : readClass f cs = some (o, rest)) : rest <:+ cs := by
  obtain ⟨⟨inner, rest⟩, hinner, h⟩ := Option.map_eq_some_iff.1 h
  cases h
  exact (readClassBody_suffix hinner).trans (suffix_of_skip (readClassOpen_suffix ..))

theorem readsAlone_readClass (f : Flags) (cs : List Char) :
    ReadsAlone tail (readClass f cs) (readClass f (cs ++ ')' :: tail)) := by
  obtain hpast | hopen := readClassOpen_append f.verbose tail cs
  · refine .of_suffix fun _ _ h => ?_
    obtain ⟨⟨inner, rest⟩, hinner, h⟩ := Option.map_eq_some_iff.1 h
    cases h
    exact (readClassBody_suffix hinner).trans hpast
  · rw [readClass, readClass, hopen]
    exact (readsAlone_readClassBody f none _ (by omega)).map _

theorem readItem_suffix {f : Flags} {items items' : List Node} {c : Char} {cs rest : List Char}
    (h : readItem f items c cs = some (items', rest)) : rest <:+ cs := by
  rw [readItem] at h
  split at h
  · obtain ⟨_, ⟨⟩, -⟩ := valueRead_eq_some_iff.1 h
    exact dropLazy_suffix cs
  · split at h
    · obtain ⟨bounds, hbounds, -⟩ := valueRead_eq_some_iff.1 h
      exact suffix_of_skip (readBounds_suffix hbounds)
    · split at h
      · obtain ⟨o, ho, -⟩ := valueRead_eq_some_iff.1 h
        exact readClass_suffix ho
      · split at h
        · obtain ⟨a, ha, -⟩ := valueRead_eq_some_iff.1 h
          exact (readEscape_suffix ha).trans (List.tail_suffix cs)
        · obtain ⟨_, ⟨⟩, -⟩ := valueRead_eq_some_iff.1 h
          exact List.suffix_rfl

theorem readsAlone_readItem {f : Flags} {items : List Node} {c : Char} (hc : c ≠ '\\')
    (cs : List Char) :
    ReadsAlone tail (readItem f items c cs) (readItem f items c (cs ++ ')' :: tail)) := by
  rw [readItem, readItem]
  split
  · rw [dropLazy_append]
    exact (ReadsAlone.of_some _ (dropLazy cs)).valueRead _
  · refine .ite ((readsAlone_readBounds f.verbose cs).valueRead _) ?_
    refine .ite ((readsAlone_readClass f cs).valueRead _) ?_
    rw [if_neg hc, if_neg hc]
    exact (ReadsAlone.of_some c cs).valueRead _

theorem readItem_escape (f : Flags) (items : List Node) (cs : List Char) :
    readItem f items '\\' cs
      = valueRead (readEscape f cs) fun a => (nodeOfAtom? f a).map (· :: items) :=
  rfl

/-- An item is read of the text alone, unless the parenthesis is read as well; only a brace after a
    word boundary is no part of it in front of blanks and the parenthesis. -/
theorem readItem_append {f : Flags} {items items' : List Node} {c : Char} {cs rest : List Char}
    (h : readItem f items c (cs ++ ')' :: tail) = some (items', rest)) :
    (rest <:+ tail ∨
      ∃ before, rest = before ++ ')' :: tail ∧ readItem f items c cs = some (items', before)) ∨
      ∃ ds, skipBlanks f.verbose ds = [] ∧ rest = '{' :: ds ++ ')' :: tail := by
  by_cases hc : c = '\\'
  · subst hc
    rw [readItem_escape] at h ⊢
    obtain ⟨a, ha, hitems⟩ := valueRead_eq_some_iff.1 h
    obtain hread | ⟨ds, -, hds, -, hrest⟩ := readEscape_append ha
    · exact .inl (hread.imp_right fun ⟨before, hrest, hshort⟩ =>
        ⟨before, hrest, valueRead_eq_some_iff.2 ⟨a, hshort, hitems⟩⟩)
    · exact .inr ⟨ds, hds, hrest⟩
  · exact .inl (readsAlone_readItem hc cs _ _ h)

/-- What is left of alternatives and of a sequence is the end of the text. -/
structure LeavesSuffix (fuel : Nat) : Prop where
  alternation : ∀ {branches s n s'},
    readAlternation fuel branches s = some (n, s') → s'.rest <:+ s.rest
  sequence : ∀ {items s n s'},
    readSequence fuel items s = some (n, s') → s'.rest <:+ skipBlanks s.flags.verbose s.rest

theorem LeavesSuffix.branches {fuel : Nat} (h : LeavesSuffix fuel) {branches : List Node}
    {m n : Node} {after s' : State}
    (hbranches : readBranches fuel branches (m, after) = some (n, s')) :
    s'.rest <:+ after.rest := by
  unfold readBranches at hbranches
  split at hbranches
  · next rest hrest =>
    dsimp only at hrest
    rw [hrest]
    exact (h.alternation hbranches).trans (List.suffix_cons ..)
  · cases hbranches
    exact List.suffix_rfl

theorem exists_of_closeGroup {fuel : Nat} {items : List Node} {f : Flags} {n : Node} {s : State}
    {p : Node × State} (h : closeGroup fuel items f (n, s) = some p) :
    ∃ ds, s.rest = ')' :: ds := by
  unfold closeGroup at h
  split at h
  · next ds hds => exact ⟨ds, hds⟩
  · cases h

theorem LeavesSuffix.closeGroup {fuel : Nat} (h : LeavesSuffix fuel) {items : List Node}
    {f : Flags} {m n : Node} {after s' : State}
    (hclose : closeGroup fuel items f (m, after) = some (n, s')) : s'.rest <:+ after.rest := by
  unfold Regex.closeGroup at hclose
  split at hclose
  · next rest hrest =>
    dsimp only at hrest
    rw [hrest]
    exact (suffix_of_skip (h.sequence hclose)).trans (List.suffix_cons ..)
  · cases hclose

theorem LeavesSuffix.group {fuel : Nat} (h : LeavesSuffix fuel) {items : List Node} {f : Flags}
    {g : GroupOpen} {n : Node} {s' : State} (hgroup : readGroup fuel items f g = some (n, s')) :
    s'.rest <:+ g.state.rest := by
  cases g with
  | flags s => exact suffix_of_skip (h.sequence hgroup)
  | group inner =>
    obtain ⟨⟨m, after⟩, hinner, hclose⟩ := Option.bind_eq_some_iff.1 hgroup
    exact (h.closeGroup hclose).trans (h.alternation hinner)

theorem leavesSuffix (fuel : Nat) : LeavesSuffix fuel := by
  induction fuel with
  | zero => exact ⟨nofun, nofun⟩
  | succ fuel ih =>
    refine ⟨fun {branches s n s'} h => ?_, fun {items s n s'} h => ?_⟩
    · rw [readAlternation_succ] at h
      obtain ⟨⟨m, after⟩, hsequence, h⟩ := Option.bind_eq_some_iff.1 h
      exact (ih.branches h).trans (suffix_of_skip (ih.sequence hsequence))
    · rw [readSequence_succ] at h
      split at h
      · cases h
        exact List.nil_suffix
      · next c cs hskip =>
        rw [hskip]
        split at h
        · cases h
          exact List.suffix_rfl
        · refine List.IsSuffix.trans ?_ (List.suffix_cons c cs)
          split at h
          · obtain ⟨g, hg, h⟩ := Option.bind_eq_some_iff.1 h
            exact (ih.group h).trans (suffix_of_skip (readGroupOpen_suffix hg))
          · obtain ⟨⟨items', mid⟩, hitem, h⟩ := Option.bind_eq_some_iff.1 h
            exact (suffix_of_skip (ih.sequence h)).trans (readItem_suffix hitem)

/-! ## In front of a parenthesis -/

/-- At the end of the text there are no bounds behind a brace. -/
theorem readSequence_brace {fuel : Nat} {items : List Node} {s : State} {cs : List Char}
    (hcs : skipBlanks s.flags.verbose cs = []) :
    readSequence fuel items { s with rest := '{' :: cs } = none := by
  have hbrace : skipBlanks s.flags.verbose ('{' :: cs) = '{' :: cs := by
    cases s.flags.verbose <;> rfl
  have hbounds : readBounds s.flags.verbose cs = none := by
    rw [readBounds, hcs]
    rfl
  have hitem : readItem s.flags items '{' cs
      = valueRead (readBounds s.flags.verbose cs) fun b => repeatLast b.1 b.2 items := rfl
  cases fuel with
  | zero => rfl
  | succ fuel =>
    rw [readSequence_succ]
    dsimp only
    rw [hbrace]
    dsimp only
    rw [if_neg (by decide), if_neg (by decide), hitem, hbounds]
    rfl

/-- What `long` reads with a parenthesis and `tail` behind the text, `short` reads of the text
    alone, unless the parenthesis is read as well. -/
def StopsAlone (tail : List Char) (short long : Option (Node × State)) : Prop :=
  ∀ n s', long = some (n, s') →
    s'.rest <:+ tail ∨ ∃ t, s' = t.append (')' :: tail) ∧ short = some (n, t)

/-- Alternatives and sequences that end in front of the parenthesis are read of the text alone. -/
structure ReadsBefore (tail : List Char) (fuel' : Nat) : Prop where
  alternation : ∀ {fuel branches s}, 2 * s.rest.length + 2 ≤ fuel →
    StopsAlone tail (readAlternation fuel branches s)
      (readAlternation fuel' branches (s.append (')' :: tail)))
  sequence : ∀ {fuel items s}, 2 * s.rest.length + 1 ≤ fuel →
    StopsAlone tail (readSequence fuel items s) (readSequence fuel' items (s.append (')' :: tail)))

theorem ReadsBefore.closeGroup {fuel fuel' : Nat} (h : ReadsBefore tail fuel')
    {items : List Node} {f : Flags} {m : Node} {t : State} (hfuel : 2 * t.rest.length ≤ fuel) :
    StopsAlone tail (closeGroup fuel items f (m, t))
      (closeGroup fuel' items f (m, t.append (')' :: tail))) := by
  intro n s' hlong
  obtain ⟨rest, flags, names⟩ := t
  cases rest with
  | nil => exact .inl (suffix_of_skip ((leavesSuffix fuel').sequence hlong))
  | cons c ds =>
    by_cases hc : c = ')'
    · subst hc
      refine h.sequence (s := ⟨ds, f, names⟩) ?_ n s' hlong
      rw [List.length_cons] at hfuel
      dsimp only
      omega
    · obtain ⟨es, hes⟩ := exists_of_closeGroup hlong
      exact absurd (List.cons.inj hes).1 hc

theorem ReadsBefore.group {fuel fuel' : Nat} (h : ReadsBefore tail fuel') {items : List Node}
    {f : Flags} {g : GroupOpen} (hfuel : 2 * g.state.rest.length + 2 ≤ fuel) :
    StopsAlone tail (readGroup fuel items f g)
      (readGroup fuel' items f (g.append (')' :: tail))) := by
  cases g with
  | flags s => exact h.sequence (Nat.le_of_succ_le hfuel)
  | group inner =>
    intro n s' hlong
    obtain ⟨⟨m, after⟩, hinner, hclose⟩ := Option.bind_eq_some_iff.1 hlong
    obtain hpast | ⟨t, rfl, hshort⟩ := h.alternation (s := inner) hfuel m after hinner
    · exact .inl (((leavesSuffix fuel').closeGroup hclose).trans hpast)
    · rw [readGroup, hshort]
      refine h.closeGroup ?_ n s' hclose
      have hlength : t.rest.length ≤ inner.rest.length :=
        ((leavesSuffix fuel).alternation hshort).length_le
      change 2 * inner.rest.length + 2 ≤ fuel at hfuel
      omega

theorem ReadsBefore.branches {fuel fuel' : Nat} (h : ReadsBefore tail fuel')
    {branches : List Node} {m : Node} {t : State} (hfuel : 2 * t.rest.length ≤ fuel) :
    StopsAlone tail (readBranches fuel branches (m, t))
      (readBranches fuel' branches (m, t.append (')' :: tail))) := by
  intro n s' hlong
  obtain ⟨rest, flags, names⟩ := t
  cases rest with
  | nil =>
    cases hlong
    exact .inr ⟨_, rfl, rfl⟩
  | cons c ds =>
    by_cases hc : c = '|'
    · subst hc
      refine h.alternation (s := ⟨ds, flags, names⟩) ?_ n s' hlong
      rw [List.length_cons] at hfuel
      dsimp only
      omega
    · have hstop : ∀ fuel es, readBranches fuel branches (m, ⟨c :: es, flags, names⟩)
          = some (alternationOf (m :: branches), ⟨c :: es, flags, names⟩) := by
        intro fuel es
        unfold readBranches
        split
        · next heq => exact absurd (List.cons.inj heq).1 hc
        · rfl
      cases (hstop fuel' (ds ++ ')' :: tail)).symm.trans hlong
      exact .inr ⟨_, rfl, hstop fuel ds⟩

theorem ReadsBefore.alternation_succ {fuel' : Nat} (h : ReadsBefore tail fuel') {fuel : Nat}
    {branches : List Node} {s : State} (hfuel : 2 * s.rest.length + 2 ≤ fuel) :
    StopsAlone tail (readAlternation fuel branches s)
      (readAlternation (fuel' + 1) branches (s.append (')' :: tail))) := by
  obtain ⟨fuel, rfl⟩ := Nat.exists_eq_add_of_lt (Nat.zero_lt_of_lt hfuel)
  intro n s' hlong
  rw [readAlternation_succ] at hlong ⊢
  obtain ⟨⟨m, after⟩, hsequence, hlong⟩ := Option.bind_eq_some_iff.1 hlong
  obtain hpast | ⟨t, rfl, hshort⟩ := h.sequence (Nat.le_of_succ_le_succ hfuel) m after hsequence
  · exact .inl (((leavesSuffix fuel').branches hlong).trans hpast)
  · rw [hshort]
    refine h.branches ?_ n s' hlong
    have := (suffix_of_skip ((leavesSuffix _).sequence hshort)).length_le
    omega

theorem ReadsBefore.sequence_succ {fuel' : Nat} (h : ReadsBefore tail fuel') {fuel : Nat}
    {items : List Node} {s : State} (hfuel : 2 * s.rest.length + 1 ≤ fuel) :
    StopsAlone tail (readSequence fuel items s)
      (readSequence (fuel' + 1) items (s.append (')' :: tail))) := by
  obtain ⟨fuel, rfl⟩ := Nat.exists_eq_add_of_lt (Nat.zero_lt_of_lt hfuel)
  intro n s' hlong
  obtain heq | ⟨-, hpast⟩ := skipBlanks_append s.flags.verbose tail s.rest
  swap
  · exact .inl (((leavesSuffix _).sequence hlong).trans hpast)
  have hlength := (skipBlanks_suffix s.flags.verbose s.rest).length_le
  rw [readSequence_succ] at hlong ⊢
  change skipBlanks (s.append (')' :: tail)).flags.verbose (s.append (')' :: tail)).rest = _ at heq
  rw [heq] at hlong
  cases hskip : skipBlanks s.flags.verbose s.rest with
  | nil =>
    rw [hskip] at hlong
    cases hlong
    exact .inr ⟨{ s with rest := [] }, rfl, rfl⟩
  | cons c cs =>
    rw [hskip] at hlong hlength
    dsimp only [List.cons_append] at hlong ⊢
    split at hlong
    · next hstop =>
      rw [if_pos hstop]
      cases hlong
      exact .inr ⟨{ s with rest := c :: cs }, rfl, rfl⟩
    · next hstop =>
      rw [if_neg hstop]
      split at hlong
      · next hopen =>
        rw [if_pos hopen]
        obtain ⟨g, hg, hlong⟩ := Option.bind_eq_some_iff.1 hlong
        obtain hpast | ⟨o, rfl, ho⟩ := readGroupOpen_append (s := s) hg
        · exact .inl (((leavesSuffix fuel').group hlong).trans hpast)
        · rw [ho]
          refine h.group ?_ n s' hlong
          have := (suffix_of_skip (readGroupOpen_suffix ho)).length_le
          rw [List.length_cons] at hlength
          omega
      · next hopen =>
        rw [if_neg hopen]
        obtain ⟨⟨items', mid⟩, hitem, hlong⟩ := Option.bind_eq_some_iff.1 hlong
        obtain (hpast | ⟨before, rfl, hshort⟩) | ⟨ds, hds, rfl⟩ :=
          readItem_append (f := s.flags) hitem
        · exact .inl ((suffix_of_skip ((leavesSuffix fuel').sequence hlong)).trans hpast)
        · rw [hshort]
          refine h.sequence (s := { s with rest := before }) ?_ n s' hlong
          have := (readItem_suffix hshort).length_le
          rw [List.length_cons] at hlength
          dsimp only
          omega
        · -- of the text alone nothing is read of the brace
          obtain hpast | ⟨t, -, hshort⟩ :=
            h.sequence (s := { s with rest := '{' :: ds }) (Nat.le_refl _) n s' hlong
          · exact .inl hpast
          · exact nomatch (readSequence_brace hds).symm.trans hshort

theorem readsBefore (tail : List Char) (fuel' : Nat) : ReadsBefore tail fuel' := by
  induction fuel' with
  | zero => exact ⟨fun _ => nofun, fun _ => nofun⟩
  | succ fuel' ih => exact ⟨ih.alternation_succ, ih.sequence_succ⟩

end Logbook.Regex
