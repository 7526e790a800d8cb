import Logbook.Proofs.Regex.Escapes
import Logbook.Regex.Bracket

set_option autoImplicit false

/-! # Classes in front of a closing parenthesis

A class in brackets that ends in front of a closing parenthesis is read of the text in front of the
parenthesis alone (`readsAlone_readClassBody`). The readers of its members look one character ahead,
so that they need not fail where the text ends behind a member; the class as a whole fails there. -/

namespace Logbook.Regex

variable {tail : List Char}

/-! ## Members -/

theorem readClassAtom_suffix {f : Flags} {cs rest : List Char} {a : Atom}
    (h : readClassAtom f cs = some (a, rest)) : rest <:+ cs.tail := by
  unfold readClassAtom at h
  split at h
  · cases h
  · next ds => exact (readEscape_suffix h).trans (List.tail_suffix ds)
  · cases h
    exact List.suffix_rfl

/-- An atom is read of the text alone, unless it is a test of the surroundings. -/
theorem readClassAtom_append {f : Flags} {cs rest : List Char} {a : Atom}
    (h : readClassAtom f (cs ++ ')' :: tail) = some (a, rest)) :
    (rest <:+ tail ∨
      ∃ before, rest = before ++ ')' :: tail ∧ readClassAtom f cs = some (a, before)) ∨
      ∃ l, a = .look l := by
  cases cs with
  | nil => exact .inl (.inl (readClassAtom_suffix h))
  | cons c cs =>
    by_cases hc : c = '\\'
    · subst hc
      obtain hread | ⟨ds, -, -, hl, -⟩ := readEscape_append h
      · exact .inl hread
      · exact .inr ⟨_, hl⟩
    · have hplain : ∀ es, readClassAtom f (c :: es) = some (.literal c false, es) := by
        intro es
        unfold readClassAtom
        split
        · next heq => cases heq
        · next heq => exact absurd (List.cons.inj heq).1 hc
        · next heq =>
          obtain ⟨rfl, rfl⟩ := List.cons.inj heq
          rfl
      rw [List.cons_append, hplain] at h
      cases h
      exact .inl (.inr ⟨cs, rfl, hplain cs⟩)

theorem setOfAtom?_look (f : Flags) (l : Look) : setOfAtom? f (.look l) = none :=
  rfl

/-! ## Ranges -/

/-- The range between two atoms. -/
def rangeOf? (f : Flags) : Atom → Atom → Option ClassSet
  | .literal lo b, .literal hi b' =>
    if lo ≤ hi ∧ literalAllowed f lo b ∧ literalAllowed f hi b' then some (.range lo hi) else none
  | _, _ => none

theorem rangeOf?_look_right (f : Flags) (a : Atom) (l : Look) : rangeOf? f a (.look l) = none := by
  cases a <;> rfl

section

variable {f : Flags} {a : Atom} {cs mid : List Char}

theorem readClassRange_of_nil (hatom : readClassAtom f cs = some (a, mid))
    (hskip : skipBlanks f.verbose mid = []) : readClassRange f cs = none := by
  rw [readClassRange, hatom]
  dsimp only [Option.bind_eq_bind, Option.bind_some]
  rw [hskip]

/-- A member that no hyphen follows stands alone. -/
theorem readClassRange_of_cons (hatom : readClassAtom f cs = some (a, mid)) {c : Char}
    {ds : List Char} (hskip : skipBlanks f.verbose mid = c :: ds) (hc : c ≠ '-') :
    readClassRange f cs = (setOfAtom? f a).map fun set => (set, c :: ds) := by
  rw [readClassRange, hatom]
  dsimp only [Option.bind_eq_bind, Option.bind_some]
  rw [hskip]
  split
  · next heq => cases heq
  · next heq => exact absurd (List.cons.inj heq).1 hc
  · cases setOfAtom? f a <;> rfl

/-- A hyphen in front of the end of the class or of another hyphen makes no range. -/
theorem readClassRange_of_hyphen (hatom : readClassAtom f cs = some (a, mid)) {ds : List Char}
    (hskip : skipBlanks f.verbose mid = '-' :: ds) :
    readClassRange f cs
      = if peekBlanks? f.verbose ds = some ']' ∨ peekBlanks? f.verbose ds = some '-'
        then (setOfAtom? f a).map fun set => (set, '-' :: ds)
        else do
          let (b, rest) ← readClassAtom f (skipBlanks f.verbose ds)
          let set ← rangeOf? f a b
          return (set, rest) := by
  rw [readClassRange, hatom]
  dsimp only [Option.bind_eq_bind, Option.bind_some]
  rw [hskip]
  split
  · next heq => cases heq
  · next heq =>
    obtain rfl := (List.cons.inj heq).2
    split
    · cases setOfAtom? f a <;> rfl
    · refine congrArg (Option.bind _) (funext fun p => ?_)
      obtain ⟨b, rest⟩ := p
      cases a <;> cases b <;> try rfl
      -- two characters
      dsimp only [rangeOf?]
      split <;> rfl
  · next hnot => exact absurd rfl (hnot ds)

/-- What a member or a range leaves is the end of what follows its first atom and blanks. -/
theorem readClassRange_suffix_of_atom {rest : List Char} {set : ClassSet}
    (hatom : readClassAtom f cs = some (a, mid)) (h : readClassRange f cs = some (set, rest)) :
    rest <:+ skipBlanks f.verbose mid := by
  cases hskip : skipBlanks f.verbose mid with
  | nil => rw [readClassRange_of_nil hatom hskip] at h; cases h
  | cons c ds =>
    by_cases hc : c = '-'
    · subst hc
      rw [readClassRange_of_hyphen hatom hskip] at h
      split at h
      · obtain ⟨s, -, h⟩ := Option.map_eq_some_iff.1 h
        cases h
        exact List.suffix_rfl
      · obtain ⟨b, hb⟩ := exists_of_value h
        exact (suffix_of_skip ((readClassAtom_suffix hb).trans (List.tail_suffix _))).trans
          (List.suffix_cons ..)
    · rw [readClassRange_of_cons hatom hskip hc] at h
      obtain ⟨s, -, h⟩ := Option.map_eq_some_iff.1 h
      cases h
      exact List.suffix_rfl

theorem readClassRange_suffix {rest : List Char} {set : ClassSet}
    (h : readClassRange f cs = some (set, rest)) : rest <:+ cs.tail := by
  obtain ⟨⟨a, mid⟩, hatom, -⟩ := Option.bind_eq_some_iff.1 h
  exact (suffix_of_skip (readClassRange_suffix_of_atom hatom h)).trans (readClassAtom_suffix hatom)

/-- Tests of the surroundings are no members. -/
theorem readClassRange_look {l : Look} (hatom : readClassAtom f cs = some (.look l, mid)) :
    readClassRange f cs = none := by
  cases hskip : skipBlanks f.verbose mid with
  | nil => exact readClassRange_of_nil hatom hskip
  | cons c ds =>
    by_cases hc : c = '-'
    · subst hc
      rw [readClassRange_of_hyphen hatom hskip, setOfAtom?_look]
      split
      · rfl
      · cases readClassAtom f (skipBlanks f.verbose ds) <;> rfl
    · rw [readClassRange_of_cons hatom hskip hc]
      rfl

end

/-- A member or a range is read of the text alone if more than the parenthesis is left. -/
theorem readClassRange_append {f : Flags} {cs rest : List Char} {set : ClassSet}
    (h : readClassRange f (cs ++ ')' :: tail) = some (set, rest)) :
    rest <:+ ')' :: tail ∨
      ∃ before, rest = before ++ ')' :: tail ∧ readClassRange f cs = some (set, before) := by
  obtain ⟨⟨a, mid⟩, hatom, -⟩ := Option.bind_eq_some_iff.1 h
  have hrest := readClassRange_suffix_of_atom hatom h
  obtain (hpast | ⟨before, rfl, hshort⟩) | ⟨l, rfl⟩ := readClassAtom_append hatom
  · exact .inl ((suffix_of_skip hrest).trans (hpast.trans (List.suffix_cons ..)))
  · obtain heq | ⟨-, hpast⟩ := skipBlanks_append f.verbose tail before
    · cases hds : skipBlanks f.verbose before with
      | nil =>
        rw [heq, hds] at hrest
        exact .inl hrest
      | cons c ds =>
        rw [hds, List.cons_append] at heq
        by_cases hc : c = '-'
        · subst hc
          have hread := readClassRange_of_hyphen hshort hds
          simp only [readClassRange_of_hyphen hatom heq,
            peekBlanks?_append_eq_some_iff _ (show ']' ≠ ')' by decide),
            peekBlanks?_append_eq_some_iff _ (show '-' ≠ ')' by decide)] at h
          by_cases hnext : peekBlanks? f.verbose ds = some ']' ∨ peekBlanks? f.verbose ds = some '-'
          · rw [if_pos hnext] at h hread
            obtain ⟨s, hs, h⟩ := Option.map_eq_some_iff.1 h
            cases h
            exact .inr ⟨'-' :: ds, rfl, by rw [hread, hs]; rfl⟩
          · rw [if_neg hnext] at h hread
            obtain ⟨⟨b, mid'⟩, hb, h⟩ := Option.bind_eq_some_iff.1 h
            obtain ⟨s, hs, h⟩ := Option.bind_eq_some_iff.1 h
            cases h
            obtain heq' | ⟨-, hpast⟩ := skipBlanks_append f.verbose tail ds
            · rw [heq'] at hb
              obtain (hpast | ⟨before, rfl, hb'⟩) | ⟨l, rfl⟩ := readClassAtom_append hb
              · exact .inl (hpast.trans (List.suffix_cons ..))
              · refine .inr ⟨before, rfl, ?_⟩
                rw [hread, hb']
                exact Option.bind_eq_some_iff.2 ⟨_, rfl, Option.bind_eq_some_iff.2 ⟨set, hs, rfl⟩⟩
              · rw [rangeOf?_look_right] at hs
                cases hs
            · have hmid := (readClassAtom_suffix hb).trans ((List.tail_suffix _).trans hpast)
              exact .inl (hmid.trans (List.suffix_cons ..))
        · rw [readClassRange_of_cons hatom heq hc] at h
          rw [readClassRange_of_cons hshort hds hc]
          obtain ⟨s, hs, h⟩ := Option.map_eq_some_iff.1 h
          cases h
          exact .inr ⟨c :: ds, rfl, by rw [hs]; rfl⟩
    · exact .inl (hrest.trans (hpast.trans (List.suffix_cons ..)))
  · rw [readClassRange_look hatom] at h
    cases h

/-! ## The parts of a class -/

/-- A class between colons after its first colon and the sign of its negation. -/
def readPosixName? (negated : Bool) (cs : List Char) : Option (ClassSet × List Char) :=
  let name := cs.takeWhile (· ≠ ':')
  match cs.drop name.length with
  | ':' :: ']' :: after =>
    (Posix.all.find? (·.name == String.ofList name)).map fun k => (.posix k negated, after)
  | _ => none

theorem readPosix?_colon {cs : List Char} (h : ∀ ds, cs ≠ '^' :: ds) :
    readPosix? (':' :: cs) = readPosixName? false cs := by
  rw [readPosix?]
  · rfl
  · exact h

theorem readPosix?_of_ne {cs : List Char} (h : ∀ ds, cs ≠ ':' :: ds) : readPosix? cs = none := by
  unfold readPosix?
  split
  · exact absurd rfl (h _)
  · rfl

/-- No class has a parenthesis in its name. -/
theorem find?_name_eq_none {name : List Char} (h : ')' ∈ name) :
    Posix.all.find? (·.name == String.ofList name) = none := by
  have hnames : ∀ k ∈ Posix.all, ')' ∉ k.name.toList := by decide
  refine List.find?_eq_none.2 fun k hk heq => hnames k hk ?_
  rw [beq_iff_eq.1 heq, String.toList_ofList]
  exact h

theorem readPosixName?_suffix {negated : Bool} {cs rest : List Char} {set : ClassSet}
    (h : readPosixName? negated cs = some (set, rest)) : rest <:+ cs := by
  unfold readPosixName? at h
  dsimp only at h
  split at h
  · next after heq =>
    obtain ⟨k, -, h⟩ := Option.map_eq_some_iff.1 h
    cases h
    have hdrop := List.drop_suffix (cs.takeWhile (· ≠ ':')).length cs
    rw [heq] at hdrop
    exact ((List.suffix_cons ..).trans (List.suffix_cons ..)).trans hdrop
  · cases h

theorem takeWhile_ne_colon {name : List Char} (h : ':' ∉ name) (cs : List Char) :
    (name ++ cs).takeWhile (· ≠ ':') = name ++ cs.takeWhile (· ≠ ':') :=
  List.takeWhile_append_of_pos fun _ hc => decide_eq_true fun heq => h (heq ▸ hc)

theorem readPosixName?_colon (negated : Bool) {name : List Char} (h : ':' ∉ name)
    (cs : List Char) :
    readPosixName? negated (name ++ ':' :: cs)
      = match cs with
        | ']' :: after =>
          (Posix.all.find? (·.name == String.ofList name)).map fun k => (.posix k negated, after)
        | _ => none := by
  have hname : (name ++ ':' :: cs).takeWhile (· ≠ ':') = name :=
    (takeWhile_ne_colon h _).trans (List.append_nil name)
  unfold readPosixName?
  rw [hname]
  dsimp only
  rw [List.drop_left]
  cases cs with
  | nil => rfl
  | cons c cs =>
    by_cases hc : c = ']'
    · subst hc
      rfl
    · split
      · next heq => exact absurd (List.cons.inj (List.cons.inj heq).2).1 hc
      · split
        · next heq => exact absurd (List.cons.inj heq).1 hc
        · rfl

theorem readPosixName?_of_not_mem (negated : Bool) {cs : List Char} (h : ':' ∉ cs) :
    readPosixName? negated cs = none := by
  have hall : cs.takeWhile (· ≠ ':') = cs := by
    simpa using takeWhile_ne_colon h []
  unfold readPosixName?
  rw [hall]
  dsimp only
  rw [List.drop_length]

theorem readPosixName?_append (negated : Bool) (cs : List Char) :
    readPosixName? negated (cs ++ ')' :: tail)
      = (readPosixName? negated cs).map fun (set, rest) => (set, rest ++ ')' :: tail) := by
  by_cases h : ':' ∈ cs
  · obtain ⟨name, ds, rfl, hname⟩ := List.eq_append_cons_of_mem h
    rw [List.append_assoc, List.cons_append, readPosixName?_colon negated hname,
      readPosixName?_colon negated hname]
    cases ds with
    | nil => rfl
    | cons c ds =>
      by_cases hc : c = ']'
      · subst hc
        cases hfind : Posix.all.find? (·.name == String.ofList name) <;> rfl
      · rw [List.cons_append]
        split
        · next heq => exact absurd (List.cons.inj heq).1 hc
        · split
          · next heq => exact absurd (List.cons.inj heq).1 hc
          · rfl
  · rw [readPosixName?_of_not_mem negated h, Option.map_none]
    by_cases htail : ':' ∈ tail
    · -- the parenthesis would be part of the name
      obtain ⟨as, ds, rfl, has⟩ := List.eq_append_cons_of_mem htail
      have hname : ':' ∉ cs ++ ')' :: as := by simp [h, has]
      have heq : cs ++ ')' :: (as ++ ':' :: ds) = (cs ++ ')' :: as) ++ ':' :: ds := by simp
      rw [heq, readPosixName?_colon negated hname, find?_name_eq_none (by simp)]
      split <;> rfl
    · exact readPosixName?_of_not_mem negated (by simp [h, htail])

theorem readPosix?_suffix {cs rest : List Char} {set : ClassSet}
    (h : readPosix? cs = some (set, rest)) : rest <:+ cs := by
  by_cases hcolon : ∃ ds, cs = ':' :: ds
  · obtain ⟨ds, rfl⟩ := hcolon
    by_cases hcaret : ∃ es, ds = '^' :: es
    · obtain ⟨es, rfl⟩ := hcaret
      exact ((readPosixName?_suffix h).trans (List.suffix_cons ..)).trans (List.suffix_cons ..)
    · rw [readPosix?_colon (not_exists.1 hcaret)] at h
      exact (readPosixName?_suffix h).trans (List.suffix_cons ..)
  · rw [readPosix?_of_ne (not_exists.1 hcolon)] at h
    cases h

theorem readPosix?_append (cs : List Char) :
    readPosix? (cs ++ ')' :: tail)
      = (readPosix? cs).map fun (set, rest) => (set, rest ++ ')' :: tail) := by
  by_cases hcolon : ∃ ds, cs = ':' :: ds
  · obtain ⟨ds, rfl⟩ := hcolon
    by_cases hcaret : ∃ es, ds = '^' :: es
    · obtain ⟨es, rfl⟩ := hcaret
      exact readPosixName?_append true es
    · have hne : ∀ es, ds ++ ')' :: tail ≠ '^' :: es :=
        append_ne_cons (by decide) (not_exists.1 hcaret)
      rw [List.cons_append, readPosix?_colon hne, readPosix?_colon (not_exists.1 hcaret)]
      exact readPosixName?_append false ds
  · have hne : ∀ ds, cs ++ ')' :: tail ≠ ':' :: ds :=
      append_ne_cons (by decide) (not_exists.1 hcolon)
    rw [readPosix?_of_ne hne, readPosix?_of_ne (not_exists.1 hcolon)]
    rfl

theorem hyphensOf_hyphen (verbose : Bool) (fuel : Nat) (cs : List Char) :
    readClassOpen.hyphensOf verbose (fuel + 1) ('-' :: cs)
      = ((readClassOpen.hyphensOf verbose fuel (skipBlanks verbose cs)).1 + 1,
          (readClassOpen.hyphensOf verbose fuel (skipBlanks verbose cs)).2) :=
  rfl

theorem hyphensOf_of_ne {verbose : Bool} {fuel : Nat} {cs : List Char}
    (h : ∀ ds, cs ≠ '-' :: ds) : readClassOpen.hyphensOf verbose fuel cs = (0, cs) := by
  rw [readClassOpen.hyphensOf.eq_def]
  split
  · rfl
  · exact absurd rfl (h _)
  · rfl

theorem hyphensOf_suffix (verbose : Bool) (fuel : Nat) (cs : List Char) :
    (readClassOpen.hyphensOf verbose fuel cs).2 <:+ cs := by
  induction fuel generalizing cs with
  | zero => exact List.suffix_rfl
  | succ fuel ih =>
    by_cases h : ∃ ds, cs = '-' :: ds
    · obtain ⟨ds, rfl⟩ := h
      rw [hyphensOf_hyphen]
      exact (suffix_of_skip (ih _)).trans (List.suffix_cons ..)
    · rw [hyphensOf_of_ne (not_exists.1 h)]

/-- Hyphens are counted up to the parenthesis, unless it stands in a comment. -/
theorem hyphensOf_append (verbose : Bool) {fuel fuel' : Nat} {cs : List Char}
    (hfuel : cs.length ≤ fuel) (hfuel' : cs.length ≤ fuel') :
    (readClassOpen.hyphensOf verbose fuel' (cs ++ ')' :: tail)).2 <:+ tail ∨
      readClassOpen.hyphensOf verbose fuel' (cs ++ ')' :: tail)
        = ((readClassOpen.hyphensOf verbose fuel cs).1,
            (readClassOpen.hyphensOf verbose fuel cs).2 ++ ')' :: tail) := by
  induction fuel' generalizing fuel cs with
  | zero =>
    obtain rfl := List.length_eq_zero_iff.1 (Nat.le_zero.1 hfuel')
    refine .inr ?_
    cases fuel <;> rfl
  | succ fuel' ih =>
    by_cases h : ∃ ds, cs = '-' :: ds
    · obtain ⟨ds, rfl⟩ := h
      obtain ⟨fuel, rfl⟩ := Nat.exists_eq_add_of_lt (Nat.lt_of_succ_le hfuel)
      rw [List.cons_append, hyphensOf_hyphen, hyphensOf_hyphen]
      obtain heq | ⟨-, hpast⟩ := skipBlanks_append verbose tail ds
      · rw [heq]
        have hlength := (skipBlanks_suffix verbose ds).length_le
        rw [List.length_cons] at hfuel hfuel'
        have hread := @ih (ds.length + fuel) (skipBlanks verbose ds) (by omega) (by omega)
        exact hread.imp id fun hread => by rw [hread]
      · exact .inl ((hyphensOf_suffix ..).trans hpast)
    · have hne : ∀ ds, cs ≠ '-' :: ds := not_exists.1 h
      have hne' : ∀ ds, cs ++ ')' :: tail ≠ '-' :: ds := append_ne_cons (by decide) hne
      rw [hyphensOf_of_ne hne, hyphensOf_of_ne hne']
      exact .inr rfl

/-- The opening of a class after the sign of its negation. -/
def readClassStart (verbose negated : Bool) (cs : List Char) : Bool × List SetNode × List Char :=
  let (hyphens, cs) := readClassOpen.hyphensOf verbose cs.length cs
  match hyphens, cs with
  | 0, ']' :: rest => (negated, [⟨.range ']' ']', 0⟩], skipBlanks verbose rest)
  | n, cs => (negated, List.replicate n ⟨.range '-' '-', 0⟩, cs)

theorem readClassOpen_caret {verbose : Bool} {cs ds : List Char}
    (h : skipBlanks verbose cs = '^' :: ds) :
    readClassOpen verbose cs = readClassStart verbose true (skipBlanks verbose ds) := by
  rw [readClassOpen, h]
  rfl

theorem readClassOpen_of_ne {verbose : Bool} {cs : List Char}
    (h : ∀ ds, skipBlanks verbose cs ≠ '^' :: ds) :
    readClassOpen verbose cs = readClassStart verbose false (skipBlanks verbose cs) := by
  rw [readClassOpen]
  split
  next heq =>
    split at heq
    · next hcaret => exact absurd hcaret (h _)
    · cases heq
      rfl

theorem readClassStart_suffix_of_hyphens (verbose negated : Bool) (cs : List Char) :
    (readClassStart verbose negated cs).2.2
      <:+ (readClassOpen.hyphensOf verbose cs.length cs).2 := by
  rw [readClassStart]
  dsimp only
  split
  · next heq =>
    rw [heq]
    exact (skipBlanks_suffix ..).trans (List.suffix_cons ..)
  · exact List.suffix_rfl

theorem readClassStart_suffix (verbose negated : Bool) (cs : List Char) :
    (readClassStart verbose negated cs).2.2 <:+ cs :=
  (readClassStart_suffix_of_hyphens verbose negated cs).trans (hyphensOf_suffix ..)

theorem readClassStart_append (verbose negated : Bool) (cs : List Char) :
    (readClassStart verbose negated (cs ++ ')' :: tail)).2.2 <:+ tail ∨
      readClassStart verbose negated (cs ++ ')' :: tail)
        = ((readClassStart verbose negated cs).1, (readClassStart verbose negated cs).2.1,
            (readClassStart verbose negated cs).2.2 ++ ')' :: tail) := by
  have hlength : cs.length ≤ (cs ++ ')' :: tail).length := by simp
  obtain hpast | hread := hyphensOf_append verbose (Nat.le_refl cs.length) hlength
  · exact .inl ((readClassStart_suffix_of_hyphens ..).trans hpast)
  rw [readClassStart, readClassStart, hread]
  generalize readClassOpen.hyphensOf verbose cs.length cs = p
  obtain ⟨n, es⟩ := p
  dsimp only
  by_cases h : n = 0 ∧ ∃ ds, es = ']' :: ds
  · obtain ⟨rfl, ds, rfl⟩ := h
    obtain heq | ⟨-, hpast⟩ := skipBlanks_append verbose tail ds
    · exact .inr (congrArg (fun rest => (negated, [_], rest)) heq)
    · exact .inl hpast
  · refine .inr ?_
    split
    · next hbracket =>
      exact absurd ⟨rfl, (eq_cons_of_append_eq (by decide) hbracket).imp fun _ => And.left⟩ h
    · split
      · exact absurd ⟨rfl, _, rfl⟩ h
      · rfl

theorem readClassOpen_suffix (verbose : Bool) (cs : List Char) :
    (readClassOpen verbose cs).2.2 <:+ skipBlanks verbose cs := by
  by_cases h : ∃ ds, skipBlanks verbose cs = '^' :: ds
  · obtain ⟨ds, hds⟩ := h
    rw [readClassOpen_caret hds, hds]
    exact (suffix_of_skip (readClassStart_suffix ..)).trans (List.suffix_cons ..)
  · rw [readClassOpen_of_ne (not_exists.1 h)]
    exact readClassStart_suffix ..

/-- The opening of a class is read of the text alone, unless the parenthesis is read as well. -/
theorem readClassOpen_append (verbose : Bool) (tail cs : List Char) :
    (readClassOpen verbose (cs ++ ')' :: tail)).2.2 <:+ tail ∨
      readClassOpen verbose (cs ++ ')' :: tail)
        = ((readClassOpen verbose cs).1, (readClassOpen verbose cs).2.1,
            (readClassOpen verbose cs).2.2 ++ ')' :: tail) := by
  obtain heq | ⟨-, hpast⟩ := skipBlanks_append verbose tail cs
  · by_cases h : ∃ ds, skipBlanks verbose cs = '^' :: ds
    · obtain ⟨ds, hds⟩ := h
      rw [hds, List.cons_append] at heq
      rw [readClassOpen_caret heq, readClassOpen_caret hds]
      obtain heq' | ⟨-, hpast⟩ := skipBlanks_append verbose tail ds
      · rw [heq']
        exact readClassStart_append ..
      · exact .inl ((readClassStart_suffix ..).trans hpast)
    · have hne : ∀ ds, skipBlanks verbose (cs ++ ')' :: tail) ≠ '^' :: ds :=
        heq ▸ append_ne_cons (by decide) (not_exists.1 h)
      rw [readClassOpen_of_ne hne, readClassOpen_of_ne (not_exists.1 h), heq]
      exact readClassStart_append ..
  · exact .inl ((readClassOpen_suffix ..).trans hpast)

/-- The operation that is written as this character twice. -/
def opOfChar? (c : Char) : Option SetOp :=
  if c = '&' then some .inter
  else if c = '-' then some .diff
  else if c = '~' then some .symmDiff
  else none

/-- The operation that a text begins with. -/
def readOp? : List Char → Option (SetOp × List Char)
  | c :: d :: rest => if c = d then (opOfChar? c).map fun op => (op, rest) else none
  | _ => none

theorem readOp?_suffix {cs rest : List Char} {op : SetOp} (h : readOp? cs = some (op, rest)) :
    rest <:+ cs.tail := by
  unfold readOp? at h
  split at h
  · split at h
    · obtain ⟨o, -, h⟩ := Option.map_eq_some_iff.1 h
      cases h
      exact List.suffix_cons ..
    · cases h
  · cases h

theorem readOp?_append (cs : List Char) :
    readOp? (cs ++ ')' :: tail) = (readOp? cs).map fun (op, rest) => (op, rest ++ ')' :: tail) := by
  cases cs with
  | nil => cases tail <;> simp [readOp?, opOfChar?]
  | cons c cs =>
    cases cs with
    | nil =>
      show (if c = ')' then _ else none) = none
      split
      · next hc =>
        rw [hc]
        rfl
      · rfl
    | cons d cs =>
      show (if c = d then _ else none) = Option.map _ (if c = d then _ else none)
      split
      · cases opOfChar? c <;> rfl
      · rfl

/-! ## Whole classes -/

/-- One part of a class, and the rest of it. -/
theorem readClassBody_succ (f : Flags) (fuel : Nat) (waiting : Option (SetOp × SetNode))
    (items : List SetNode) (cs : List Char) :
    readClassBody f (fuel + 1) waiting items cs
      = match skipBlanks f.verbose cs with
        | [] => none
        | c :: ds =>
          if c = '[' then
            match readPosix? ds with
            | some (set, rest) => readClassBody f fuel waiting (⟨set, 0⟩ :: items) rest
            | none =>
              let o := readClassOpen f.verbose ds
              (readClassBody f fuel none o.2.1 o.2.2).bind fun p =>
                readClassBody f fuel waiting (⟨.bracket o.1 p.1.set, 1 + p.1.depth⟩ :: items) p.2
          else if c = ']' then some (applyOp waiting (unionOf items), ds)
          else
            match readOp? (c :: ds) with
            | some (op, rest) =>
              readClassBody f fuel (some (op, applyOp waiting (unionOf items))) [] rest
            | none =>
              (readClassRange f (c :: ds)).bind fun p =>
                readClassBody f fuel waiting (⟨p.1, 0⟩ :: items) p.2 := by
  rw [readClassBody]
  split
  · next heq => rw [heq]
  · next heq =>
    rw [heq]
    rfl
  · next heq =>
    rw [heq]
    rfl
  · next heq =>
    rw [heq]
    rfl
  · next heq =>
    rw [heq]
    rfl
  · next heq =>
    rw [heq]
    rfl
  · next hnil hopen hclose hinter hdiff hsymm =>
    cases hskip : skipBlanks f.verbose cs with
    | nil => exact absurd hskip hnil
    | cons c ds =>
      have hop : readOp? (c :: ds) = none := by
        cases ds with
        | nil => rfl
        | cons d ds =>
          rw [readOp?]
          split
          · next hcd =>
            subst hcd
            rw [opOfChar?, if_neg fun (hc : c = '&') => hinter ds (hc ▸ hskip),
              if_neg fun (hc : c = '-') => hdiff ds (hc ▸ hskip),
              if_neg fun (hc : c = '~') => hsymm ds (hc ▸ hskip)]
            rfl
          · rfl
      dsimp only
      rw [if_neg fun (hc : c = '[') => hopen ds (hc ▸ hskip),
        if_neg fun (hc : c = ']') => hclose ds (hc ▸ hskip), hop]
      rfl

/-- What a class leaves is the end of what follows the first of its characters. -/
theorem readClassBody_suffix_tail {f : Flags} {fuel : Nat} {waiting : Option (SetOp × SetNode)}
    {items : List SetNode} {cs rest : List Char} {n : SetNode}
    (h : readClassBody f fuel waiting items cs = some (n, rest)) :
    rest <:+ (skipBlanks f.verbose cs).tail := by
  induction fuel generalizing waiting items cs n rest with
  | zero => cases h
  | succ fuel ih =>
    -- what a part leaves is read on
    have hnext : ∀ {waiting items} {es mid : List Char} {n rest},
        readClassBody f fuel waiting items mid = some (n, rest) → mid <:+ es → rest <:+ es :=
      fun h hmid => (suffix_of_skip ((ih h).trans (List.tail_suffix _))).trans hmid
    rw [readClassBody_succ] at h
    split at h
    · cases h
    · next c ds hskip =>
      rw [hskip, List.tail_cons]
      split at h
      · split at h
        · next hposix => exact hnext h (readPosix?_suffix hposix)
        · obtain ⟨⟨inner, mid⟩, hinner, h⟩ := Option.bind_eq_some_iff.1 h
          exact hnext h (hnext hinner (suffix_of_skip (readClassOpen_suffix ..)))
      · split at h
        · cases h
          exact List.suffix_rfl
        · split at h
          · next hop => exact hnext h (readOp?_suffix hop)
          · obtain ⟨⟨set, mid⟩, hset, h⟩ := Option.bind_eq_some_iff.1 h
            exact hnext h (readClassRange_suffix hset)

theorem readClassBody_suffix {f : Flags} {fuel : Nat} {waiting : Option (SetOp × SetNode)}
    {items : List SetNode} {cs rest : List Char} {n : SetNode}
    (h : readClassBody f fuel waiting items cs = some (n, rest)) : rest <:+ cs :=
  suffix_of_skip ((readClassBody_suffix_tail h).trans (List.tail_suffix _))

/-- A class that ends in front of the parenthesis is read of the text alone. -/
theorem readsAlone_readClassBody (f : Flags) {fuel fuel' : Nat}
    (waiting : Option (SetOp × SetNode)) (items : List SetNode) {cs : List Char}
    (hfuel : cs.length < fuel) :
    ReadsAlone tail (readClassBody f fuel waiting items cs)
      (readClassBody f fuel' waiting items (cs ++ ')' :: tail)) := by
  induction fuel' generalizing fuel waiting items cs with
  | zero => exact .of_none
  | succ fuel' ih =>
    obtain ⟨fuel, rfl⟩ := Nat.exists_eq_add_of_lt (Nat.zero_lt_of_lt hfuel)
    obtain heq | ⟨-, hpast⟩ := skipBlanks_append f.verbose tail cs
    swap
    · exact .of_suffix fun _ _ h =>
        (readClassBody_suffix_tail h).trans ((List.tail_suffix _).trans hpast)
    cases hskip : skipBlanks f.verbose cs with
    | nil =>
      -- the parenthesis is a member of the class
      refine .of_suffix fun _ _ h => ?_
      have hrest := readClassBody_suffix_tail h
      rw [heq, hskip] at hrest
      exact hrest
    | cons c ds =>
      have hlength : ds.length < cs.length :=
        (congrArg List.length hskip).symm.trans_le (skipBlanks_suffix ..).length_le
      rw [hskip, List.cons_append] at heq
      rw [readClassBody_succ, readClassBody_succ, heq, hskip]
      dsimp only
      refine .ite ?_ (.ite (.of_some _ ds) ?_)
      · rw [readPosix?_append]
        cases hposix : readPosix? ds with
        | some p =>
          have hrest := (readPosix?_suffix hposix).length_le
          exact ih _ _ (by omega)
        | none =>
          dsimp only [Option.map_none]
          obtain hpast | hopen := readClassOpen_append f.verbose tail ds
          · refine .of_suffix fun _ _ h => ?_
            obtain ⟨⟨inner, mid⟩, hinner, h⟩ := Option.bind_eq_some_iff.1 h
            exact (readClassBody_suffix h).trans ((readClassBody_suffix hinner).trans hpast)
          · have hopened := suffix_of_skip (readClassOpen_suffix f.verbose ds)
            rw [hopen]
            refine .bind (ih _ _ ?_) (fun inner mid hinner => ih _ _ ?_) fun _ _ _ _ h =>
              readClassBody_suffix h
            · have := hopened.length_le
              omega
            · have := ((readClassBody_suffix hinner).trans hopened).length_le
              dsimp only
              omega
      · rw [← List.cons_append, readOp?_append]
        cases hop : readOp? (c :: ds) with
        | some p =>
          have hrest : p.2.length ≤ ds.length := (readOp?_suffix hop).length_le
          exact ih _ _ (by omega)
        | none =>
          intro n rest h
          obtain ⟨⟨set, mid⟩, hset, h⟩ := Option.bind_eq_some_iff.1 h
          obtain hpast | ⟨before, rfl, hshort⟩ := readClassRange_append hset
          · -- the parenthesis is a member of the class
            have hrest := readClassBody_suffix_tail h
            obtain hmid | hmid :=
              List.suffix_cons_iff.1 ((skipBlanks_suffix f.verbose mid).trans hpast)
            · rw [hmid] at hrest
              exact .inl hrest
            · exact .inl (hrest.trans ((List.tail_suffix _).trans hmid))
          · have hrest : before.length ≤ ds.length := (readClassRange_suffix hshort).length_le
            rw [hshort]
            exact ih _ _ (by dsimp only; omega) n rest h

end Logbook.Regex
