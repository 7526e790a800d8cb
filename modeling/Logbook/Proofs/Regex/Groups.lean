import Mathlib.Data.List.TakeWhile
import Logbook.Proofs.Regex.Classes
import Logbook.Regex.Parser

set_option autoImplicit false

/-! # Openings and counts in front of a closing parenthesis

The opening of a group and the counts of a repetition are read of the text in front of a closing
parenthesis alone, unless the parenthesis is read as well: it ends the flags of a group
(`readGroupOpen_append`, `readsAlone_readBounds`). -/

namespace Logbook.Regex

variable {tail : List Char}

/-! ## Flags and names -/

theorem readFlags_suffix {cs seen rest : List Char} {on afterMinus any : Bool} {f g : Flags}
    {stop : Char} (h : readFlags cs seen on afterMinus f = some (g, any, stop, rest)) :
    rest <:+ cs := by
  induction cs generalizing seen on afterMinus f with
  | nil => cases h
  | cons c cs ih =>
    refine List.IsSuffix.trans ?_ (List.suffix_cons c cs)
    rw [readFlags] at h
    split at h
    · split at h
      · cases h
      · cases h
        exact List.suffix_rfl
    · split at h
      · cases h
      · split at h
        · exact ih h
        · obtain ⟨g, -, h⟩ := Option.bind_eq_some_iff.1 h
          exact ih h

theorem readFlags_append {cs seen rest : List Char} {on afterMinus any : Bool} {f g : Flags}
    {stop : Char}
    (h : readFlags (cs ++ ')' :: tail) seen on afterMinus f = some (g, any, stop, rest)) :
    rest = tail ∧ stop = ')' ∨ ∃ before, rest = before ++ ')' :: tail ∧
      readFlags cs seen on afterMinus f = some (g, any, stop, before) := by
  induction cs generalizing seen on afterMinus f with
  | nil =>
    rw [List.nil_append, readFlags, if_pos (.inr rfl)] at h
    split at h
    · cases h
    · cases h
      exact .inl ⟨rfl, rfl⟩
  | cons c cs ih =>
    rw [List.cons_append, readFlags] at h
    rw [readFlags]
    split at h
    · next hstop =>
      rw [if_pos hstop]
      split at h
      · cases h
      · next hminus =>
        rw [if_neg hminus]
        cases h
        exact .inr ⟨cs, rfl, rfl⟩
    · next hstop =>
      rw [if_neg hstop]
      split at h
      · cases h
      · next hseen =>
        rw [if_neg hseen]
        split at h
        · next hminus =>
          rw [if_pos hminus]
          exact ih h
        · next hminus =>
          rw [if_neg hminus]
          obtain ⟨g, hg, h⟩ := Option.bind_eq_some_iff.1 h
          rw [hg]
          exact ih h

theorem readName_suffix {cs name read rest : List Char} (h : readName cs read = some (name, rest)) :
    rest <:+ cs := by
  induction cs generalizing read with
  | nil => cases h
  | cons c cs ih =>
    refine List.IsSuffix.trans ?_ (List.suffix_cons c cs)
    rw [readName] at h
    split at h
    · split at h
      · cases h
      · cases h
        exact List.suffix_rfl
    · dsimp only at h
      generalize (if read.isEmpty then _ else _ : Bool) = allowed at h
      split at h
      · exact ih h
      · cases h

theorem readsAlone_readName (cs read : List Char) :
    ReadsAlone tail (readName cs read) (readName (cs ++ ')' :: tail) read) := by
  induction cs generalizing read with
  | nil =>
    have hlong : readName (')' :: tail) read = none := by
      rw [readName, if_neg (by decide)]
      cases read <;> rfl
    rw [List.nil_append, hlong]
    exact .of_none
  | cons c cs ih =>
    rw [List.cons_append, readName, readName]
    exact .ite (.ite .of_none (.of_some _ cs)) (.ite (ih _) .of_none)

/-! ## Openings of groups -/

/-- The state with more text behind what remains. -/
def State.append (s : State) (cs : List Char) : State :=
  { s with rest := s.rest ++ cs }

namespace GroupOpen

/-- The state behind an opening. -/
def state : GroupOpen → State
  | .flags s => s
  | .group s => s

def append (g : GroupOpen) (cs : List Char) : GroupOpen :=
  match g with
  | .flags s => .flags (s.append cs)
  | .group s => .group (s.append cs)

end GroupOpen

/-- Flags for a group or for what follows. -/
def readFlagsGroup (s : State) (cs : List Char) : Option GroupOpen := do
  let (flags, any, stop, rest) ← readFlags cs [] true false s.flags
  if stop = ')' then
    if any then return .flags { s with rest, flags } else none
  else return .group { s with rest, flags }

theorem readGroupOpen_plain {s : State} {cs : List Char}
    (h : ∀ ds, skipBlanks s.flags.verbose cs ≠ '?' :: ds) :
    readGroupOpen s cs = some (.group { s with rest := skipBlanks s.flags.verbose cs }) := by
  rw [readGroupOpen]
  split
  all_goals first
    | rfl
    | next heq => exact absurd heq (h _)

/-- The opening of a group after a question mark. -/
def readAfterQuestion (s : State) : List Char → Option GroupOpen
  | 'P' :: '<' :: rest => readNamedGroup s rest
  | '<' :: rest => readNamedGroup s rest
  | cs => readFlagsGroup s cs

theorem readGroupOpen_question {s : State} {cs ds : List Char}
    (h : skipBlanks s.flags.verbose cs = '?' :: ds) :
    readGroupOpen s cs = readAfterQuestion s ds := by
  rw [readGroupOpen, h]
  split
  · next heq =>
    cases heq
    rfl
  -- what looks ahead or behind would be neither a name nor flags
  · next heq =>
    cases heq
    rfl
  · next heq =>
    cases heq
    rfl
  · next heq =>
    cases heq
    rfl
  · next heq =>
    cases heq
    rfl
  · next heq =>
    cases heq
    rfl
  · next hpython _ _ _ _ hname heq =>
    cases heq
    rw [readAfterQuestion]
    · rfl
    · exact hpython
    · exact hname
  · next hnot => exact absurd rfl (hnot ds)

theorem readNamedGroup_suffix {s : State} {cs : List Char} {g : GroupOpen}
    (h : readNamedGroup s cs = some g) : g.state.rest <:+ cs := by
  obtain ⟨⟨name, rest⟩, hname, h⟩ := Option.bind_eq_some_iff.1 h
  dsimp only at h
  split at h
  · cases h
  · cases h
    exact readName_suffix hname

theorem readNamedGroup_append {s : State} {cs : List Char} {g : GroupOpen}
    (h : readNamedGroup s (cs ++ ')' :: tail) = some g) :
    g.state.rest <:+ tail ∨ ∃ o, g = o.append (')' :: tail) ∧ readNamedGroup s cs = some o := by
  obtain ⟨⟨name, rest⟩, hname, h⟩ := Option.bind_eq_some_iff.1 h
  dsimp only at h
  split at h
  · cases h
  · next hnew =>
    cases h
    obtain hpast | ⟨before, rfl, hshort⟩ := readsAlone_readName cs [] _ _ hname
    · exact .inl hpast
    · refine .inr ⟨.group { s with rest := before, names := name :: s.names }, rfl, ?_⟩
      rw [readNamedGroup, hshort]
      exact if_neg hnew

theorem readFlagsGroup_suffix {s : State} {cs : List Char} {g : GroupOpen}
    (h : readFlagsGroup s cs = some g) : g.state.rest <:+ cs := by
  obtain ⟨⟨flags, any, stop, rest⟩, hflags, h⟩ := Option.bind_eq_some_iff.1 h
  dsimp only at h
  split at h
  · split at h
    · cases h
      exact readFlags_suffix hflags
    · cases h
  · cases h
    exact readFlags_suffix hflags

theorem readFlagsGroup_append {s : State} {cs : List Char} {g : GroupOpen}
    (h : readFlagsGroup s (cs ++ ')' :: tail) = some g) :
    g.state.rest <:+ tail ∨ ∃ o, g = o.append (')' :: tail) ∧ readFlagsGroup s cs = some o := by
  obtain ⟨⟨flags, any, stop, rest⟩, hflags, hopen⟩ := Option.bind_eq_some_iff.1 h
  dsimp only at hopen
  obtain ⟨rfl, -⟩ | ⟨before, rfl, hshort⟩ := readFlags_append hflags
  · refine .inl ?_
    split at hopen
    · split at hopen <;> cases hopen
      exact List.suffix_rfl
    · cases hopen
      exact List.suffix_rfl
  · refine .inr ?_
    rw [readFlagsGroup, hshort]
    dsimp only [Option.bind_eq_bind, Option.bind_some]
    split at hopen
    · next hstop =>
      split at hopen
      · next hany =>
        cases hopen
        rw [if_pos hstop, if_pos hany]
        exact ⟨_, rfl, rfl⟩
      · cases hopen
    · next hstop =>
      cases hopen
      rw [if_neg hstop]
      exact ⟨_, rfl, rfl⟩

theorem readAfterQuestion_suffix {s : State} {cs : List Char} {g : GroupOpen}
    (h : readAfterQuestion s cs = some g) : g.state.rest <:+ cs := by
  unfold readAfterQuestion at h
  split at h
  · exact (readNamedGroup_suffix h).trans ((List.suffix_cons ..).trans (List.suffix_cons ..))
  · exact (readNamedGroup_suffix h).trans (List.suffix_cons ..)
  · exact readFlagsGroup_suffix h

theorem readAfterQuestion_append {s : State} {cs : List Char} {g : GroupOpen}
    (h : readAfterQuestion s (cs ++ ')' :: tail) = some g) :
    g.state.rest <:+ tail ∨ ∃ o, g = o.append (')' :: tail) ∧ readAfterQuestion s cs = some o := by
  by_cases hpython : ∃ ds, cs = 'P' :: '<' :: ds
  · obtain ⟨ds, rfl⟩ := hpython
    exact readNamedGroup_append h
  by_cases hname : ∃ ds, cs = '<' :: ds
  · obtain ⟨ds, rfl⟩ := hname
    exact readNamedGroup_append h
  have hflags : readAfterQuestion s cs = readFlagsGroup s cs := by
    rw [readAfterQuestion]
    · exact not_exists.1 hpython
    · exact not_exists.1 hname
  have hflags' : readAfterQuestion s (cs ++ ')' :: tail)
      = readFlagsGroup s (cs ++ ')' :: tail) := by
    rw [readAfterQuestion]
    · intro ds hds
      obtain ⟨es, rfl, hes⟩ := eq_cons_of_append_eq (by decide) hds
      obtain ⟨es, rfl, -⟩ := eq_cons_of_append_eq (by decide) hes.symm
      exact hpython ⟨es, rfl⟩
    · exact append_ne_cons (by decide) (not_exists.1 hname)
  rw [hflags]
  exact readFlagsGroup_append (hflags' ▸ h)

theorem readGroupOpen_suffix {s : State} {cs : List Char} {g : GroupOpen}
    (h : readGroupOpen s cs = some g) : g.state.rest <:+ skipBlanks s.flags.verbose cs := by
  by_cases hquestion : ∃ ds, skipBlanks s.flags.verbose cs = '?' :: ds
  · obtain ⟨ds, hds⟩ := hquestion
    rw [readGroupOpen_question hds] at h
    rw [hds]
    exact (readAfterQuestion_suffix h).trans (List.suffix_cons ..)
  · rw [readGroupOpen_plain (not_exists.1 hquestion)] at h
    cases h
    exact List.suffix_rfl

/-- The opening of a group is read of the text alone, unless the parenthesis is read as well. -/
theorem readGroupOpen_append {s : State} {cs : List Char} {g : GroupOpen}
    (h : readGroupOpen s (cs ++ ')' :: tail) = some g) :
    g.state.rest <:+ tail ∨ ∃ o, g = o.append (')' :: tail) ∧ readGroupOpen s cs = some o := by
  obtain heq | ⟨-, hpast⟩ := skipBlanks_append s.flags.verbose tail cs
  · by_cases hquestion : ∃ ds, skipBlanks s.flags.verbose cs = '?' :: ds
    · obtain ⟨ds, hds⟩ := hquestion
      rw [hds, List.cons_append] at heq
      rw [readGroupOpen_question heq] at h
      rw [readGroupOpen_question hds]
      exact readAfterQuestion_append h
    · have hne : ∀ ds, skipBlanks s.flags.verbose (cs ++ ')' :: tail) ≠ '?' :: ds :=
        heq ▸ append_ne_cons (by decide) (not_exists.1 hquestion)
      rw [readGroupOpen_plain hne, heq] at h
      cases h
      exact .inr ⟨_, rfl, readGroupOpen_plain (not_exists.1 hquestion)⟩
  · exact .inl ((readGroupOpen_suffix h).trans hpast)

/-! ## Counts -/

theorem dropWhile_isBlank_append (cs : List Char) :
    (cs ++ ')' :: tail).dropWhile Text.isBlank = cs.dropWhile Text.isBlank ++ ')' :: tail := by
  have hparen : (')' :: tail).dropWhile Text.isBlank = ')' :: tail :=
    List.dropWhile_cons_of_neg (by decide)
  rw [List.dropWhile_append, hparen]
  split
  · next hnil => rw [List.isEmpty_iff.1 hnil, List.nil_append]
  · rfl

theorem digits_suffix (verbose : Bool) (fuel value count : Nat) (cs : List Char) :
    (readCount.digits verbose fuel value count cs).2.2 <:+ cs := by
  induction fuel generalizing value count cs with
  | zero => exact List.suffix_rfl
  | succ fuel ih =>
    cases cs with
    | nil => exact List.suffix_rfl
    | cons c cs =>
      rw [readCount.digits]
      split
      · exact (suffix_of_skip (ih ..)).trans (List.suffix_cons ..)
      · exact List.suffix_rfl

theorem digits_append (verbose : Bool) {fuel fuel' : Nat} (value count : Nat) {cs : List Char}
    (hfuel : cs.length ≤ fuel) (hfuel' : cs.length ≤ fuel') :
    (readCount.digits verbose fuel' value count (cs ++ ')' :: tail)).2.2 <:+ tail ∨
      readCount.digits verbose fuel' value count (cs ++ ')' :: tail)
        = ((readCount.digits verbose fuel value count cs).1,
            (readCount.digits verbose fuel value count cs).2.1,
            (readCount.digits verbose fuel value count cs).2.2 ++ ')' :: tail) := by
  induction fuel' generalizing fuel value count cs with
  | zero =>
    obtain rfl := List.length_eq_zero_iff.1 (Nat.le_zero.1 hfuel')
    cases fuel <;> exact .inr rfl
  | succ fuel' ih =>
    cases cs with
    | nil =>
      have hlong : readCount.digits verbose (fuel' + 1) value count (')' :: tail)
          = (value, count, ')' :: tail) := by
        rw [readCount.digits, if_neg (by decide)]
      rw [List.nil_append, hlong]
      cases fuel <;> exact .inr rfl
    | cons c cs =>
      obtain ⟨fuel, rfl⟩ := Nat.exists_eq_add_of_lt (Nat.lt_of_succ_le hfuel)
      rw [List.cons_append, readCount.digits, readCount.digits]
      split
      · obtain heq | ⟨-, hpast⟩ := skipBlanks_append verbose tail cs
        · have hlength := (skipBlanks_suffix verbose cs).length_le
          rw [List.length_cons] at hfuel hfuel'
          rw [heq]
          exact ih _ _ (by omega) (by omega)
        · exact .inl ((digits_suffix ..).trans hpast)
      · exact .inr rfl

theorem readCount_suffix {verbose : Bool} {cs rest : List Char} {n : Nat}
    (h : readCount verbose cs = some (n, rest)) : rest <:+ cs := by
  rw [readCount] at h
  dsimp only at h
  split at h
  · cases h
  · cases h
    exact (skipBlanks_suffix ..).trans ((List.dropWhile_suffix _).trans
      ((digits_suffix ..).trans (List.dropWhile_suffix _)))

theorem readsAlone_readCount (verbose : Bool) (cs : List Char) :
    ReadsAlone tail (readCount verbose cs) (readCount verbose (cs ++ ')' :: tail)) := by
  rw [readCount, readCount, dropWhile_isBlank_append]
  generalize cs.dropWhile Text.isBlank = es
  have hlength : es.length ≤ (es ++ ')' :: tail).length := by simp
  dsimp only
  obtain hpast | hread := digits_append verbose 0 0 (Nat.le_refl es.length) hlength
  · refine .of_suffix fun a rest h => ?_
    split at h
    · cases h
    · cases h
      exact (skipBlanks_suffix ..).trans ((List.dropWhile_suffix _).trans hpast)
  · rw [hread]
    dsimp only
    rw [dropWhile_isBlank_append]
    exact .ite .of_none (.of_skip _ verbose _)

theorem dropLazy_suffix (cs : List Char) : dropLazy cs <:+ cs := by
  unfold dropLazy
  split
  · exact List.suffix_cons ..
  · exact List.suffix_rfl

theorem dropLazy_append (cs : List Char) :
    dropLazy (cs ++ ')' :: tail) = dropLazy cs ++ ')' :: tail := by
  cases cs with
  | nil => rfl
  | cons c cs =>
    by_cases hc : c = '?'
    · subst hc
      rfl
    · unfold dropLazy
      split
      · next heq => exact absurd (List.cons.inj heq).1 hc
      · split
        · next heq => exact absurd (List.cons.inj heq).1 hc
        · rfl

/-- The upper bound of a repetition, in front of the closing brace. -/
def readMost (verbose : Bool) (least : Nat) (cs : List Char) : Option (Option Nat × List Char) :=
  match cs with
  | ',' :: rest =>
    match skipBlanks verbose rest with
    | '}' :: rest => some (none, '}' :: rest)
    | rest => (readCount verbose rest).map fun (n, rest) => (some n, rest)
  | rest => some (some least, rest)

/-- The closing brace of a repetition between bounds. -/
def closeBounds (verbose : Bool) (least : Nat) (most : Option Nat) (cs : List Char) :
    Option ((Nat × Option Nat) × List Char) :=
  match cs with
  | '}' :: rest =>
    if most.any (· < least) then none
    else some ((least, most), dropLazy (skipBlanks verbose rest))
  | _ => none

/-- The bounds of a repetition after its opening brace. -/
def readBounds (verbose : Bool) (cs : List Char) : Option ((Nat × Option Nat) × List Char) :=
  (readCount verbose (skipBlanks verbose cs)).bind fun p =>
    (readMost verbose p.1 p.2).bind fun q => closeBounds verbose p.1 q.1 q.2

/-- The upper bound behind a comma, if there is one in front of the closing brace. -/
def readAfterComma (verbose : Bool) (cs : List Char) : Option (Option Nat × List Char) :=
  if cs.head? = some '}' then some (none, cs)
  else (readCount verbose cs).map fun p => (some p.1, p.2)

theorem readAfterComma_suffix {verbose : Bool} {cs rest : List Char} {most : Option Nat}
    (h : readAfterComma verbose cs = some (most, rest)) : rest <:+ cs := by
  rw [readAfterComma] at h
  split at h
  · cases h
    exact List.suffix_rfl
  · obtain ⟨⟨n, rest⟩, hn, heq⟩ := Option.map_eq_some_iff.1 h
    cases heq
    exact readCount_suffix hn

theorem readsAlone_readAfterComma (verbose : Bool) (cs : List Char) :
    ReadsAlone tail (readAfterComma verbose cs) (readAfterComma verbose (cs ++ ')' :: tail)) := by
  have hhead : (cs ++ ')' :: tail).head? = some '}' ↔ cs.head? = some '}' := by
    cases cs <;> simp
  simp only [readAfterComma, hhead]
  exact .ite (.of_some none cs) ((readsAlone_readCount verbose cs).map some)

theorem readMost_comma (verbose : Bool) (least : Nat) (cs : List Char) :
    readMost verbose least (',' :: cs) = readAfterComma verbose (skipBlanks verbose cs) := by
  rw [readMost, readAfterComma]
  cases skipBlanks verbose cs with
  | nil => rfl
  | cons c ds =>
    rw [List.head?_cons]
    by_cases hc : c = '}'
    · subst hc
      rfl
    · rw [if_neg (by simpa using hc)]
      split
      · next heq => exact absurd (List.cons.inj heq).1 hc
      · rfl

theorem readMost_of_ne {verbose : Bool} {least : Nat} {cs : List Char}
    (h : ∀ ds, cs ≠ ',' :: ds) : readMost verbose least cs = some (some least, cs) := by
  unfold readMost
  split
  · exact absurd rfl (h _)
  · rfl

theorem readCounts_eq (verbose : Bool) (cs : List Char) :
    readCounts verbose cs = (readBounds verbose cs).map fun p => (p.1.1, p.1.2, p.2) := by
  have hclose : ∀ least most rest, (match rest with
      | '}' :: rest =>
        if Option.any (· < least) most then none
        else some (least, most, dropLazy (skipBlanks verbose rest))
      | _ => none)
        = (closeBounds verbose least most rest).map fun p => (p.1.1, p.1.2, p.2) := by
    intro least most rest
    unfold closeBounds
    split
    · split <;> rfl
    · rfl
  rw [readCounts, readBounds]
  cases readCount verbose (skipBlanks verbose cs) with
  | none => rfl
  | some p =>
    obtain ⟨least, mid⟩ := p
    dsimp only [Option.bind_eq_bind, Option.bind_some]
    split
    · next rest =>
      rw [readMost_comma]
      generalize skipBlanks verbose rest = es
      split
      · next ds => exact hclose least none ('}' :: ds)
      · next hbrace =>
        have hcount : readAfterComma verbose es
            = (readCount verbose es).map fun p => (some p.1, p.2) :=
          if_neg fun hhead => (List.head?_eq_some_iff.1 hhead).elim hbrace
        rw [hcount]
        cases readCount verbose es with
        | none => rfl
        | some q => exact hclose least (some q.1) q.2
    · next hcomma =>
      rw [readMost_of_ne hcomma]
      exact hclose least (some least) mid

theorem readMost_suffix {verbose : Bool} {least : Nat} {cs rest : List Char} {most : Option Nat}
    (h : readMost verbose least cs = some (most, rest)) : rest <:+ cs := by
  by_cases hcomma : ∃ ds, cs = ',' :: ds
  · obtain ⟨ds, rfl⟩ := hcomma
    rw [readMost_comma] at h
    exact (suffix_of_skip (readAfterComma_suffix h)).trans (List.suffix_cons ',' ds)
  · rw [readMost_of_ne (not_exists.1 hcomma)] at h
    cases h
    exact List.suffix_rfl

theorem readsAlone_readMost (verbose : Bool) (least : Nat) (cs : List Char) :
    ReadsAlone tail (readMost verbose least cs) (readMost verbose least (cs ++ ')' :: tail)) := by
  by_cases hcomma : ∃ ds, cs = ',' :: ds
  · obtain ⟨ds, rfl⟩ := hcomma
    rw [List.cons_append, readMost_comma, readMost_comma]
    exact .skip (readAfterComma verbose) (readAfterComma verbose)
      (fun es _ => readsAlone_readAfterComma verbose es) readAfterComma_suffix
  · have hne : ∀ ds, cs ++ ')' :: tail ≠ ',' :: ds :=
      append_ne_cons (by decide) (not_exists.1 hcomma)
    rw [readMost_of_ne hne, readMost_of_ne (not_exists.1 hcomma)]
    exact .of_some _ cs

theorem closeBounds_suffix {verbose : Bool} {least : Nat} {most : Option Nat}
    {cs rest : List Char} {bounds : Nat × Option Nat}
    (h : closeBounds verbose least most cs = some (bounds, rest)) : rest <:+ cs := by
  unfold closeBounds at h
  split at h
  · split at h
    · cases h
    · cases h
      exact (dropLazy_suffix _).trans ((skipBlanks_suffix ..).trans (List.suffix_cons ..))
  · cases h

theorem readsAlone_closeBounds (verbose : Bool) (least : Nat) (most : Option Nat)
    (cs : List Char) :
    ReadsAlone tail (closeBounds verbose least most cs)
      (closeBounds verbose least most (cs ++ ')' :: tail)) := by
  intro bounds rest h
  unfold closeBounds at h
  split at h
  · next heq =>
    obtain ⟨ds, rfl, rfl⟩ := eq_cons_of_append_eq (by decide) heq
    refine (?_ : ReadsAlone tail (closeBounds verbose least most ('}' :: ds)) _) bounds rest h
    refine .ite .of_none (.skip (fun es => some ((least, most), dropLazy es))
      (fun es => some ((least, most), dropLazy es)) (fun es _ => ?_) ?_)
    · rw [dropLazy_append]
      exact .of_some _ (dropLazy es)
    · rintro es _ _ ⟨⟩
      exact dropLazy_suffix es
  · cases h

theorem readBounds_suffix {verbose : Bool} {cs rest : List Char} {bounds : Nat × Option Nat}
    (h : readBounds verbose cs = some (bounds, rest)) : rest <:+ skipBlanks verbose cs := by
  obtain ⟨⟨least, mid⟩, hleast, h⟩ := Option.bind_eq_some_iff.1 h
  obtain ⟨⟨most, mid'⟩, hmost, h⟩ := Option.bind_eq_some_iff.1 h
  exact (closeBounds_suffix h).trans ((readMost_suffix hmost).trans (readCount_suffix hleast))

/-- The bounds of a repetition are read of the text alone, unless the parenthesis is read as
    well. -/
theorem readsAlone_readBounds (verbose : Bool) (cs : List Char) :
    ReadsAlone tail (readBounds verbose cs) (readBounds verbose (cs ++ ')' :: tail)) := by
  obtain heq | ⟨-, hpast⟩ := skipBlanks_append verbose tail cs
  · rw [readBounds, readBounds, heq]
    refine .bind (readsAlone_readCount verbose _) (fun least mid _ => ?_) ?_
    · refine .bind (readsAlone_readMost verbose least mid)
        (fun most mid' _ => readsAlone_closeBounds verbose least most mid') ?_
      exact fun most mid' _ _ h => closeBounds_suffix h
    · intro least mid bounds rest h
      obtain ⟨⟨most, mid'⟩, hmost, h⟩ := Option.bind_eq_some_iff.1 h
      exact (closeBounds_suffix h).trans (readMost_suffix hmost)
  · exact .of_suffix fun _ _ h => (readBounds_suffix h).trans hpast

end Logbook.Regex
