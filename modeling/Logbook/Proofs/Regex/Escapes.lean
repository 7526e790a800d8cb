import Mathlib.Data.List.Infix
import Logbook.Regex.Escape

set_option autoImplicit false

/-! # Escapes in front of a closing parenthesis

Where a closing parenthesis and more stand behind a text, a reader either reads of it what it reads
of the text alone, or it reads the parenthesis as well and ends behind it. This is said of a reader
on the text alone and on the longer text (`ReadsAlone`), is carried along readers one behind the
other, and holds of all readers of escapes but one: in front of blanks and the parenthesis a brace
after a word boundary is not part of it, and at the end of the text it is an error
(`readsAlone_readEscape`). What a reader leaves is always the end of what it is given. -/

namespace Logbook.Regex

variable {α β : Type} {tail : List Char}

/-! ## Readers one behind the other -/

/-- What `long` reads of a text with a parenthesis and `tail` behind it, `short` reads of the text
    alone, unless the parenthesis is read as well. -/
def ReadsAlone (tail : List Char) (short long : Option (α × List Char)) : Prop :=
  ∀ a rest, long = some (a, rest) →
    rest <:+ tail ∨ ∃ before, rest = before ++ ')' :: tail ∧ short = some (a, before)

namespace ReadsAlone

theorem of_suffix {short long : Option (α × List Char)}
    (h : ∀ a rest, long = some (a, rest) → rest <:+ tail) : ReadsAlone tail short long :=
  fun a rest hlong => .inl (h a rest hlong)

theorem of_none {short : Option (α × List Char)} : ReadsAlone tail short none :=
  nofun

theorem of_some (a : α) (rest : List Char) :
    ReadsAlone tail (some (a, rest)) (some (a, rest ++ ')' :: tail)) := by
  rintro _ _ ⟨⟩
  exact .inr ⟨rest, rfl, rfl⟩

theorem bind {m m' : Option (α × List Char)} {f f' : α × List Char → Option (β × List Char)}
    (hm : ReadsAlone tail m m')
    (hf : ∀ a rest, m = some (a, rest) →
      ReadsAlone tail (f (a, rest)) (f' (a, rest ++ ')' :: tail)))
    (hsuffix : ∀ a rest b rest', f' (a, rest) = some (b, rest') → rest' <:+ rest) :
    ReadsAlone tail (m.bind f) (m'.bind f') := by
  intro b rest' h
  obtain ⟨⟨a, rest⟩, hlong, h⟩ := Option.bind_eq_some_iff.1 h
  obtain hpast | ⟨before, rfl, hshort⟩ := hm a rest hlong
  · exact .inl ((hsuffix a rest b rest' h).trans hpast)
  · rw [hshort]
    exact hf a before hshort b rest' h

theorem map {m m' : Option (α × List Char)} (hm : ReadsAlone tail m m') (f : α → β) :
    ReadsAlone tail (m.map fun p => (f p.1, p.2)) (m'.map fun p => (f p.1, p.2)) := by
  intro b rest h
  obtain ⟨⟨a, rest⟩, hlong, heq⟩ := Option.map_eq_some_iff.1 h
  cases heq
  refine (hm a rest hlong).imp id ?_
  rintro ⟨before, rfl, hshort⟩
  exact ⟨before, rfl, by rw [hshort]; rfl⟩

theorem bind_left {o : Option α} {f f' : α → Option (β × List Char)}
    (hf : ∀ a, ReadsAlone tail (f a) (f' a)) : ReadsAlone tail (o.bind f) (o.bind f') := by
  cases o with
  | none => exact of_none
  | some a => exact hf a

/-- What is made of the value that is read has no say in what is left. -/
theorem value {γ : Type} {m m' : Option (α × List Char)} (hm : ReadsAlone tail m m')
    (g : α → Option γ) (f : γ → β) :
    ReadsAlone tail (do let (a, rest) ← m; let c ← g a; return (f c, rest))
      (do let (a, rest) ← m'; let c ← g a; return (f c, rest)) := by
  refine hm.bind (fun a rest _ => .bind_left fun c => .of_some (f c) rest) ?_
  intro a rest b rest' h
  obtain ⟨c, -, h⟩ := Option.bind_eq_some_iff.1 h
  cases h
  exact List.suffix_rfl

theorem ite {p : Prop} [Decidable p] {m n m' n' : Option (α × List Char)}
    (hm : ReadsAlone tail m m') (hn : ReadsAlone tail n n') :
    ReadsAlone tail (if p then m else n) (if p then m' else n') := by
  split
  · exact hm
  · exact hn

end ReadsAlone

theorem exists_of_value {γ : Type} {m : Option (α × List Char)} {g : α → Option γ} {f : γ → β}
    {b : β} {rest : List Char}
    (h : (do let (a, rest) ← m; let c ← g a; return (f c, rest)) = some (b, rest)) :
    ∃ a, m = some (a, rest) := by
  obtain ⟨⟨a, rest⟩, hm, h⟩ := Option.bind_eq_some_iff.1 h
  obtain ⟨c, -, h⟩ := Option.bind_eq_some_iff.1 h
  cases h
  exact ⟨a, hm⟩

/-- A character in front that is not the parenthesis is one of the text. -/
theorem eq_cons_of_append_eq {cs rest : List Char} {c : Char} (hc : c ≠ ')')
    (h : cs ++ ')' :: tail = c :: rest) : ∃ ds, cs = c :: ds ∧ rest = ds ++ ')' :: tail := by
  cases cs with
  | nil => exact absurd (List.cons.inj h).1.symm hc
  | cons d ds =>
    obtain ⟨rfl, rfl⟩ := List.cons.inj h
    exact ⟨ds, rfl, rfl⟩

theorem append_ne_cons {cs : List Char} {c : Char} (hc : c ≠ ')') (h : ∀ ds, cs ≠ c :: ds)
    (ds : List Char) : cs ++ ')' :: tail ≠ c :: ds := fun heq =>
  (eq_cons_of_append_eq hc heq).elim fun es hes => h es hes.1

/-! ## Blanks -/

theorem dropBlanks_suffix (cs : List Char) (inComment : Bool) : dropBlanks cs inComment <:+ cs := by
  induction cs generalizing inComment with
  | nil => cases inComment <;> exact List.suffix_rfl
  | cons c cs ih =>
    cases inComment with
    | true => exact (ih _).trans (List.suffix_cons ..)
    | false =>
      rw [dropBlanks]
      split
      · exact (ih _).trans (List.suffix_cons ..)
      · split
        · exact (ih _).trans (List.suffix_cons ..)
        · exact List.suffix_rfl

theorem skipBlanks_suffix (verbose : Bool) (cs : List Char) : skipBlanks verbose cs <:+ cs := by
  cases verbose with
  | true => exact dropBlanks_suffix cs false
  | false => exact List.suffix_rfl

/-- Blanks end in front of the parenthesis, unless it stands in a comment. -/
theorem skipBlanks_append (verbose : Bool) (tail cs : List Char) :
    skipBlanks verbose (cs ++ ')' :: tail) = skipBlanks verbose cs ++ ')' :: tail ∨
      skipBlanks verbose cs = [] ∧ skipBlanks verbose (cs ++ ')' :: tail) <:+ tail := by
  have hdrop : ∀ inComment : Bool,
      dropBlanks (cs ++ ')' :: tail) inComment = dropBlanks cs inComment ++ ')' :: tail ∨
        dropBlanks cs inComment = [] ∧ dropBlanks (cs ++ ')' :: tail) inComment <:+ tail := by
    induction cs with
    | nil =>
      intro inComment
      cases inComment with
      | true => exact .inr ⟨rfl, dropBlanks_suffix tail _⟩
      | false =>
        have hparen : dropBlanks (')' :: tail) false = ')' :: tail := by
          rw [dropBlanks, if_neg (by decide), if_neg (by decide)]
        exact .inl hparen
    | cons c cs ih =>
      intro inComment
      cases inComment with
      | true => exact ih _
      | false =>
        rw [List.cons_append, dropBlanks, dropBlanks]
        split
        · exact ih _
        · split
          · exact ih _
          · exact .inl rfl
  cases verbose with
  | true => exact hdrop false
  | false => exact .inl rfl

/-- A look ahead does not go past the parenthesis. -/
theorem peekBlanks?_append_eq_some_iff (verbose : Bool) {cs : List Char} {c : Char} (hc : c ≠ ')') :
    peekBlanks? verbose (cs ++ ')' :: tail) = some c ↔ peekBlanks? verbose cs = some c := by
  have hdrop : ∀ ds : List Char, (ds ++ ')' :: tail).dropWhile Text.isBlank
      = ds.dropWhile Text.isBlank ++ ')' :: tail := by
    intro ds
    have hparen : (')' :: tail).dropWhile Text.isBlank = ')' :: tail :=
      List.dropWhile_cons_of_neg (by decide)
    rw [List.dropWhile_append, hparen]
    split
    · next h => rw [List.isEmpty_iff.1 h, List.nil_append]
    · rfl
  have hhead : ∀ ds : List Char, (ds ++ ')' :: tail).head? = some c ↔ ds.head? = some c := by
    intro ds
    cases ds with
    | nil => simp [hc.symm]
    | cons d ds => rfl
  unfold peekBlanks?
  cases verbose with
  | false => exact hhead cs
  | true =>
    rw [if_pos rfl, if_pos rfl, hdrop]
    cases cs.dropWhile Text.isBlank with
    | nil => simp [hc.symm]
    | cons d ds =>
      by_cases hd : d = '#'
      · subst hd
        simp only [List.cons_append, hdrop, hhead]
      · simp [hd]

theorem ReadsAlone.skip (m m' : List Char → Option (α × List Char)) {verbose : Bool}
    {cs : List Char} (h : ∀ ds, ds <:+ cs → ReadsAlone tail (m ds) (m' (ds ++ ')' :: tail)))
    (hsuffix : ∀ {cs a rest}, m' cs = some (a, rest) → rest <:+ cs) :
    ReadsAlone tail (m (skipBlanks verbose cs)) (m' (skipBlanks verbose (cs ++ ')' :: tail))) := by
  obtain heq | ⟨-, hpast⟩ := skipBlanks_append verbose tail cs
  · rw [heq]
    exact h _ (skipBlanks_suffix ..)
  · exact .of_suffix fun _ _ hm => (hsuffix hm).trans hpast

theorem ReadsAlone.of_skip (a : α) (verbose : Bool) (cs : List Char) :
    ReadsAlone tail (some (a, skipBlanks verbose cs))
      (some (a, skipBlanks verbose (cs ++ ')' :: tail))) := by
  refine .skip (fun cs => some (a, cs)) (fun cs => some (a, cs)) (fun ds _ => .of_some a ds) ?_
  rintro cs _ _ ⟨⟩
  exact List.suffix_rfl

/-- What follows a character and blanks is the end of what follows the character. -/
theorem suffix_of_skip {verbose : Bool} {cs rest : List Char} (h : rest <:+ skipBlanks verbose cs) :
    rest <:+ cs :=
  h.trans (skipBlanks_suffix ..)

/-! ## Numbers of characters -/

theorem readHexDigits_suffix {verbose : Bool} {n value k : Nat} {cs rest : List Char}
    (h : readHexDigits verbose n value cs = some (k, rest)) : rest <:+ cs := by
  induction n generalizing value cs with
  | zero =>
    cases h
    exact List.suffix_rfl
  | succ n ih =>
    cases cs with
    | nil => cases h
    | cons c cs =>
      obtain ⟨d, -, h⟩ := Option.bind_eq_some_iff.1 h
      exact (suffix_of_skip (ih h)).trans (List.suffix_cons ..)

theorem readsAlone_readHexDigits (verbose : Bool) (n value : Nat) (cs : List Char) :
    ReadsAlone tail (readHexDigits verbose n value cs)
      (readHexDigits verbose n value (cs ++ ')' :: tail)) := by
  induction n generalizing value cs with
  | zero => exact .of_some value cs
  | succ n ih =>
    cases cs with
    | nil => exact .of_none
    | cons c cs =>
      exact .bind_left fun d => .skip (readHexDigits verbose n _) _ (fun ds _ => ih _ ds)
        readHexDigits_suffix

theorem readHexBraced_suffix {verbose : Bool} {fuel count value k : Nat} {cs rest : List Char}
    (h : readHexBraced verbose fuel count value cs = some (k, rest)) : rest <:+ cs := by
  induction fuel generalizing count value cs with
  | zero => cases h
  | succ fuel ih =>
    cases cs with
    | nil => cases h
    | cons c cs =>
      refine List.IsSuffix.trans ?_ (List.suffix_cons c cs)
      rw [readHexBraced] at h
      split at h
      · split at h
        · cases h
        · cases h
          exact skipBlanks_suffix ..
      · obtain ⟨d, -, h⟩ := Option.bind_eq_some_iff.1 h
        exact suffix_of_skip (ih h)

theorem readsAlone_readHexBraced (verbose : Bool) {fuel fuel' : Nat} (count value : Nat)
    {cs : List Char} (hfuel : cs.length < fuel) :
    ReadsAlone tail (readHexBraced verbose fuel count value cs)
      (readHexBraced verbose fuel' count value (cs ++ ')' :: tail)) := by
  induction fuel' generalizing fuel count value cs with
  | zero => exact .of_none
  | succ fuel' ih =>
    obtain ⟨fuel, rfl⟩ := Nat.exists_eq_add_of_lt (Nat.zero_lt_of_lt hfuel)
    cases cs with
    | nil => exact .of_none
    | cons c cs =>
      rw [List.cons_append, readHexBraced, readHexBraced]
      split
      · split
        · exact .of_none
        · exact .of_skip value verbose cs
      · refine .bind_left fun d => ?_
        refine .skip (readHexBraced verbose _ _ _) _ (fun ds hds => ih _ _ ?_) readHexBraced_suffix
        have := hds.length_le
        simp only [List.length_cons] at hfuel
        omega

theorem readHex_suffix {verbose : Bool} {digits : Nat} {cs rest : List Char} {a : Atom}
    (h : readHex verbose digits cs = some (a, rest)) : rest <:+ skipBlanks verbose cs := by
  rw [readHex] at h
  split at h
  · next ds hds =>
    obtain ⟨n, hn⟩ := exists_of_value h
    rw [hds]
    exact (suffix_of_skip (readHexBraced_suffix hn)).trans (List.suffix_cons ..)
  · obtain ⟨n, hn⟩ := exists_of_value h
    exact readHexDigits_suffix hn

theorem readsAlone_readHex (verbose : Bool) (digits : Nat) (cs : List Char) :
    ReadsAlone tail (readHex verbose digits cs) (readHex verbose digits (cs ++ ')' :: tail)) := by
  obtain heq | ⟨-, hpast⟩ := skipBlanks_append verbose tail cs
  · rw [readHex, readHex, heq]
    split
    · next ds hds =>
      rw [hds]
      refine .value (.skip (readHexBraced verbose _ 0 0) (readHexBraced verbose _ 0 0) ?_
        readHexBraced_suffix) charOfNat? _
      exact fun es hes => readsAlone_readHexBraced verbose 0 0 (Nat.lt_succ_of_le hes.length_le)
    · next hnot =>
      split
      · next hbrace =>
        obtain ⟨ds, hds, -⟩ := eq_cons_of_append_eq (by decide) hbrace
        exact absurd hds (hnot ds)
      · exact .value (readsAlone_readHexDigits verbose digits 0 _) charOfNat? _
  · exact .of_suffix fun _ _ h => (readHex_suffix h).trans hpast

/-! ## Names in braces -/

theorem readBraced_suffix {verbose : Bool} {fuel : Nat} {cs name rest : List Char}
    (h : readBraced verbose fuel cs = some (name, rest)) : rest <:+ cs := by
  induction fuel generalizing cs name with
  | zero => cases h
  | succ fuel ih =>
    cases cs with
    | nil => cases h
    | cons c cs =>
      refine List.IsSuffix.trans ?_ (List.suffix_cons c cs)
      rw [readBraced] at h
      split at h
      · cases h
        exact List.suffix_rfl
      · obtain ⟨name, hname⟩ := exists_of_value (g := some) h
        exact suffix_of_skip (ih hname)

theorem readsAlone_readBraced (verbose : Bool) {fuel fuel' : Nat} {cs : List Char}
    (hfuel : cs.length < fuel) :
    ReadsAlone tail (readBraced verbose fuel cs)
      (readBraced verbose fuel' (cs ++ ')' :: tail)) := by
  induction fuel' generalizing fuel cs with
  | zero => exact .of_none
  | succ fuel' ih =>
    obtain ⟨fuel, rfl⟩ := Nat.exists_eq_add_of_lt (Nat.zero_lt_of_lt hfuel)
    cases cs with
    | nil =>
      -- the parenthesis is part of the name
      refine .of_suffix fun name rest h => ?_
      rw [List.nil_append, readBraced, if_neg (by decide)] at h
      obtain ⟨name, hname⟩ := exists_of_value (g := some) h
      exact suffix_of_skip (readBraced_suffix hname)
    | cons c cs =>
      rw [List.cons_append, readBraced, readBraced]
      split
      · exact .of_some [] cs
      · refine .value (.skip (readBraced verbose _) (readBraced verbose _) (fun ds hds => ih ?_)
          readBraced_suffix) some _
        have := hds.length_le
        simp only [List.length_cons] at hfuel
        omega

theorem readProperty_letter {verbose negated : Bool} {c : Char} {cs ds : List Char} (hc : c ≠ '{')
    (hcs : skipBlanks verbose cs = c :: ds) :
    readProperty verbose negated cs
      = if c = '\\' then none
        else (Property.ofName? [c]).map fun p => (.property p negated, skipBlanks verbose ds) := by
  rw [readProperty, hcs]
  split
  · next heq => exact absurd (List.cons.inj heq).1 hc
  · next heq =>
    obtain ⟨rfl, rfl⟩ := List.cons.inj heq
    rfl
  · next heq => cases heq

theorem readProperty_suffix {verbose negated : Bool} {cs rest : List Char} {a : Atom}
    (h : readProperty verbose negated cs = some (a, rest)) : rest <:+ skipBlanks verbose cs := by
  rw [readProperty] at h
  split at h
  · next ds hds =>
    obtain ⟨name, hname⟩ := exists_of_value h
    rw [hds]
    exact (suffix_of_skip (readBraced_suffix hname)).trans (List.suffix_cons ..)
  · next c ds _ hds =>
    rw [hds]
    split at h
    · cases h
    · obtain ⟨p, -, h⟩ := Option.map_eq_some_iff.1 h
      cases h
      exact (skipBlanks_suffix ..).trans (List.suffix_cons ..)
  · cases h

theorem readsAlone_readProperty (verbose negated : Bool) (cs : List Char) :
    ReadsAlone tail (readProperty verbose negated cs)
      (readProperty verbose negated (cs ++ ')' :: tail)) := by
  obtain heq | ⟨-, hpast⟩ := skipBlanks_append verbose tail cs
  · cases hds : skipBlanks verbose cs with
    | nil =>
      -- the parenthesis stands for a property, if one has that name
      refine .of_suffix fun a rest h => ?_
      rw [hds] at heq
      rw [readProperty_letter (by decide) heq, if_neg (by decide)] at h
      obtain ⟨p, -, h⟩ := Option.map_eq_some_iff.1 h
      cases h
      exact skipBlanks_suffix ..
    | cons c ds =>
      rw [hds, List.cons_append] at heq
      by_cases hc : c = '{'
      · subst hc
        rw [readProperty, readProperty, hds, heq]
        refine .value (.skip (readBraced verbose _) (readBraced verbose _) ?_ readBraced_suffix)
          propertyOfText? _
        exact fun es hes => readsAlone_readBraced verbose (Nat.lt_succ_of_le hes.length_le)
      · rw [readProperty_letter hc hds, readProperty_letter hc heq]
        split
        · exact .of_none
        · cases Property.ofName? [c] with
          | none => exact .of_none
          | some p => exact .of_skip (Atom.property p negated) verbose ds
  · exact .of_suffix fun _ _ h => (readProperty_suffix h).trans hpast

/-! ## Word boundaries -/

theorem readBoundaryName_suffix {verbose : Bool} {fuel : Nat} {cs name rest : List Char}
    (h : readBoundaryName verbose fuel cs = some (name, rest)) : rest <:+ cs := by
  induction fuel generalizing cs name with
  | zero => cases h
  | succ fuel ih =>
    cases cs with
    | nil => cases h
    | cons c cs =>
      refine List.IsSuffix.trans ?_ (List.suffix_cons c cs)
      rw [readBoundaryName] at h
      split at h
      · obtain ⟨name, hname⟩ := exists_of_value (g := some) h
        exact suffix_of_skip (ih hname)
      · split at h
        · cases h
          exact List.suffix_rfl
        · cases h

theorem readsAlone_readBoundaryName (verbose : Bool) {fuel fuel' : Nat} {cs : List Char}
    (hfuel : cs.length < fuel) :
    ReadsAlone tail (readBoundaryName verbose fuel cs)
      (readBoundaryName verbose fuel' (cs ++ ')' :: tail)) := by
  induction fuel' generalizing fuel cs with
  | zero => exact .of_none
  | succ fuel' ih =>
    obtain ⟨fuel, rfl⟩ := Nat.exists_eq_add_of_lt (Nat.zero_lt_of_lt hfuel)
    cases cs with
    | nil =>
      have hlong : readBoundaryName verbose (fuel' + 1) (')' :: tail) = none := by
        rw [readBoundaryName, if_neg (by decide), if_neg (by decide)]
      rw [List.nil_append, hlong]
      exact .of_none
    | cons c cs =>
      rw [List.cons_append, readBoundaryName, readBoundaryName]
      split
      · refine .value (.skip (readBoundaryName verbose _) (readBoundaryName verbose _)
          (fun ds hds => ih ?_) readBoundaryName_suffix) some _
        have := hds.length_le
        simp only [List.length_cons] at hfuel
        omega
      · split
        · exact .of_some [] cs
        · exact .of_none

theorem readBoundary_plain {f : Flags} {cs : List Char} (h : ∀ ds, cs ≠ '{' :: ds) :
    readBoundary f cs = some (.look (.wordBoundary f.unicode), cs) := by
  unfold readBoundary
  split
  · exact absurd rfl (h _)
  · rfl

/-- The boundary of that name. -/
def boundaryOfName? (unicode : Bool) (name : List Char) : Option Look :=
  match String.ofList name with
  | "start" => some (.wordStart unicode)
  | "end" => some (.wordEnd unicode)
  | "start-half" => some (.wordStartHalf unicode)
  | "end-half" => some (.wordEndHalf unicode)
  | _ => none

theorem readBoundary_brace (f : Flags) (ds : List Char) :
    readBoundary f ('{' :: ds)
      = match skipBlanks f.verbose ds with
        | [] => none
        | c :: es =>
          if !isBoundaryChar c then some (.look (.wordBoundary f.unicode), '{' :: ds)
          else do
            let (name, rest) ← readBoundaryName f.verbose (es.length + 2) (c :: es)
            let l ← boundaryOfName? f.unicode name
            return (.look l, rest) := by
  rw [readBoundary]
  cases skipBlanks f.verbose ds with
  | nil => rfl
  | cons c es =>
    refine congrArg (ite _ _) (congrArg (Option.bind _) (funext fun p => ?_))
    dsimp only [boundaryOfName?]
    generalize String.ofList p.1 = name
    split <;> simp_all

theorem readBoundary_suffix {f : Flags} {cs rest : List Char} {a : Atom}
    (h : readBoundary f cs = some (a, rest)) : rest <:+ cs := by
  by_cases hbrace : ∃ ds, cs = '{' :: ds
  · obtain ⟨ds, rfl⟩ := hbrace
    rw [readBoundary_brace] at h
    split at h
    · cases h
    · next c es hes =>
      split at h
      · cases h
        exact List.suffix_rfl
      · obtain ⟨name, hname⟩ := exists_of_value h
        have hrest := readBoundaryName_suffix hname
        rw [← hes] at hrest
        exact (suffix_of_skip hrest).trans (List.suffix_cons '{' ds)
  · rw [readBoundary_plain (not_exists.1 hbrace)] at h
    cases h
    exact List.suffix_rfl

/-- A brace after a word boundary is no part of it where blanks and the parenthesis follow; at the
    end of a text it is an error. -/
theorem readBoundary_append {f : Flags} {cs rest : List Char} {a : Atom}
    (h : readBoundary f (cs ++ ')' :: tail) = some (a, rest)) :
    (rest <:+ tail ∨
      ∃ before, rest = before ++ ')' :: tail ∧ readBoundary f cs = some (a, before)) ∨
      ∃ ds, cs = '{' :: ds ∧ skipBlanks f.verbose ds = [] ∧
        a = .look (.wordBoundary f.unicode) ∧ rest = cs ++ ')' :: tail := by
  by_cases hbrace : ∃ ds, cs = '{' :: ds
  · obtain ⟨ds, rfl⟩ := hbrace
    rw [List.cons_append, readBoundary_brace] at h
    obtain heq | ⟨hnil, hpast⟩ := skipBlanks_append f.verbose tail ds
    · rw [heq] at h
      cases hds : skipBlanks f.verbose ds with
      | nil =>
        rw [hds] at h
        cases h
        exact .inr ⟨ds, rfl, hds, rfl, rfl⟩
      | cons c es =>
        rw [hds, List.cons_append] at h
        rw [readBoundary_brace, hds]
        dsimp only at h ⊢
        by_cases hc : (!isBoundaryChar c) = true
        · rw [if_pos hc] at h ⊢
          cases h
          exact .inl (.inr ⟨_, rfl, rfl⟩)
        · rw [if_neg hc] at h ⊢
          have hname : ReadsAlone tail (readBoundaryName f.verbose (es.length + 2) (c :: es))
              (readBoundaryName f.verbose ((es ++ ')' :: tail).length + 2)
                (c :: es ++ ')' :: tail)) :=
            readsAlone_readBoundaryName f.verbose (Nat.lt_succ_self _)
          exact .inl (hname.value _ _ _ _ h)
    · split at h
      · cases h
      · next c es hes =>
        split at h
        · cases h
          exact .inr ⟨ds, rfl, hnil, rfl, rfl⟩
        · obtain ⟨name, hname⟩ := exists_of_value h
          refine .inl (.inl (List.IsSuffix.trans ?_ hpast))
          rw [hes]
          exact readBoundaryName_suffix hname
  · rw [readBoundary_plain (append_ne_cons (by decide) (not_exists.1 hbrace))] at h
    cases h
    exact .inl (.inr ⟨cs, rfl, readBoundary_plain (not_exists.1 hbrace)⟩)

/-! ## Escapes -/

theorem suffix_of_ite {p : Prop} [Decidable p] {m n : Option (α × List Char)} {cs : List Char}
    (hm : ∀ a rest, m = some (a, rest) → rest <:+ cs)
    (hn : ∀ a rest, n = some (a, rest) → rest <:+ cs) :
    ∀ a rest, (if p then m else n) = some (a, rest) → rest <:+ cs := by
  split
  · exact hm
  · exact hn

theorem readEscape_suffix {f : Flags} {cs rest : List Char} {a : Atom}
    (h : readEscape f cs = some (a, rest)) : rest <:+ cs.tail := by
  cases cs with
  | nil => cases h
  | cons c cs =>
    suffices hall : ∀ a rest, readEscape f (c :: cs) = some (a, rest) → rest <:+ cs from
      hall a rest h
    rw [readEscape]
    repeat' refine suffix_of_ite ?_ ?_
    all_goals first
      | exact fun _ _ h => suffix_of_skip (readHex_suffix h)
      | exact fun _ _ h => suffix_of_skip (readProperty_suffix h)
      | exact fun _ _ h => readBoundary_suffix h
      | intro _ _ h; cases h; exact List.suffix_rfl
      | intro _ _ h; cases h

theorem readsAlone_readEscape {f : Flags} {c : Char} (hc : c ≠ 'b') (cs : List Char) :
    ReadsAlone tail (readEscape f (c :: cs)) (readEscape f (c :: (cs ++ ')' :: tail))) := by
  rw [readEscape, readEscape]
  simp only [if_neg hc]
  repeat' refine .ite ?_ ?_
  all_goals first
    | exact .of_none
    | exact .of_some _ cs
    | exact readsAlone_readHex _ _ cs
    | exact readsAlone_readProperty _ _ cs

theorem readEscape_append {f : Flags} {cs rest : List Char} {a : Atom}
    (h : readEscape f (cs ++ ')' :: tail) = some (a, rest)) :
    (rest <:+ tail ∨ ∃ before, rest = before ++ ')' :: tail ∧ readEscape f cs = some (a, before)) ∨
      ∃ ds, cs = 'b' :: '{' :: ds ∧ skipBlanks f.verbose ds = [] ∧
        a = .look (.wordBoundary f.unicode) ∧ rest = '{' :: ds ++ ')' :: tail := by
  cases cs with
  | nil => exact .inl (.inl (readEscape_suffix h))
  | cons c cs =>
    by_cases hc : c = 'b'
    · subst hc
      obtain hread | ⟨ds, rfl, hds, rfl, rfl⟩ := readBoundary_append h
      · exact .inl hread
      · exact .inr ⟨ds, rfl, hds, rfl, rfl⟩
    · exact .inl (readsAlone_readEscape hc cs _ _ h)

end Logbook.Regex
