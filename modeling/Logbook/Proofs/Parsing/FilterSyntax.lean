import Logbook.Proofs.Parsing.Groups

set_option autoImplicit false

/-! # Filters as they are written

The syntax of filters that are built from atoms with `and`, `or`, `not`, exclamation marks and
parentheses. An expression keeps the blanks and the case of the keywords, so that it has one text
for each way to write its atoms (`Expr.spell`), and one filter for each way to read them
(`Expr.filter`). The types follow the readers: an expression is read by `orFilter`, what is joined
to it by `orRest` and `andRest`, and a term by `unaryFilter`. If the atoms are read where they are
written, so is an expression of them (`Expr.reads`). -/

namespace Logbook

namespace FilterText

open QueryReader

/-! ## Syntax -/

/-- Blanks between tokens; there may be none. -/
structure Blanks where
  chars : List Char
  blank : ∀ c ∈ chars, Text.isBlank c = true

/-- The words that are not terms. -/
def keywords : List String := ["and", "or", "not"]

/-- A keyword in some case. -/
structure Keyword (word : String) where
  chars : List Char
  spells : chars.map Char.toLower = word.toList

/-- A word that is not taken for anything else. -/
structure Word where
  text : String
  isWord : IsWord text
  noMark : ∀ c ∈ text.toList.head?, c ∉ "!=~><".toList
  noKeyword : ∀ keyword ∈ keywords, startsWithKeyword keyword text.toList = false
  noList : text.toList.map Char.toLower ≠ "in".toList
  noStar : text ≠ "*"

/-- A text in quotes: what stands behind its first quote, and what that stands for. -/
structure Quotation where
  quote : Char
  content : List Char
  out : List Char
  isQuote : isQuote quote = true
  closes : quotedContent? quote content = some (out, content.length)

/-- What filters are built from. -/
inductive Atom where
  | word (w : Word)
  | star
  | quoted (q : Quotation)

mutual

/-- Terms joined by `or`, by `and` or by nothing. -/
inductive Expr where
  | mk (t : Term) (cs : Conjuncts) (ds : Disjuncts)

/-- An atom, a negation or an expression in parentheses. -/
inductive Term where
  | atom (a : Atom)
  | not (keyword : Keyword "not") (gap : Blanks) (t : Term)
  | bang (gap : Blanks) (t : Term)
  | parens (gap : Blanks) (e : Expr) (gap' : Blanks)

/-- What `and` or nothing joins to a term. -/
inductive Conjuncts where
  | nil
  | beside (gap : Blanks) (t : Term) (cs : Conjuncts)
  | and (gap : Blanks) (keyword : Keyword "and") (gap' : Blanks) (t : Term) (cs : Conjuncts)

/-- What `or` joins to the terms in front. -/
inductive Disjuncts where
  | nil
  | or (gap : Blanks) (keyword : Keyword "or") (gap' : Blanks) (t : Term) (cs : Conjuncts)
    (ds : Disjuncts)

end

/-! ## Texts -/

section

variable (write : Atom → List Char)

mutual

/-- The text of an expression with `behind` behind it. -/
def Expr.spell : Expr → (behind : List Char) → List Char
  | .mk t cs ds, behind => t.spell (cs.spell (ds.spell behind))

def Term.spell : Term → (behind : List Char) → List Char
  | .atom a, behind => write a ++ behind
  | .not keyword gap t, behind => keyword.chars ++ (gap.chars ++ t.spell behind)
  | .bang gap t, behind => '!' :: (gap.chars ++ t.spell behind)
  | .parens gap e gap', behind => '(' :: (gap.chars ++ e.spell (gap'.chars ++ ')' :: behind))

def Conjuncts.spell : Conjuncts → (behind : List Char) → List Char
  | .nil, behind => behind
  | .beside gap t cs, behind => gap.chars ++ t.spell (cs.spell behind)
  | .and gap keyword gap' t cs, behind =>
    gap.chars ++ (keyword.chars ++ (gap'.chars ++ t.spell (cs.spell behind)))

def Disjuncts.spell : Disjuncts → (behind : List Char) → List Char
  | .nil, behind => behind
  | .or gap keyword gap' t cs ds, behind =>
    gap.chars ++ (keyword.chars ++ (gap'.chars ++ t.spell (cs.spell (ds.spell behind))))

end

/-- What follows is not taken for a part of a word. -/
def EndsWord (behind : List Char) : Prop :=
  behind.head?.all (endsWord false) = true

/-- What follows is not taken for a part of a keyword. -/
def EndsKeyword (behind : List Char) : Prop :=
  behind.head?.all endsKeyword = true

/-- The atom does not run on into what stands behind it. -/
def Atom.Ends (behind : List Char) : Atom → Prop
  | .quoted _ => True
  | _ => EndsWord behind

mutual

/-- With `behind` behind it, each word and each keyword of the expression ends where it should. -/
def Expr.Spelled : Expr → (behind : List Char) → Prop
  | .mk t cs ds, behind =>
    t.Spelled (cs.spell write (ds.spell write behind)) ∧ cs.Spelled (ds.spell write behind) ∧
      ds.Spelled behind

def Term.Spelled : Term → (behind : List Char) → Prop
  | .atom a, behind => a.Ends behind
  | .not _ gap t, behind => EndsKeyword (gap.chars ++ t.spell write behind) ∧ t.Spelled behind
  | .bang _ t, behind => t.Spelled behind
  | .parens _ e gap', behind => e.Spelled (gap'.chars ++ ')' :: behind)

def Conjuncts.Spelled : Conjuncts → (behind : List Char) → Prop
  | .nil, _ => True
  | .beside _ t cs, behind => t.Spelled (cs.spell write behind) ∧ cs.Spelled behind
  | .and _ _ gap' t cs, behind =>
    EndsKeyword (gap'.chars ++ t.spell write (cs.spell write behind)) ∧
      t.Spelled (cs.spell write behind) ∧ cs.Spelled behind

def Disjuncts.Spelled : Disjuncts → (behind : List Char) → Prop
  | .nil, _ => True
  | .or _ _ gap' t cs ds, behind =>
    EndsKeyword (gap'.chars ++ t.spell write (cs.spell write (ds.spell write behind))) ∧
      t.Spelled (cs.spell write (ds.spell write behind)) ∧ cs.Spelled (ds.spell write behind) ∧
      ds.Spelled behind

end

end

/-! ## Filters -/

section

variable (read : Atom → Filter)

mutual

/-- The filter of an expression. -/
def Expr.filter : Expr → Filter
  | .mk t cs ds => joined .or (joined .and (t.filter :: cs.filters) :: ds.filters)

def Term.filter : Term → Filter
  | .atom a => read a
  | .not _ _ t => .not t.filter
  | .bang _ t => .not t.filter
  | .parens _ e _ => e.filter

def Conjuncts.filters : Conjuncts → List Filter
  | .nil => []
  | .beside _ t cs => t.filter :: cs.filters
  | .and _ _ _ t cs => t.filter :: cs.filters

def Disjuncts.filters : Disjuncts → List Filter
  | .nil => []
  | .or _ _ _ t cs ds => joined .and (t.filter :: cs.filters) :: ds.filters

end

end

mutual

/-- The number of atoms, negations, parentheses and joints. -/
def Expr.size : Expr → Nat
  | .mk t cs ds => t.size + cs.size + ds.size

def Term.size : Term → Nat
  | .atom _ => 1
  | .not _ _ t => t.size + 1
  | .bang _ t => t.size + 1
  | .parens _ e _ => e.size + 1

def Conjuncts.size : Conjuncts → Nat
  | .nil => 0
  | .beside _ t cs => t.size + cs.size
  | .and _ _ _ t cs => t.size + cs.size

def Disjuncts.size : Disjuncts → Nat
  | .nil => 0
  | .or _ _ _ t cs ds => t.size + cs.size + ds.size + 1

end

theorem Term.size_pos (t : Term) : 1 ≤ t.size := by
  cases t with
  | atom a => exact Nat.le_refl 1
  | not keyword gap t => exact Nat.le_add_left 1 _
  | bang gap t => exact Nat.le_add_left 1 _
  | parens gap e gap' => exact Nat.le_add_left 1 _

/-! ## Tokens -/

theorem Blanks.afterBlanks_append (gap : Blanks) (cs : List Char) :
    afterBlanks (gap.chars ++ cs) = afterBlanks cs :=
  List.dropWhile_append_of_pos gap.blank

/-- Characters of keywords do not end words. -/
theorem endsWord_of_toLower_mem {keyword : String} (hkeyword : keyword ∈ keywords) {c : Char}
    (h : c.toLower ∈ keyword.toList) (stopAtColon : Bool) : endsWord stopAtColon c = false := by
  replace h : c.toLower ∈ ['a', 'n', 'd', 'o', 'r', 't'] := by
    obtain rfl | rfl | rfl : keyword = "and" ∨ keyword = "or" ∨ keyword = "not" := by
      simpa [keywords] using hkeyword
    all_goals
      simp at h ⊢
      tauto
  by_cases hupper : c.val ≥ 'A'.val ∧ c.val ≤ 'Z'.val
  · have hlow : 65 ≤ c.toNat := hupper.1
    have hhigh : c.toNat ≤ 90 := hupper.2
    exact endsWord_of_toNat (by omega) (by omega) (by omega) (by omega) stopAtColon
  · have hsame : c.toLower = c := dif_neg hupper
    rw [hsame] at h
    simp only [List.mem_cons, List.not_mem_nil, or_false] at h
    obtain rfl | rfl | rfl | rfl | rfl | rfl := h <;>
      exact endsWord_of_toNat (by decide) (by decide) (by decide) (by decide) stopAtColon

/-- A keyword in front of a word's end is in front of the end of the text. -/
theorem startsWithKeyword_append_of_not_mem {keyword : String} {c : Char}
    (hc : c.toLower ∉ keyword.toList) {word behind : List Char}
    (h : startsWithKeyword keyword (word ++ c :: behind) = true) :
    startsWithKeyword keyword (word ++ [c]) = true ∧ startsWithKeyword keyword word = true := by
  have hlength := length_le_of_startsWithKeyword_append hc h
  rw [← String.length_toList] at hlength
  simp only [startsWithKeyword, List.take_append_of_le_length hlength,
    List.drop_append_of_le_length hlength] at h ⊢
  cases hdrop : word.drop keyword.toList.length with
  | nil => simp_all
  | cons d rest => simp_all

namespace Keyword

variable {word : String} (keyword : Keyword word) (behind : List Char)

theorem length_chars : word.toList.length = keyword.chars.length := by
  rw [← keyword.spells, List.length_map]

theorem startsWithKeyword_append {behind : List Char} (h : EndsKeyword behind) :
    startsWithKeyword word (keyword.chars ++ behind) = true := by
  simp only [startsWithKeyword]
  rw [keyword.length_chars, List.take_left, List.drop_left, keyword.spells, Bool.and_eq_true]
  exact ⟨beq_self_eq_true _, h⟩

theorem drop_append {n : Nat} (hn : word.toList.length = n) :
    (keyword.chars ++ behind).drop n = behind := by
  rw [← hn, keyword.length_chars, List.drop_left]

/-- A keyword is not a shorter one that begins in another way. -/
theorem not_startsWithKeyword_append (other : String)
    (hlength : other.toList.length ≤ word.toList.length)
    (hother : word.toList.take other.toList.length ≠ other.toList) :
    startsWithKeyword other (keyword.chars ++ behind) = false := by
  rw [keyword.length_chars] at hlength
  simp only [startsWithKeyword]
  rw [List.take_append_of_le_length hlength, List.map_take, keyword.spells,
    beq_false_of_ne hother, Bool.false_and]

/-- A keyword begins with a letter. -/
theorem exists_cons (hword : word ∈ keywords) :
    ∃ c rest, keyword.chars = c :: rest ∧ endsWord true c = false := by
  have hne : word.toList ≠ [] := (by decide : ∀ word ∈ keywords, word.toList ≠ []) word hword
  cases hkeyword : keyword.chars with
  | nil => exact absurd (by rw [← keyword.spells, hkeyword]; rfl) hne
  | cons c rest =>
    refine ⟨c, rest, rfl, endsWord_of_toLower_mem hword ?_ true⟩
    rw [← keyword.spells, hkeyword]
    exact List.mem_cons_self

theorem afterBlanks_append (hword : word ∈ keywords) :
    afterBlanks (keyword.chars ++ behind) = keyword.chars ++ behind := by
  obtain ⟨c, rest, hcons, hc⟩ := keyword.exists_cons hword
  simp only [endsWord, Bool.or_eq_false_iff] at hc
  rw [hcons]
  exact afterBlanks_cons hc.1.1 _

theorem reads_eatKeyword (hword : word ∈ keywords) {behind : List Char}
    (h : EndsKeyword behind) : Reads (eatKeyword word) (keyword.chars ++ behind) true behind := by
  have hstart := keyword.afterBlanks_append behind hword
  have hread := reads_eatKeyword_true (hstart.symm ▸ keyword.startsWithKeyword_append h)
  rwa [hstart, keyword.drop_append _ String.length_toList] at hread

/-- Only one keyword ends the terms that the others join. -/
theorem not_endsConjuncts (hword : word ∈ keywords)
    (hor : startsWithKeyword "or" (keyword.chars ++ behind) = false) :
    ¬ EndsConjuncts (keyword.chars ++ behind) := by
  obtain ⟨c, rest, hcons, hc⟩ := keyword.exists_cons hword
  intro hends
  rcases hends c (by rw [hcons]; rfl) with rfl | rfl | h
  · exact absurd hc (by decide)
  · exact absurd hc (by decide)
  · rw [hor] at h
    exact Bool.false_ne_true h

end Keyword

/-! ## Where terms begin -/

/-- A term may begin here. -/
structure Opens (cs : List Char) : Prop where
  afterBlanks : afterBlanks cs = cs
  joined : ¬ EndsConjuncts cs
  and : startsWithKeyword "and" cs = false

theorem Opens.of_cons {c : Char} {rest : List Char} (hblank : Text.isBlank c = false)
    (hparen : c ≠ ')') (hbar : c ≠ '|') (hor : startsWithKeyword "or" (c :: rest) = false)
    (hand : startsWithKeyword "and" (c :: rest) = false) : Opens (c :: rest) where
  afterBlanks := afterBlanks_cons hblank rest
  joined h := by simpa [hparen, hbar, hor] using h c rfl
  and := hand

/-- Blanks in front of a term do not matter. -/
theorem Opens.reads_gap {α : Type} {m : QueryReader α} {a : α} {cs rest : List Char}
    (hopens : Opens cs) (hm : IgnoresBlanks m) (gap : Blanks) (h : Reads m cs a rest) :
    Reads m (gap.chars ++ cs) a rest := by
  refine .of_afterBlanks hm ?_
  rw [gap.afterBlanks_append, hopens.afterBlanks]
  exact h

/-- The atoms, as they are written, are terms about a field. -/
structure Readable (now : Timestamp) (field : String) (write : Atom → List Char)
    (read : Atom → Filter) : Prop where
  opens : ∀ a behind, a.Ends behind → Opens (write a ++ behind)
  reads : ∀ a behind fuel, a.Ends behind →
    Reads (unaryFilter now (fuel + 2) field) (write a ++ behind) (read a) behind

section

variable {now : Timestamp} {field : String} {write : Atom → List Char} {read : Atom → Filter}

theorem Term.opens (h : Readable now field write read) (t : Term) {behind : List Char}
    (hs : t.Spelled write behind) : Opens (t.spell write behind) := by
  cases t with
  | atom a => exact h.opens a behind hs
  | not keyword gap t =>
    exact {
      afterBlanks := keyword.afterBlanks_append _ (by decide)
      joined := keyword.not_endsConjuncts _ (by decide)
        (keyword.not_startsWithKeyword_append _ _ (by decide) (by decide))
      and := keyword.not_startsWithKeyword_append _ _ (by decide) (by decide) }
  | bang gap t => exact .of_cons (by decide) (by decide) (by decide) rfl rfl
  | parens gap e gap' => exact .of_cons (by decide) (by decide) (by decide) rfl rfl

theorem Expr.opens (h : Readable now field write read) (e : Expr) {behind : List Char}
    (hs : e.Spelled write behind) : Opens (e.spell write behind) := by
  obtain ⟨t, cs, ds⟩ := e
  exact t.opens h hs.1

/-- The text ends here, or the parentheses around it do. -/
def Closes (behind : List Char) : Prop :=
  ∀ c ∈ (afterBlanks behind).head?, c = ')'

theorem Closes.startsWithKeyword_or {behind : List Char} (h : Closes behind) :
    startsWithKeyword "or" (afterBlanks behind) = false := by
  rw [Closes] at h
  cases hbehind : afterBlanks behind with
  | nil => rfl
  | cons c rest =>
    rw [hbehind] at h
    obtain rfl := h c rfl
    rfl

theorem Blanks.afterBlanks_paren (gap : Blanks) (behind : List Char) :
    afterBlanks (gap.chars ++ ')' :: behind) = ')' :: behind :=
  (gap.afterBlanks_append _).trans (afterBlanks_cons (by decide) behind)

theorem Blanks.closes_paren (gap : Blanks) (behind : List Char) :
    Closes (gap.chars ++ ')' :: behind) := by
  rw [Closes, gap.afterBlanks_paren]
  exact fun c hc => (Option.some.inj hc).symm

theorem Blanks.afterBlanks_chars (gap : Blanks) : afterBlanks gap.chars = [] :=
  List.dropWhile_eq_nil_iff.2 gap.blank

theorem Blanks.closes (gap : Blanks) : Closes gap.chars := by
  rw [Closes, gap.afterBlanks_chars]
  nofun

/-- What `or` joins, or what is behind it, ends the terms in front. -/
theorem Disjuncts.endsConjuncts (ds : Disjuncts) {behind : List Char}
    (hs : ds.Spelled write behind) (hbehind : Closes behind) :
    EndsConjuncts (afterBlanks (ds.spell write behind)) := by
  cases ds with
  | nil => exact fun c hc => .inl (hbehind c hc)
  | or gap keyword gap' t cs ds =>
    rw [spell, gap.afterBlanks_append, keyword.afterBlanks_append _ (by decide)]
    exact fun _ _ => .inr (.inr (keyword.startsWithKeyword_append hs.1))

/-! ## Reading -/

theorem reads_andFilter {fuel : Nat} {cs mid rest : List Char} {f : Filter} {fs : List Filter}
    (hf : Reads (unaryFilter now fuel field) cs f mid)
    (hfs : Reads (andRest now fuel field) mid fs rest) :
    Reads (andFilter now (fuel + 1) field) cs (joined .and (f :: fs)) rest := by
  rw [andFilter]
  exact .bind hf (.bind hfs (.pure _ _))

mutual

/-- **An expression is read as the filter that it stands for**, at the end of the text and in
    parentheses. -/
theorem Expr.reads (h : Readable now field write read) (e : Expr) {behind : List Char}
    (hs : e.Spelled write behind) (hbehind : Closes behind) (fuel : Nat)
    (hfuel : 6 * e.size + 4 ≤ fuel) :
    Reads (orFilter now fuel field) (e.spell write behind) (e.filter read)
      (afterBlanks behind) := by
  obtain ⟨fuel, rfl⟩ := Nat.exists_eq_add_of_le' (Nat.le_trans (show 2 ≤ _ by omega) hfuel)
  match e, hs with
  | .mk t cs ds, ⟨ht, hcs, hds⟩ =>
    rw [Expr.size] at hfuel
    have hpos := t.size_pos
    have hfirst := reads_andFilter (t.reads h ht fuel (by omega))
      (cs.reads h hcs (ds.endsConjuncts hds hbehind) _ (by omega))
    have hothers := ds.reads h hds hbehind (fuel + 1) (by omega)
    rw [orFilter]
    exact .bind hfirst (.bind hothers (.pure _ _))

theorem Term.reads (h : Readable now field write read) (t : Term) {behind : List Char}
    (hs : t.Spelled write behind) (fuel : Nat) (hfuel : 6 * t.size + 2 ≤ fuel) :
    Reads (unaryFilter now fuel field) (t.spell write behind) (t.filter read) behind := by
  obtain ⟨fuel, rfl⟩ := Nat.exists_eq_add_of_le' (Nat.le_trans (show 2 ≤ _ by omega) hfuel)
  match t, hs with
  | .atom a, ha => exact h.reads a behind fuel ha
  | .not keyword gap t, ⟨hends, ht⟩ =>
    rw [Term.size] at hfuel
    have hmid := keyword.afterBlanks_append (gap.chars ++ t.spell write behind) (by decide)
    have hread := t.reads h ht (fuel + 1) (by omega)
    refine reads_unaryFilter_keyword ?_ ?_
    · rw [Term.spell, hmid]
      exact keyword.startsWithKeyword_append hends
    · rw [Term.spell, hmid, keyword.drop_append (n := 3) _ rfl]
      exact (t.opens h ht).reads_gap ignoresBlanks_unaryFilter gap hread
  | .bang gap t, ht =>
    rw [Term.size] at hfuel
    have hread := t.reads h ht (fuel + 1) (by omega)
    exact reads_unaryFilter_bang ((t.opens h ht).reads_gap ignoresBlanks_unaryFilter gap hread)
  | .parens gap e gap', he =>
    rw [Term.size] at hfuel
    obtain ⟨fuel, rfl⟩ := Nat.exists_eq_add_of_le' (show 2 ≤ fuel by omega)
    have hread := e.reads h he (gap'.closes_paren behind) (fuel + 3) (by omega)
    rw [gap'.afterBlanks_paren] at hread
    refine reads_unaryFilter_parens ?_ (afterBlanks_cons (by decide) behind)
    exact (e.opens h he).reads_gap ignoresBlanks_orFilter gap hread

theorem Conjuncts.reads (h : Readable now field write read) (cs : Conjuncts) {behind : List Char}
    (hs : cs.Spelled write behind) (hbehind : EndsConjuncts (afterBlanks behind)) (fuel : Nat)
    (hfuel : 6 * cs.size + 3 ≤ fuel) :
    Reads (andRest now fuel field) (cs.spell write behind) (cs.filters read)
      (afterBlanks behind) := by
  obtain ⟨fuel, rfl⟩ := Nat.exists_eq_add_of_le' (Nat.le_trans (show 2 ≤ _ by omega) hfuel)
  match cs, hs with
  | .nil, _ => exact reads_andRest_end hbehind
  | .beside gap t cs, ⟨ht, hcs⟩ =>
    rw [Conjuncts.size] at hfuel
    have hpos := t.size_pos
    have hopens := t.opens h ht
    have hmid : afterBlanks (gap.chars ++ t.spell write (cs.spell write behind))
        = t.spell write (cs.spell write behind) := by
      rw [gap.afterBlanks_append, hopens.afterBlanks]
    have hand := reads_eatKeyword_false (hopens.afterBlanks.symm ▸ hopens.and)
    rw [hopens.afterBlanks] at hand
    rw [Conjuncts.spell]
    refine reads_andRest_cons (by rw [hmid]; exact hopens.joined) (by rw [hmid]; exact hand)
      (t.reads h ht _ (by omega)) (cs.reads h hcs hbehind _ (by omega))
  | .and gap keyword gap' t cs, ⟨hends, ht, hcs⟩ =>
    rw [Conjuncts.size] at hfuel
    have hpos := t.size_pos
    have hstart := keyword.afterBlanks_append
      (gap'.chars ++ t.spell write (cs.spell write behind)) (by decide)
    have hmid := (gap.afterBlanks_append _).trans hstart
    have hor := keyword.not_startsWithKeyword_append
      (gap'.chars ++ t.spell write (cs.spell write behind)) "or" (by decide) (by decide)
    have hand := keyword.reads_eatKeyword (by decide) hends
    rw [Conjuncts.spell]
    refine reads_andRest_cons (by rw [hmid]; exact keyword.not_endsConjuncts _ (by decide) hor)
      (by rw [hmid]; exact hand) ?_ (cs.reads h hcs hbehind _ (by omega))
    exact (t.opens h ht).reads_gap ignoresBlanks_unaryFilter gap' (t.reads h ht _ (by omega))

theorem Disjuncts.reads (h : Readable now field write read) (ds : Disjuncts) {behind : List Char}
    (hs : ds.Spelled write behind) (hbehind : Closes behind) (fuel : Nat)
    (hfuel : 6 * ds.size + 1 ≤ fuel) :
    Reads (orRest now fuel field) (afterBlanks (ds.spell write behind)) (ds.filters read)
      (afterBlanks behind) := by
  obtain ⟨fuel, rfl⟩ := Nat.exists_eq_add_of_le' (Nat.le_trans (show 1 ≤ _ by omega) hfuel)
  match ds, hs with
  | .nil, _ =>
    have hor := hbehind.startsWithKeyword_or
    rw [← afterBlanks_afterBlanks] at hor
    have hread : Reads (orRest now (fuel + 1) field) _ [] _ := reads_orRest_end hor
    rwa [afterBlanks_afterBlanks] at hread
  | .or gap keyword gap' t cs ds, ⟨hends, ht, hcs, hds⟩ =>
    rw [Disjuncts.size] at hfuel
    obtain ⟨fuel, rfl⟩ := Nat.exists_eq_add_of_le' (show 2 ≤ fuel by omega)
    have hpos := t.size_pos
    have hstart := keyword.afterBlanks_append
      (gap'.chars ++ t.spell write (cs.spell write (ds.spell write behind))) (by decide)
    have hfirst := reads_andFilter (t.reads h ht (fuel + 1) (by omega))
      (cs.reads h hcs (ds.endsConjuncts hds hbehind) _ (by omega))
    have hothers := ds.reads h hds hbehind (fuel + 2) (by omega)
    rw [Disjuncts.spell, gap.afterBlanks_append, hstart]
    refine reads_orRest_cons ?_ ?_ hothers
    · rw [hstart]
      exact keyword.startsWithKeyword_append hends
    · rw [hstart, keyword.drop_append (n := 2) _ rfl]
      exact (t.opens h ht).reads_gap ignoresBlanks_andFilter gap' hfirst

end

end

/-! ## Lengths -/

section

variable {write : Atom → List Char}

mutual

/-- An expression is no larger than its text. -/
theorem Expr.size_le (hwrite : ∀ a, write a ≠ []) (e : Expr) (behind : List Char) :
    e.size + behind.length ≤ (e.spell write behind).length := by
  match e with
  | .mk t cs ds =>
    have ht := t.size_le hwrite (cs.spell write (ds.spell write behind))
    have hcs := cs.size_le hwrite (ds.spell write behind)
    have hds := ds.size_le hwrite behind
    rw [Expr.size, Expr.spell]
    omega

theorem Term.size_le (hwrite : ∀ a, write a ≠ []) (t : Term) (behind : List Char) :
    t.size + behind.length ≤ (t.spell write behind).length := by
  match t with
  | .atom a =>
    have ha := List.length_pos_iff.2 (hwrite a)
    rw [Term.size, Term.spell, List.length_append]
    omega
  | .not keyword gap t =>
    have ht := t.size_le hwrite behind
    have hkeyword : 3 = keyword.chars.length := keyword.length_chars
    simp only [Term.size, Term.spell, List.length_append]
    omega
  | .bang gap t =>
    have ht := t.size_le hwrite behind
    simp only [Term.size, Term.spell, List.length_cons, List.length_append]
    omega
  | .parens gap e gap' =>
    have he := e.size_le hwrite (gap'.chars ++ ')' :: behind)
    simp only [List.length_append, List.length_cons] at he
    simp only [Term.size, Term.spell, List.length_cons, List.length_append]
    omega

theorem Conjuncts.size_le (hwrite : ∀ a, write a ≠ []) (cs : Conjuncts) (behind : List Char) :
    cs.size + behind.length ≤ (cs.spell write behind).length := by
  match cs with
  | .nil => exact Nat.le_of_eq (Nat.zero_add _)
  | .beside gap t cs =>
    have ht := t.size_le hwrite (cs.spell write behind)
    have hcs := cs.size_le hwrite behind
    simp only [Conjuncts.size, Conjuncts.spell, List.length_append]
    omega
  | .and gap keyword gap' t cs =>
    have ht := t.size_le hwrite (cs.spell write behind)
    have hcs := cs.size_le hwrite behind
    simp only [Conjuncts.size, Conjuncts.spell, List.length_append]
    omega

theorem Disjuncts.size_le (hwrite : ∀ a, write a ≠ []) (ds : Disjuncts) (behind : List Char) :
    ds.size + behind.length ≤ (ds.spell write behind).length := by
  match ds with
  | .nil => exact Nat.le_of_eq (Nat.zero_add _)
  | .or gap keyword gap' t cs ds =>
    have ht := t.size_le hwrite (cs.spell write (ds.spell write behind))
    have hcs := cs.size_le hwrite (ds.spell write behind)
    have hds := ds.size_le hwrite behind
    have hkeyword : 2 = keyword.chars.length := keyword.length_chars
    simp only [Disjuncts.size, Disjuncts.spell, List.length_append]
    omega

end

end

end FilterText

end Logbook
