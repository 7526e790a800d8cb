import Logbook.Proofs.Parsing.FilterSyntax

set_option autoImplicit false

/-! # Groups of a field

A field name in front of parentheses says what field all atoms in them are about, so that the group
should stand for the expression with the name in front of each atom. Atoms are read by `termFilter`
in a group and by `leafValue` behind a name. The two agree on words, beginnings of words and
quotations, and differ on the star, which is about no field in a group and about any value of the
field behind its name (`Query.parse_field_group`). -/

namespace Logbook

namespace FilterText

open QueryReader

/-! ## Filters that differ in atoms only -/

mutual

/-- All atoms satisfy a condition. -/
def Expr.All (p : Atom → Prop) : Expr → Prop
  | .mk t cs ds => t.All p ∧ cs.All p ∧ ds.All p

def Term.All (p : Atom → Prop) : Term → Prop
  | .atom a => p a
  | .not _ _ t => t.All p
  | .bang _ t => t.All p
  | .parens _ e _ => e.All p

def Conjuncts.All (p : Atom → Prop) : Conjuncts → Prop
  | .nil => True
  | .beside _ t cs => t.All p ∧ cs.All p
  | .and _ _ _ t cs => t.All p ∧ cs.All p

def Disjuncts.All (p : Atom → Prop) : Disjuncts → Prop
  | .nil => True
  | .or _ _ _ t cs ds => t.All p ∧ cs.All p ∧ ds.All p

end

theorem joined_cons_eq_iff {join : List Filter → Filter} (hjoin : Function.Injective join)
    {f g : Filter} {fs gs : List Filter} (hlength : fs.length = gs.length) :
    joined join (f :: fs) = joined join (g :: gs) ↔ f = g ∧ fs = gs := by
  cases fs with
  | nil =>
    obtain rfl := List.length_eq_zero_iff.1 hlength.symm
    simp [joined]
  | cons f' fs =>
    obtain ⟨g', gs, rfl⟩ := List.exists_cons_of_length_eq_add_one hlength.symm
    simp only [joined]
    rw [hjoin.eq_iff, List.cons.injEq]

section

variable {read read' : Atom → Filter}

theorem Conjuncts.length_filters (cs : Conjuncts) :
    (cs.filters read).length = (cs.filters read').length := by
  cases cs with
  | nil => rfl
  | beside gap t cs => exact congrArg Nat.succ cs.length_filters
  | and gap keyword gap' t cs => exact congrArg Nat.succ cs.length_filters

theorem Disjuncts.length_filters (ds : Disjuncts) :
    (ds.filters read).length = (ds.filters read').length := by
  cases ds with
  | nil => rfl
  | or gap keyword gap' t cs ds => exact congrArg Nat.succ ds.length_filters

mutual

/-- Readings of the atoms that lead to one filter agree on all atoms. -/
theorem Expr.filter_eq_iff (e : Expr) :
    e.filter read = e.filter read' ↔ e.All fun a => read a = read' a := by
  cases e with
  | mk t cs ds =>
    rw [Expr.filter, Expr.filter, joined_cons_eq_iff (fun _ _ => Filter.or.inj) ds.length_filters,
      joined_cons_eq_iff (fun _ _ => Filter.and.inj) cs.length_filters, t.filter_eq_iff,
      cs.filters_eq_iff, ds.filters_eq_iff, and_assoc, Expr.All]

theorem Term.filter_eq_iff (t : Term) :
    t.filter read = t.filter read' ↔ t.All fun a => read a = read' a := by
  cases t with
  | atom a => rfl
  | not keyword gap t =>
    rw [Term.filter, Term.filter, Filter.not.injEq, t.filter_eq_iff, Term.All]
  | bang gap t => rw [Term.filter, Term.filter, Filter.not.injEq, t.filter_eq_iff, Term.All]
  | parens gap e gap' => rw [Term.filter, Term.filter, e.filter_eq_iff, Term.All]

theorem Conjuncts.filters_eq_iff (cs : Conjuncts) :
    cs.filters read = cs.filters read' ↔ cs.All fun a => read a = read' a := by
  cases cs with
  | nil => exact iff_of_true rfl trivial
  | beside gap t cs =>
    rw [Conjuncts.filters, Conjuncts.filters, List.cons.injEq, t.filter_eq_iff, cs.filters_eq_iff,
      Conjuncts.All]
  | and gap keyword gap' t cs =>
    rw [Conjuncts.filters, Conjuncts.filters, List.cons.injEq, t.filter_eq_iff, cs.filters_eq_iff,
      Conjuncts.All]

theorem Disjuncts.filters_eq_iff (ds : Disjuncts) :
    ds.filters read = ds.filters read' ↔ ds.All fun a => read a = read' a := by
  cases ds with
  | nil => exact iff_of_true rfl trivial
  | or gap keyword gap' t cs ds =>
    rw [Disjuncts.filters, Disjuncts.filters, List.cons.injEq,
      joined_cons_eq_iff (fun _ _ => Filter.and.inj) cs.length_filters, t.filter_eq_iff,
      cs.filters_eq_iff, ds.filters_eq_iff, and_assoc, Disjuncts.All]

end

end

/-! ## Atoms -/

/-- The text of an atom. -/
def Atom.text : Atom → List Char
  | .word w => w.text.toList
  | .star => "*".toList
  | .quoted q => q.quote :: q.content

/-- What an atom stands for where it is about a field, but for the star. -/
def Atom.filter (field : String) (star : Filter) : Atom → Filter
  | .word w => wordFilter field w.text
  | .star => star
  | .quoted q => .phrase field (String.ofList q.out)

/-- The text of an atom behind a name. -/
def Atom.textBehind (name : String) (a : Atom) : List Char :=
  name.toList ++ ':' :: a.text

/-- A word that is taken for the name of a field wherever a filter may begin. -/
structure IsName (name : String) : Prop where
  isWord : IsWord name
  noBang : name.toList.head? ≠ some '!'
  noKeyword : ∀ keyword ∈ keywords, startsWithKeyword keyword (name.toList ++ [':']) = false

variable {now : Timestamp} {field : String} {behind : List Char}

/-- A term may begin here that is neither negated nor in parentheses. -/
structure OpensAtom (cs : List Char) : Prop extends Opens cs where
  bang : cs.head? ≠ some '!'
  paren : cs.head? ≠ some '('
  not : startsWithKeyword "not" cs = false

theorem OpensAtom.reads_unaryFilter {cs rest : List Char} {f : Filter} {fuel : Nat}
    (h : OpensAtom cs) (hread : Reads (termFilter now fuel field) cs f rest) :
    Reads (unaryFilter now (fuel + 1) field) cs f rest := by
  have hfront := h.toOpens.afterBlanks
  apply reads_unaryFilter_term <;> rw [hfront]
  exacts [h.not, h.bang, h.paren, hread]

theorem OpensAtom.of_word {word : String} (hword : IsWord word)
    (hbang : word.toList.head? ≠ some '!')
    (hkeyword : ∀ keyword ∈ keywords, startsWithKeyword keyword (word.toList ++ behind) = false) :
    OpensAtom (word.toList ++ behind) := by
  obtain ⟨c, rest, hcons, hblank, -⟩ := hword.exists_cons
  have hc : endsWord true c = false := hword.2 c (hcons ▸ List.mem_cons_self)
  rw [hcons] at hbang hkeyword ⊢
  have hne : ∀ mark, endsWord true mark = true → c ≠ mark := by
    rintro _ hmark rfl
    exact Bool.false_ne_true (hc.symm.trans hmark)
  exact {
    toOpens := .of_cons hblank (hne _ (by decide)) (hne _ (by decide)) (hkeyword "or" (by decide))
      (hkeyword "and" (by decide))
    bang := hbang
    paren := fun h => hne '(' (by decide) (Option.some.inj h)
    not := hkeyword "not" (by decide) }

theorem OpensAtom.of_quote {quote : Char} (hquote : isQuote quote = true) (cs : List Char) :
    OpensAtom (quote :: cs) := by
  simp only [isQuote, Bool.or_eq_true, decide_eq_true_eq] at hquote
  obtain (rfl | rfl) | rfl := hquote <;>
    exact ⟨.of_cons (by decide) (by decide) (by decide) rfl rfl, by simp, by simp, rfl⟩

/-- A word that is no keyword is none in front of a word's end. -/
theorem Word.not_startsWithKeyword (w : Word) (hbehind : EndsWord behind) :
    ∀ keyword ∈ keywords, startsWithKeyword keyword (w.text.toList ++ behind) = false := by
  intro keyword hkeyword
  rw [Bool.eq_false_iff]
  intro hstarts
  refine Bool.false_ne_true ((w.noKeyword keyword hkeyword).symm.trans ?_)
  cases behind with
  | nil => rwa [List.append_nil] at hstarts
  | cons c rest =>
    refine (startsWithKeyword_append_of_not_mem (fun hc => ?_) hstarts).2
    have hgoes := endsWord_of_toLower_mem hkeyword hc false
    exact Bool.false_ne_true (hgoes.symm.trans hbehind)

theorem IsName.not_startsWithKeyword {name : String} (h : IsName name) :
    ∀ keyword ∈ keywords, startsWithKeyword keyword (name.toList ++ ':' :: behind) = false := by
  intro keyword hkeyword
  rw [Bool.eq_false_iff]
  intro hstarts
  have hcolon : Char.toLower ':' ∉ keyword.toList :=
    (by decide : ∀ keyword ∈ keywords, Char.toLower ':' ∉ keyword.toList) keyword hkeyword
  exact Bool.false_ne_true ((h.noKeyword keyword hkeyword).symm.trans
    (startsWithKeyword_append_of_not_mem hcolon hstarts).1)

theorem IsName.opensAtom {name : String} (h : IsName name) (cs : List Char) :
    OpensAtom (name.toList ++ ':' :: cs) :=
  .of_word h.isWord h.noBang h.not_startsWithKeyword

theorem Atom.opensAtom (a : Atom) (hends : a.Ends behind) : OpensAtom (a.text ++ behind) := by
  cases a with
  | word w =>
    refine .of_word w.isWord (fun hbang => ?_) (w.not_startsWithKeyword hends)
    exact w.noMark '!' hbang (by decide)
  | star =>
    refine .of_word (by decide) (by decide) fun keyword hkeyword => ?_
    obtain rfl | rfl | rfl : keyword = "and" ∨ keyword = "or" ∨ keyword = "not" := by
      simpa [keywords] using hkeyword
    all_goals rfl
  | quoted q => exact .of_quote q.isQuote _

/-! ## Atoms in a group -/

theorem EndsWord.all_endsWord (h : EndsWord behind) (stopAtColon : Bool) :
    behind.head?.all (endsWord stopAtColon) = true := by
  cases behind with
  | nil => rfl
  | cons c rest =>
    have hc : endsWord false c = true := h
    simp only [endsWord, Bool.false_and, Bool.or_false] at hc
    rw [List.head?_cons, Option.all_some, endsWord, hc, Bool.true_or]

theorem EndsWord.head?_ne {c : Char} (h : EndsWord behind) (hc : endsWord false c = false) :
    behind.head? ≠ some c := by
  intro hhead
  rw [EndsWord, hhead] at h
  exact Bool.false_ne_true (hc.symm.trans h)

theorem reads_bareWord_word {word : String} (hword : IsWord word) (hends : EndsWord behind) :
    Reads (bareWord false) (word.toList ++ behind) word behind := by
  have hgoes : ∀ c ∈ word.toList, endsWord false c = false := fun c hc => by
    have hc := hword.2 c hc
    simp only [endsWord, Bool.or_eq_false_iff] at hc ⊢
    exact ⟨hc.1, rfl⟩
  have hread := reads_bareWord false (word.toList ++ behind)
  obtain ⟨htake, hdrop⟩ := takeWhile_word hgoes hends
  rwa [hword.afterBlanks_append, htake, hdrop, String.ofList_toList] at hread

theorem Quotation.reads_peekQuote (q : Quotation) :
    Reads peekQuote (q.quote :: q.content ++ behind) true (q.quote :: q.content ++ behind) := by
  have hread := QueryReader.reads_peekQuote (q.quote :: (q.content ++ behind))
  rwa [(OpensAtom.of_quote q.isQuote _).afterBlanks, List.head?_cons, Option.any_some,
    q.isQuote] at hread

theorem Quotation.reads_quoted (q : Quotation) :
    Reads quoted (q.quote :: q.content ++ behind) (String.ofList q.out) behind := by
  have hopens := OpensAtom.of_quote q.isQuote (q.content ++ behind)
  have hread := QueryReader.reads_quoted hopens.afterBlanks
    (quotedContent?_append behind q.closes).1
  rwa [List.drop_left] at hread

/-- In a group the star is about no field. -/
theorem Atom.reads_termFilter (a : Atom) (hends : a.Ends behind) (fuel : Nat) :
    Reads (termFilter now (fuel + 1) field) (a.text ++ behind) (a.filter field .all) behind := by
  cases a with
  | word w =>
    have hends : EndsWord behind := hends
    refine reads_termFilter_word w.isWord (hends.all_endsWord true) fun pos => ?_
    refine .bind (reads_peek? _) ?_
    rw [if_neg (hends.head?_ne (by decide)), if_neg w.noStar]
    exact .bind (reads_set _ _) (.bind (reads_bareWord_word w.isWord hends) (.pure _ _))
  | star =>
    have hends : EndsWord behind := hends
    refine reads_termFilter_word (by decide) (hends.all_endsWord true) fun pos => ?_
    refine .bind (reads_peek? _) ?_
    rw [if_neg (hends.head?_ne (by decide)), if_pos rfl]
    exact .pure _ _
  | quoted q =>
    rw [termFilter]
    refine .bind q.reads_peekQuote ?_
    rw [if_pos rfl]
    exact .bind q.reads_quoted (.pure _ _)

theorem readable_text (now : Timestamp) (field : String) :
    Readable now field Atom.text (Atom.filter field .all) where
  opens a _ h := (a.opensAtom h).toOpens
  reads a _ fuel h := (a.opensAtom h).reads_unaryFilter (a.reads_termFilter h fuel)

/-! ## Atoms behind a name -/

theorem reads_plainValue_word {word : String} (hword : IsWord word)
    (hlist : word.toList.map Char.toLower ≠ "in".toList) (hends : EndsWord behind)
    (htime : field ≠ timeName) :
    Reads (plainValue now field) (word.toList ++ behind) (wordFilter field word) behind := by
  obtain ⟨c, rest, hcons, -, hquote⟩ := hword.exists_cons
  have hpeek := reads_peekQuote (word.toList ++ behind)
  rw [hword.afterBlanks_append] at hpeek
  refine .bind hpeek ?_
  rw [if_neg (by simp [hcons, hquote])]
  refine .get_bind fun pos => .bind (reads_bareWord_word hword hends) (.bind (reads_peek? _) ?_)
  rw [if_neg fun h => hlist h.1, if_neg htime]
  exact .pure _ _

/-- A value that begins with no mark is read as it is. -/
theorem reads_leafValue_plain {c : Char} {cs rest : List Char} {f : Filter}
    (hblank : Text.isBlank c = false) (hmark : c ∉ "=~><\x7b".toList)
    (h : Reads (plainValue now field) (c :: cs) f rest) :
    Reads (leafValue now field) (c :: cs) f rest := by
  refine .bind (reads_peek? _) ?_
  rw [List.head?_cons]
  split
  case h_6 hc =>
    obtain rfl := Option.some.inj hc
    rw [if_neg (by simp [hblank])]
    exact h
  case h_7 hc => cases hc
  all_goals
    next hc =>
      obtain rfl := Option.some.inj hc
      exact absurd hmark (by decide)

theorem Quotation.noMark (q : Quotation) :
    Text.isBlank q.quote = false ∧ q.quote ∉ "=~><\x7b".toList := by
  have hquote := q.isQuote
  simp only [QueryReader.isQuote, Bool.or_eq_true, decide_eq_true_eq] at hquote
  obtain (h | h) | h := hquote <;> rw [h] <;> decide

/-- Behind a name the star is about any value of the field. -/
theorem Atom.reads_leafValue (a : Atom) (hends : a.Ends behind) (htime : field ≠ timeName) :
    Reads (leafValue now field) (a.text ++ behind) (a.filter field (.startsWith field ""))
      behind := by
  cases a with
  | word w =>
    obtain ⟨c, rest, hcons, hblank, -⟩ := w.isWord.exists_cons
    have hread : Reads (plainValue now field) (w.text.toList ++ behind) _ behind :=
      reads_plainValue_word w.isWord w.noList hends htime
    have hmark := w.noMark
    have hbrace : c ≠ '\x7b' := by
      rintro rfl
      exact absurd (w.isWord.2 _ (hcons ▸ List.mem_cons_self)) (by decide)
    rw [Atom.text]
    rw [hcons] at hread hmark ⊢
    refine reads_leafValue_plain hblank (fun hmem => ?_) hread
    have hmark := hmark c rfl
    simp at hmem hmark
    grind
  | star =>
    have hread : Reads (plainValue now field) ("*".toList ++ behind) (wordFilter field "*")
        behind :=
      reads_plainValue_word (by decide) (by decide) hends htime
    exact reads_leafValue_plain (c := '*') (by decide) (by decide) hread
  | quoted q =>
    refine reads_leafValue_plain q.noMark.1 q.noMark.2 (.bind q.reads_peekQuote ?_)
    rw [if_pos rfl]
    exact .bind q.reads_quoted (.pure _ _)

theorem readable_textBehind (now : Timestamp) (field : String) {name : String} (hname : IsName name)
    (htime : name ≠ timeName) :
    Readable now field (Atom.textBehind name) (Atom.filter name (.startsWith name "")) where
  opens a behind _ := by
    rw [Atom.textBehind, List.append_assoc]
    exact (hname.opensAtom _).toOpens
  reads a behind fuel h := by
    rw [Atom.textBehind, List.append_assoc]
    refine (hname.opensAtom _).reads_unaryFilter ?_
    exact reads_termFilter_field hname.isWord (a.opensAtom h).paren (a.reads_leafValue h htime)

/-! ## Texts -/

/-- An expression behind a name, in parentheses. -/
def fieldGroup (name : String) (gap : Blanks) (e : Expr) (gap' : Blanks) : String :=
  String.ofList (name.toList ++ ':' :: '(' :: (gap.chars ++ e.spell Atom.text (gap'.chars ++ [')'])))

/-- An expression with the name in front of each atom. -/
def fieldAtoms (name : String) (gap : Blanks) (e : Expr) (gap' : Blanks) : String :=
  String.ofList (gap.chars ++ e.spell (Atom.textBehind name) gap'.chars)

theorem Atom.text_ne_nil (a : Atom) : a.text ≠ [] := by
  cases a with
  | word w =>
    obtain ⟨c, rest, hcons, -⟩ := w.isWord.exists_cons
    rw [text, hcons]
    exact List.cons_ne_nil c rest
  | star => decide
  | quoted q => exact List.cons_ne_nil _ _

theorem Atom.textBehind_ne_nil (name : String) (a : Atom) : a.textBehind name ≠ [] :=
  List.append_ne_nil_of_right_ne_nil _ (List.cons_ne_nil _ _)

variable {name : String} (gap : Blanks) {gap' : Blanks} {e : Expr}

theorem parse_of_opens {text : String} {cs : List Char} {f : Filter}
    (htext : afterBlanks text.toList = cs) (hopens : Opens cs)
    (h : Reads (orFilter now (6 * cs.length + 6) msgName) cs f []) :
    Query.parse text now = .ok ⟨f, []⟩ := by
  cases hcons : cs with
  | nil => exact absurd (hcons.symm ▸ endsConjuncts_nil) hopens.joined
  | cons c rest =>
    refine Query.parse_of_reads_afterBlanks htext hcons ?_ h
    rintro rfl
    exact hopens.joined (hcons ▸ fun c hc => .inr (.inl (Option.some.inj hc).symm))

theorem parse_fieldGroup (now : Timestamp) (hname : IsName name)
    (hspelled : e.Spelled Atom.text (gap'.chars ++ [')'])) :
    Query.parse (fieldGroup name gap e gap') now = .ok ⟨e.filter (Atom.filter name .all), []⟩ := by
  have hatoms := readable_text now name
  have hopens := hname.opensAtom ('(' :: (gap.chars ++ e.spell Atom.text (gap'.chars ++ [')'])))
  refine parse_of_opens (String.toList_ofList ▸ hopens.afterBlanks) hopens.toOpens ?_
  have hsize := e.size_le Atom.text_ne_nil (gap'.chars ++ [')'])
  simp only [List.length_append, List.length_cons, List.length_nil] at hsize ⊢
  generalize hfuel : 6 * (_ + _) + 6 = fuel
  obtain ⟨fuel, rfl⟩ := Nat.exists_eq_add_of_le' (show 7 ≤ fuel by omega)
  have hread := e.reads hatoms hspelled (gap'.closes_paren []) (fuel + 3) (by omega)
  rw [gap'.afterBlanks_paren] at hread
  refine reads_orFilter_nil (hopens.reads_unaryFilter ?_)
  refine reads_termFilter_group hname.isWord ?_ (afterBlanks_cons (by decide) [])
  exact (e.opens hatoms hspelled).reads_gap ignoresBlanks_orFilter gap hread

theorem parse_fieldAtoms (now : Timestamp) (hname : IsName name) (htime : name ≠ timeName)
    (hspelled : e.Spelled (Atom.textBehind name) gap'.chars) :
    Query.parse (fieldAtoms name gap e gap') now
      = .ok ⟨e.filter (Atom.filter name (.startsWith name "")), []⟩ := by
  have hatoms := readable_textBehind now msgName hname htime
  have hopens := e.opens hatoms hspelled
  have hfront : afterBlanks (fieldAtoms name gap e gap').toList
      = e.spell (Atom.textBehind name) gap'.chars := by
    rw [fieldAtoms, String.toList_ofList, gap.afterBlanks_append, hopens.afterBlanks]
  have hsize := e.size_le (Atom.textBehind_ne_nil name) gap'.chars
  have hread := e.reads hatoms hspelled gap'.closes
    (6 * (e.spell (Atom.textBehind name) gap'.chars).length + 6) (by omega)
  rw [gap'.afterBlanks_chars] at hread
  exact parse_of_opens hfront hopens hread

end FilterText

open FilterText

/-- **A group of a field stands for its atoms behind the name if and only if no atom is a star.**
    Both texts are read, whatever the blanks and the case of the keywords, to filters that differ in
    the stars alone: a star in a group matches every row, and one behind the name those rows that
    have a value in the field. The texts are taken to be spelled such that each word and keyword
    ends where it should; the name would run on into a word or a keyword that an atom follows
    without a blank. -/
theorem Query.parse_field_group {name : String} (hname : IsName name) (htime : name ≠ timeName)
    (gap : Blanks) (e : Expr) (gap' : Blanks)
    (hgroup : e.Spelled Atom.text (gap'.chars ++ [')']))
    (hatoms : e.Spelled (Atom.textBehind name) gap'.chars) (now : Timestamp) :
    Query.parse (fieldGroup name gap e gap') now = .ok ⟨e.filter (Atom.filter name .all), []⟩ ∧
      Query.parse (fieldAtoms name gap e gap') now
        = .ok ⟨e.filter (Atom.filter name (.startsWith name "")), []⟩ ∧
      (Query.parse (fieldGroup name gap e gap') now = Query.parse (fieldAtoms name gap e gap') now ↔
        e.All (· ≠ .star)) := by
  have hparse := parse_fieldGroup gap now hname hgroup
  have hparse' := parse_fieldAtoms gap now hname htime hatoms
  have hstar : (fun a => Atom.filter name .all a = Atom.filter name (.startsWith name "") a)
      = (· ≠ .star) := by
    funext a
    cases a <;> simp [Atom.filter]
  refine ⟨hparse, hparse', ?_⟩
  rw [hparse, hparse', Except.ok.injEq, Query.mk.injEq, and_iff_left rfl, e.filter_eq_iff, hstar]

/-- The expression `a or NOT *`. -/
def FilterText.wordOrNoStar : Expr :=
  let blank : Blanks := ⟨[' '], List.forall_mem_singleton.2 (by decide)⟩
  let word : Word := ⟨"a", by decide, by simp, by decide, by decide, by decide⟩
  let noStar : Term := .not ⟨"NOT".toList, rfl⟩ blank (.atom .star)
  .mk (.atom (.word word)) .nil (.or blank ⟨"or".toList, rfl⟩ blank noStar .nil .nil)

/-- Negated, a star in a group matches no row, and one behind the name those without a value. -/
theorem Query.parse_negated_star :
    Query.parse "host:(a or NOT *)" 0 ≠ Query.parse "host:a or NOT host:*" 0 := by
  have hname : IsName "host" := ⟨by decide, by decide, by decide⟩
  have hgroup : wordOrNoStar.Spelled Atom.text [')'] :=
    ⟨rfl, trivial, rfl, ⟨rfl, rfl⟩, trivial, trivial⟩
  have hatoms : wordOrNoStar.Spelled (Atom.textBehind "host") [] :=
    ⟨rfl, trivial, rfl, ⟨rfl, rfl⟩, trivial, trivial⟩
  have hiff := (Query.parse_field_group hname (by decide) ⟨[], nofun⟩ wordOrNoStar ⟨[], nofun⟩
    hgroup hatoms 0).2.2
  intro h
  obtain ⟨-, -, hstar, -⟩ := hiff.1 h
  exact hstar rfl

end Logbook
