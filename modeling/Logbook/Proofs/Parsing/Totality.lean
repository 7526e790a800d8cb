import Logbook.Proofs.Parsing.Progress

set_option autoImplicit false

/-! # Every text is read

The parser comes to an end on every text, with a query or with a fault at a place between two
characters. A filter is read with six steps for each character that is ahead: from a filter joined
by `or` down to a term there are four readers, and each time one of them starts over, a character
has been gone past. So the mutual induction over the filters carries one inequality between the
characters ahead and the fuel (`QueryReader.FiltersSafe`). The other readers that repeat themselves
go past a comma, a bar or an option each time. -/

namespace Logbook

namespace QueryReader

open Cursor (Reaches StandsIn)

variable {α : Type} {o c : Cursor} {k : Nat} {now : Timestamp}

/-! ## Leaves of filters -/

theorem safe_pattern (make : String → Except Regex.Error Pattern) (h : o.Reaches k c) :
    Safe o (pattern make) c fun _ d => o.Reaches k d := by
  refine .get_bind (.bind (safe_value false h) fun source d hd => ?_)
  split
  · exact .pure hd
  · exact .failAt h nofun

theorem safe_compareOp (h : o.Reaches k c) :
    Safe o compareOp c fun _ d => o.Reaches k d := by
  refine .bind (safe_peek? h) fun _ _ h => .bind (safe_bump h.1) fun _ _ h => ?_
  refine .bind (safe_peek? h) fun _ _ h => .ite (fun _ => ?_) fun _ => .pure h.1
  exact .bind (safe_bump h.1) fun _ _ h => .pure h

theorem safe_comparison (field : String) (h : o.Reaches k c) :
    Safe o (comparison now field) c fun _ d => o.Reaches k d := by
  refine .bind (safe_compareOp h) fun _ c h => .get_bind ?_
  refine .bind (safe_value false h) fun text d hd => .ite (fun _ => ?_) fun _ => ?_
  all_goals
    split
    · exact .pure hd
    · exact .failAt h nofun

theorem safe_streamOp (h : o.Reaches k c) : Safe o streamOp c fun _ d => o.Reaches k d := by
  refine .bind (safe_skipBlanks h) fun _ c h => .get_bind ?_
  split
  · exact .bind (safe_skip h 2) fun _ _ h => .bind (safe_value false h) fun _ _ h => .pure h
  · exact .bind (safe_skip h 2) fun _ _ h => .bind (safe_pattern _ h) fun _ _ h => .pure h
  · exact .bind (safe_skip h 2) fun _ _ h => .bind (safe_pattern _ h) fun _ _ h => .pure h
  · exact .bind (safe_bump h) fun _ _ h => .bind (safe_value false h) fun _ _ h => .pure h
  · exact .fail h nofun

theorem safe_streamMatcher (h : o.Reaches k c) :
    Safe o streamMatcher c fun _ d => o.Reaches k d := by
  refine .bind (safe_skipBlanks h) fun _ c h => .get_bind ?_
  have hname : o.Reaches k (c.skipWhile isLabelChar) :=
    (h.trans (c.reaches_skipWhile isLabelChar)).of_add
  refine .bind (.set hname) fun _ c h => .ite (fun _ => .fail h nofun) fun _ => ?_
  exact .bind (safe_streamOp h) fun _ _ h => .pure h

theorem safe_plainValue (field : String) (h : o.Reaches k c) :
    Safe o (plainValue now field) c fun _ d => o.Reaches k d := by
  refine .bind (safe_peekQuote h) fun _ c h => .ite (fun _ => ?_) fun _ => .get_bind ?_
  · exact .bind (safe_quoted h) fun _ _ h => .pure (h.of_add)
  refine .bind (safe_bareWord false h) fun word d hd => ?_
  have hword : o.Reaches k d := hd.2.of_add
  refine .bind (safe_peek? hword) fun _ d hd => .ite (fun _ => ?_) fun _ => .ite (fun _ => ?_) ?_
  · refine .bind (safe_bump hd.1) fun _ _ h => ?_
    exact .bind (safe_itemList (safe_value false) ')' h) fun _ _ h => .pure h
  · split
    · exact .pure hd.1
    · exact .failAt h nofun
  · exact fun _ => .pure hd.1

theorem safe_leafValue (field : String) (h : o.Reaches k c) :
    Safe o (leafValue now field) c fun _ d => o.Reaches k d := by
  refine .bind (safe_peek? h) fun _ c h => ?_
  replace h := h.1
  split
  · exact .bind (safe_bump h) fun _ _ h => .bind (safe_value false h) fun _ _ h => .pure h
  · exact .bind (safe_bump h) fun _ _ h => .bind (safe_pattern _ h) fun _ _ h => .pure h
  · exact safe_comparison field h
  · exact safe_comparison field h
  · refine .ite (fun _ => .bind (safe_bump h) fun _ _ h => ?_) fun _ => safe_plainValue field h
    exact .bind (safe_itemList safe_streamMatcher '}' h) fun _ _ h => .pure h
  · exact .ite (fun _ => .fail h nofun) fun _ => safe_plainValue field h
  · exact .fail h nofun

/-! ## Filters -/

/-- With some fuel, what reads filters goes past a character, and what reads the rest of a list of
    filters may stay. Six steps stand against each character, and the readers that call each other
    without going past one differ in the steps that they ask for besides. -/
structure FiltersSafe (now : Timestamp) (fuel : Nat) : Prop where
  orFilter : ∀ field {o c k}, o.Reaches k c → 6 * o.rest.length + 4 ≤ fuel + 6 * k →
    Safe o (orFilter now fuel field) c fun _ d => o.Reaches (k + 1) d
  orRest : ∀ field {o c k}, o.Reaches k c → 6 * o.rest.length + 1 ≤ fuel + 6 * k →
    Safe o (orRest now fuel field) c fun _ d => o.Reaches k d
  andFilter : ∀ field {o c k}, o.Reaches k c → 6 * o.rest.length + 3 ≤ fuel + 6 * k →
    Safe o (andFilter now fuel field) c fun _ d => o.Reaches (k + 1) d
  andRest : ∀ field {o c k}, o.Reaches k c → 6 * o.rest.length + 3 ≤ fuel + 6 * k →
    Safe o (andRest now fuel field) c fun _ d => o.Reaches k d
  unaryFilter : ∀ field {o c k}, o.Reaches k c → 6 * o.rest.length + 2 ≤ fuel + 6 * k →
    Safe o (unaryFilter now fuel field) c fun _ d => o.Reaches (k + 1) d
  termFilter : ∀ field {o c k}, o.Reaches k c → 6 * o.rest.length + 1 ≤ fuel + 6 * k →
    Safe o (termFilter now fuel field) c fun _ d => o.Reaches (k + 1) d

namespace FiltersSafe

variable {fuel : Nat}

theorem zero : FiltersSafe now 0 := by
  constructor <;> exact fun _ _ _ _ h hfuel => absurd h.length_le (by omega)

theorem safe_orFilter (hs : FiltersSafe now fuel) (field : String) (h : o.Reaches k c)
    (hfuel : 6 * o.rest.length + 4 ≤ fuel + 1 + 6 * k) :
    Safe o (QueryReader.orFilter now (fuel + 1) field) c fun _ d => o.Reaches (k + 1) d := by
  rw [QueryReader.orFilter]
  refine .bind (hs.andFilter field h (by omega)) fun _ _ h => ?_
  exact .bind (hs.orRest field h (by omega)) fun _ _ h => .pure h

theorem safe_orRest (hs : FiltersSafe now fuel) (field : String) (h : o.Reaches k c)
    (hfuel : 6 * o.rest.length + 1 ≤ fuel + 1 + 6 * k) :
    Safe o (QueryReader.orRest now (fuel + 1) field) c fun _ d => o.Reaches k d := by
  rw [QueryReader.orRest]
  refine .bind (safe_eatKeyword (by decide) h) fun b c h => .ite (fun hb => ?_) fun _ => ?_
  · have hor : o.Reaches (k + 1) c := h.of_toNat hb
    refine .bind (hs.andFilter field hor (by omega)) fun _ _ h => ?_
    exact .bind (hs.orRest field h (by omega)) fun _ _ h => .pure (h.weaken (by omega))
  · exact .pure (h.of_add)

theorem safe_andFilter (hs : FiltersSafe now fuel) (field : String) (h : o.Reaches k c)
    (hfuel : 6 * o.rest.length + 3 ≤ fuel + 1 + 6 * k) :
    Safe o (QueryReader.andFilter now (fuel + 1) field) c fun _ d => o.Reaches (k + 1) d := by
  rw [QueryReader.andFilter]
  refine .bind (hs.unaryFilter field h (by omega)) fun _ _ h => ?_
  exact .bind (hs.andRest field h (by omega)) fun _ _ h => .pure h

theorem safe_andRest (hs : FiltersSafe now fuel) (field : String) (h : o.Reaches k c)
    (hfuel : 6 * o.rest.length + 3 ≤ fuel + 1 + 6 * k) :
    Safe o (QueryReader.andRest now (fuel + 1) field) c fun _ d => o.Reaches k d := by
  rw [QueryReader.andRest]
  refine .bind (safe_atEnd h) fun _ c h => .ite (fun _ => .pure h) fun _ => ?_
  refine .bind (safe_peek? h) fun _ c h => .bind (safe_peek? h.1) fun _ c h => ?_
  refine .ite (fun _ => .pure h.1) fun _ => ?_
  refine .bind (safe_peekKeyword "or" h.1) fun _ c h => .ite (fun _ => .pure h.1) fun _ => ?_
  refine .bind (safe_eatKeyword (by decide) h.1) fun _ c h => ?_
  replace h : o.Reaches k c := h.of_add
  refine .bind (hs.unaryFilter field h (by omega)) fun _ _ h => ?_
  exact .bind (hs.andRest field h (by omega)) fun _ _ h => .pure (h.of_add)

theorem safe_unaryFilter (hs : FiltersSafe now fuel) (field : String) (h : o.Reaches k c)
    (hfuel : 6 * o.rest.length + 2 ≤ fuel + 1 + 6 * k) :
    Safe o (QueryReader.unaryFilter now (fuel + 1) field) c fun _ d => o.Reaches (k + 1) d := by
  have hnegated : ∀ {b : Bool} {c}, o.Reaches (k + b.toNat) c → b = true →
      Safe o (do return Filter.not (← QueryReader.unaryFilter now fuel field)) c
        fun _ d => o.Reaches (k + 1) d := by
    intro b c h hb
    refine .bind (hs.unaryFilter field (h.of_toNat hb) (by omega)) fun _ _ h => ?_
    exact .pure (h.weaken (by omega))
  rw [QueryReader.unaryFilter]
  refine .bind (safe_eatKeyword (by decide) h) fun b c h => .ite (hnegated h) fun _ => ?_
  replace h : o.Reaches k c := h.of_add
  refine .bind (safe_eat '!' h) fun b c h => .ite (hnegated h) fun _ => ?_
  replace h : o.Reaches k c := h.of_add
  refine .bind (safe_eat '(' h) fun b c h => .ite (fun hb => ?_) fun _ => ?_
  · have hparen : o.Reaches (k + 1) c := h.of_toNat hb
    refine .bind (hs.orFilter field hparen (by omega)) fun _ _ h => ?_
    exact .bind (safe_expect ')' h) fun _ _ h => .pure (h.weaken (by omega))
  · exact hs.termFilter field (h.of_add) (by omega)

theorem safe_termFilter (hs : FiltersSafe now fuel) (field : String) (h : o.Reaches k c)
    (hfuel : 6 * o.rest.length + 1 ≤ fuel + 1 + 6 * k) :
    Safe o (QueryReader.termFilter now (fuel + 1) field) c fun _ d => o.Reaches (k + 1) d := by
  rw [QueryReader.termFilter]
  refine .bind (safe_peekQuote h) fun _ start hstart => .ite (fun _ => ?_) fun _ => .get_bind ?_
  · exact .bind (safe_quoted hstart) fun _ _ h => .pure h
  refine .bind (safe_bareWord true hstart) fun word c h => ?_
  refine .ite (fun _ => .fail h.2 (by simp)) fun hword => ?_
  have hone : 1 ≤ (wordAhead true start).length := by
    rw [h.1] at hword
    exact List.length_pos_iff.2 fun hnil => hword (by rw [hnil]; rfl)
  replace h : o.Reaches (k + 1) c := h.2.weaken (by omega)
  refine .bind (safe_peek? h) fun _ c h => .ite (fun _ => ?field) fun _ => ?word
  case field =>
    refine .bind (safe_bump h.1) fun _ c h => .bind (safe_peek? h) fun _ c h => ?_
    refine .ite (fun _ => ?_) fun _ => safe_leafValue word h.1
    refine .bind (safe_bump h.1) fun _ c h => ?_
    refine .bind (hs.orFilter word h (by omega)) fun _ _ h => ?_
    exact .bind (safe_expect ')' h) fun _ _ h => .pure (h.weaken (by omega))
  case word =>
    refine .ite (fun _ => .pure h.1) fun _ => ?_
    -- the reader goes back to where the word began, and past no less than the same word
    have hset : Safe o (set start) c fun _ d => d = start := .set rfl
    refine .bind hset fun _ d hd => ?_
    obtain rfl := hd
    have hmore := length_wordAhead_le d
    exact .bind (safe_bareWord false hstart) fun _ _ h => .pure (h.2.weaken (by omega))

theorem succ (hs : FiltersSafe now fuel) : FiltersSafe now (fuel + 1) where
  orFilter _ := hs.safe_orFilter _
  orRest _ := hs.safe_orRest _
  andFilter _ := hs.safe_andFilter _
  andRest _ := hs.safe_andRest _
  unaryFilter _ := hs.safe_unaryFilter _
  termFilter _ := hs.safe_termFilter _

end FiltersSafe

theorem filtersSafe (now : Timestamp) (fuel : Nat) : FiltersSafe now fuel := by
  induction fuel with
  | zero => exact .zero
  | succ fuel ih => exact ih.succ

theorem safe_filter (h : o.Reaches k c) : Safe o (filter now) c fun _ d => o.Reaches k d := by
  refine .get_bind ((Safe.of_self (n := fun _ => 1) h ?_).mono fun _ _ h => h.of_add)
  exact (filtersSafe now _).orFilter msgName (Reaches.refl c) (by omega)

/-! ## Arguments of pipes -/

theorem safe_count (h : o.Reaches k c) :
    Safe o count c fun _ d => o.Reaches (k + (wordAhead true c).length) d := by
  refine .get_bind (.bind (safe_bareWord true h) fun text d hd => ?_)
  split
  · exact .pure hd.2
  · exact .failAt h nofun

theorem safe_fieldNames {fuel : Nat} (h : o.Reaches k c) (hfuel : o.rest.length < fuel + k) :
    Safe o (fieldNames fuel) c fun _ d => o.Reaches k d := by
  induction fuel generalizing k c with
  | zero => exact absurd h.length_le (by omega)
  | succ fuel ih =>
    rw [fieldNames]
    refine .bind (safe_value false h) fun name c h => .ite (fun _ => .fail h nofun) fun _ => ?_
    refine .bind (safe_eat ',' h) fun b c h => .ite (fun hb => ?_) fun _ => ?_
    · have hcomma : o.Reaches (k + 1) c := h.of_toNat hb
      exact .bind (ih hcomma (by omega)) fun _ _ h => .pure (h.of_add)
    · exact .pure (h.of_add)

theorem safe_fieldList (h : o.Reaches k c) : Safe o fieldList c fun _ d => o.Reaches k d := by
  refine .bind (safe_eat '(' h) fun parens c h => .get_bind ?_
  replace h : o.Reaches k c := h.of_add
  have hnames : Safe o (fieldNames (c.rest.length + 1)) c fun _ d => o.Reaches k d :=
    .of_self (n := fun _ => 0) h (safe_fieldNames (Reaches.refl c) (by omega))
  refine .bind hnames fun _ _ h => .ite (fun _ => ?_) fun _ => .pure h
  exact .bind (safe_expect ')' h) fun _ _ h => .pure (h.of_add)

theorem safe_limitPipe (h : o.Reaches k c) : Safe o limitPipe c fun _ d => o.Reaches k d := by
  refine .bind (safe_atEnd h) fun _ _ h => .bind (safe_peek? h) fun _ _ h => ?_
  refine .ite (fun _ => .pure h.1) fun _ => .bind (safe_count h.1) fun _ _ h => ?_
  exact .pure (h.of_add)

theorem safe_sortKey (h : o.Reaches k c) : Safe o sortKey c fun _ d => o.Reaches k d := by
  refine .bind (safe_value false h) fun _ c h => .ite (fun _ => .fail h nofun) fun _ => ?_
  refine .bind (safe_eatKeyword (by decide) h) fun _ c h => .ite (fun _ => ?_) fun _ => ?_
  · exact .pure (h.of_add)
  · refine .bind (safe_eatKeyword (by decide) (h.of_add)) fun _ _ h => ?_
    exact .pure (h.of_add)

theorem safe_sortPipe (h : o.Reaches k c) : Safe o sortPipe c fun _ d => o.Reaches k d := by
  refine .bind (safe_eatKeyword (by decide) h) fun _ c h => ?_
  replace h : o.Reaches k c := h.of_add
  refine .bind (safe_eat '(' h) fun parens c h => ?_
  replace h : o.Reaches k c := h.of_add
  refine .ite_bind (Q := fun _ d => o.Reaches k d) (fun _ => safe_itemList safe_sortKey ')' h)
    (fun _ => .pure h) fun keys c h => ?_
  refine .bind (safe_eatKeyword (by decide) h) fun _ c h => ?_
  replace h : o.Reaches k c := h.of_add
  refine .bind (safe_eatKeyword (by decide) h) fun limited c h => ?_
  replace h : o.Reaches k c := h.of_add
  refine .ite_bind (Q := fun _ d => o.Reaches k d) (fun _ => ?_) (fun _ => .pure h)
    fun _ _ h => .pure h
  exact .map ((safe_count h).mono fun _ _ h => h.of_add)

theorem safe_groupField (h : o.Reaches k c) : Safe o groupField c fun _ d => o.Reaches k d := by
  refine .bind (safe_value true h) fun name c h => .ite (fun _ => .fail h nofun) fun _ => ?_
  refine .bind (safe_peek? h) fun _ c h => .ite (fun _ => ?_) fun _ => .pure h.1
  refine .bind (safe_bump h.1) fun _ c h => .get_bind ?_
  refine .bind (safe_bareWord false h) fun text d hd => .ite (fun _ => .failAt h nofun) fun _ => ?_
  split
  · exact .pure (hd.2.of_add)
  · exact .failAt h nofun

theorem safe_resultName (h : o.Reaches k c) : Safe o resultName c fun _ d => o.Reaches k d :=
  .bind (safe_value false h) fun _ _ h => .ite (fun _ => .fail h nofun) fun _ => .pure h

theorem safe_resultNameAhead (h : o.Reaches k c) :
    Safe o resultNameAhead c fun _ d => o.Reaches k d :=
  .bind (safe_atEnd h) fun _ _ h => .ite (fun _ => .pure h) fun _ =>
    .bind (safe_peek? h) fun _ _ h => .pure h.1

/-! ## Pipes -/

theorem safe_statsFunc (h : o.Reaches k c) : Safe o statsFunc c fun _ d => o.Reaches k d := by
  refine .get_bind (.bind (safe_bareWord true h) fun name d hd => ?_)
  split
  · exact .failAt h nofun
  · refine .bind (safe_expect '(' (hd.2.of_add)) fun _ _ h => ?_
    refine .bind (safe_itemList (safe_value false) ')' (h.of_add)) fun _ _ h => ?_
    refine .bind (safe_eatKeyword (by decide) h) fun _ c h => ?_
    replace h : o.Reaches k c := h.of_add
    refine .ite (fun _ => .bind (safe_resultName h) fun _ _ h => .pure h) fun _ => ?_
    refine .bind (safe_resultNameAhead h) fun _ _ h => .ite (fun _ => ?_) fun _ => .pure h
    exact .bind (safe_resultName h) fun _ _ h => .pure h

theorem safe_statsFuncs {fuel : Nat} (h : o.Reaches k c) (hfuel : o.rest.length < fuel + k) :
    Safe o (statsFuncs fuel) c fun _ d => o.Reaches k d := by
  induction fuel generalizing k c with
  | zero => exact absurd h.length_le (by omega)
  | succ fuel ih =>
    rw [statsFuncs]
    refine .bind (safe_statsFunc h) fun _ c h => .bind (safe_eat ',' h) fun b c h => ?_
    refine .ite (fun hb => ?_) fun _ => .pure (h.of_add)
    have hcomma : o.Reaches (k + 1) c := h.of_toNat hb
    exact .bind (ih hcomma (by omega)) fun _ _ h => .pure (h.of_add)

theorem safe_statsPipe (h : o.Reaches k c) : Safe o statsPipe c fun _ d => o.Reaches k d := by
  refine .bind (safe_eatKeyword (by decide) h) fun grouped c h => ?_
  replace h : o.Reaches k c := h.of_add
  have hfuncs : ∀ groupBy {c}, o.Reaches k c →
      Safe o (do return Pipe.stats ⟨groupBy, ← statsFuncs ((← get).rest.length + 1)⟩) c
        fun _ d => o.Reaches k d := fun groupBy c h => by
    refine .get_bind (.bind (.of_self (n := fun _ => 0) h ?_) fun _ _ h => .pure h)
    exact safe_statsFuncs (Reaches.refl c) (by omega)
  refine .ite (fun _ => .bind (safe_expect '(' h) fun _ _ h => ?_) fun _ => ?_
  · exact .bind (safe_itemList safe_groupField ')' (h.of_add)) fun groupBy _ h =>
      hfuncs groupBy h
  · exact .bind (Q := fun _ d => o.Reaches k d) (.pure h) fun groupBy _ h => hfuncs groupBy h

/-- Each option goes past its keyword, or past the digits of a limit. -/
theorem safe_facetsOptions {fuel : Nat} (p : FacetsPipe) (h : o.Reaches k c)
    (hfuel : o.rest.length < fuel + k) :
    Safe o (facetsOptions fuel p) c fun _ d => o.Reaches k d := by
  induction fuel generalizing k c p with
  | zero => exact absurd h.length_le (by omega)
  | succ fuel ih =>
    have hmore : ∀ p {c}, o.Reaches (k + 1) c →
        Safe o (facetsOptions fuel p) c fun _ d => o.Reaches k d := fun p c h =>
      (ih p h (by omega)).mono fun _ _ h => h.of_add
    rw [facetsOptions]
    refine .bind (safe_atEnd h) fun _ _ h => .bind (safe_peek? h) fun _ c h => ?_
    refine .ite (fun _ => .pure h.1) fun _ => .bind (safe_peek? h.1) fun x c h => ?_
    refine .ite (fun hdigit => ?_) fun _ => ?_
    · obtain ⟨h, rfl⟩ := h
      refine .bind (safe_count h) fun _ c hc => hmore _ (hc.weaken ?_)
      exact Nat.add_le_add_left (length_wordAhead_of_digit hdigit) k
    refine .bind (safe_eatKeyword (by decide) h.1) fun b c h => .ite (fun hb => ?_) fun _ => ?_
    · exact .bind (safe_count (h.of_toNat hb)) fun _ _ h => hmore _ (h.of_add)
    replace h : o.Reaches k c := h.of_add
    refine .bind (safe_eatKeyword (by decide) h) fun b c h => .ite (fun hb => ?_) fun _ => ?_
    · exact .bind (safe_count (h.of_toNat hb)) fun _ _ h => hmore _ (h.of_add)
    replace h : o.Reaches k c := h.of_add
    refine .bind (safe_eatKeyword (by decide) h) fun b c h => .ite (fun hb => ?_) fun _ => ?_
    · exact hmore _ (h.of_toNat hb)
    · exact .get_bind (.fail h nofun)

theorem safe_pipe (h : o.Reaches k c) : Safe o (pipe now) c fun _ d => o.Reaches k d := by
  refine .bind (safe_skipBlanks h) fun _ start hstart => .get_bind ?_
  refine .bind (safe_bareWord true hstart) fun name c h => ?_
  replace h : o.Reaches k c := h.2.of_add
  dsimp only
  split
  · exact .bind (safe_filter h) fun _ _ h => .pure h
  · exact .bind (safe_filter h) fun _ _ h => .pure h
  · exact .bind (safe_fieldList h) fun _ _ h => .pure h
  · exact safe_limitPipe h
  · exact safe_limitPipe h
  · exact safe_sortPipe h
  · exact safe_statsPipe h
  · refine .get_bind (.bind (.of_self (n := fun _ => 0) h ?_) fun _ _ h => .pure h)
    exact safe_facetsOptions {} (Reaches.refl c) (by omega)
  · exact .fail h nofun
  · exact .ite (fun _ => .bind (.set hstart) fun _ _ h => safe_statsPipe h) fun _ =>
      .failAt hstart nofun

theorem safe_pipes {fuel : Nat} (h : o.Reaches k c) (hfuel : o.rest.length < fuel + k) :
    Safe o (pipes now fuel) c fun _ d => o.Reaches k d := by
  induction fuel generalizing k c with
  | zero => exact absurd h.length_le (by omega)
  | succ fuel ih =>
    rw [pipes]
    refine .bind (safe_eat '|' h) fun b c h => .ite (fun hb => ?_) fun _ => ?_
    · have hbar : o.Reaches (k + 1) c := h.of_toNat hb
      refine .bind (safe_pipe hbar) fun _ _ h => .bind (ih h (by omega)) fun _ _ h => ?_
      exact .pure (h.of_add)
    · exact .pure (h.of_add)

theorem safe_query (h : o.Reaches k c) : Safe o (query now) c fun _ d => o.Reaches k d := by
  refine .bind (safe_atEnd h) fun ended _ h => .bind (safe_peek? h) fun x c h => ?_
  refine .ite_bind (Q := fun _ d => o.Reaches k d) (fun _ => .pure h.1)
    (fun _ => safe_filter h.1) fun f c h => .get_bind ?_
  refine .bind (.of_self (n := fun _ => 0) h ?_) fun _ c h => .bind (safe_atEnd h) fun _ c h => ?_
  · exact safe_pipes (Reaches.refl c) (by omega)
  · exact .ite (fun _ => .pure h) fun _ => .get_bind (.fail h nofun)

/-! ## All readers -/

/-- The readers that a query is read with, and the moves that they make. A reader that is given fuel
    is given enough for the characters ahead of it. -/
inductive IsReader (now : Timestamp) : {α : Type} → QueryReader α → Cursor → Prop
  | skip (n : Nat) (c : Cursor) : IsReader now (modify (·.skip n)) c
  | skipWhile (p : Char → Bool) (c : Cursor) : IsReader now (set (c.skipWhile p)) c
  | skipBlanks (c : Cursor) : IsReader now skipBlanks c
  | peek? (c : Cursor) : IsReader now peek? c
  | bump (c : Cursor) : IsReader now bump c
  | atEnd (c : Cursor) : IsReader now atEnd c
  | eat (ch : Char) (c : Cursor) : IsReader now (eat ch) c
  | expect (ch : Char) (c : Cursor) : IsReader now (expect ch) c
  | peekKeyword (keyword : String) (c : Cursor) : IsReader now (peekKeyword keyword) c
  | eatKeyword {keyword : String} (h : keyword ≠ "") (c : Cursor) :
    IsReader now (eatKeyword keyword) c
  | bareWord (stopAtColon : Bool) (c : Cursor) : IsReader now (bareWord stopAtColon) c
  | peekQuote (c : Cursor) : IsReader now peekQuote c
  | quoted (c : Cursor) : IsReader now quoted c
  | value (stopAtColon : Bool) (c : Cursor) : IsReader now (value stopAtColon) c
  | itemsUntil {α : Type} {item : QueryReader α} (hitem : ∀ d, IsReader now item d) (close : Char)
    {fuel : Nat} {c : Cursor} (h : c.rest.length < fuel) :
    IsReader now (itemsUntil close item fuel) c
  | itemList {α : Type} {item : QueryReader α} (hitem : ∀ d, IsReader now item d) (close : Char)
    (c : Cursor) : IsReader now (itemList close item) c
  | pattern (make : String → Except Regex.Error Pattern) (c : Cursor) :
    IsReader now (pattern make) c
  | compareOp (c : Cursor) : IsReader now compareOp c
  | comparison (field : String) (c : Cursor) : IsReader now (comparison now field) c
  | streamOp (c : Cursor) : IsReader now streamOp c
  | streamMatcher (c : Cursor) : IsReader now streamMatcher c
  | plainValue (field : String) (c : Cursor) : IsReader now (plainValue now field) c
  | leafValue (field : String) (c : Cursor) : IsReader now (leafValue now field) c
  | orFilter (field : String) {fuel : Nat} {c : Cursor} (h : 6 * c.rest.length + 4 ≤ fuel) :
    IsReader now (orFilter now fuel field) c
  | orRest (field : String) {fuel : Nat} {c : Cursor} (h : 6 * c.rest.length + 1 ≤ fuel) :
    IsReader now (orRest now fuel field) c
  | andFilter (field : String) {fuel : Nat} {c : Cursor} (h : 6 * c.rest.length + 3 ≤ fuel) :
    IsReader now (andFilter now fuel field) c
  | andRest (field : String) {fuel : Nat} {c : Cursor} (h : 6 * c.rest.length + 3 ≤ fuel) :
    IsReader now (andRest now fuel field) c
  | unaryFilter (field : String) {fuel : Nat} {c : Cursor} (h : 6 * c.rest.length + 2 ≤ fuel) :
    IsReader now (unaryFilter now fuel field) c
  | termFilter (field : String) {fuel : Nat} {c : Cursor} (h : 6 * c.rest.length + 1 ≤ fuel) :
    IsReader now (termFilter now fuel field) c
  | filter (c : Cursor) : IsReader now (filter now) c
  | count (c : Cursor) : IsReader now count c
  | fieldNames {fuel : Nat} {c : Cursor} (h : c.rest.length < fuel) :
    IsReader now (fieldNames fuel) c
  | fieldList (c : Cursor) : IsReader now fieldList c
  | limitPipe (c : Cursor) : IsReader now limitPipe c
  | sortKey (c : Cursor) : IsReader now sortKey c
  | sortPipe (c : Cursor) : IsReader now sortPipe c
  | groupField (c : Cursor) : IsReader now groupField c
  | resultName (c : Cursor) : IsReader now resultName c
  | resultNameAhead (c : Cursor) : IsReader now resultNameAhead c
  | statsFunc (c : Cursor) : IsReader now statsFunc c
  | statsFuncs {fuel : Nat} {c : Cursor} (h : c.rest.length < fuel) :
    IsReader now (statsFuncs fuel) c
  | statsPipe (c : Cursor) : IsReader now statsPipe c
  | facetsOptions (p : FacetsPipe) {fuel : Nat} {c : Cursor} (h : c.rest.length < fuel) :
    IsReader now (facetsOptions fuel p) c
  | pipe (c : Cursor) : IsReader now (pipe now) c
  | pipes {fuel : Nat} {c : Cursor} (h : c.rest.length < fuel) : IsReader now (pipes now fuel) c
  | query (c : Cursor) : IsReader now (query now) c

/-- Every reader ends or fails at its cursor or behind it. -/
theorem IsReader.safe {m : QueryReader α} (hm : IsReader now m c) :
    Safe c m c fun _ d => c.Reaches 0 d := by
  have hfilters := filtersSafe now
  induction hm with
  | skip n c => exact safe_skip (.refl c) n
  | skipWhile p c => exact .set ((c.reaches_skipWhile p).weaken (Nat.zero_le _))
  | skipBlanks c => exact safe_skipBlanks (.refl c)
  | peek? c => exact (safe_peek? (.refl c)).mono fun _ _ h => h.1
  | bump c => exact safe_bump (.refl c)
  | atEnd c => exact safe_atEnd (.refl c)
  | eat ch c => exact (safe_eat ch (.refl c)).mono fun _ _ h => h.weaken (Nat.zero_le _)
  | expect ch c => exact (safe_expect ch (.refl c)).mono fun _ _ h => h.weaken (Nat.zero_le _)
  | peekKeyword keyword c => exact (safe_peekKeyword keyword (.refl c)).mono fun _ _ h => h.1
  | eatKeyword h c => exact (safe_eatKeyword h (.refl c)).mono fun _ _ h => h.weaken (Nat.zero_le _)
  | bareWord stopAtColon c =>
    exact (safe_bareWord stopAtColon (.refl c)).mono fun _ _ h => h.2.weaken (Nat.zero_le _)
  | peekQuote c => exact safe_peekQuote (.refl c)
  | quoted c => exact (safe_quoted (.refl c)).mono fun _ _ h => h.weaken (Nat.zero_le _)
  | value stopAtColon c => exact safe_value stopAtColon (.refl c)
  | itemsUntil hitem close h ih =>
    exact safe_itemsUntil (fun hc => .of_self (n := fun _ => 0) hc (ih _)) close (.refl _) h
  | itemList hitem close c ih =>
    exact safe_itemList (fun hc => .of_self (n := fun _ => 0) hc (ih _)) close (.refl c)
  | pattern make c => exact safe_pattern make (.refl c)
  | compareOp c => exact safe_compareOp (.refl c)
  | comparison field c => exact safe_comparison field (.refl c)
  | streamOp c => exact safe_streamOp (.refl c)
  | streamMatcher c => exact safe_streamMatcher (.refl c)
  | plainValue field c => exact safe_plainValue field (.refl c)
  | leafValue field c => exact safe_leafValue field (.refl c)
  | orFilter field h =>
    exact ((hfilters _).orFilter field (.refl _) h).mono fun _ _ h => h.weaken (Nat.zero_le _)
  | orRest field h => exact (hfilters _).orRest field (.refl _) h
  | andFilter field h =>
    exact ((hfilters _).andFilter field (.refl _) h).mono fun _ _ h => h.weaken (Nat.zero_le _)
  | andRest field h => exact (hfilters _).andRest field (.refl _) h
  | unaryFilter field h =>
    exact ((hfilters _).unaryFilter field (.refl _) h).mono fun _ _ h => h.weaken (Nat.zero_le _)
  | termFilter field h =>
    exact ((hfilters _).termFilter field (.refl _) h).mono fun _ _ h => h.weaken (Nat.zero_le _)
  | filter c => exact safe_filter (.refl c)
  | count c => exact (safe_count (.refl c)).mono fun _ _ h => h.weaken (Nat.zero_le _)
  | fieldNames h => exact safe_fieldNames (.refl _) h
  | fieldList c => exact safe_fieldList (.refl c)
  | limitPipe c => exact safe_limitPipe (.refl c)
  | sortKey c => exact safe_sortKey (.refl c)
  | sortPipe c => exact safe_sortPipe (.refl c)
  | groupField c => exact safe_groupField (.refl c)
  | resultName c => exact safe_resultName (.refl c)
  | resultNameAhead c => exact safe_resultNameAhead (.refl c)
  | statsFunc c => exact safe_statsFunc (.refl c)
  | statsFuncs h => exact safe_statsFuncs (.refl _) h
  | statsPipe c => exact safe_statsPipe (.refl c)
  | facetsOptions p h => exact safe_facetsOptions p (.refl _) h
  | pipe c => exact safe_pipe (.refl c)
  | pipes h => exact safe_pipes (.refl _) h
  | query c => exact safe_query (.refl c)

/-- A reader that starts in a text ends or fails in it. -/
theorem IsReader.standsIn {text : String} {m : QueryReader α} (hm : IsReader now m c)
    (hc : StandsIn text c) :
    (∀ a d, m.run c = .ok (a, d) → c.Reaches 0 d ∧ StandsIn text d) ∧
    ∀ e, m.run c = .error e →
      e.fault ≠ .exhausted ∧ ∃ d, c.Reaches 0 d ∧ StandsIn text d ∧ e.pos = d.pos := by
  refine ⟨fun a d hrun => ?_, fun e hrun => ?_⟩
  · have hd := hm.safe.ok a d hrun
    exact ⟨hd, hc.trans hd⟩
  · obtain ⟨hfault, d, hd, hpos⟩ := hm.safe.error e hrun
    exact ⟨hfault, d, hd, hc.trans hd, hpos⟩

end QueryReader

open QueryReader
open Cursor (StandsIn)
open String.Pos.Raw (IsValid)

/-- **Every text is read to a query or to a fault that has a place.** The place is one between two
    characters of the text, and the fault is never that steps ran out. While a query is read, each
    reader that starts at a cursor in the text ends at one, which is the same or further on, or
    fails at one; only inside `termFilter` and `pipe` is a cursor of before set again. -/
theorem Query.parse_total (text : String) (now : Timestamp) :
    ((∃ q, Query.parse text now = .ok q) ∨ ∃ e, Query.parse text now = .error e ∧
      e.fault ≠ .exhausted ∧ IsValid text ⟨e.pos⟩ ∧ e.pos ≤ text.utf8ByteSize) ∧
    ∀ {α : Type} (m : QueryReader α) (c : Cursor), StandsIn text c → IsReader now m c →
      IsValid text ⟨c.pos⟩ ∧
      (∀ a d, m.run c = .ok (a, d) → c.Reaches 0 d ∧ StandsIn text d) ∧
      ∀ e, m.run c = .error e →
        e.fault ≠ .exhausted ∧ ∃ d, c.Reaches 0 d ∧ StandsIn text d ∧ e.pos = d.pos := by
  refine ⟨?_, fun m c hc hm => ⟨hc.isValid, hm.standsIn hc⟩⟩
  cases hrun : (query now).run ⟨text.toList, 0⟩ with
  | ok p => exact .inl ⟨p.1, by rw [Query.parse, hrun]; rfl⟩
  | error e =>
    obtain ⟨hfault, d, -, hd, hpos⟩ := ((IsReader.query _).standsIn (.refl _)).2 e hrun
    have hvalid : IsValid text ⟨e.pos⟩ := hpos ▸ hd.isValid
    exact .inr ⟨e, by rw [Query.parse, hrun]; rfl, hfault, hvalid, hvalid.le_rawEndPos⟩

/-- The value that is missing behind a name of two bytes is missed at the end of the text. -/
theorem Query.fault_behind_umlaut :
    (termFilter 0 13 msgName).run ⟨"ü:".toList, 0⟩ = .error ⟨3, .noValue "ü"⟩ ∧
      ∃ d, StandsIn "ü:" d ∧ 3 = d.pos := by
  have hrun : (termFilter 0 13 msgName).run ⟨"ü:".toList, 0⟩ = .error ⟨3, .noValue "ü"⟩ := rfl
  have hreader : IsReader 0 (termFilter 0 13 msgName) ⟨"ü:".toList, 0⟩ :=
    .termFilter msgName (by decide)
  obtain ⟨-, -, herror⟩ := (Query.parse_total "ü:" 0).2 _ _ (.refl _) hreader
  obtain ⟨-, d, -, hd, hpos⟩ := herror _ hrun
  exact ⟨hrun, d, hd, hpos⟩

end Logbook
