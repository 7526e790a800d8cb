import Logbook.Proofs.Parsing.Reading

set_option autoImplicit false

/-! # Reading in front of a closing parenthesis

A text that is read as a filter up to its end is read in the same way where a closing parenthesis
follows: no token goes past the parenthesis, and no reader takes it for anything but the end. Every
reader below is compared with itself, or with itself with more fuel, on the text alone and on the
text with a parenthesis and more behind it (`QueryReader.BeforeParen`). The comparison is carried
along readers one behind the other, and over the filters by induction on the fuel
(`QueryReader.filtersBeforeParen`). -/

namespace Logbook

namespace QueryReader

variable {α β : Type} {tail cs : List Char}

/-! ## Readers one behind the other -/

/-- What `m` reads where the text ends behind `cs`, `m'` reads where a parenthesis follows. -/
def BeforeParen (tail : List Char) (m m' : QueryReader α) (cs : List Char) : Prop :=
  ∀ pos a c, m.run ⟨cs, pos⟩ = .ok (a, c) → Reads m' (cs ++ ')' :: tail) a (c.rest ++ ')' :: tail)

namespace BeforeParen

theorem pure (a : α) : BeforeParen tail (Pure.pure a) (Pure.pure a) cs := by
  rintro pos _ _ ⟨⟩
  exact .pure a _

theorem failAt (pos : Nat) (fault : ParseFault) {m' : QueryReader α} :
    BeforeParen tail (failAt pos fault) m' cs := by
  rintro _ _ _ ⟨⟩

theorem fail (fault : ParseFault) {m' : QueryReader α} : BeforeParen tail (fail fault) m' cs := by
  rintro _ _ _ ⟨⟩

theorem ite {p : Prop} [Decidable p] {m n m' n' : QueryReader α} (hm : BeforeParen tail m m' cs)
    (hn : BeforeParen tail n n' cs) :
    BeforeParen tail (if p then m else n) (if p then m' else n') cs := by
  split
  · exact hm
  · exact hn

/-- The conditions differ where one of them sees the parenthesis. -/
theorem ite_neg {p p' : Prop} [Decidable p] [Decidable p'] {m n m' n' : QueryReader α} (hp : ¬ p)
    (hp' : ¬ p') (hn : BeforeParen tail n n' cs) :
    BeforeParen tail (if p then m else n) (if p' then m' else n') cs := by
  rw [if_neg hp, if_neg hp']
  exact hn

theorem bind {m m' : QueryReader β} {f f' : β → QueryReader α} (hm : BeforeParen tail m m' cs)
    (hf : ∀ b rest, BeforeParen tail (f b) (f' b) rest) :
    BeforeParen tail (m >>= f) (m' >>= f') cs := by
  intro pos a c h
  obtain ⟨b, mid, hrun, h⟩ := exists_of_run_bind h
  exact .bind (hm pos b mid hrun) (hf b mid.rest mid.pos a c h)

/-- What is read in front is known on both sides, and need not be the same. -/
theorem bind_reads {m m' : QueryReader β} {f f' : β → QueryReader α} {b b' : β} {rest : List Char}
    (hm : Reads m cs b rest) (hm' : Reads m' (cs ++ ')' :: tail) b' (rest ++ ')' :: tail))
    (hf : BeforeParen tail (f b) (f' b') rest) : BeforeParen tail (m >>= f) (m' >>= f') cs := by
  intro pos a c h
  obtain ⟨pos', hm⟩ := hm pos
  rw [StateT.run_bind, hm] at h
  exact .bind hm' (hf pos' a c h)

theorem of_reads {m m' : QueryReader α} {a : α} {rest : List Char} (hm : Reads m cs a rest)
    (hm' : Reads m' (cs ++ ')' :: tail) a (rest ++ ')' :: tail)) : BeforeParen tail m m' cs := by
  intro pos b c h
  obtain ⟨rfl, rfl⟩ := hm.eq_of_run h
  exact hm'

theorem get_bind {f f' : Cursor → QueryReader α}
    (hf : ∀ pos pos', BeforeParen tail (f ⟨cs, pos⟩) (f' ⟨cs ++ ')' :: tail, pos'⟩) cs) :
    BeforeParen tail (get >>= f) (get >>= f') cs :=
  fun pos a c h => .get_bind fun pos' => hf pos pos' pos a c h

end BeforeParen

/-- The reader does not succeed at the end of the text. -/
def FailsAtEnd (m : QueryReader α) : Prop :=
  ∀ pos r, m.run ⟨[], pos⟩ ≠ .ok r

namespace FailsAtEnd

theorem fail (fault : ParseFault) : FailsAtEnd (α := α) (fail fault) := by
  rintro _ _ ⟨⟩

theorem get_bind {f : Cursor → QueryReader α} (hf : ∀ pos, FailsAtEnd (f ⟨[], pos⟩)) :
    FailsAtEnd (get >>= f) :=
  fun pos => hf pos pos

theorem bind {m : QueryReader β} (hm : FailsAtEnd m) (f : β → QueryReader α) :
    FailsAtEnd (m >>= f) := by
  rintro pos ⟨a, c⟩ h
  obtain ⟨b, mid, hrun, -⟩ := exists_of_run_bind h
  exact hm pos (b, mid) hrun

theorem bind_reads {m : QueryReader β} {f : β → QueryReader α} {b : β} (hm : Reads m [] b [])
    (hf : FailsAtEnd (f b)) : FailsAtEnd (m >>= f) := by
  intro pos r h
  obtain ⟨pos', hm⟩ := hm pos
  rw [StateT.run_bind, hm] at h
  exact hf pos' r h

end FailsAtEnd

/-! ## Tokens -/

theorem takeWhile_append_stop {p : Char → Bool} {c : Char} (h : p c = false) (cs : List Char) :
    (cs ++ c :: tail).takeWhile p = cs.takeWhile p := by
  induction cs with
  | nil => simp [h]
  | cons d cs ih => simp only [List.cons_append, List.takeWhile_cons, ih]

theorem dropWhile_append_stop {p : Char → Bool} {c : Char} (h : p c = false) (cs : List Char) :
    (cs ++ c :: tail).dropWhile p = cs.dropWhile p ++ c :: tail := by
  induction cs with
  | nil => simp [h]
  | cons d cs ih =>
    simp only [List.cons_append, List.dropWhile_cons, ih]
    split <;> rfl

theorem afterBlanks_append (tail cs : List Char) :
    afterBlanks (cs ++ ')' :: tail) = afterBlanks cs ++ ')' :: tail :=
  dropWhile_append_stop (by decide) cs

theorem beforeParen_skipBlanks : BeforeParen tail skipBlanks skipBlanks cs :=
  .of_reads (reads_skipBlanks cs) (afterBlanks_append tail cs ▸ reads_skipBlanks _)

theorem beforeParen_bareWord (stopAtColon : Bool) :
    BeforeParen tail (bareWord stopAtColon) (bareWord stopAtColon) cs := by
  have hstop : (!endsWord stopAtColon ')') = false := by
    cases stopAtColon <;> decide
  refine .of_reads (reads_bareWord stopAtColon cs) ?_
  have hread := reads_bareWord stopAtColon (cs ++ ')' :: tail)
  rwa [afterBlanks_append, takeWhile_append_stop hstop, dropWhile_append_stop hstop] at hread

/-- The next character is the same unless the text ends. -/
theorem BeforeParen.peek?_bind {f f' : Option Char → QueryReader α}
    (hend : cs = [] → BeforeParen tail (f none) (f' (some ')')) [])
    (hcons : ∀ c rest, cs = c :: rest → BeforeParen tail (f (some c)) (f' (some c)) (c :: rest)) :
    BeforeParen tail (peek? >>= f) (peek? >>= f') cs := by
  cases cs with
  | nil => exact .bind_reads (reads_peek? _) (reads_peek? _) (hend rfl)
  | cons c rest => exact .bind_reads (reads_peek? _) (reads_peek? _) (hcons c rest rfl)

theorem beforeParen_peekQuote : BeforeParen tail peekQuote peekQuote cs := by
  refine .bind beforeParen_skipBlanks fun _ rest => .peek?_bind (fun _ => ?_) fun c rest _ => ?_
  · exact .of_reads (.pure _ _) (.pure _ _)
  · exact .pure _

/-- Where more than blanks is ahead, the same character comes next. -/
theorem beforeParen_eat_cons (c : Char) {d : Char} {rest : List Char}
    (h : afterBlanks cs = d :: rest) : BeforeParen tail (eat c) (eat c) cs := by
  have hafter := afterBlanks_append tail cs
  rw [h] at hafter
  by_cases hd : d = c
  · subst hd
    exact .of_reads (reads_eat_true h) (reads_eat_true hafter)
  · refine .of_reads (reads_eat_false (by simpa [h] using hd)) ?_
    rw [← afterBlanks_append]
    exact reads_eat_false (by simpa [hafter] using hd)

theorem reads_eat_end (c : Char) (h : afterBlanks cs = []) : Reads (eat c) cs false [] :=
  h ▸ reads_eat_false (by simp [h])

/-- A character that is no parenthesis comes next in both texts or in neither. -/
theorem beforeParen_eat {c : Char} (hc : c ≠ ')') : BeforeParen tail (eat c) (eat c) cs := by
  cases hcs : afterBlanks cs with
  | nil =>
    have hafter := afterBlanks_append tail cs
    rw [hcs] at hafter
    refine .of_reads (reads_eat_end c hcs) ?_
    rw [← hafter]
    exact reads_eat_false (by simpa [hafter] using Ne.symm hc)
  | cons d rest => exact beforeParen_eat_cons c hcs

/-- The parenthesis behind the text may come next if nothing is read there without it. -/
theorem BeforeParen.eat_bind {c : Char} {f f' : Bool → QueryReader α}
    (hend : c = ')' → FailsAtEnd (f false))
    (hf : ∀ b rest, BeforeParen tail (f b) (f' b) rest) :
    BeforeParen tail (eat c >>= f) (eat c >>= f') cs := by
  by_cases hc : c = ')'
  · cases hcs : afterBlanks cs with
    | nil =>
      intro pos a c' h
      obtain ⟨pos', hread⟩ := reads_eat_end c hcs pos
      rw [StateT.run_bind, hread] at h
      exact absurd h (hend hc pos' _)
    | cons d rest => exact .bind (beforeParen_eat_cons c hcs) hf
  · exact .bind (beforeParen_eat hc) hf

theorem failsAtEnd_expect (c : Char) : FailsAtEnd (expect c) :=
  .bind_reads (reads_eat_false (by simp [afterBlanks])) (FailsAtEnd.fail _)

theorem beforeParen_expect (c : Char) : BeforeParen tail (expect c) (expect c) cs := by
  refine .eat_bind (fun _ => FailsAtEnd.fail _) fun b rest => ?_
  cases b with
  | true => exact .pure _
  | false => exact .fail _

/-! ## Keywords -/

theorem length_le_of_startsWithKeyword {keyword : String}
    (h : startsWithKeyword keyword cs = true) : keyword.length ≤ cs.length := by
  rw [startsWithKeyword, Bool.and_eq_true, beq_iff_eq] at h
  have hlength := congrArg List.length h.1
  rw [List.length_map, List.length_take, String.length_toList] at hlength
  omega

/-- A keyword ends in front of what is no character of it. -/
theorem length_le_of_startsWithKeyword_append {keyword : String} {c : Char}
    (hc : c.toLower ∉ keyword.toList) (h : startsWithKeyword keyword (cs ++ c :: tail) = true) :
    keyword.length ≤ cs.length := by
  by_contra hlength
  obtain ⟨n, hn⟩ : ∃ n, keyword.toList.length = cs.length + (n + 1) :=
    ⟨keyword.length - cs.length - 1, by rw [String.length_toList]; omega⟩
  rw [startsWithKeyword, Bool.and_eq_true, beq_iff_eq, hn, List.take_length_add_append,
    List.take_succ_cons, List.map_append, List.map_cons] at h
  refine hc ?_
  rw [← h.1]
  exact List.mem_append_right _ List.mem_cons_self

/-- A keyword without a parenthesis is at the front of both texts or of neither. -/
theorem startsWithKeyword_append {keyword : String} (h : ')' ∉ keyword.toList)
    (tail cs : List Char) :
    startsWithKeyword keyword (cs ++ ')' :: tail) = startsWithKeyword keyword cs := by
  by_cases hlength : keyword.length ≤ cs.length
  · rw [← String.length_toList] at hlength
    simp only [startsWithKeyword]
    rw [List.take_append_of_le_length hlength, List.drop_append_of_le_length hlength]
    congr 1
    cases cs.drop keyword.toList.length with
    | nil => exact (by decide : endsKeyword ')' = true)
    | cons c rest => rfl
  · have hshort : startsWithKeyword keyword cs = false :=
      Bool.eq_false_iff.2 fun hcs => hlength (length_le_of_startsWithKeyword hcs)
    rw [hshort, Bool.eq_false_iff]
    -- the parenthesis would be a part of the keyword
    have hparen : Char.toLower ')' ∉ keyword.toList := h
    exact fun happend => hlength (length_le_of_startsWithKeyword_append hparen happend)

theorem beforeParen_peekKeyword {keyword : String} (h : ')' ∉ keyword.toList) :
    BeforeParen tail (peekKeyword keyword) (peekKeyword keyword) cs := by
  refine .of_reads (reads_peekKeyword keyword cs) ?_
  rw [← startsWithKeyword_append h tail, ← afterBlanks_append]
  exact reads_peekKeyword keyword _

theorem beforeParen_eatKeyword {keyword : String} (h : ')' ∉ keyword.toList) :
    BeforeParen tail (eatKeyword keyword) (eatKeyword keyword) cs := by
  have happend := startsWithKeyword_append h tail (afterBlanks cs)
  rw [← afterBlanks_append] at happend
  cases hkeyword : startsWithKeyword keyword (afterBlanks cs) with
  | true =>
    refine .of_reads (reads_eatKeyword_true hkeyword) ?_
    rw [← List.drop_append_of_le_length (length_le_of_startsWithKeyword hkeyword),
      ← afterBlanks_append]
    exact reads_eatKeyword_true (happend.trans hkeyword)
  | false =>
    refine .of_reads (reads_eatKeyword_false hkeyword) ?_
    rw [← afterBlanks_append]
    exact reads_eatKeyword_false (happend.trans hkeyword)

/-! ## Quoted texts -/

/-- A quoted text ends at its closing quote, whatever stands behind it. -/
theorem quotedContent?_append {quote : Char} {out : List Char} {n : Nat} (more : List Char)
    (h : quotedContent? quote cs = some (out, n)) :
    quotedContent? quote (cs ++ more) = some (out, n) ∧ n ≤ cs.length := by
  fun_induction quotedContent? quote cs generalizing out n with
  | case1 => contradiction
  | case2 rest =>
    cases h
    rw [List.cons_append, quotedContent?.eq_def]
    exact ⟨if_pos rfl, by simp⟩
  | case3 => contradiction
  | case4 slash hquote hslash e rest d =>
    rename_i ih
    obtain ⟨⟨out', n'⟩, hrest, hp⟩ := Option.map_eq_some_iff.1 h
    obtain ⟨happend, hle⟩ := ih hrest
    cases hp
    refine ⟨?_, by simpa using hle⟩
    simp only [List.cons_append, quotedContent?, if_neg hquote, if_pos hslash, happend]
    rfl
  | case5 c rest hquote hslash ih =>
    obtain ⟨⟨out', n'⟩, hrest, hp⟩ := Option.map_eq_some_iff.1 h
    obtain ⟨happend, hle⟩ := ih hrest
    cases hp
    refine ⟨?_, by simpa using hle⟩
    rw [List.cons_append, quotedContent?.eq_def]
    simp only [if_neg hquote, if_neg hslash, happend]
    rfl

theorem beforeParen_quoted : BeforeParen tail quoted quoted cs := by
  refine .bind beforeParen_skipBlanks fun _ rest => .get_bind fun pos pos' => ?_
  cases rest with
  | nil => exact .fail _
  | cons quote rest =>
    dsimp only [List.cons_append]
    cases hcontent : quotedContent? quote rest with
    | none => exact .fail _
    | some p =>
      obtain ⟨out, n⟩ := p
      obtain ⟨happend, hle⟩ := quotedContent?_append (')' :: tail) hcontent
      rw [happend]
      have hset := reads_set (Cursor.skip ⟨quote :: (rest ++ ')' :: tail), pos'⟩ (n + 1))
        (quote :: rest ++ ')' :: tail)
      have hrest : (Cursor.skip ⟨quote :: (rest ++ ')' :: tail), pos'⟩ (n + 1)).rest
          = rest.drop n ++ ')' :: tail := List.drop_append_of_le_length hle
      rw [hrest] at hset
      exact .bind_reads (reads_set _ _) hset (.pure _)

theorem beforeParen_value (stopAtColon : Bool) :
    BeforeParen tail (value stopAtColon) (value stopAtColon) cs :=
  .bind beforeParen_peekQuote fun _ _ => .ite beforeParen_quoted (beforeParen_bareWord stopAtColon)

/-! ## Lists of items -/

/-- One item after the other, as long as items are read in the same way. -/
theorem beforeParen_itemsUntil {item : QueryReader α}
    (hitem : ∀ cs, BeforeParen tail item item cs) (close : Char) {fuel fuel' : Nat}
    (hfuel : fuel ≤ fuel') :
    BeforeParen tail (itemsUntil close item fuel) (itemsUntil close item fuel') cs := by
  induction fuel generalizing fuel' cs with
  | zero => exact .fail _
  | succ fuel ih =>
    obtain ⟨fuel', rfl⟩ := Nat.exists_eq_add_of_lt hfuel
    rw [itemsUntil, itemsUntil]
    refine .bind (hitem cs) fun x rest => .eat_bind (fun _ => ?_) fun closed rest => ?_
    · exact .bind (failsAtEnd_expect ',') _
    · refine .ite (.pure _) (.bind (beforeParen_expect ',') fun _ rest => ?_)
      exact .bind (ih (by omega)) fun xs rest => .pure _

theorem beforeParen_itemList {item : QueryReader α}
    (hitem : ∀ cs, BeforeParen tail item item cs) (close : Char)
    (hend : close = ')' → FailsAtEnd (itemsUntil close item 1)) :
    BeforeParen tail (itemList close item) (itemList close item) cs := by
  refine .eat_bind (fun hclose => .get_bind fun _ => hend hclose) fun closed rest => ?_
  refine .ite (.pure _) (.get_bind fun pos pos' => beforeParen_itemsUntil hitem close ?_)
  simp

/-- Values without a closing character do not end with the text. -/
theorem failsAtEnd_values {close : Char} {stopAtColon : Bool} :
    FailsAtEnd (itemsUntil close (value stopAtColon) 1) := by
  have hvalue : Reads (value stopAtColon) [] "" [] :=
    .bind (reads_peekQuote []) (reads_bareWord stopAtColon [])
  refine .bind_reads hvalue (.bind_reads (reads_eat_end close rfl) ?_)
  exact .bind (failsAtEnd_expect ',') _

/-! ## Leaves of filters -/

theorem beforeParen_pattern (make : String → Except Regex.Error Pattern) :
    BeforeParen tail (pattern make) (pattern make) cs := by
  refine .get_bind fun pos pos' => .bind (beforeParen_value false) fun source rest => ?_
  cases make source with
  | error e => exact .failAt _ _
  | ok p => exact .pure p

theorem beforeParen_compareOp (c : Char) :
    BeforeParen tail compareOp compareOp (c :: cs) := by
  refine .bind_reads (reads_peek? _) (reads_peek? _) ?_
  refine .bind_reads (reads_bump _ _) (reads_bump _ _) ?_
  refine .peek?_bind (fun _ => ?_) fun d rest _ => ?_
  · exact .pure _
  · refine .ite ?_ (.pure _)
    exact .bind_reads (reads_bump _ _) (reads_bump _ _) (.pure _)

theorem beforeParen_comparison (now : Timestamp) (field : String) (c : Char) :
    BeforeParen tail (comparison now field) (comparison now field) (c :: cs) := by
  refine .bind (beforeParen_compareOp c) fun op rest => .get_bind fun pos pos' => ?_
  refine .bind (beforeParen_value false) fun text rest => .ite ?_ ?_
  · cases Time.parse? text now with
    | none => exact .failAt _ _
    | some t => exact .pure _
  · cases Decimal.read? text with
    | none => exact .failAt _ _
    | some x => exact .pure _

theorem beforeParen_streamOp : BeforeParen tail streamOp streamOp cs := by
  refine .bind beforeParen_skipBlanks fun _ rest => .get_bind fun pos pos' => ?_
  dsimp only
  split
  · next rest =>
    exact .bind_reads (reads_modify fun _ => rfl) (reads_modify fun _ => rfl)
      (.bind (beforeParen_value false) fun text rest => .pure _)
  · next rest =>
    exact .bind_reads (reads_modify fun _ => rfl) (reads_modify fun _ => rfl)
      (.bind (beforeParen_pattern _) fun p rest => .pure _)
  · next rest =>
    exact .bind_reads (reads_modify fun _ => rfl) (reads_modify fun _ => rfl)
      (.bind (beforeParen_pattern _) fun p rest => .pure _)
  · next rest htilde =>
    have hequals : BeforeParen tail
        (do bump; return StreamOp.eq (← value false)) (do bump; return StreamOp.eq (← value false))
        ('=' :: rest) :=
      .bind_reads (reads_bump _ _) (reads_bump _ _)
        (.bind (beforeParen_value false) fun text rest => .pure _)
    split
    · next h => exact absurd (List.cons.inj h).1 (by decide)
    · next more h =>
      -- the tilde would have to come from behind the text
      obtain ⟨-, h⟩ := List.cons.inj h
      cases rest with
      | nil => exact absurd (List.cons.inj h).1 (by decide)
      | cons d rest => exact (htilde rest (by rw [(List.cons.inj h).1])).elim
    · next h => exact absurd (List.cons.inj h).1 (by decide)
    · exact hequals
    · next h => exact (h _ rfl).elim
  · exact .fail _

theorem beforeParen_streamMatcher : BeforeParen tail streamMatcher streamMatcher cs := by
  refine .bind beforeParen_skipBlanks fun _ rest => .get_bind fun pos pos' => ?_
  have hset := reads_set (Cursor.skipWhile ⟨rest ++ ')' :: tail, pos'⟩ isLabelChar)
    (rest ++ ')' :: tail)
  have hrest : (Cursor.skipWhile ⟨rest ++ ')' :: tail, pos'⟩ isLabelChar).rest
      = rest.dropWhile isLabelChar ++ ')' :: tail := dropWhile_append_stop (by decide) rest
  rw [hrest] at hset
  dsimp only
  rw [takeWhile_append_stop (by decide)]
  refine .bind_reads (reads_set _ _) hset (.ite (.fail _) ?_)
  exact .bind beforeParen_streamOp fun op rest => .pure _

theorem beforeParen_plainValue (now : Timestamp) (field : String) :
    BeforeParen tail (plainValue now field) (plainValue now field) cs := by
  refine .bind beforeParen_peekQuote fun quoted rest => .ite ?_ ?_
  · exact .bind beforeParen_quoted fun text rest => .pure _
  refine .get_bind fun pos pos' => .bind (beforeParen_bareWord false) fun word rest => ?_
  refine .peek?_bind (fun _ => .ite_neg (by simp) (by simp) ?_) fun c rest _ => .ite ?values ?_
  case values =>
    refine .bind_reads (reads_bump _ _) (reads_bump _ _) (.bind ?_ fun values rest => .pure _)
    exact beforeParen_itemList (fun cs => beforeParen_value false) ')' fun _ => failsAtEnd_values
  -- a word that no list follows, at the end of the text and before another character
  all_goals
    refine .ite ?_ (.pure _)
    cases positiveDuration? word with
    | none => exact .failAt _ _
    | some d => exact .pure _

theorem beforeParen_leafValue (now : Timestamp) (field : String) :
    BeforeParen tail (leafValue now field) (leafValue now field) cs := by
  refine .peek?_bind (fun _ => .fail _) fun c rest _ => ?_
  split
  · exact .bind_reads (reads_bump _ _) (reads_bump _ _)
      (.bind (beforeParen_value false) fun text rest => .pure _)
  · exact .bind_reads (reads_bump _ _) (reads_bump _ _)
      (.bind (beforeParen_pattern _) fun p rest => .pure _)
  · exact beforeParen_comparison now field c
  · exact beforeParen_comparison now field c
  · refine .ite ?_ (beforeParen_plainValue now field)
    refine .bind_reads (reads_bump _ _) (reads_bump _ _) (.bind ?_ fun matchers rest => .pure _)
    exact beforeParen_itemList (fun cs => beforeParen_streamMatcher) '}' fun h =>
      absurd h (by decide)
  · exact .ite (.fail _) (beforeParen_plainValue now field)
  · exact .fail _

/-! ## Filters -/

/-- With as much fuel or more, filters are read in the same way before a parenthesis. -/
structure FiltersBeforeParen (tail : List Char) (now : Timestamp) (fuel fuel' : Nat) : Prop where
  orFilter : ∀ field cs, BeforeParen tail (orFilter now fuel field) (orFilter now fuel' field) cs
  orRest : ∀ field cs, BeforeParen tail (orRest now fuel field) (orRest now fuel' field) cs
  andFilter : ∀ field cs, BeforeParen tail (andFilter now fuel field) (andFilter now fuel' field) cs
  andRest : ∀ field cs, BeforeParen tail (andRest now fuel field) (andRest now fuel' field) cs
  unaryFilter : ∀ field cs,
    BeforeParen tail (unaryFilter now fuel field) (unaryFilter now fuel' field) cs
  termFilter : ∀ field cs,
    BeforeParen tail (termFilter now fuel field) (termFilter now fuel' field) cs

variable {now : Timestamp} {fuel fuel' : Nat}

theorem FiltersBeforeParen.zero : FiltersBeforeParen tail now 0 fuel' := by
  constructor <;> exact fun field cs => .fail _

theorem FiltersBeforeParen.beforeParen_andRest (h : FiltersBeforeParen tail now fuel fuel')
    (field : String) (cs : List Char) :
    BeforeParen tail (QueryReader.andRest now (fuel + 1) field)
      (QueryReader.andRest now (fuel' + 1) field) cs := by
  rw [QueryReader.andRest, QueryReader.andRest]
  have hread := reads_atEnd (cs ++ ')' :: tail)
  rw [afterBlanks_append] at hread
  cases hcs : afterBlanks cs with
  | nil =>
    -- the parenthesis ends the filters where the end of the text did
    have hend : Reads atEnd cs true [] := by
      simpa [hcs] using reads_atEnd cs
    rw [hcs] at hread
    refine .bind_reads hend hread (.of_reads (.pure _ _) ?_)
    exact .bind (reads_peek? _) (.bind (reads_peek? _) (.pure _ _))
  | cons c rest =>
    have hmore : Reads atEnd cs false (c :: rest) := by
      simpa [hcs] using reads_atEnd cs
    rw [hcs] at hread
    refine .bind_reads hmore hread ?_
    refine .bind_reads (reads_peek? _) (reads_peek? _) ?_
    refine .bind_reads (reads_peek? _) (reads_peek? _) (.ite (.pure _) ?_)
    refine .bind (beforeParen_peekKeyword (by decide)) fun ends rest => .ite (.pure _) ?_
    refine .bind (beforeParen_eatKeyword (by decide)) fun _ rest => ?_
    exact .bind (h.unaryFilter field rest) fun f rest =>
      .bind (h.andRest field rest) fun fs rest => .pure _

theorem FiltersBeforeParen.beforeParen_unaryFilter (h : FiltersBeforeParen tail now fuel fuel')
    (field : String) (cs : List Char) :
    BeforeParen tail (QueryReader.unaryFilter now (fuel + 1) field)
      (QueryReader.unaryFilter now (fuel' + 1) field) cs := by
  rw [QueryReader.unaryFilter, QueryReader.unaryFilter]
  refine .bind (beforeParen_eatKeyword (by decide)) fun negated rest => .ite ?_ ?_
  · exact .bind (h.unaryFilter field rest) fun f rest => .pure _
  refine .bind (beforeParen_eat (by decide)) fun negated rest => .ite ?_ ?_
  · exact .bind (h.unaryFilter field rest) fun f rest => .pure _
  refine .bind (beforeParen_eat (by decide)) fun group rest => ?_
  refine .ite (.bind (h.orFilter field rest) fun f rest => ?_) (h.termFilter field rest)
  exact .bind (beforeParen_expect ')') fun _ rest => .pure f

theorem FiltersBeforeParen.beforeParen_termFilter (h : FiltersBeforeParen tail now fuel fuel')
    (field : String) (cs : List Char) :
    BeforeParen tail (QueryReader.termFilter now (fuel + 1) field)
      (QueryReader.termFilter now (fuel' + 1) field) cs := by
  rw [QueryReader.termFilter, QueryReader.termFilter]
  refine .bind beforeParen_peekQuote fun quoted start => .ite ?_ ?_
  · exact .bind beforeParen_quoted fun text rest => .pure _
  refine .get_bind fun pos pos' => .bind (beforeParen_bareWord true) fun word rest => ?_
  refine .ite (.fail _) ?_
  have hword : ∀ rest, BeforeParen tail
      (if word = "*" then Pure.pure Filter.all else do
        set (⟨start, pos⟩ : Cursor)
        return wordFilter field (← bareWord false))
      (if word = "*" then Pure.pure Filter.all else do
        set (⟨start ++ ')' :: tail, pos'⟩ : Cursor)
        return wordFilter field (← bareWord false)) rest := fun rest =>
    .ite (.pure _) (.bind_reads (reads_set _ _) (reads_set _ _)
      (.bind (beforeParen_bareWord false) fun word rest => .pure _))
  refine .peek?_bind (fun _ => hword []) fun c rest _ => .ite ?_ (hword _)
  refine .bind_reads (reads_bump _ _) (reads_bump _ _) ?_
  refine .peek?_bind (fun _ => ?_) fun d rest _ => ?_
  · exact .ite_neg (by simp) (by simp) (beforeParen_leafValue now word)
  · refine .ite (.bind_reads (reads_bump _ _) (reads_bump _ _) ?_) (beforeParen_leafValue now word)
    exact .bind (h.orFilter word rest) fun f rest =>
      .bind (beforeParen_expect ')') fun _ rest => .pure f

theorem FiltersBeforeParen.succ (h : FiltersBeforeParen tail now fuel fuel') :
    FiltersBeforeParen tail now (fuel + 1) (fuel' + 1) where
  orFilter field cs := by
    rw [QueryReader.orFilter, QueryReader.orFilter]
    exact .bind (h.andFilter field cs) fun f rest =>
      .bind (h.orRest field rest) fun fs rest => .pure _
  orRest field cs := by
    rw [QueryReader.orRest, QueryReader.orRest]
    refine .bind (beforeParen_eatKeyword (by decide)) fun _ rest => .ite ?_ (.pure _)
    exact .bind (h.andFilter field rest) fun f rest =>
      .bind (h.orRest field rest) fun fs rest => .pure _
  andFilter field cs := by
    rw [QueryReader.andFilter, QueryReader.andFilter]
    exact .bind (h.unaryFilter field cs) fun f rest =>
      .bind (h.andRest field rest) fun fs rest => .pure _
  andRest := h.beforeParen_andRest
  unaryFilter := h.beforeParen_unaryFilter
  termFilter := h.beforeParen_termFilter

/-- **Filters are read in the same way before a closing parenthesis as at the end of the text.** -/
theorem filtersBeforeParen (tail : List Char) (now : Timestamp) {fuel fuel' : Nat}
    (h : fuel ≤ fuel') : FiltersBeforeParen tail now fuel fuel' := by
  induction fuel generalizing fuel' with
  | zero => exact .zero
  | succ fuel ih =>
    obtain ⟨fuel', rfl⟩ := Nat.exists_eq_add_of_lt h
    exact .succ (ih (by omega))

end QueryReader

end Logbook
