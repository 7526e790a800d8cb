import Mathlib.Data.List.DropRight
import Logbook.Proofs.Text.Blanks
import Logbook.Query.Parser

set_option autoImplicit false

/-! # What readers read

A reader is told by the characters ahead of it: what it gives and what it leaves ahead
(`QueryReader.Reads`). The place in the text, which only faults name, is left open. Each kind of
token has a lemma for the characters that it reads, and a text that is read as a filter to its end
is a query (`Query.parse_of_reads`). -/

namespace Logbook

namespace QueryReader

variable {α β : Type} {cs rest : List Char}

/-! ## Readers one behind the other -/

/-- Two readers succeed together only if each of them does. -/
theorem exists_of_run_bind {m : QueryReader β} {k : β → QueryReader α} {c c' : Cursor} {a : α}
    (h : (m >>= k).run c = .ok (a, c')) :
    ∃ b mid, m.run c = .ok (b, mid) ∧ (k b).run mid = .ok (a, c') := by
  rw [StateT.run_bind] at h
  cases hrun : m.run c with
  | error e =>
    rw [hrun] at h
    cases h
  | ok p =>
    rw [hrun] at h
    exact ⟨p.1, p.2, rfl, h⟩

/-- Wherever the characters ahead are `cs`, the reader gives `a` and leaves `rest` ahead. -/
def Reads (m : QueryReader α) (cs : List Char) (a : α) (rest : List Char) : Prop :=
  ∀ pos, ∃ pos', m.run ⟨cs, pos⟩ = .ok (a, ⟨rest, pos'⟩)

theorem Reads.pure (a : α) (cs : List Char) : Reads (Pure.pure a) cs a cs :=
  fun pos => ⟨pos, rfl⟩

theorem Reads.bind {m : QueryReader β} {f : β → QueryReader α} {a : α} {b : β} {mid : List Char}
    (hm : Reads m cs b mid) (hf : Reads (f b) mid a rest) : Reads (m >>= f) cs a rest := by
  intro pos
  obtain ⟨pos', hm⟩ := hm pos
  obtain ⟨pos'', hf⟩ := hf pos'
  refine ⟨pos'', ?_⟩
  rw [StateT.run_bind, hm]
  exact hf

/-- What is done with the cursor may depend on its place. -/
theorem Reads.get_bind {f : Cursor → QueryReader α} {a : α}
    (hf : ∀ pos, Reads (f ⟨cs, pos⟩) cs a rest) : Reads (get >>= f) cs a rest :=
  fun pos => hf pos pos

theorem reads_set (c : Cursor) (cs : List Char) : Reads (set c) cs ⟨⟩ c.rest :=
  fun _ => ⟨c.pos, rfl⟩

theorem reads_modify {f : Cursor → Cursor} (h : ∀ pos, (f ⟨cs, pos⟩).rest = rest) :
    Reads (modify f) cs ⟨⟩ rest :=
  fun pos => ⟨(f ⟨cs, pos⟩).pos, by rw [← h pos]; rfl⟩

/-- A reader gives one value and leaves one rest. -/
theorem Reads.eq_of_run {m : QueryReader α} {a b : α} {pos : Nat} {c : Cursor}
    (h : Reads m cs a rest) (hrun : m.run ⟨cs, pos⟩ = .ok (b, c)) : b = a ∧ c.rest = rest := by
  obtain ⟨pos', h⟩ := h pos
  rw [h] at hrun
  cases hrun
  exact ⟨rfl, rfl⟩

/-! ## Blanks and single characters -/

/-- The characters without the blanks in front. -/
def afterBlanks (cs : List Char) : List Char :=
  cs.dropWhile Text.isBlank

theorem afterBlanks_cons {c : Char} (h : Text.isBlank c = false) (cs : List Char) :
    afterBlanks (c :: cs) = c :: cs :=
  List.dropWhile_cons_of_neg (by simp [h])

theorem afterBlanks_afterBlanks (cs : List Char) : afterBlanks (afterBlanks cs) = afterBlanks cs :=
  List.dropWhile_idempotent Text.isBlank cs

theorem reads_skipBlanks (cs : List Char) : Reads skipBlanks cs ⟨⟩ (afterBlanks cs) :=
  reads_modify fun _ => rfl

theorem reads_peek? (cs : List Char) : Reads peek? cs cs.head? cs :=
  .get_bind fun _ => .pure _ _

theorem reads_bump (c : Char) (cs : List Char) : Reads bump (c :: cs) ⟨⟩ cs :=
  reads_modify fun _ => rfl

theorem reads_atEnd (cs : List Char) :
    Reads atEnd cs (afterBlanks cs).head?.isNone (afterBlanks cs) :=
  .bind (reads_skipBlanks cs) (.bind (reads_peek? _) (.pure _ _))

theorem reads_eat_true {c : Char} (h : afterBlanks cs = c :: rest) :
    Reads (eat c) cs true rest := by
  refine .bind (reads_skipBlanks cs) (.bind (reads_peek? _) ?_)
  rw [h, if_pos List.head?_cons]
  exact .bind (reads_bump c rest) (.pure _ _)

theorem reads_eat_false {c : Char} (h : (afterBlanks cs).head? ≠ some c) :
    Reads (eat c) cs false (afterBlanks cs) := by
  refine .bind (reads_skipBlanks cs) (.bind (reads_peek? _) ?_)
  rw [if_neg h]
  exact .pure _ _

theorem reads_expect {c : Char} (h : afterBlanks cs = c :: rest) : Reads (expect c) cs ⟨⟩ rest :=
  .bind (reads_eat_true h) (.pure _ _)

/-! ## Keywords and words -/

theorem reads_peekKeyword (keyword : String) (cs : List Char) :
    Reads (peekKeyword keyword) cs (startsWithKeyword keyword (afterBlanks cs)) (afterBlanks cs) :=
  .bind (reads_skipBlanks cs) (.get_bind fun _ => .pure _ _)

theorem reads_eatKeyword_true {keyword : String}
    (h : startsWithKeyword keyword (afterBlanks cs) = true) :
    Reads (eatKeyword keyword) cs true ((afterBlanks cs).drop keyword.length) := by
  refine .bind (reads_peekKeyword keyword cs) ?_
  rw [if_pos h]
  exact .bind (reads_modify fun _ => rfl) (.pure _ _)

theorem reads_eatKeyword_false {keyword : String}
    (h : startsWithKeyword keyword (afterBlanks cs) = false) :
    Reads (eatKeyword keyword) cs false (afterBlanks cs) := by
  refine .bind (reads_peekKeyword keyword cs) ?_
  rw [if_neg (by simp [h])]
  exact .pure _ _

theorem reads_bareWord (stopAtColon : Bool) (cs : List Char) :
    Reads (bareWord stopAtColon) cs
      (String.ofList ((afterBlanks cs).takeWhile (!endsWord stopAtColon ·)))
      ((afterBlanks cs).dropWhile (!endsWord stopAtColon ·)) :=
  .bind (reads_skipBlanks cs) (.get_bind fun _ => .bind (reads_set _ _) (.pure _ _))

/-! ## Quoted texts -/

theorem reads_peekQuote (cs : List Char) :
    Reads peekQuote cs ((afterBlanks cs).head?.any isQuote) (afterBlanks cs) :=
  .bind (reads_skipBlanks cs) (.bind (reads_peek? _) (.pure _ _))

theorem reads_quoted {quote : Char} {content out : List Char} {n : Nat}
    (h : afterBlanks cs = quote :: content)
    (hcontent : quotedContent? quote content = some (out, n)) :
    Reads quoted cs (String.ofList out) (content.drop n) := by
  refine .bind (reads_skipBlanks cs) (.get_bind fun pos => ?_)
  rw [h]
  dsimp only
  rw [hcontent]
  exact .bind (reads_set _ _) (.pure _ _)

theorem reads_value_quoted {quote : Char} {content out : List Char} {n : Nat} (stopAtColon : Bool)
    (h : afterBlanks cs = quote :: content) (hquote : isQuote quote = true)
    (hcontent : quotedContent? quote content = some (out, n)) :
    Reads (value stopAtColon) cs (String.ofList out) (content.drop n) := by
  refine .bind (reads_peekQuote cs) ?_
  rw [h, List.head?_cons, Option.any_some, if_pos hquote, ← h]
  exact reads_quoted ((afterBlanks_afterBlanks cs).trans h) hcontent

/-! ## Filters -/

variable {now : Timestamp} {field : String} {f : Filter}

/-- What is neither negated nor a group is a term. -/
theorem reads_unaryFilter_term {fuel : Nat}
    (hnot : startsWithKeyword "not" (afterBlanks cs) = false)
    (hbang : (afterBlanks cs).head? ≠ some '!') (hparen : (afterBlanks cs).head? ≠ some '(')
    (h : Reads (termFilter now fuel field) (afterBlanks cs) f rest) :
    Reads (unaryFilter now (fuel + 1) field) cs f rest := by
  rw [← afterBlanks_afterBlanks] at hbang hparen
  rw [unaryFilter]
  refine .bind (reads_eatKeyword_false hnot) ?_
  rw [if_neg Bool.false_ne_true]
  refine .bind (reads_eat_false hbang) ?_
  rw [if_neg Bool.false_ne_true, afterBlanks_afterBlanks]
  refine .bind (reads_eat_false hparen) ?_
  rw [if_neg Bool.false_ne_true, afterBlanks_afterBlanks]
  exact h

/-- A word that is nothing but a word, so that it can be the name of a field. -/
def IsWord (word : String) : Prop :=
  word ≠ "" ∧ ∀ c ∈ word.toList, endsWord true c = false

instance (word : String) : Decidable (IsWord word) :=
  @instDecidableAnd _ _ inferInstance (List.decidableBAll _ _)

theorem IsWord.exists_cons {word : String} (h : IsWord word) :
    ∃ c behind, word.toList = c :: behind ∧ Text.isBlank c = false ∧ isQuote c = false := by
  obtain ⟨hne, hchars⟩ := h
  cases hword : word.toList with
  | nil => exact absurd (String.toList_eq_nil_iff.1 hword) hne
  | cons c behind =>
    have hc := hchars c (hword ▸ List.mem_cons_self)
    simp only [endsWord, Bool.or_eq_false_iff] at hc
    refine ⟨c, behind, rfl, hc.1.1, ?_⟩
    rw [Bool.eq_false_iff]
    intro hquote
    simp only [isQuote, Bool.or_eq_true, decide_eq_true_eq] at hquote
    rcases hquote with (rfl | rfl) | rfl <;> simp at hc

/-- Digits, letters and the characters near them do not end words. -/
theorem endsWord_of_toNat {c : Char} (hlow : 45 ≤ c.toNat) (hhigh : c.toNat ≤ 122)
    (hcolon : c.toNat ≠ 58) (hquote : c.toNat ≠ 96) (stopAtColon : Bool) :
    endsWord stopAtColon c = false := by
  have hblank : Text.isBlank c = false := Text.isBlank_of_toNat (by omega) (by omega)
  have hmark : ∀ mark : Char, mark.toNat < 45 ∨ 122 < mark.toNat ∨ mark.toNat = 58 ∨
      mark.toNat = 96 → c ≠ mark := by
    rintro mark hmark rfl
    omega
  simp [endsWord, hblank, hmark]

/-- A word goes on up to the first character that ends words. -/
theorem takeWhile_word {stopAtColon : Bool} {word : List Char}
    (hword : ∀ c ∈ word, endsWord stopAtColon c = false) {behind : List Char}
    (hbehind : behind.head?.all (endsWord stopAtColon) = true) :
    (word ++ behind).takeWhile (!endsWord stopAtColon ·) = word ∧
      (word ++ behind).dropWhile (!endsWord stopAtColon ·) = behind := by
  have hgoes : ∀ c ∈ word, (!endsWord stopAtColon c) = true := fun c hc => by
    rw [hword c hc]
    rfl
  rw [List.takeWhile_append_of_pos hgoes, List.dropWhile_append_of_pos hgoes]
  cases behind with
  | nil => simp
  | cons c behind =>
    have hstop : endsWord stopAtColon c = true := by simpa using hbehind
    simp [hstop]

theorem IsWord.afterBlanks_append {word : String} (h : IsWord word) (behind : List Char) :
    afterBlanks (word.toList ++ behind) = word.toList ++ behind := by
  obtain ⟨c, more, hfront, hblank, -⟩ := h.exists_cons
  rw [hfront]
  exact afterBlanks_cons hblank _

/-- A word and what is behind it are a term or the front of one. -/
theorem reads_termFilter_word {word : String} (hword : IsWord word) {behind : List Char}
    (hbehind : behind.head?.all (endsWord true) = true) {fuel : Nat}
    (h : ∀ pos, Reads (do
        if (← peek?) = some ':' then
          bump
          if (← peek?) = some '(' then
            bump
            let f ← orFilter now fuel word
            expect ')'
            return f
          else leafValue now word
        else if word = "*" then return .all
        else
          set (⟨word.toList ++ behind, pos⟩ : Cursor)
          return wordFilter field (← bareWord false)) behind f rest) :
    Reads (termFilter now (fuel + 1) field) (word.toList ++ behind) f rest := by
  obtain ⟨c, more, hfront, hblank, hquote⟩ := hword.exists_cons
  have hafter := hword.afterBlanks_append behind
  obtain ⟨htake, hdrop⟩ := takeWhile_word hword.2 hbehind
  rw [termFilter]
  refine .bind (reads_peekQuote _) ?_
  rw [hafter, if_neg (by simp [hfront, hquote])]
  refine .get_bind fun pos => .bind (reads_bareWord true _) ?_
  rw [hafter, htake, hdrop, String.ofList_toList, if_neg (by simpa using hword.1)]
  exact h pos

/-- A name, a colon and what is no group are a term about the field of that name. -/
theorem reads_termFilter_field {word : String} (hword : IsWord word) {behind : List Char}
    (hparen : behind.head? ≠ some '(') {fuel : Nat} (h : Reads (leafValue now word) behind f rest) :
    Reads (termFilter now (fuel + 1) field) (word.toList ++ ':' :: behind) f rest := by
  refine reads_termFilter_word hword (by simp [endsWord]) fun pos => .bind (reads_peek? _) ?_
  rw [if_pos List.head?_cons]
  refine .bind (reads_bump _ _) (.bind (reads_peek? _) ?_)
  rw [if_neg hparen]
  exact h

/-- A name, a colon and an expression in parentheses are the expression about the field of that
    name. -/
theorem reads_termFilter_group {word : String} (hword : IsWord word) {behind mid : List Char}
    {fuel : Nat} (h : Reads (orFilter now fuel word) behind f mid)
    (hmid : afterBlanks mid = ')' :: rest) :
    Reads (termFilter now (fuel + 1) field) (word.toList ++ ':' :: '(' :: behind) f rest := by
  refine reads_termFilter_word hword (by simp [endsWord]) fun pos => .bind (reads_peek? _) ?_
  rw [if_pos List.head?_cons]
  refine .bind (reads_bump _ _) (.bind (reads_peek? _) ?_)
  rw [if_pos List.head?_cons]
  exact .bind (reads_bump _ _) (.bind h (.bind (reads_expect hmid) (.pure _ _)))

theorem reads_andRest_nil (fuel : Nat) : Reads (andRest now (fuel + 1) field) [] [] [] := by
  rw [andRest]
  exact .bind (reads_atEnd []) (.pure _ _)

theorem reads_orRest_nil (fuel : Nat) : Reads (orRest now (fuel + 1) field) [] [] [] := by
  rw [orRest]
  exact .bind (reads_eatKeyword_false (by decide)) (.pure _ _)

/-- A negation, a group or a term that ends the text is a filter by itself. -/
theorem reads_orFilter_nil {fuel : Nat} (h : Reads (unaryFilter now (fuel + 1) field) cs f []) :
    Reads (orFilter now (fuel + 3) field) cs f [] := by
  rw [orFilter]
  refine .bind ?_ (.bind (reads_orRest_nil (fuel + 1)) (.pure _ _))
  rw [andFilter]
  exact .bind h (.bind (reads_andRest_nil fuel) (.pure _ _))

/-! ## Queries -/

/-- Behind a filter that ends the text there are no pipes. -/
theorem reads_pipes_nil (now : Timestamp) (fuel : Nat) : Reads (pipes now (fuel + 1)) [] [] [] :=
  .bind (reads_eat_false (by simp [afterBlanks])) (.pure _ _)

end QueryReader

open QueryReader

/-- A text that is read as a filter to its end is a query without pipes, whatever blanks are in
    front of it. -/
theorem Query.parse_of_reads_afterBlanks {text : String} {cs behind : List Char} {c : Char}
    (htext : afterBlanks text.toList = cs) (hfront : cs = c :: behind) (hbar : c ≠ '|')
    {now : Timestamp} {f : Filter}
    (h : Reads (orFilter now (6 * cs.length + 6) msgName) cs f []) :
    Query.parse text now = .ok ⟨f, []⟩ := by
  have hquery : Reads (query now) text.toList ⟨f, []⟩ [] := by
    refine .bind (reads_atEnd _) (.bind (reads_peek? _) ?_)
    rw [htext, if_neg (by simp [hfront, hbar])]
    refine .bind (.get_bind fun _ => h) (.get_bind fun _ => .bind (reads_pipes_nil now _) ?_)
    exact .bind (reads_atEnd []) (.pure _ _)
  obtain ⟨pos, hrun⟩ := hquery 0
  rw [Query.parse, hrun]
  rfl

theorem Query.parse_of_reads {text : String} {cs behind : List Char} {c : Char}
    (htext : text.toList = cs) (hfront : cs = c :: behind) (hblank : Text.isBlank c = false)
    (hbar : c ≠ '|') {now : Timestamp} {f : Filter}
    (h : Reads (orFilter now (6 * cs.length + 6) msgName) cs f []) :
    Query.parse text now = .ok ⟨f, []⟩ := by
  refine parse_of_reads_afterBlanks ?_ hfront hbar h
  rw [htext, hfront]
  exact afterBlanks_cons hblank behind

end Logbook
