import Logbook.Proofs.Parsing.BeforeParen

set_option autoImplicit false

/-! # Where readers get to

A reader ends at or behind the place it started from, or fails at such a place. What is told of a
reader is told from some earlier cursor, behind which a number of characters have been gone past
(`Cursor.Reaches`): a value and a cursor that satisfy a condition, or a fault that names a place
behind that earlier cursor and that is not the lack of steps (`QueryReader.Safe`). The number of
characters gone past bounds how often readers repeat themselves. This module holds the rules for
readers one behind the other, and one lemma for each reader of tokens. -/

namespace Logbook

/-! ## Cursors in a text -/

namespace Cursor

/-- From one cursor the other is reached by going past some characters, `k` of them or more. -/
def Reaches (c : Cursor) (k : Nat) (d : Cursor) : Prop :=
  ∃ past, c.rest = past ++ d.rest ∧ d.pos = c.pos + byteLength past ∧ k ≤ past.length

theorem byteLength_eq (cs : List Char) : byteLength cs = (String.ofList cs).utf8ByteSize := by
  have hfold : ∀ n, cs.foldl (fun n c => n + c.utf8Size) n
      = n + (String.ofList cs).utf8ByteSize := by
    induction cs with
    | nil => simp
    | cons c cs ih =>
      intro n
      rw [List.foldl_cons, ih, String.ofList_cons, String.utf8ByteSize_append,
        String.utf8ByteSize_singleton, Nat.add_assoc]
  rw [byteLength, hfold, Nat.zero_add]

theorem byteLength_append (cs cs' : List Char) :
    byteLength (cs ++ cs') = byteLength cs + byteLength cs' := by
  simp only [byteLength_eq, String.ofList_append, String.utf8ByteSize_append]

variable {c d e : Cursor} {j k : Nat}

theorem Reaches.refl (c : Cursor) : c.Reaches 0 c :=
  ⟨[], rfl, rfl, Nat.le_refl 0⟩

theorem Reaches.trans (h : c.Reaches j d) (h' : d.Reaches k e) : c.Reaches (j + k) e := by
  obtain ⟨past, hrest, hpos, hj⟩ := h
  obtain ⟨past', hrest', hpos', hk⟩ := h'
  refine ⟨past ++ past', ?_, ?_, ?_⟩
  · rw [hrest, hrest', List.append_assoc]
  · rw [hpos', hpos, byteLength_append, Nat.add_assoc]
  · rw [List.length_append]
    omega

theorem Reaches.weaken (h : c.Reaches j d) (hk : k ≤ j) : c.Reaches k d := by
  obtain ⟨past, hrest, hpos, hj⟩ := h
  exact ⟨past, hrest, hpos, Nat.le_trans hk hj⟩

theorem Reaches.of_add (h : c.Reaches (j + k) d) : c.Reaches j d :=
  h.weaken (Nat.le_add_right j k)

theorem Reaches.of_toNat {b : Bool} (h : c.Reaches (j + b.toNat) d) (hb : b = true) :
    c.Reaches (j + 1) d := by
  rwa [hb] at h

theorem Reaches.length_le (h : c.Reaches k d) : d.rest.length + k ≤ c.rest.length := by
  obtain ⟨past, hrest, -, hk⟩ := h
  rw [hrest, List.length_append]
  omega

theorem reaches_skip (c : Cursor) {n : Nat} (h : n ≤ c.rest.length) : c.Reaches n (c.skip n) :=
  ⟨c.rest.take n, (List.take_append_drop n c.rest).symm, rfl, by simp [h]⟩

theorem reaches_skip_zero (c : Cursor) (n : Nat) : c.Reaches 0 (c.skip n) :=
  ⟨c.rest.take n, (List.take_append_drop n c.rest).symm, rfl, Nat.zero_le _⟩

theorem reaches_skipWhile (c : Cursor) (p : Char → Bool) :
    c.Reaches (c.rest.takeWhile p).length (c.skipWhile p) :=
  ⟨c.rest.takeWhile p, List.takeWhile_append_dropWhile.symm, rfl, Nat.le_refl _⟩

theorem reaches_skipBlanks (c : Cursor) : c.Reaches 0 c.skipBlanks :=
  (c.reaches_skipWhile Text.isBlank).weaken (Nat.zero_le _)

/-- The cursor has come from the start of the text. -/
def StandsIn (text : String) (c : Cursor) : Prop :=
  Reaches ⟨text.toList, 0⟩ 0 c

/-- A cursor in a text stands between two characters. -/
theorem StandsIn.isValid {text : String} (h : StandsIn text c) :
    String.Pos.Raw.IsValid text ⟨c.pos⟩ := by
  obtain ⟨past, hrest, hpos, -⟩ := h
  rw [String.Pos.Raw.isValid_iff_exists_append]
  refine ⟨String.ofList past, String.ofList c.rest, ?_, ?_⟩
  · rw [← String.ofList_append, ← hrest, String.ofList_toList]
  · rw [hpos, byteLength_eq, Nat.zero_add]
    rfl

end Cursor

namespace QueryReader

open Cursor (Reaches)

variable {α β : Type} {o c d : Cursor} {k : Nat}

/-! ## Readers one behind the other -/

/-- Run from `c`, the reader gives a value and a cursor as asked, or fails for a reason other than
    its steps at a place that is reached from `o`. -/
structure Safe (o : Cursor) (m : QueryReader α) (c : Cursor) (Q : α → Cursor → Prop) : Prop where
  ok : ∀ a d, m.run c = .ok (a, d) → Q a d
  error : ∀ e, m.run c = .error e → e.fault ≠ .exhausted ∧ ∃ d, o.Reaches 0 d ∧ e.pos = d.pos

namespace Safe

variable {m : QueryReader α} {Q R : α → Cursor → Prop}

theorem mono (h : Safe o m c Q) (hQ : ∀ a d, Q a d → R a d) : Safe o m c R :=
  ⟨fun a d hrun => hQ a d (h.ok a d hrun), h.error⟩

theorem pure {a : α} (h : Q a c) : Safe o (Pure.pure a) c Q where
  ok := by
    rintro _ _ ⟨⟩
    exact h
  error := nofun

theorem set {Q : PUnit → Cursor → Prop} (h : Q ⟨⟩ d) : Safe o (set d) c Q where
  ok := by
    rintro _ _ ⟨⟩
    exact h
  error := nofun

theorem modify {f : Cursor → Cursor} {Q : PUnit → Cursor → Prop} (h : Q ⟨⟩ (f c)) :
    Safe o (modify f) c Q where
  ok := by
    rintro _ _ ⟨⟩
    exact h
  error := nofun

theorem failAt (h : o.Reaches k d) {fault : ParseFault} (hfault : fault ≠ .exhausted) :
    Safe o (failAt d.pos fault) c Q where
  ok := nofun
  error := by
    rintro _ ⟨⟩
    exact ⟨hfault, d, h.weaken (Nat.zero_le _), rfl⟩

theorem bind {m : QueryReader β} {f : β → QueryReader α} {Q : β → Cursor → Prop}
    (hm : Safe o m c Q) (hf : ∀ b d, Q b d → Safe o (f b) d R) : Safe o (m >>= f) c R where
  ok a d hrun := by
    obtain ⟨b, mid, hfront, hbehind⟩ := exists_of_run_bind hrun
    exact (hf b mid (hm.ok b mid hfront)).ok a d hbehind
  error e hrun := by
    rw [StateT.run_bind] at hrun
    cases hfront : m.run c with
    | error e' =>
      rw [hfront] at hrun
      cases hrun
      exact hm.error e hfront
    | ok p =>
      rw [hfront] at hrun
      exact (hf p.1 p.2 (hm.ok p.1 p.2 hfront)).error e hrun

theorem map {m : QueryReader β} {f : β → α} (hm : Safe o m c fun b d => Q (f b) d) :
    Safe o (f <$> m) c Q := by
  rw [map_eq_pure_bind]
  exact bind hm fun _ _ h => pure h

theorem get_bind {f : Cursor → QueryReader α} (h : Safe o (f c) c Q) : Safe o (get >>= f) c Q :=
  ⟨h.ok, h.error⟩

theorem fail (h : o.Reaches k c) {fault : ParseFault} (hfault : fault ≠ .exhausted) :
    Safe o (fail fault) c Q :=
  .get_bind (.failAt h hfault)

theorem ite {p : Prop} [Decidable p] {n : QueryReader α} (hm : p → Safe o m c Q)
    (hn : ¬ p → Safe o n c Q) : Safe o (if p then m else n) c Q := by
  split
  · next h => exact hm h
  · next h => exact hn h

/-- What stands behind a branch is run behind each of its sides. -/
theorem ite_bind {p : Prop} [Decidable p] {m n : QueryReader β} {f : β → QueryReader α}
    {Q : β → Cursor → Prop} (hm : p → Safe o m c Q) (hn : ¬ p → Safe o n c Q)
    (hf : ∀ b d, Q b d → Safe o (f b) d R) : Safe o (if p then m >>= f else n >>= f) c R :=
  ite (fun h => bind (hm h) hf) fun h => bind (hn h) hf

/-- What is told from the cursor itself can be told from an earlier one. -/
theorem of_self {n : α → Nat} (h : o.Reaches k c)
    (hm : Safe c m c fun a d => c.Reaches (n a) d) :
    Safe o m c fun a d => o.Reaches (k + n a) d where
  ok a d hrun := h.trans (hm.ok a d hrun)
  error e hrun := by
    obtain ⟨hfault, d, hd, hpos⟩ := hm.error e hrun
    exact ⟨hfault, d, (h.trans hd).weaken (Nat.zero_le _), hpos⟩

end Safe

/-! ## Single characters and keywords -/

theorem safe_skipBlanks (h : o.Reaches k c) : Safe o skipBlanks c fun _ d => o.Reaches k d :=
  .modify (h.trans c.reaches_skipBlanks)

theorem safe_skip (h : o.Reaches k c) (n : Nat) :
    Safe o (modify (·.skip n)) c fun _ d => o.Reaches k d :=
  .modify (h.trans (c.reaches_skip_zero n))

theorem safe_peek? (h : o.Reaches k c) :
    Safe o peek? c fun x d => o.Reaches k d ∧ x = d.peek? :=
  .get_bind (.pure ⟨h, rfl⟩)

theorem safe_bump (h : o.Reaches k c) : Safe o bump c fun _ d => o.Reaches k d :=
  safe_skip h 1

theorem safe_atEnd (h : o.Reaches k c) : Safe o atEnd c fun _ d => o.Reaches k d :=
  .bind (safe_skipBlanks h) fun _ _ h => .bind (safe_peek? h) fun _ _ h => .pure h.1

theorem safe_eat (ch : Char) (h : o.Reaches k c) :
    Safe o (eat ch) c fun b d => o.Reaches (k + b.toNat) d := by
  refine .bind (safe_skipBlanks h) fun _ c h => .bind (safe_peek? h) fun x c h => .ite ?_ ?_
  · intro hx
    obtain ⟨h, rfl⟩ := h
    obtain ⟨rest, hrest⟩ := List.head?_eq_some_iff.1 hx
    have hskip : o.Reaches (k + 1) (c.skip 1) := h.trans (c.reaches_skip (by simp [hrest]))
    exact .bind (.modify hskip) fun _ _ h => .pure h
  · exact fun _ => .pure h.1

theorem safe_expect (ch : Char) (h : o.Reaches k c) :
    Safe o (expect ch) c fun _ d => o.Reaches (k + 1) d := by
  refine .bind (safe_eat ch h) fun b d h => ?_
  cases b with
  | true => exact .pure h
  | false => exact .fail h nofun

theorem safe_peekKeyword (keyword : String) (h : o.Reaches k c) :
    Safe o (peekKeyword keyword) c fun b d =>
      o.Reaches k d ∧ b = startsWithKeyword keyword d.rest :=
  .bind (safe_skipBlanks h) fun _ _ h => .get_bind (.pure ⟨h, rfl⟩)

theorem safe_eatKeyword {keyword : String} (hkeyword : keyword ≠ "") (h : o.Reaches k c) :
    Safe o (eatKeyword keyword) c fun b d => o.Reaches (k + b.toNat) d := by
  have hone : 1 ≤ keyword.length :=
    Nat.one_le_iff_ne_zero.2 fun hzero => hkeyword (String.length_eq_zero_iff.1 hzero)
  refine .bind (safe_peekKeyword keyword h) fun b c h => .ite (fun hb => ?_) fun _ => .pure h.1
  have hlength : keyword.length ≤ c.rest.length := length_le_of_startsWithKeyword (h.2 ▸ hb)
  have hskip : o.Reaches (k + 1) (c.skip keyword.length) :=
    (h.1.trans (c.reaches_skip hlength)).weaken (by omega)
  exact .bind (.modify hskip) fun _ _ h => .pure h

/-! ## Words and quoted texts -/

/-- The word that comes next behind blanks. -/
def wordAhead (stopAtColon : Bool) (c : Cursor) : List Char :=
  (afterBlanks c.rest).takeWhile (!endsWord stopAtColon ·)

theorem safe_bareWord (stopAtColon : Bool) (h : o.Reaches k c) :
    Safe o (bareWord stopAtColon) c fun word d =>
      word = String.ofList (wordAhead stopAtColon c) ∧
        o.Reaches (k + (wordAhead stopAtColon c).length) d := by
  have hword := (h.trans c.reaches_skipBlanks).trans
    (c.skipBlanks.reaches_skipWhile (!endsWord stopAtColon ·))
  have hskip : Safe o skipBlanks c fun _ d => d = c.skipBlanks := .modify rfl
  refine .bind hskip fun _ d hd => ?_
  obtain rfl := hd
  exact .get_bind (.bind (.set hword) fun _ _ h => .pure ⟨rfl, h⟩)

/-- A word goes on at a colon where it may hold one. -/
theorem length_wordAhead_le (c : Cursor) :
    (wordAhead true c).length ≤ (wordAhead false c).length := by
  refine (List.IsPrefix.length_le ?_)
  unfold wordAhead
  generalize afterBlanks c.rest = cs
  induction cs with
  | nil => exact List.prefix_refl _
  | cons ch cs ih =>
    rw [List.takeWhile_cons, List.takeWhile_cons]
    cases htrue : endsWord true ch with
    | true => exact List.nil_prefix
    | false =>
      have hfalse : endsWord false ch = false := by
        simp only [endsWord, Bool.or_eq_false_iff] at htrue ⊢
        exact ⟨htrue.1, rfl⟩
      simpa [hfalse] using ih

theorem endsWord_of_isAsciiDigit {ch : Char} (h : Text.isAsciiDigit ch = true)
    (stopAtColon : Bool) : endsWord stopAtColon ch = false := by
  simp only [Text.isAsciiDigit, Bool.and_eq_true, decide_eq_true_eq, Char.le_def,
    UInt32.le_iff_toNat_le] at h
  have hlow : 48 ≤ ch.toNat := h.1
  have hhigh : ch.toNat ≤ 57 := h.2
  exact endsWord_of_toNat (by omega) (by omega) (by omega) (by omega) stopAtColon

/-- A digit that comes next begins a word. -/
theorem length_wordAhead_of_digit {stopAtColon : Bool}
    (h : c.peek?.any Text.isAsciiDigit = true) : 1 ≤ (wordAhead stopAtColon c).length := by
  obtain ⟨ch, hpeek, hdigit⟩ := (Option.any_eq_true _ _).1 h
  obtain ⟨rest, hrest⟩ := List.head?_eq_some_iff.1 hpeek
  have hword := endsWord_of_isAsciiDigit hdigit stopAtColon
  have hblank : Text.isBlank ch = false := by
    simp only [endsWord, Bool.or_eq_false_iff] at hword
    exact hword.1.1
  rw [wordAhead, hrest, afterBlanks_cons hblank, List.takeWhile_cons, hword]
  simp

theorem safe_peekQuote (h : o.Reaches k c) : Safe o peekQuote c fun _ d => o.Reaches k d :=
  .bind (safe_skipBlanks h) fun _ _ h => .bind (safe_peek? h) fun _ _ h => .pure h.1

theorem safe_quoted (h : o.Reaches k c) :
    Safe o quoted c fun _ d => o.Reaches (k + 1) d := by
  refine .bind (safe_skipBlanks h) fun _ c h => .get_bind ?_
  split
  · exact .fail h nofun
  · next quote rest hrest =>
    split
    · exact .fail h nofun
    · next out n hcontent =>
      have hle : n ≤ rest.length := (quotedContent?_append [] hcontent).2
      have hskip : o.Reaches (k + 1) (c.skip (n + 1)) :=
        (h.trans (c.reaches_skip (by simpa [hrest] using hle))).weaken (by omega)
      exact .bind (.set hskip) fun _ _ h => .pure h

theorem safe_value (stopAtColon : Bool) (h : o.Reaches k c) :
    Safe o (value stopAtColon) c fun _ d => o.Reaches k d := by
  refine .bind (safe_peekQuote h) fun _ c h => .ite (fun _ => ?_) fun _ => ?_
  · exact (safe_quoted h).mono fun _ _ h => h.of_add
  · exact (safe_bareWord stopAtColon h).mono fun _ _ h => h.2.of_add

/-! ## Lists of items -/

/-- Each item but the last has a comma behind it. -/
theorem safe_itemsUntil {item : QueryReader α}
    (hitem : ∀ {k c}, o.Reaches k c → Safe o item c fun _ d => o.Reaches k d) (close : Char)
    {fuel : Nat} (h : o.Reaches k c) (hfuel : o.rest.length < fuel + k) :
    Safe o (itemsUntil close item fuel) c fun _ d => o.Reaches k d := by
  induction fuel generalizing k c with
  | zero => exact absurd h.length_le (by omega)
  | succ fuel ih =>
    rw [itemsUntil]
    refine .bind (hitem h) fun x c h => .bind (safe_eat close h) fun b c h => .ite ?_ ?_
    · exact fun _ => .pure h.of_add
    · intro _
      refine .bind (safe_expect ',' (h.of_add)) fun _ c h => ?_
      refine .bind (ih h (by omega)) fun xs c h => .pure (h.weaken (by omega))

theorem safe_itemList {item : QueryReader α}
    (hitem : ∀ {o c : Cursor} {k : Nat}, o.Reaches k c → Safe o item c fun _ d => o.Reaches k d)
    (close : Char) (h : o.Reaches k c) :
    Safe o (itemList close item) c fun _ d => o.Reaches k d := by
  refine .bind (safe_eat close h) fun b c h => .ite ?_ ?_
  · exact fun _ => .pure h.of_add
  · refine fun _ => .get_bind (.of_self (n := fun _ => 0) h.of_add ?_)
    exact safe_itemsUntil hitem close (Reaches.refl c) (by omega)

end QueryReader

end Logbook
