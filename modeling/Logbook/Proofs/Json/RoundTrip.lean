import Logbook.Proofs.Json.Numbers

set_option autoImplicit false

/-! # Reading back JSON texts

The text of a value is read as the same value with each number replaced by what its own text is read
as (`Json.received?`), provided that the value is not nested too deeply (`Json.depth`):
**`Json.parse?_renderChars`**. The budget of steps that the reader starts from is twice the length
of the text, which is more than reading the text takes. -/

namespace Logbook.Json

/-! ## Strings -/

theorem hex4?_hexDigit :
    ∀ n < 32, hex4? '0' '0' (hexDigit (n / 16)) (hexDigit (n % 16)) = some n := by
  decide

theorem readString_unicode {a b c d : Char} {n : Nat} (hn : hex4? a b c d = some n)
    (hlt : n < 0xD800) (rest out : List Char) :
    readString ('\\' :: 'u' :: a :: b :: c :: d :: rest) out
      = readString rest (Char.ofNat n :: out) := by
  have hhigh : isHighSurrogate n = false := by
    simp [isHighSurrogate]
    omega
  have hlow : isLowSurrogate n = false := by
    simp [isLowSurrogate]
    omega
  -- a second escape behind the first one could be the other half of a pair
  rw [readString.eq_def]
  split <;> grind

/-- A backslash before a character other than `u`. -/
theorem readString_escape {c d : Char} (hd : simpleEscape? d = some c) (rest out : List Char) :
    readString ('\\' :: d :: rest) out = readString rest (c :: out) := by
  have hu : d ≠ 'u' := by
    rintro rfl
    cases hd
  rw [readString.eq_def]
  split <;> grind

theorem readString_plain {c : Char} (hquote : c ≠ '"') (hslash : c ≠ '\\') (hcontrol : 32 ≤ c.toNat)
    (rest out : List Char) : readString (c :: rest) out = readString rest (c :: out) := by
  have hskip : (c.toNat < 32 || c = '\\') = false := by
    simp [hslash, hcontrol]
  rw [readString.eq_def]
  split <;> grind

theorem readString_renderChar (c : Char) (rest out : List Char) :
    readString (renderChar c ++ rest) out = readString rest (c :: out) := by
  have hchar : ∀ {n : Nat}, c.toNat = n → Char.ofNat n = c := by
    rintro _ rfl
    exact Char.ofNat_toNat c
  unfold renderChar
  split
  · next h =>
    subst h
    exact readString_escape rfl rest out
  split
  · next h =>
    subst h
    exact readString_escape rfl rest out
  split
  · next h => exact h ▸ readString_escape rfl rest out
  split
  · next h => exact h ▸ readString_escape rfl rest out
  split
  · next h => exact h ▸ readString_escape rfl rest out
  split
  · next h => exact hchar h ▸ readString_escape rfl rest out
  split
  · next h => exact hchar h ▸ readString_escape rfl rest out
  split
  · next h =>
    have hread := readString_unicode (hex4?_hexDigit c.toNat h) (by omega) rest out
    rwa [Char.ofNat_toNat] at hread
  · next hquote hslash _ _ _ _ _ hcontrol =>
    exact readString_plain hquote hslash (by omega) rest out

theorem readString_renderString (s : String) (rest : List Char) :
    readString (s.toList.flatMap renderChar ++ '"' :: rest) [] = some (s, rest) := by
  have hread : ∀ cs out, readString (cs.flatMap renderChar ++ '"' :: rest) out
      = some (String.ofList (out.reverse ++ cs), rest) := by
    intro cs
    induction cs with
    | nil => simp [readString]
    | cons c cs ih =>
      intro out
      rw [List.flatMap_cons, List.append_assoc, readString_renderChar, ih, List.reverse_cons,
        List.append_assoc, List.singleton_append]
  rw [hread, List.reverse_nil, List.nil_append, String.ofList_toList]

/-! ## Values -/

mutual

/-- Levels of nesting, of which a text, a number or a word has none. -/
def depth : Json → Nat
  | .arr items => depthAll items + 1
  | .obj members => depthMembers members + 1
  | _ => 0

def depthAll : List Json → Nat
  | [] => 0
  | v :: rest => max (depth v) (depthAll rest)

def depthMembers : List (String × Json) → Nat
  | [] => 0
  | (_, v) :: rest => max (depth v) (depthMembers rest)

end

mutual

/-- The value with every number replaced by what its text is read as. -/
def received? : Json → Option Json
  | .int n => parse? (toString n).toList
  | .float x => parse? (renderNumber x)
  | .arr items => (receivedAll? items).map .arr
  | .obj members => (receivedMembers? members).map .obj
  | v => some v

def receivedAll? : List Json → Option (List Json)
  | [] => some []
  | v :: rest => do return (← received? v) :: (← receivedAll? rest)

def receivedMembers? : List (String × Json) → Option (List (String × Json))
  | [] => some []
  | (key, v) :: rest => do return (key, ← received? v) :: (← receivedMembers? rest)

end

variable {rest : List Char}

theorem skipSpace_of_head {c : Char} (h : isSpace c = false) (cs : List Char) :
    skipSpace (c :: cs) = c :: cs := by
  rw [skipSpace, List.dropWhile_cons_of_neg (by simp [h])]

/-! ### Numbers -/

/-- Characters with which numbers begin. -/
def StartsNumber (c : Char) : Prop :=
  c = '-' ∨ Text.isAsciiDigit c = true

theorem StartsNumber.not_space {c : Char} (h : StartsNumber c) : isSpace c = false := by
  have hne : ∀ d, isSpace d = true → ¬ StartsNumber d := by
    intro d hd
    simp only [isSpace, Bool.or_eq_true, decide_eq_true_eq] at hd
    rcases hd with ((rfl | rfl) | rfl) | rfl <;> simp [StartsNumber, Text.isAsciiDigit]
  exact Bool.eq_false_iff.2 fun hspace => hne c hspace h

theorem NumberText.head {cs : List Char} (h : NumberText cs) :
    ∃ c t, cs = c :: t ∧ StartsNumber c := by
  cases h with
  | plain h =>
    obtain ⟨⟨hne, hds⟩, -⟩ := h
    obtain ⟨d, ds, rfl⟩ := List.exists_cons_of_ne_nil hne
    exact ⟨d, _, rfl, .inr (hds d List.mem_cons_self)⟩
  | minus => exact ⟨'-', _, rfl, .inl rfl⟩

theorem readValue_of_startsNumber {c : Char} (h : StartsNumber c) (fuel depth : Nat)
    (cs : List Char) : readValue (fuel + 1) depth (c :: cs) = readNumber (c :: cs) := by
  have hif : (c = '-' || Text.isAsciiDigit c) = true := by
    simpa [StartsNumber] using h
  rw [readValue, skipSpace_of_head h.not_space]
  -- no other value begins with the character of a number
  split
  · next heq => cases heq
  all_goals
    rename_i heq
    cases heq
    first
    | exact absurd hif (by decide)
    | exact if_pos hif

theorem readValue_number {cs : List Char} (h : NumberText cs) (hrest : Delimited rest)
    (fuel depth : Nat) :
    readValue (fuel + 1) depth (cs ++ rest) = (readNumber cs).map fun p => (p.1, rest) := by
  rw [← h.readNumber_append hrest]
  obtain ⟨c, t, rfl, hc⟩ := h.head
  exact readValue_of_startsNumber hc ..

theorem parse?_number {cs : List Char} (h : NumberText cs) :
    parse? cs = (readNumber cs).map (·.1) := by
  have hread := readValue_number h .nil (2 * cs.length + 1) maxDepth
  rw [List.append_nil] at hread
  rw [parse?, hread]
  cases readNumber cs <;> rfl

/-- Whole numbers of sixty-four bits are received as they are. -/
theorem received?_int {n : Int} (hlow : -(2 ^ 63) ≤ n) (hhigh : n < 2 ^ 64) :
    received? (.int n) = some (.int n) := by
  rw [received?, parse?_number (numberText_toString n), readNumber_toString hlow hhigh]
  rfl

/-- The text of a value begins with neither a blank nor a closing bracket. -/
theorem renderChars_head (v : Json) :
    ∃ c t, v.renderChars = c :: t ∧ isSpace c = false ∧ c ≠ ']' := by
  have hnumber : ∀ {cs}, NumberText cs → ∃ c t, cs = c :: t ∧ isSpace c = false ∧ c ≠ ']' := by
    intro cs h
    obtain ⟨c, t, ht, hc⟩ := h.head
    refine ⟨c, t, ht, hc.not_space, ?_⟩
    rintro rfl
    exact absurd hc (by simp [StartsNumber, Text.isAsciiDigit])
  cases v with
  | null => exact ⟨'n', _, rfl, rfl, by decide⟩
  | bool b =>
    cases b
    · exact ⟨'f', _, rfl, rfl, by decide⟩
    · exact ⟨'t', _, rfl, rfl, by decide⟩
  | int n => exact hnumber (numberText_toString n)
  | float x =>
    rcases renderNumber_cases x with h | h
    · exact ⟨'n', _, h, rfl, by decide⟩
    · exact hnumber h
  | str s => exact ⟨'"', _, rfl, rfl, by decide⟩
  | arr items => exact ⟨'[', _, rfl, rfl, by decide⟩
  | obj members => exact ⟨'{', _, rfl, rfl, by decide⟩

theorem readValue_float (x : Float) (hrest : Delimited rest) (fuel depth : Nat) :
    readValue (fuel + 1) depth (renderNumber x ++ rest)
      = (received? (.float x)).map (·, rest) := by
  rw [received?]
  rcases renderNumber_cases x with h | h
  · rw [h]
    rfl
  · rw [readValue_number h hrest, parse?_number h, Option.map_map]
    rfl

theorem readValue_int (n : Int) (hrest : Delimited rest) (fuel depth : Nat) :
    readValue (fuel + 1) depth ((toString n).toList ++ rest)
      = (received? (.int n)).map (·, rest) := by
  have h := numberText_toString n
  rw [received?, readValue_number h hrest, parse?_number h, Option.map_map]
  rfl

/-! ### Arrays and objects -/

theorem renderItems_cons_cons (v w : Json) (vs : List Json) :
    renderItems (v :: w :: vs) = v.renderChars ++ ',' :: renderItems (w :: vs) :=
  rfl

theorem renderMembers_cons_cons (key : String) (v : Json) (m : String × Json)
    (ms : List (String × Json)) :
    renderMembers ((key, v) :: m :: ms)
      = renderString key ++ ':' :: (v.renderChars ++ ',' :: renderMembers (m :: ms)) :=
  rfl

theorem renderItems_head {items : List Json} (hne : items ≠ []) :
    ∃ c t, renderItems items = c :: t ∧ isSpace c = false ∧ c ≠ ']' := by
  match items with
  | [v] => exact renderChars_head v
  | v :: w :: rest =>
    obtain ⟨c, t, ht, hc⟩ := renderChars_head v
    exact ⟨c, t ++ ',' :: renderItems (w :: rest), by rw [renderItems_cons_cons, ht]; rfl, hc⟩

theorem readValue_bracket (fuel d : Nat) (cs : List Char) :
    readValue (fuel + 1) d ('[' :: cs)
      = if d ≤ 1 then none
        else match skipSpace cs with
          | ']' :: rest => some (.arr [], rest)
          | _ => (readItems fuel (d - 1) cs).map fun p => (.arr p.1, p.2) := by
  rw [readValue, skipSpace_of_head rfl]
  rfl

theorem readValue_brace (fuel d : Nat) (cs : List Char) :
    readValue (fuel + 1) d ('{' :: cs)
      = if d ≤ 1 then none
        else match skipSpace cs with
          | '}' :: rest => some (.obj [], rest)
          | _ => (readMembers fuel (d - 1) cs).map fun p => (.obj p.1, p.2) := by
  rw [readValue, skipSpace_of_head rfl]
  rfl

theorem readValue_items {items : List Json} (hne : items ≠ []) (fuel d : Nat) (cs : List Char) :
    readValue (fuel + 1) d ('[' :: (renderItems items ++ cs))
      = if d ≤ 1 then none
        else (readItems fuel (d - 1) (renderItems items ++ cs)).map fun p => (.arr p.1, p.2) := by
  obtain ⟨c, t, ht, hspace, hbracket⟩ := renderItems_head hne
  rw [readValue_bracket, ht, List.cons_append, skipSpace_of_head hspace]
  split
  · rfl
  · split
    · next heq => exact absurd (List.cons.inj heq).1 hbracket
    · rfl

theorem readValue_members {members : List (String × Json)} (hne : members ≠ []) (fuel d : Nat)
    (cs : List Char) :
    readValue (fuel + 1) d ('{' :: (renderMembers members ++ cs))
      = if d ≤ 1 then none
        else (readMembers fuel (d - 1) (renderMembers members ++ cs)).map
          fun p => (.obj p.1, p.2) := by
  obtain ⟨t, ht⟩ : ∃ t, renderMembers members = '"' :: t := by
    match members with
    | [(key, v)] => exact ⟨_, rfl⟩
    | (key, v) :: m :: rest => exact ⟨_, rfl⟩
  rw [readValue_brace, ht, List.cons_append, skipSpace_of_head rfl]
  rfl

variable {fuel d : Nat} {v : Json} {v? : Option Json}

theorem readItems_last
    (hv : readValue fuel d (v.renderChars ++ ']' :: rest) = v?.map (·, ']' :: rest)) :
    readItems (fuel + 1) d (v.renderChars ++ ']' :: rest) = v?.map fun v => ([v], rest) := by
  rw [readItems, hv]
  cases v? <;> rfl

theorem readItems_more {cs : List Char}
    (hv : readValue fuel d (v.renderChars ++ ',' :: cs) = v?.map (·, ',' :: cs)) :
    readItems (fuel + 1) d (v.renderChars ++ ',' :: cs)
      = v?.bind fun v => (readItems fuel d cs).bind fun p => some (v :: p.1, p.2) := by
  rw [readItems, hv]
  cases v? <;> rfl

theorem readMembers_quote (fuel d : Nat) (cs : List Char) :
    readMembers (fuel + 1) d ('"' :: cs)
      = (readString cs []).bind fun s => match skipSpace s.2 with
        | ':' :: rest => (readValue fuel d rest).bind fun p => match skipSpace p.2 with
          | ',' :: rest => (readMembers fuel d rest).bind fun ms => some ((s.1, p.1) :: ms.1, ms.2)
          | '}' :: rest => some ([(s.1, p.1)], rest)
          | _ => none
        | _ => none := by
  rw [readMembers, skipSpace_of_head rfl]
  rfl

theorem readMembers_key (key : String) (fuel d : Nat) (cs : List Char) :
    readMembers (fuel + 1) d (renderString key ++ ':' :: cs)
      = (readValue fuel d cs).bind fun p => match skipSpace p.2 with
        | ',' :: rest => (readMembers fuel d rest).bind fun ms => some ((key, p.1) :: ms.1, ms.2)
        | '}' :: rest => some ([(key, p.1)], rest)
        | _ => none := by
  rw [renderString, List.cons_append, List.append_assoc, List.singleton_append, readMembers_quote,
    readString_renderString, Option.bind_some, skipSpace_of_head rfl]
  rfl

theorem readMembers_last (key : String)
    (hv : readValue fuel d (v.renderChars ++ '}' :: rest) = v?.map (·, '}' :: rest)) :
    readMembers (fuel + 1) d (renderString key ++ ':' :: (v.renderChars ++ '}' :: rest))
      = v?.map fun v => ([(key, v)], rest) := by
  rw [readMembers_key, hv]
  cases v? <;> rfl

theorem readMembers_more (key : String) {cs : List Char}
    (hv : readValue fuel d (v.renderChars ++ ',' :: cs) = v?.map (·, ',' :: cs)) :
    readMembers (fuel + 1) d (renderString key ++ ':' :: (v.renderChars ++ ',' :: cs))
      = v?.bind fun v => (readMembers fuel d cs).bind fun p => some ((key, v) :: p.1, p.2) := by
  rw [readMembers_key, hv]
  cases v? <;> rfl

/-! ### All values -/

theorem Delimited.comma (cs : List Char) : Delimited (',' :: cs) := by
  rintro _ ⟨⟩
  exact .inl rfl

theorem Delimited.bracket (cs : List Char) : Delimited (']' :: cs) := by
  rintro _ ⟨⟩
  exact .inr (.inl rfl)

theorem Delimited.brace (cs : List Char) : Delimited ('}' :: cs) := by
  rintro _ ⟨⟩
  exact .inr (.inr rfl)

theorem one_le_length_renderChars (v : Json) : 1 ≤ v.renderChars.length := by
  obtain ⟨c, t, ht, -⟩ := renderChars_head v
  rw [ht]
  exact Nat.succ_le_succ (Nat.zero_le _)

/-- Two values are read one after the other; if one of them is nested too deeply or cannot be read,
    neither is. -/
theorem ite_max_lt {α β γ : Type} (a b d : Nat) (x : Option α) (y : Option β) (f : α → β → γ) :
    (if max a b < d then x.bind fun v => y.bind fun w => some (f v w) else none)
      = (if a < d then x else none).bind fun v => (if b < d then y else none).map (f v) := by
  by_cases ha : a < d
  · by_cases hb : b < d
    · rw [if_pos ha, if_pos hb, if_pos (Nat.max_lt.2 ⟨ha, hb⟩)]
      cases x <;> cases y <;> rfl
    · rw [if_pos ha, if_neg hb, if_neg fun h => hb (Nat.max_lt.1 h).2]
      cases x <;> rfl
  · rw [if_neg ha, if_neg fun h => ha (Nat.max_lt.1 h).1]
    rfl

theorem receivedAll?_cons (d : Nat) (v : Json) (vs : List Json) :
    (if depthAll (v :: vs) < d then receivedAll? (v :: vs) else none)
      = (if v.depth < d then v.received? else none).bind fun w =>
        (if depthAll vs < d then receivedAll? vs else none).map (w :: ·) := by
  rw [depthAll, receivedAll?]
  exact ite_max_lt ..

theorem receivedMembers?_cons (d : Nat) (key : String) (v : Json) (ms : List (String × Json)) :
    (if depthMembers ((key, v) :: ms) < d then receivedMembers? ((key, v) :: ms) else none)
      = (if v.depth < d then v.received? else none).bind fun w =>
        (if depthMembers ms < d then receivedMembers? ms else none).map ((key, w) :: ·) := by
  rw [depthMembers, receivedMembers?]
  exact ite_max_lt _ _ _ _ _ fun w ms => (key, w) :: ms

/-- A value around others is one level deeper than they are. -/
theorem ite_succ_lt {α β : Type} (n d : Nat) (x : Option α) (f : α → β) :
    (if n + 1 < d then x.map f else none)
      = if d ≤ 1 then none else (if n < d - 1 then x else none).map f := by
  by_cases hd : d ≤ 1
  · rw [if_pos hd, if_neg (by omega)]
  · by_cases hn : n < d - 1
    · rw [if_neg hd, if_pos hn, if_pos (by omega)]
    · rw [if_neg hd, if_neg hn, if_neg (by omega)]
      rfl

theorem received?_arr (d : Nat) (items : List Json) :
    (if (arr items).depth < d then (arr items).received? else none)
      = if d ≤ 1 then none
        else (if depthAll items < d - 1 then receivedAll? items else none).map .arr := by
  rw [depth, received?]
  exact ite_succ_lt ..

theorem received?_obj (d : Nat) (members : List (String × Json)) :
    (if (obj members).depth < d then (obj members).received? else none)
      = if d ≤ 1 then none
        else (if depthMembers members < d - 1 then receivedMembers? members else none).map
          .obj := by
  rw [depth, received?]
  exact ite_succ_lt ..

/-- Words and texts are read whatever the budgets. -/
theorem readValue_str (s : String) (fuel d : Nat) :
    readValue (fuel + 1) d (renderString s ++ rest) = some (.str s, rest) := by
  rw [renderString, List.cons_append, List.append_assoc, readValue, skipSpace_of_head rfl]
  show (readString _ []).map _ = _
  rw [List.singleton_append, readString_renderString]
  rfl

mutual

/-- The text of a value is read as the value, with its numbers as their texts are read, if its
    nesting is allowed. -/
theorem readValue_renderChars (v : Json) {rest : List Char} {fuel d : Nat}
    (hrest : Delimited rest) (hfuel : 2 * v.renderChars.length ≤ fuel) (hd : 0 < d) :
    readValue fuel d (v.renderChars ++ rest)
      = (if v.depth < d then v.received? else none).map (·, rest) := by
  have hone := one_le_length_renderChars v
  obtain ⟨fuel, rfl⟩ : ∃ n, fuel = n + 1 := ⟨fuel - 1, by omega⟩
  match v with
  | .null =>
    rw [if_pos (show null.depth < d from hd)]
    rfl
  | .bool true =>
    rw [if_pos (show (bool true).depth < d from hd)]
    rfl
  | .bool false =>
    rw [if_pos (show (bool false).depth < d from hd)]
    rfl
  | .int n =>
    rw [if_pos (show (int n).depth < d from hd)]
    exact readValue_int n hrest fuel d
  | .float x =>
    rw [if_pos (show (float x).depth < d from hd)]
    exact readValue_float x hrest fuel d
  | .str s =>
    rw [if_pos (show (str s).depth < d from hd)]
    exact readValue_str s fuel d
  | .arr [] =>
    rw [received?_arr]
    show readValue (fuel + 1) d ('[' :: ']' :: rest) = _
    rw [readValue_bracket, skipSpace_of_head rfl]
    split
    · rfl
    · rw [if_pos (show depthAll [] < d - 1 from Nat.sub_pos_of_lt (by omega))]
      rfl
  | .arr (v :: vs) =>
    rw [received?_arr]
    rw [renderChars] at hfuel ⊢
    rw [List.length_cons, List.length_append] at hfuel
    rw [List.cons_append, List.append_assoc, readValue_items (List.cons_ne_nil v vs)]
    split
    · rfl
    · rw [List.singleton_append,
        readItems_renderItems (v :: vs) (List.cons_ne_nil v vs)
          (by simp only [List.length_singleton] at hfuel; omega) (by omega),
        Option.map_map, Option.map_map]
      rfl
  | .obj [] =>
    rw [received?_obj]
    show readValue (fuel + 1) d ('{' :: '}' :: rest) = _
    rw [readValue_brace, skipSpace_of_head rfl]
    split
    · rfl
    · rw [if_pos (show depthMembers [] < d - 1 from Nat.sub_pos_of_lt (by omega))]
      rfl
  | .obj ((key, v) :: ms) =>
    rw [received?_obj]
    rw [renderChars] at hfuel ⊢
    rw [List.length_cons, List.length_append] at hfuel
    rw [List.cons_append, List.append_assoc, readValue_members (List.cons_ne_nil (key, v) ms)]
    split
    · rfl
    · rw [List.singleton_append,
        readMembers_renderMembers ((key, v) :: ms) (List.cons_ne_nil (key, v) ms)
          (by simp only [List.length_singleton] at hfuel; omega) (by omega),
        Option.map_map, Option.map_map]
      rfl

theorem readItems_renderItems (items : List Json) (hne : items ≠ []) {rest : List Char}
    {fuel d : Nat} (hfuel : 2 * (renderItems items).length + 1 ≤ fuel) (hd : 0 < d) :
    readItems fuel d (renderItems items ++ ']' :: rest)
      = (if depthAll items < d then receivedAll? items else none).map (·, rest) := by
  obtain ⟨fuel, rfl⟩ : ∃ n, fuel = n + 1 := ⟨fuel - 1, by omega⟩
  match items with
  | [v] =>
    rw [receivedAll?_cons]
    rw [renderItems] at hfuel ⊢
    rw [readItems_last (readValue_renderChars v (.bracket rest) (by omega) hd),
      if_pos (show depthAll [] < d from hd)]
    cases if v.depth < d then v.received? else none <;> rfl
  | v :: w :: vs =>
    rw [receivedAll?_cons]
    rw [renderItems_cons_cons] at hfuel ⊢
    rw [List.length_append, List.length_cons] at hfuel
    rw [List.append_assoc, List.cons_append,
      readItems_more (readValue_renderChars v (.comma _) (by omega) hd),
      readItems_renderItems (w :: vs) (List.cons_ne_nil w vs) (by omega) hd]
    cases if v.depth < d then v.received? else none with
    | none => rfl
    | some x => cases if depthAll (w :: vs) < d then receivedAll? (w :: vs) else none <;> rfl

theorem readMembers_renderMembers (members : List (String × Json)) (hne : members ≠ [])
    {rest : List Char} {fuel d : Nat}
    (hfuel : 2 * (renderMembers members).length + 1 ≤ fuel) (hd : 0 < d) :
    readMembers fuel d (renderMembers members ++ '}' :: rest)
      = (if depthMembers members < d then receivedMembers? members else none).map (·, rest) := by
  obtain ⟨fuel, rfl⟩ : ∃ n, fuel = n + 1 := ⟨fuel - 1, by omega⟩
  match members with
  | [(key, v)] =>
    rw [receivedMembers?_cons]
    rw [renderMembers] at hfuel ⊢
    rw [List.length_append, List.length_cons] at hfuel
    rw [List.append_assoc, List.cons_append,
      readMembers_last key (readValue_renderChars v (.brace rest) (by omega) hd),
      if_pos (show depthMembers [] < d from hd)]
    cases if v.depth < d then v.received? else none <;> rfl
  | (key, v) :: m :: ms =>
    rw [receivedMembers?_cons]
    rw [renderMembers_cons_cons] at hfuel ⊢
    rw [List.length_append, List.length_cons, List.length_append, List.length_cons] at hfuel
    rw [List.append_assoc, List.cons_append, List.append_assoc, List.cons_append,
      readMembers_more key (readValue_renderChars v (.comma _) (by omega) hd),
      readMembers_renderMembers (m :: ms) (List.cons_ne_nil m ms) (by omega) hd]
    cases if v.depth < d then v.received? else none with
    | none => rfl
    | some x =>
      cases if depthMembers (m :: ms) < d then receivedMembers? (m :: ms) else none <;> rfl

end

theorem readValue_renderChars_self (v : Json) :
    readValue (2 * v.renderChars.length + 2) maxDepth v.renderChars
      = (if v.depth < maxDepth then v.received? else none).map (·, []) := by
  have hread : readValue (2 * v.renderChars.length + 2) maxDepth (v.renderChars ++ []) = _ :=
    readValue_renderChars v .nil (by omega) (by decide)
  rwa [List.append_nil] at hread

/-- **Reading back what was written.** The text of a value is read as the value, with every number
    replaced by what its own text is read as, if the value is not nested too deeply. -/
theorem parse?_renderChars (v : Json) :
    parse? v.renderChars = if v.depth < maxDepth then v.received? else none := by
  rw [parse?, readValue_renderChars_self]
  cases if v.depth < maxDepth then v.received? else none <;> rfl

end Logbook.Json
