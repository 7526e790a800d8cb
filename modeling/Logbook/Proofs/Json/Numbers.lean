import Mathlib.Algebra.Ring.Int.Defs
import Mathlib.Data.List.TakeDrop
import Logbook.Json.Reader
import Logbook.Json.Writer

set_option autoImplicit false

/-! # Numbers in JSON texts

The text of a number ends where a delimiter follows, so that it can be read without regard to what
stands behind it (`Json.NumberText`). Every text of a whole number and of a finite double is of this
kind, and a whole number of sixty-four bits reads back (`Json.readNumber_toString`). A double need
not: reading rounds more than once. -/

namespace Logbook

/-! ## Digits -/

namespace Decimal

theorem spanDigits_append {ds rest : List Char} (hds : ∀ c ∈ ds, Text.isAsciiDigit c = true)
    (hrest : ∀ c ∈ rest.head?, Text.isAsciiDigit c = false) :
    spanDigits (ds ++ rest) = (ds, rest) := by
  have hfront : rest.takeWhile Text.isAsciiDigit = [] ∧
      rest.dropWhile Text.isAsciiDigit = rest := by
    cases rest with
    | nil => exact ⟨rfl, rfl⟩
    | cons c rest => simp [hrest c rfl]
  rw [spanDigits, List.span_eq_takeWhile_dropWhile, List.takeWhile_append_of_pos hds,
    List.dropWhile_append_of_pos hds, hfront.1, hfront.2, List.append_nil]

theorem isAsciiDigit_of_mem_toDigits {n : Nat} {c : Char} (h : c ∈ Nat.toDigits 10 n) :
    Text.isAsciiDigit c = true := by
  have hdigit := Nat.isDigit_of_mem_toDigits (by decide) (by decide) h
  simpa [Char.isDigit, Text.isAsciiDigit, Char.le_def] using hdigit

/-- The decimal digits of a number do not begin with a zero, unless it is the only one. -/
theorem toDigits_ne_zero_cons (n : Nat) (d : Char) (ds : List Char) :
    Nat.toDigits 10 n ≠ '0' :: d :: ds := by
  have hdigit : ∀ n < 10, n ≠ 0 → [n.digitChar].head? ≠ some '0' := by decide
  have hhead : ∀ n, n ≠ 0 → (Nat.toDigits 10 n).head? ≠ some '0' := by
    intro n
    induction n using Nat.strongRecOn with
    | ind n ih =>
      intro hn
      rw [Nat.toDigits_eq_if (by decide)]
      split
      · next hlt => exact hdigit n hlt hn
      · next hge =>
        have hfront := ih (n / 10) (by omega) (by omega)
        cases hds : Nat.toDigits 10 (n / 10) with
        | nil => exact absurd hds Nat.toDigits_ne_nil
        | cons c cs => rwa [hds] at hfront
  intro h
  by_cases hn : n = 0
  · subst hn
    simp at h
  · exact hhead n hn (by rw [h]; rfl)

theorem digitsValue_eq (ds : List Char) : digitsValue ds = Nat.ofDigitChars 10 ds 0 := by
  rw [digitsValue, Nat.ofDigitChars]
  exact congrArg (fun f => ds.foldl f 0) (funext₂ fun n c => by rw [Nat.mul_comm]; rfl)

/-- A count is read back from its text. -/
theorem readUInt64?_toString {n : Nat} (h : n < UInt64.size) :
    readUInt64? (toString n) = some n := by
  have htext : (toString n).toList = Nat.toDigits 10 n := by simp
  have hvalue : digitsValue (Nat.toDigits 10 n) = n := by
    rw [digitsValue_eq, Nat.ofDigitChars_toDigits (by decide) (by decide)]
  have hdigits : (Nat.toDigits 10 n).all Text.isAsciiDigit = true :=
    List.all_eq_true.2 fun c hc => isAsciiDigit_of_mem_toDigits hc
  rw [readUInt64?, htext]
  cases hds : Nat.toDigits 10 n with
  | nil => exact absurd hds Nat.toDigits_ne_nil
  | cons c cs =>
    rw [hds] at hvalue hdigits
    have hplus : c ≠ '+' := by
      rintro rfl
      cases hdigits
    split
    · next heq => exact absurd (List.cons.inj heq).1 hplus
    · dsimp only
      rw [hdigits, hvalue, if_pos h]
      rfl

end Decimal

namespace Json

/-- What may follow the text of a number: nothing, or a character that stands between values. -/
def Delimited (rest : List Char) : Prop :=
  ∀ c ∈ rest.head?, c = ',' ∨ c = ']' ∨ c = '}'

theorem Delimited.nil : Delimited [] := nofun

theorem Delimited.not_digit {rest : List Char} (h : Delimited rest) :
    ∀ c ∈ rest.head?, Text.isAsciiDigit c = false := by
  intro c hc
  rcases h c hc with rfl | rfl | rfl <;> decide

theorem ofDigitChars_cons (d : Char) (ds : List Char) (n : Nat) :
    Nat.ofDigitChars 10 (d :: ds) n = Nat.ofDigitChars 10 ds (n * 10 + (d.toNat - 48)) := by
  rw [Nat.ofDigitChars_cons, Nat.mul_comm]
  rfl

theorem le_ofDigitChars (ds : List Char) (n : Nat) : n ≤ Nat.ofDigitChars 10 ds n := by
  induction ds generalizing n with
  | nil => exact Nat.le_refl n
  | cons d ds ih =>
    rw [ofDigitChars_cons]
    exact Nat.le_trans (by omega) (ih _)

theorem takeDigits_of_lt {ds : List Char} {n count : Nat}
    (h : Nat.ofDigitChars 10 ds n < UInt64.size) :
    takeDigits ds n count = (Nat.ofDigitChars 10 ds n, count + ds.length, []) := by
  induction ds generalizing n count with
  | nil => rfl
  | cons d ds ih =>
    rw [ofDigitChars_cons] at h ⊢
    have hnext : n * 10 + (d.toNat - 48) < UInt64.size :=
      Nat.lt_of_le_of_lt (le_ofDigitChars ds _) h
    rw [takeDigits, if_pos hnext, ih h, List.length_cons, Nat.add_assoc, Nat.add_comm 1]

/-! ## Texts of numbers -/

/-- A sequence of digits. -/
def Digits (ds : List Char) : Prop :=
  ds ≠ [] ∧ ∀ c ∈ ds, Text.isAsciiDigit c = true

/-- What may stand behind the digits of a whole number. -/
inductive NumberTail : List Char → Prop
  | none : NumberTail []
  | fraction {ds : List Char} (h : Digits ds) : NumberTail ('.' :: ds)
  | exponent {sign : Char} {ds : List Char} (hsign : sign = '-' ∨ sign = '+') (h : Digits ds) :
      NumberTail ('e' :: sign :: ds)
  | both {ds : List Char} {sign : Char} {es : List Char} (h : Digits ds)
      (hsign : sign = '-' ∨ sign = '+') (hes : Digits es) :
      NumberTail ('.' :: (ds ++ 'e' :: sign :: es))

/-- Digits and what may stand behind them. -/
inductive Magnitude : List Char → Prop
  | mk {ds tail : List Char} (h : Digits ds) (htail : NumberTail tail) : Magnitude (ds ++ tail)

/-- A text of a number. -/
inductive NumberText : List Char → Prop
  | plain {cs : List Char} (h : Magnitude cs) : NumberText cs
  | minus {cs : List Char} (h : Magnitude cs) : NumberText ('-' :: cs)

variable {ds rest : List Char}

theorem spanDigits_digits (h : Digits ds) : Decimal.spanDigits ds = (ds, []) := by
  have hspan := Decimal.spanDigits_append h.2 Delimited.nil.not_digit
  rwa [List.append_nil] at hspan

theorem readExponent_append {sign : Char} (hsign : sign = '-' ∨ sign = '+') (h : Digits ds)
    (hrest : Delimited rest) (negative : Bool) (digits : Nat) (exponent : Int) :
    readExponent negative digits exponent (sign :: (ds ++ rest))
      = (readExponent negative digits exponent (sign :: ds)).map fun p => (p.1, rest) := by
  have hspan := Decimal.spanDigits_append h.2 hrest.not_digit
  have hself := spanDigits_digits h
  have hne : ds.isEmpty = false := List.isEmpty_eq_false_iff.2 h.1
  rcases hsign with rfl | rfl
  all_goals
    simp only [readExponent, Decimal.readSign, hspan, hself, hne, Bool.false_eq_true, if_false]
    split
    · split <;> rfl
    · generalize floatOfParts negative digits _ = value
      cases value <;> rfl

theorem isExponentMark_of_delimited (h : Delimited rest) :
    ∀ c ∈ rest.head?, isExponentMark c = false := by
  intro c hc
  rcases h c hc with rfl | rfl | rfl <;> decide

theorem readFraction_append {tail : List Char} (htail : NumberTail tail) (hrest : Delimited rest)
    (negative : Bool) (digits : Nat) (exponent : Int) (whole : Bool) :
    readFraction negative digits exponent whole (tail ++ rest)
      = (readFraction negative digits exponent whole tail).map fun p => (p.1, rest) := by
  cases htail with
  | none =>
    cases rest with
    | nil => cases whole <;> simp [readFraction, Function.comp_def]
    | cons c rest =>
      have hmark := isExponentMark_of_delimited hrest c rfl
      rcases hrest c rfl with rfl | rfl | rfl
      all_goals cases whole <;> simp [readFraction, readFraction.ofWhole, hmark, Function.comp_def]
  | fraction h =>
    have hspan := Decimal.spanDigits_append h.2 hrest.not_digit
    have hself := spanDigits_digits h
    have hne : List.isEmpty _ = false := List.isEmpty_eq_false_iff.2 h.1
    simp only [List.cons_append, readFraction, hspan, hself, hne]
    cases rest with
    | nil => simp [Function.comp_def]
    | cons c rest =>
      have hmark := isExponentMark_of_delimited hrest c rfl
      simp [hmark, Function.comp_def]
  | exponent hsign h =>
    simp only [List.cons_append, readFraction]
    exact readExponent_append hsign h hrest ..
  | both h hsign hes =>
    have hmark : isExponentMark 'e' = true := rfl
    have hspan : ∀ rest, Decimal.spanDigits (_ ++ 'e' :: rest) = (_, 'e' :: rest) := fun rest =>
      Decimal.spanDigits_append h.2 fun c hc => by cases hc; rfl
    have hne : List.isEmpty _ = false := List.isEmpty_eq_false_iff.2 h.1
    simp only [List.cons_append, List.append_assoc, readFraction, hspan, hne, hmark, if_true]
    exact readExponent_append hsign hes hrest ..

theorem NumberTail.not_digit {tail : List Char} (h : NumberTail tail) (hrest : Delimited rest) :
    ∀ c ∈ (tail ++ rest).head?, Text.isAsciiDigit c = false := by
  cases h with
  | none => exact hrest.not_digit
  | fraction | exponent | both =>
    intro c hc
    cases hc
    rfl

/-- Reads a number behind its sign. -/
def readMagnitude (negative : Bool) (cs : List Char) : Option (Json × List Char) :=
  let (ds, rest) := Decimal.spanDigits cs
  match ds with
  | [] => none
  | '0' :: _ :: _ => none
  | ds =>
    let (digits, _, dropped) := takeDigits ds 0 0
    readFraction negative digits dropped.length dropped.isEmpty rest

theorem readNumber_minus (cs : List Char) : readNumber ('-' :: cs) = readMagnitude true cs :=
  rfl

theorem readNumber_of_digits (h : Digits ds) (rest : List Char) :
    readNumber (ds ++ rest) = readMagnitude false (ds ++ rest) := by
  obtain ⟨hne, hds⟩ := h
  have hminus : ∀ cs, ds ++ rest ≠ '-' :: cs := by
    intro cs hcs
    cases ds with
    | nil => contradiction
    | cons d ds =>
      rw [(List.cons.inj hcs).1] at hds
      exact absurd (hds '-' List.mem_cons_self) (by decide)
  generalize ds ++ rest = cs at hminus ⊢
  unfold readNumber readMagnitude
  split
  · next heq =>
    split at heq
    · exact absurd rfl (hminus _)
    · obtain ⟨rfl, rfl⟩ := Prod.mk.inj heq
      rfl

theorem Magnitude.readMagnitude_append {cs : List Char} (h : Magnitude cs) (hrest : Delimited rest)
    (negative : Bool) :
    readMagnitude negative (cs ++ rest)
      = (readMagnitude negative cs).map fun p => (p.1, rest) := by
  obtain ⟨h, htail⟩ := h
  have hspan := Decimal.spanDigits_append h.2 (htail.not_digit hrest)
  have hself := Decimal.spanDigits_append h.2 (htail.not_digit .nil)
  rw [List.append_nil] at hself
  simp only [List.append_assoc, readMagnitude, hspan, hself]
  split
  · rfl
  · rfl
  · exact readFraction_append htail hrest ..

theorem Magnitude.readNumber_append {cs : List Char} (h : Magnitude cs) (rest : List Char) :
    readNumber (cs ++ rest) = readMagnitude false (cs ++ rest) := by
  obtain ⟨h, -⟩ := h
  rw [List.append_assoc, readNumber_of_digits h]

/-- The text of a number reads alike whatever stands behind the delimiter that follows it. -/
theorem NumberText.readNumber_append {cs : List Char} (h : NumberText cs) (hrest : Delimited rest) :
    readNumber (cs ++ rest) = (readNumber cs).map fun p => (p.1, rest) := by
  cases h with
  | plain h =>
    have hself := h.readNumber_append []
    rw [List.append_nil] at hself
    rw [h.readNumber_append, hself, h.readMagnitude_append hrest]
  | minus h =>
    rw [List.cons_append, readNumber_minus, readNumber_minus, h.readMagnitude_append hrest]

/-! ## Whole numbers -/

theorem digits_toDigits (n : Nat) : Digits (Nat.toDigits 10 n) :=
  ⟨Nat.toDigits_ne_nil, fun _ hc => Decimal.isAsciiDigit_of_mem_toDigits hc⟩

theorem toList_toString_ofNat (n : Nat) : (toString (n : Int)).toList = Nat.toDigits 10 n := by
  simp [toString, Int.repr, Nat.repr]

theorem toList_toString_neg {n : Nat} (h : n ≠ 0) :
    (toString (-n : Int)).toList = '-' :: Nat.toDigits 10 n := by
  cases n with
  | zero => contradiction
  | succ n =>
    show (Int.repr (Int.negSucc n)).toList = _
    simp [Int.repr, Nat.repr]

theorem numberText_toString (n : Int) : NumberText (toString n).toList := by
  have htext : ∀ n, NumberText (Nat.toDigits 10 n) ∧ NumberText ('-' :: Nat.toDigits 10 n) := by
    intro n
    have hmagnitude := Magnitude.mk (digits_toDigits n) .none
    rw [List.append_nil] at hmagnitude
    exact ⟨.plain hmagnitude, .minus hmagnitude⟩
  rcases Int.le_total 0 n with hn | hn
  · obtain ⟨n, rfl⟩ := Int.eq_ofNat_of_zero_le hn
    rw [toList_toString_ofNat]
    exact (htext n).1
  · obtain ⟨m, rfl⟩ := Int.exists_eq_neg_ofNat hn
    by_cases hm : m = 0
    · subst hm
      exact (htext 0).1
    · rw [toList_toString_neg hm]
      exact (htext m).2

theorem readMagnitude_toDigits {n : Nat} (h : n < UInt64.size) (negative : Bool) :
    readMagnitude negative (Nat.toDigits 10 n)
      = some (readFraction.wholeNumber negative n, []) := by
  have hvalue : Nat.ofDigitChars 10 (Nat.toDigits 10 n) 0 = n :=
    Nat.ofDigitChars_toDigits (by decide) (by decide)
  have htake : takeDigits (Nat.toDigits 10 n) 0 0 = _ := takeDigits_of_lt (by rwa [hvalue])
  rw [readMagnitude, spanDigits_digits (digits_toDigits n)]
  dsimp only
  split
  · next hnil => exact absurd hnil Nat.toDigits_ne_nil
  · next hzero => exact absurd hzero (Decimal.toDigits_ne_zero_cons n _ _)
  · rw [htake, hvalue]
    rfl

/-- Whole numbers of sixty-four bits read back. -/
theorem readNumber_toString {n : Int} (hlow : -(2 ^ 63) ≤ n) (hhigh : n < 2 ^ 64) :
    readNumber (toString n).toList = some (.int n, []) := by
  rcases Int.le_total 0 n with hn | hn
  · obtain ⟨n, rfl⟩ := Int.eq_ofNat_of_zero_le hn
    have hnat : n < UInt64.size := by
      have : UInt64.size = 2 ^ 64 := rfl
      omega
    have hread := readNumber_of_digits (digits_toDigits n) []
    rw [List.append_nil] at hread
    rw [toList_toString_ofNat, hread, readMagnitude_toDigits hnat]
    rfl
  · obtain ⟨m, rfl⟩ := Int.exists_eq_neg_ofNat hn
    by_cases hm : m = 0
    · subst hm
      rfl
    · have hnat : m < UInt64.size := by
        have : UInt64.size = 2 ^ 64 := rfl
        omega
      have hlow' : ¬ 1 <<< 63 < m := by
        have : 1 <<< 63 = 2 ^ 63 := rfl
        omega
      rw [toList_toString_neg hm, readNumber_minus, readMagnitude_toDigits hnat]
      simp only [readFraction.wholeNumber, hm, hlow', decide_false, Bool.or_self, Bool.not_true,
        Bool.false_eq_true, if_false]

/-! ## Doubles -/

theorem Digits.append_zeros (h : Digits ds) (n : Nat) : Digits (ds ++ List.replicate n '0') :=
  ⟨fun hnil => h.1 (List.append_eq_nil_iff.1 hnil).1, fun c hc => by
    rcases List.mem_append.1 hc with hc | hc
    · exact h.2 c hc
    · rw [(List.mem_replicate.1 hc).2]
      rfl⟩

theorem Digits.zeros_append (h : Digits ds) (n : Nat) : Digits (List.replicate n '0' ++ ds) :=
  ⟨fun hnil => h.1 (List.append_eq_nil_iff.1 hnil).2, fun c hc => by
    rcases List.mem_append.1 hc with hc | hc
    · rw [(List.mem_replicate.1 hc).2]
      rfl
    · exact h.2 c hc⟩

theorem Digits.take (h : Digits ds) {n : Nat} (hn : 0 < n) : Digits (ds.take n) :=
  ⟨fun hnil => (List.take_eq_nil_iff.1 hnil).elim (by omega) h.1,
    fun c hc => h.2 c (List.mem_of_mem_take hc)⟩

theorem Digits.drop (h : Digits ds) {n : Nat} (hn : n < ds.length) : Digits (ds.drop n) :=
  ⟨fun hnil => absurd (List.drop_eq_nil_iff.1 hnil) (by omega),
    fun c hc => h.2 c (List.mem_of_mem_drop hc)⟩

theorem digits_zero : Digits ['0'] :=
  ⟨nofun, fun c hc => by
    rw [List.mem_singleton.1 hc]
    rfl⟩

theorem toList_wholeSuffix : Decimal.Layout.json.wholeSuffix.toList = ['.', '0'] :=
  rfl

theorem magnitude_positional (h : Digits ds) (point : Int) :
    Magnitude (Decimal.positional ds point Decimal.Layout.json.wholeSuffix) := by
  unfold Decimal.positional
  dsimp only
  rw [toList_wholeSuffix]
  split
  · exact .mk digits_zero (.fraction (h.zeros_append _))
  · split
    · exact .mk (h.append_zeros _) (.fraction digits_zero)
    · exact .mk (h.take (by omega)) (.fraction (h.drop (by omega)))

theorem magnitude_scientific (h : Digits ds) (power : Int) :
    Magnitude (Decimal.scientific ds power) := by
  have hexponent : Digits (toString power.natAbs).toList := by
    simpa using digits_toDigits power.natAbs
  have hsign : (if power < 0 then '-' else '+') = '-' ∨ (if power < 0 then '-' else '+') = '+' := by
    split <;> simp
  unfold Decimal.scientific
  dsimp only
  split
  · rw [List.append_nil]
    exact .mk (h.take (by decide)) (.exponent hsign hexponent)
  · rw [List.append_assoc]
    exact .mk (h.take (by decide)) (.both (h.drop (by omega)) hsign hexponent)

/-- A double is written as a number, or as `null`. -/
theorem renderNumber_cases (x : Float) :
    renderNumber x = "null".toList ∨ NumberText (renderNumber x) := by
  have hsigned : ∀ {negative : Bool} {cs : List Char}, Magnitude cs →
      NumberText (String.ofList (if negative then '-' :: cs else cs)).toList := by
    intro negative cs h
    rw [String.toList_ofList]
    split
    · exact .minus h
    · exact .plain h
  have hdigits : ∀ n : Nat, Digits (toString n).toList := fun n => by simpa using digits_toDigits n
  unfold renderNumber Decimal.Layout.render
  dsimp only
  split
  · exact .inl rfl
  · exact .inl (congrArg String.toList (if_pos (beq_self_eq_true "null")))
  · rw [toList_wholeSuffix]
    exact .inr (hsigned (.mk digits_zero (.fraction digits_zero)))
  · refine .inr (hsigned ?_)
    split
    · exact magnitude_positional (hdigits _) _
    · exact magnitude_scientific (hdigits _) _

end Json

end Logbook
