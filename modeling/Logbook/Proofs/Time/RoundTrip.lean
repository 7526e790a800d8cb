import Mathlib.Data.Nat.Digits.Defs
import Logbook.Proofs.Json.Numbers
import Logbook.Proofs.Text.Blanks
import Logbook.Proofs.Time.Calendar
import Logbook.Time.Instant

set_option autoImplicit false

/-! # Times that are written and read

The text of a time is read as the time (**`Time.parse?_render`**): its parts have fixed widths, the
calendar has its day, and its fraction has as many digits as it needs. -/

namespace Logbook

namespace Time

/-! ## Numbers of fixed width -/

theorem isAsciiDigit_of_mem_padded {width n : Nat} {c : Char} (h : c ∈ padded width n) :
    Text.isAsciiDigit c = true := by
  rcases List.mem_append.1 h with hzero | hdigit
  · rw [List.eq_of_mem_replicate hzero]
    rfl
  · exact Decimal.isAsciiDigit_of_mem_toDigits hdigit

theorem length_padded {width n : Nat} (hwidth : 0 < width) (hn : n < 10 ^ width) :
    (padded width n).length = width := by
  have hlength := Nat.toDigits_length 10 n width hwidth hn
  rw [padded, List.length_append, List.length_replicate]
  omega

theorem digitsValue_padded (width n : Nat) : Decimal.digitsValue (padded width n) = n := by
  rw [Decimal.digitsValue_eq, padded, Nat.ofDigitChars_append, Nat.ofDigitChars_replicate_zero,
    Nat.mul_zero, Nat.ofDigitChars_toDigits (by decide) (by decide)]

/-- A number of fixed width is read, whatever follows. -/
theorem takeNumber?_padded {width n : Nat} (hwidth : 0 < width) (hn : n < 10 ^ width)
    (rest : List Char) :
    takeNumber? width width (padded width n ++ rest) = some ((n : Int), rest) := by
  have htake : ((padded width n ++ rest).takeWhile Text.isAsciiDigit).take width
      = padded width n := by
    rw [List.takeWhile_append_of_pos fun c hc => isAsciiDigit_of_mem_padded hc]
    exact List.take_left' (length_padded hwidth hn)
  simp only [takeNumber?]
  rw [htake, length_padded hwidth hn, if_neg (Nat.lt_irrefl width),
    List.drop_left' (length_padded hwidth hn), digitsValue_padded]

/-! ## Fractions -/

theorem takeNanos?_padded {width n : Nat} (hwidth : 0 < width) (hnine : width ≤ 9)
    (hn : n < 10 ^ width) :
    takeNanos? (padded width n ++ ['Z']) = some ((n : Int) * 10 ^ (9 - width), ['Z']) := by
  have hdigits : ∀ c ∈ padded width n, Text.isAsciiDigit c = true :=
    fun c hc => isAsciiDigit_of_mem_padded hc
  have hlength := length_padded hwidth hn
  have hne : (padded width n).isEmpty = false := by
    rw [List.isEmpty_eq_false_iff, ← List.length_pos_iff]
    omega
  simp only [takeNanos?]
  rw [List.takeWhile_append_of_pos hdigits, List.dropWhile_append_of_pos hdigits,
    List.takeWhile_cons_of_neg (by decide), List.dropWhile_cons_of_neg (by decide),
    List.append_nil, hne, List.take_of_length_le (by omega), hlength, digitsValue_padded]
  simp

theorem takeFraction?_renderFraction {nano : Nat} (h : nano < 1000000000) :
    takeFraction? (renderFraction nano ++ ['Z']) = some ((nano : Int), ['Z']) := by
  have hpoint : ∀ {width n : Nat}, 0 < width → width ≤ 9 → n < 10 ^ width →
      (n : Int) * 10 ^ (9 - width) = nano →
        takeFraction? ('.' :: padded width n ++ ['Z']) = some ((nano : Int), ['Z']) := by
    intro width n hwidth hnine hn hvalue
    rw [List.cons_append, takeFraction?, takeNanos?_padded hwidth hnine hn, hvalue]
  unfold renderFraction
  split
  · next hzero =>
    subst hzero
    rfl
  split
  · exact hpoint (by decide) (by decide) (by omega) (by omega)
  split
  · exact hpoint (by decide) (by decide) (by omega) (by omega)
  · exact hpoint (by decide) (by decide) h (by omega)

/-! ## Times -/

/-- The parts of a time of day. -/
def clockOf (nanos : Nat) : Clock :=
  ⟨(nanos / 1000000000 / 3600 : Nat), (nanos / 1000000000 / 60 % 60 : Nat),
    (nanos / 1000000000 % 60 : Nat), (nanos % 1000000000 : Nat)⟩

theorem isValid_clockOf {nanos : Nat} (h : nanos < 86400000000000) :
    (clockOf nanos).isValid = true := by
  simp only [Clock.isValid, Bool.and_eq_true, decide_eq_true_eq]
  simp only [clockOf]
  omega

theorem toNanos_clockOf (nanos : Nat) : (clockOf nanos).toNanos = nanos := by
  simp only [clockOf, Clock.toNanos]
  omega

theorem takeChar?_cons (c : Char) (cs : List Char) : takeChar? c (c :: cs) = some cs :=
  if_pos rfl

theorem bind_of_eq_some {α β : Type} {x : Option α} {a : α} {f : α → Option β} (h : x = some a) :
    x >>= f = f a := by
  rw [h]
  rfl

/-- A date and a clock of fixed widths are read as they are. -/
theorem readOffsetTime?_padded {year month day hour minute second nano : Nat}
    (hyear : year < 10000) (hmonth : month < 100) (hday : day < 100) (hhour : hour < 100)
    (hminute : minute < 100) (hsecond : second < 100) (hnano : nano < 1000000000) :
    readOffsetTime? (padded 4 year ++ '-' :: padded 2 month ++ '-' :: padded 2 day
        ++ 'T' :: padded 2 hour ++ ':' :: padded 2 minute
        ++ ':' :: padded 2 second ++ renderFraction nano ++ ['Z'])
      = ofParts? ⟨year, month, day⟩ ⟨hour, minute, second, nano⟩ 0 := by
  have htwo : ∀ {n : Nat} (rest : List Char), n < 100 →
      takeNumber? 2 2 (padded 2 n ++ rest) = some ((n : Int), rest) :=
    fun rest hn => takeNumber?_padded (by decide) hn rest
  simp only [List.append_assoc, List.cons_append]
  refine (bind_of_eq_some (takeNumber?_padded (by decide) hyear _)).trans ?_
  refine (bind_of_eq_some (takeChar?_cons '-' _)).trans ?_
  refine (bind_of_eq_some (htwo _ hmonth)).trans ?_
  refine (bind_of_eq_some (takeChar?_cons '-' _)).trans ?_
  refine (bind_of_eq_some (htwo _ hday)).trans ?_
  refine (if_pos (.inl rfl)).trans ?_
  refine (bind_of_eq_some rfl).trans ?_
  refine (bind_of_eq_some (htwo _ hhour)).trans ?_
  refine (bind_of_eq_some (takeChar?_cons ':' _)).trans ?_
  refine (bind_of_eq_some (htwo _ hminute)).trans ?_
  refine (bind_of_eq_some (takeChar?_cons ':' _)).trans ?_
  refine (bind_of_eq_some (htwo _ hsecond)).trans ?_
  exact (bind_of_eq_some (takeFraction?_renderFraction hnano)).trans rfl

/-- The text of a time is made of digits, capital letters and the marks near them. -/
theorem toNat_of_mem_render {t : Timestamp} {c : Char} (h : c ∈ (render t).toList) :
    45 ≤ c.toNat ∧ c.toNat ≤ 90 := by
  have hpadded : ∀ width n, ∀ c ∈ padded width n, 45 ≤ c.toNat ∧ c.toNat ≤ 90 := by
    intro width n c hc
    have hdigit := isAsciiDigit_of_mem_padded hc
    rw [Text.isAsciiDigit, Bool.and_eq_true, decide_eq_true_eq, decide_eq_true_eq] at hdigit
    have hlow : 48 ≤ c.toNat := hdigit.1
    have hhigh : c.toNat ≤ 57 := hdigit.2
    omega
  have hfraction : ∀ nano, ∀ c ∈ renderFraction nano, 45 ≤ c.toNat ∧ c.toNat ≤ 90 := by
    intro nano
    unfold renderFraction
    split
    · exact List.forall_mem_nil _
    split
    · exact List.forall_mem_cons.2 ⟨by decide, hpadded _ _⟩
    split <;> exact List.forall_mem_cons.2 ⟨by decide, hpadded _ _⟩
  revert c
  rw [render, String.toList_ofList]
  simp only [List.forall_mem_append, List.forall_mem_cons]
  refine ⟨⟨⟨⟨⟨⟨⟨hpadded _ _, ?_, hpadded _ _⟩, ?_, hpadded _ _⟩, ?_, hpadded _ _⟩, ?_,
    hpadded _ _⟩, ?_, hpadded _ _⟩, hfraction _⟩, ?_, List.forall_mem_nil _⟩ <;> decide

/-- The text of a time is a date and a clock of the calendar. -/
theorem readOffsetTime?_render (t : Timestamp) :
    readOffsetTime? (render t).toList = some t.toInt := by
  have hmin : Int64.minValue.toInt = -(2 ^ 63) := rfl
  have hmax : Int64.maxValue.toInt = 2 ^ 63 - 1 := rfl
  have hperDay : nanosPerDay = 86400000000000 := rfl
  have hlow := Int64.le_toInt t
  have hhigh := Int64.toInt_lt t
  rw [render, String.toList_ofList, hperDay]
  generalize hdays : t.toInt / 86400000000000 = days
  generalize hnanos : (t.toInt - days * 86400000000000).toNat = nanos
  have hday : nanos < 86400000000000 := by omega
  have hsum : days * 86400000000000 + nanos = t.toInt := by omega
  have hvalid := Date.isValid_ofDays days
  have hfirst : -719468 ≤ days := by omega
  obtain ⟨hyear, hyears⟩ := Date.year_ofDays_bounds hfirst (by omega)
  obtain ⟨hmonth, hmonths, hdate, hdates⟩ := Date.bounds_of_isValid hvalid
  have hdate : (⟨((Date.ofDays days).year.toNat : Nat), ((Date.ofDays days).month.toNat : Nat),
      ((Date.ofDays days).day.toNat : Nat)⟩ : Date) = Date.ofDays days := by
    rw [Int.toNat_of_nonneg hyear, Int.toNat_of_nonneg (by omega), Int.toNat_of_nonneg (by omega)]
  rw [readOffsetTime?_padded (by omega) (by omega) (by omega) (by omega) (by omega) (by omega)
    (by omega), hdate]
  have hclock := isValid_clockOf hday
  have hnanos := toNanos_clockOf nanos
  rw [clockOf] at hclock hnanos
  rw [ofParts?, hvalid, hclock, hnanos, Date.toDays_ofDays]
  simp [hperDay, hsum]

/-- **The text of a time is read as the time**, whatever the present is. -/
theorem parse?_render (t now : Timestamp) : parse? (render t) now = some t := by
  have htrim : Text.trimChars (render t).toList = (render t).toList :=
    Text.trimChars_of_not_blank fun c hc => by
      obtain ⟨hlow, hhigh⟩ := toNat_of_mem_render hc
      exact Text.isBlank_of_toNat (by omega) (by omega)
  have hread := readOffsetTime?_render t
  have hne : (render t).toList ≠ [] := by
    intro hnil
    rw [hnil] at hread
    cases hread
  have hnow : (render t).toList ≠ "now".toList := by
    intro heq
    have hn : 'n' ∈ (render t).toList := by
      rw [heq]
      decide
    exact absurd (toNat_of_mem_render hn).2 (by decide)
  rw [parse?, htrim, if_neg (by simpa using hne), if_neg (by simpa using hnow), hread]
  dsimp only
  rw [ofInt?, if_pos ⟨Int64.minValue_le_toInt t, Int64.toInt_le t⟩, Int64.ofInt_toInt]

end Time

end Logbook
