import Mathlib.Algebra.Order.Group.Unbundled.Int
import Logbook.Query.Overflow

set_option autoImplicit false

/-! # Windows of time

Time is cut into windows at the multiples of a step. The window of a time begins at the last
multiple that is not after it. The multiple before the first of all times can be out of range: then
no time is the start of the window, a build with overflow checks stops at the row, and one without
puts it under a time long after its own (**`window_in_key_iff`**). -/

namespace Logbook

namespace StatsPipe

/-- A window of the step begins at `start` and the time lies in it. -/
structure InWindow (step t start : Int) : Prop where
  dvd : step ∣ start
  le : start ≤ t
  lt : t < start + step

/-- A time lies in one window. -/
theorem inWindow_iff {step t start : Int} (hstep : 0 < step) :
    InWindow step t start ↔ start = t / step * step := by
  have hdiv := Int.ediv_mul_add_emod t step
  have hlow := Int.emod_nonneg t hstep.ne'
  have hhigh := Int.emod_lt_of_pos t hstep
  constructor
  · rintro ⟨⟨k, rfl⟩, hle, hlt⟩
    have hk : t / step = k := by
      rw [Int.ediv_eq_iff_of_pos hstep, Int.mul_comm]
      exact ⟨hle, hlt⟩
    rw [hk, Int.mul_comm]
  · rintro rfl
    exact ⟨Int.dvd_mul_left .., by omega, by omega⟩

/-- A multiple that is out of range comes out as much later as there are times. -/
theorem toInt_windowStart {t step : Int64} (hstep : 0 < step) :
    (windowStart t step).toInt
      = if Int64.minValue.toInt ≤ t.toInt / step.toInt * step.toInt
        then t.toInt / step.toInt * step.toInt
        else t.toInt / step.toInt * step.toInt + 2 ^ 64 := by
  have hmin : Int64.minValue.toInt = -(2 ^ 63) := rfl
  have hpos : 0 < step.toInt := Int64.lt_iff_toInt_lt.1 hstep
  obtain ⟨-, hle, hlt⟩ := (inWindow_iff (t := t.toInt) hpos).2 rfl
  have hlow := Int64.le_toInt t
  have hhigh := Int64.toInt_lt t
  have hstep := Int64.toInt_lt step
  rw [windowStart, Int64.toInt_ofInt]
  generalize t.toInt / step.toInt * step.toInt = start at hle hlt
  have hsize : ((Int64.size : Nat) : Int) = 2 ^ 64 := rfl
  split
  · exact Int.bmod_eq_of_le_mul_two (by omega) (by omega)
  · rw [← Int.add_bmod_right]
    exact Int.bmod_eq_of_le_mul_two (by omega) (by omega)

/-- The window of a time that is a step after the first of all times, or later, is as it should
    be. -/
theorem inWindow_windowStart {t step : Int64} (hstep : 0 < step)
    (ht : Int64.minValue.toInt + step.toInt ≤ t.toInt) :
    InWindow step.toInt t.toInt (windowStart t step).toInt := by
  have hpos : 0 < step.toInt := Int64.lt_iff_toInt_lt.1 hstep
  obtain ⟨-, -, hlt⟩ := (inWindow_iff (t := t.toInt) hpos).2 rfl
  rw [inWindow_iff hpos, toInt_windowStart hstep, if_pos (by omega)]

/-- What a time is grouped by, if it is grouped by windows. -/
theorem keyOf_window {step : Int64} (hstep : 0 < step) {row : QueryRow} {t : Timestamp}
    (ht : row.timestamp = some t) :
    keyOf ⟨timeName, some step⟩ row = Time.render (windowStart t step) := by
  rw [keyOf]
  dsimp only
  rw [if_pos ⟨rfl, hstep⟩, ht]

/-! ## With overflow checks -/

/-- The window of a time begins at a time. -/
def StartsInRange (t : Timestamp) (step : Int64) : Prop :=
  Int64.minValue.toInt + t.toInt % step.toInt ≤ t.toInt

instance (t : Timestamp) (step : Int64) : Decidable (StartsInRange t step) :=
  inferInstanceAs (Decidable (_ ≤ _))

theorem windowStart?_eq {t step : Int64} (hstep : 0 < step) :
    windowStart? t step
      = if StartsInRange t step then .ok (windowStart t step) else .error .multiply := by
  have hpos : 0 < step.toInt := Int64.lt_iff_toInt_lt.1 hstep
  have hdiv := Int.ediv_mul_add_emod t.toInt step.toInt
  have hlow := Int.emod_nonneg t.toInt hpos.ne'
  have hhigh := Int64.toInt_le t
  have hmax : Int64.maxValue.toInt = 2 ^ 63 - 1 := rfl
  refine if_congr ?_ rfl rfl
  unfold StartsInRange
  omega

theorem window?_eq_some_iff {b : ByField} {row : QueryRow} {t : Timestamp} {step : Int64} :
    window? b row = some (t, step)
      ↔ b = ⟨timeName, some step⟩ ∧ 0 < step ∧ row.timestamp = some t := by
  obtain ⟨name, _ | step'⟩ := b
  · simp [window?]
  · obtain ⟨_ | t', fields⟩ := row
    · simp [window?]
    · simp only [window?, Option.bind_eq_bind, Option.bind_some, Option.ite_none_right_eq_some]
      constructor
      · rintro ⟨⟨rfl, hstep⟩, h⟩
        cases h
        exact ⟨rfl, hstep, rfl⟩
      · rintro ⟨h, hstep, ht⟩
        cases h
        cases ht
        exact ⟨⟨rfl, hstep⟩, rfl⟩

/-- Whether the window that a field puts a row in begins at a time, if it puts the row in one. -/
def inRange (b : ByField) (row : QueryRow) : Bool :=
  (window? b row).all fun (t, step) => decide (StartsInRange t step)

theorem keyOf?_eq (b : ByField) (row : QueryRow) :
    keyOf? b row = if inRange b row then .ok (keyOf b row) else .error .multiply := by
  unfold keyOf? inRange
  cases hwindow : window? b row with
  | none => rfl
  | some window =>
    obtain ⟨t, step⟩ := window
    obtain ⟨rfl, hstep, ht⟩ := window?_eq_some_iff.1 hwindow
    simp only [Option.all_some, decide_eq_true_eq, windowStart?_eq hstep, keyOf_window hstep ht]
    split <;> rfl

/-- A row has a group unless one of its windows begins before the first of all times. -/
theorem groupKey?_eq (pipe : StatsPipe) (row : QueryRow) :
    pipe.groupKey? row
      = if pipe.groupBy.all (inRange · row) then .ok (pipe.groupKey row)
        else .error .multiply := by
  unfold groupKey? groupKey
  induction pipe.groupBy with
  | nil => rfl
  | cons b bs ih =>
    rw [List.mapM_cons, ih, keyOf?_eq, List.all_cons]
    cases inRange b row <;> cases bs.all (inRange · row) <;> rfl

/-- A field of the pipe cuts time into windows. -/
structure Cuts (pipe : StatsPipe) (i : Nat) (step : Int64) : Prop where
  getElem? : pipe.groupBy[i]? = some ⟨timeName, some step⟩
  pos : 0 < step

theorem all_inRange_iff {pipe : StatsPipe} {row : QueryRow} {t : Timestamp}
    (ht : row.timestamp = some t) :
    pipe.groupBy.all (inRange · row) = true ↔ ∀ i step, pipe.Cuts i step → StartsInRange t step := by
  rw [List.all_eq_true]
  constructor
  · intro h i step hcuts
    have hrange := h _ (List.mem_of_getElem? hcuts.getElem?)
    rw [inRange, window?_eq_some_iff.2 ⟨rfl, hcuts.pos, ht⟩] at hrange
    simpa using hrange
  · intro h b hb
    unfold inRange
    cases hwindow : window? b row with
    | none => rfl
    | some window =>
      obtain ⟨t', step⟩ := window
      obtain ⟨rfl, hstep, ht'⟩ := window?_eq_some_iff.1 hwindow
      obtain ⟨i, hi⟩ := List.mem_iff_getElem?.1 hb
      obtain rfl : t = t' := Option.some.inj (ht.symm.trans ht')
      simpa using h i step ⟨hi, hstep⟩

/-! ## Windows in groups -/

/-- The window of a time in the group of its row. A start that is out of range wraps around. -/
theorem exists_start {pipe : StatsPipe} {i : Nat} {step : Int64} (hcuts : pipe.Cuts i step)
    {row : QueryRow} {t : Timestamp} (ht : row.timestamp = some t) :
    ∃ start : Timestamp, (pipe.groupKey row)[i]? = some (Time.render start) ∧
      (InWindow step.toInt t.toInt start.toInt ↔ StartsInRange t step) ∧
      (¬ StartsInRange t step →
        start.toInt = t.toInt - t.toInt % step.toInt + 2 ^ 64 ∧ t < start ∧
          ∀ other : Timestamp, ¬ InWindow step.toInt t.toInt other.toInt) := by
  obtain ⟨hby, hstep⟩ := hcuts
  have hpos : 0 < step.toInt := Int64.lt_iff_toInt_lt.1 hstep
  have hdiv := Int.ediv_mul_add_emod t.toInt step.toInt
  have hstart := toInt_windowStart (t := t) hstep
  have hlow := Int64.le_toInt t
  have hmin : Int64.minValue.toInt = -(2 ^ 63) := rfl
  unfold StartsInRange
  refine ⟨windowStart t step, ?_, ?_, fun hout => ⟨?_, ?_, fun other hother => ?_⟩⟩
  · rw [groupKey, List.getElem?_map, hby, Option.map_some, keyOf_window hstep ht]
  · rw [inWindow_iff hpos, hstart]
    split <;> omega
  · rw [hstart, if_neg (by omega)]
    omega
  · have hhigh := Int.emod_lt_of_pos t.toInt hpos
    have hbound := Int64.toInt_lt step
    rw [Int64.lt_iff_toInt_lt, hstart, if_neg (by omega)]
    omega
  · have hrange := Int64.le_toInt other
    rw [inWindow_iff hpos] at hother
    omega

/-- **Rows are grouped by the windows of their times just if the windows begin at times.** If they
    all do, a build with overflow checks gives the row its group, which has the start of each window.
    If one does not, no time is its start, and the build stops at the product; a build without
    checks puts the row under a time after its own. -/
theorem window_in_key_iff (pipe : StatsPipe) {row : QueryRow} {t : Timestamp}
    (ht : row.timestamp = some t) :
    ((∀ i step, pipe.Cuts i step → StartsInRange t step) ∧
        pipe.groupKey? row = .ok (pipe.groupKey row) ∨
      (∃ i step, pipe.Cuts i step ∧ ¬ StartsInRange t step) ∧
        pipe.groupKey? row = .error .multiply) ∧
    ∀ i step, pipe.Cuts i step →
      ∃ start : Timestamp, (pipe.groupKey row)[i]? = some (Time.render start) ∧
        (InWindow step.toInt t.toInt start.toInt ↔ StartsInRange t step) ∧
        (¬ StartsInRange t step →
          start.toInt = t.toInt - t.toInt % step.toInt + 2 ^ 64 ∧ t < start ∧
            ∀ other : Timestamp, ¬ InWindow step.toInt t.toInt other.toInt) := by
  refine ⟨?_, fun i step hcuts => exists_start hcuts ht⟩
  have hall : pipe.groupBy.all (inRange · row) = true
      ↔ ∀ i step, pipe.Cuts i step → StartsInRange t step := all_inRange_iff ht
  rw [groupKey?_eq]
  by_cases h : pipe.groupBy.all (inRange · row) = true
  · exact .inl ⟨hall.1 h, if_pos h⟩
  · refine .inr ⟨?_, if_neg h⟩
    rw [hall] at h
    push Not at h
    exact h

/-- Rows by windows of a minute, within an application. -/
def sampleMinutes : StatsPipe :=
  ⟨[⟨"app", none⟩, ⟨timeName, some 60000000000⟩], [⟨.count, [], "n"⟩]⟩

theorem sampleMinutes_cuts : sampleMinutes.Cuts 1 60000000000 :=
  ⟨rfl, by decide⟩

/-- The last nanosecond of 1969 lies in the minute before 1970. The minute of the first of all times
    has no start, and without overflow checks it comes under one at the other end. -/
theorem minutes_at_both_ends :
    (∃ key, sampleMinutes.groupKey? ⟨some (-1), []⟩ = .ok key ∧
        key[1]? = some "1969-12-31T23:59:00Z") ∧
      sampleMinutes.groupKey? ⟨some Int64.minValue, []⟩ = .error .multiply ∧
      (sampleMinutes.groupKey ⟨some Int64.minValue, []⟩)[1]?
        = some "2262-04-11T23:46:33.709551616Z" := by
  refine ⟨?_, ?_, ?_⟩
  · have ht : (⟨some (-1), []⟩ : QueryRow).timestamp = some (-1) := rfl
    obtain ⟨⟨-, hkey⟩ | ⟨-, hstops⟩, hwindows⟩ := window_in_key_iff sampleMinutes ht
    · obtain ⟨start, hpart, hexact, -⟩ := hwindows 1 _ sampleMinutes_cuts
      have hstart : start = -60000000000 :=
        Int64.toInt_inj.1 ((inWindow_iff (by decide)).1 (hexact.2 (by decide)))
      refine ⟨_, hkey, ?_⟩
      rw [hpart, hstart]
      decide +kernel
    · exact absurd hstops (by decide +kernel)
  · have ht : (⟨some Int64.minValue, []⟩ : QueryRow).timestamp = some Int64.minValue := rfl
    obtain ⟨⟨hall, -⟩ | ⟨-, hstops⟩, -⟩ := window_in_key_iff sampleMinutes ht
    · exact absurd (hall 1 _ sampleMinutes_cuts) (by decide)
    · exact hstops
  · have ht : (⟨some Int64.minValue, []⟩ : QueryRow).timestamp = some Int64.minValue := rfl
    obtain ⟨start, hpart, -, hwraps⟩ := (window_in_key_iff sampleMinutes ht).2 1 _ sampleMinutes_cuts
    have hstart : start = 9223371993709551616 := Int64.toInt_inj.1 (hwraps (by decide)).1
    rw [hpart, hstart]
    decide +kernel

end StatsPipe

end Logbook
