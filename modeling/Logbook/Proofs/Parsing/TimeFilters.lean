import Logbook.Proofs.Parsing.FieldGroups
import Logbook.Proofs.Stream.Rendering
import Logbook.Proofs.Text.Blanks

set_option autoImplicit false

/-! # Filters of time as they are written

Behind the name of the time a comparison is read with a point in time and a value without an
operator as a duration that ends now. Which rows the filters accept is told by their times alone
(**`Query.parse_time_filter`**): a comparison is what it says, but for the two ends of the range,
where a strict comparison takes in the time that it compares with, since the bounds of a filter are
both included and no time is beyond the ends. -/

namespace Logbook

theorem Timestamp.toInt_clamp (n : Int) :
    (Timestamp.clamp n).toInt = max Int64.minValue.toInt (min Int64.maxValue.toInt n) := by
  have hmin : Int64.minValue.toInt = -(2 ^ 63) := rfl
  have hmax : Int64.maxValue.toInt = 2 ^ 63 - 1 := rfl
  have hsize : ((Int64.size : Nat) : Int) = 2 ^ 64 := rfl
  rw [clamp, Int64.toInt_ofInt]
  exact Int.bmod_eq_of_le_mul_two (by omega) (by omega)

/-! ## Which times are accepted -/

namespace CompareOp

/-- The operator as it is written. -/
def mark : CompareOp → List Char
  | .gt => ['>']
  | .gte => ['>', '=']
  | .lt => ['<']
  | .lte => ['<', '=']

/-- Whether a time compares with another as asked. -/
def Compares : CompareOp → (t bound : Timestamp) → Prop
  | .gt, t, bound => bound < t
  | .gte, t, bound => bound ≤ t
  | .lt, t, bound => t < bound
  | .lte, t, bound => t ≤ bound

instance (op : CompareOp) (t bound : Timestamp) : Decidable (op.Compares t bound) :=
  match op with
  | .gt => inferInstanceAs (Decidable (bound < t))
  | .gte => inferInstanceAs (Decidable (bound ≤ t))
  | .lt => inferInstanceAs (Decidable (t < bound))
  | .lte => inferInstanceAs (Decidable (t ≤ bound))

/-- The comparison is strict and with the last of all times in its direction. -/
def AtEnd : CompareOp → (bound : Timestamp) → Prop
  | .gt, bound => bound = Int64.maxValue
  | .lt, bound => bound = Int64.minValue
  | _, _ => False

instance (op : CompareOp) (bound : Timestamp) : Decidable (op.AtEnd bound) :=
  match op with
  | .gt => inferInstanceAs (Decidable (bound = Int64.maxValue))
  | .lt => inferInstanceAs (Decidable (bound = Int64.minValue))
  | .gte | .lte => inferInstanceAs (Decidable False)

end CompareOp

namespace Filter

theorem accepts_time_iff {lo hi : Timestamp} {row : QueryRow} :
    (Filter.time lo hi).accepts row = true ↔ ∃ t, row.timestamp = some t ∧ lo ≤ t ∧ t ≤ hi := by
  rw [accepts]
  cases row.timestamp <;> simp

end Filter

namespace QueryReader

/-- **What a comparison of times accepts.** -/
theorem accepts_timesCompared_iff {op : CompareOp} {bound : Timestamp} {row : QueryRow} :
    (timesCompared op bound).accepts row = true ↔
      ∃ t, row.timestamp = some t ∧ (op.Compares t bound ∨ t = bound ∧ op.AtEnd bound) := by
  have hmin : Int64.minValue.toInt = -(2 ^ 63) := rfl
  have hmax : Int64.maxValue.toInt = 2 ^ 63 - 1 := rfl
  have hlow := Int64.le_toInt bound
  have hhigh := Int64.toInt_lt bound
  cases op <;>
    simp only [timesCompared, Filter.accepts_time_iff, CompareOp.Compares, CompareOp.AtEnd] <;>
    refine exists_congr fun t => and_congr_right fun _ => ?_
  · have ht := Int64.toInt_lt t
    rw [and_iff_left (Int64.le_maxValue t), Int64.le_iff_toInt_le, Timestamp.toInt_clamp,
      Int64.lt_iff_toInt_lt, ← Int64.toInt_inj, ← Int64.toInt_inj]
    omega
  · simp [Int64.le_maxValue]
  · have ht := Int64.le_toInt t
    rw [and_iff_right (Int64.minValue_le t), Int64.le_iff_toInt_le, Timestamp.toInt_clamp,
      Int64.lt_iff_toInt_lt, ← Int64.toInt_inj, ← Int64.toInt_inj]
    omega
  · simp [Int64.minValue_le]

end QueryReader

/-! ## Texts of times and durations -/

namespace Time

theorem sumUnits_cons (fuel : Nat) (c : Char) (cs : List Char) (total : Float) :
    sumUnits (fuel + 1) (c :: cs) total = (do
      let (number, rest) := (c :: cs).span isNumberChar
      if number.isEmpty then none
      else
        let n ← Decimal.readUnsigned? false number
        let (unit, rest) := rest.span (!isNumberChar ·)
        let nanos ← unitNanos? unit
        sumUnits fuel rest (total + n * nanos)) := by
  rw [sumUnits]
  exact List.cons_ne_nil c cs

/-- Nothing that begins with an equals sign is a time. -/
theorem parse?_eq_none_of_equals {cs : List Char} (h : ∀ c ∈ cs, Text.isBlank c = false)
    (now : Timestamp) : parse? (String.ofList ('=' :: cs)) now = none := by
  have htrim : Text.trimChars ('=' :: cs) = '=' :: cs :=
    Text.trimChars_of_not_blank (List.forall_mem_cons.2 ⟨by decide, h⟩)
  have hdigits : ('=' :: cs).takeWhile Text.isAsciiDigit = [] :=
    List.takeWhile_cons_of_neg (by decide)
  have hspan : Decimal.spanDigits ('=' :: cs) = ([], '=' :: cs) := by
    rw [Decimal.spanDigits, List.span_eq_takeWhile_dropWhile, hdigits,
      List.dropWhile_cons_of_neg (by decide)]
  have hnumber : ∀ {least most}, 0 < least → takeNumber? least most ('=' :: cs) = none := by
    intro least most hleast
    rw [takeNumber?, hdigits, List.take_nil]
    exact if_pos hleast
  have hdate : takeDate? ('=' :: cs) = none := by
    have hyear : takeYear? ('=' :: cs) = none := by
      rw [takeYear?, List.dropWhile_cons_of_neg (by decide)]
      exact hnumber (by decide)
    rw [takeDate?, hyear]
    rfl
  have hoffset : readOffsetTime? ('=' :: cs) = none := by
    rw [readOffsetTime?, hnumber (by decide)]
    rfl
  have hdateTime : readDateTime? ('=' :: cs) = none := by
    rw [readDateTime?, hdate]
    rfl
  have hmidnight : readDate? ('=' :: cs) = none := by
    rw [readDate?, hdate]
    rfl
  have hlower : ∀ c word, c ≠ '=' → (Decimal.lower ('=' :: cs) == c :: word) = false := by
    intro c word hc
    rw [beq_eq_false_iff_ne, Decimal.lower, List.map_cons]
    exact fun h => hc (List.cons.inj h).1.symm
  have hseconds : Decimal.read? (String.ofList ('=' :: cs)) = none := by
    have hsign : Decimal.readSign ('=' :: cs) = (false, '=' :: cs) := rfl
    rw [Decimal.read?, String.toList_ofList, hsign]
    simp [Decimal.readUnsigned?, hspan, hlower]
  have hago : parseDuration? (String.ofList ('=' :: cs)) = none := by
    have hunits : sumUnits (cs.length + 1) ('=' :: cs) 0.0 = none := by
      rw [sumUnits_cons, List.span_eq_takeWhile_dropWhile, List.takeWhile_cons_of_neg (by decide)]
      rfl
    rw [parseDuration?, String.toList_ofList, htrim]
    simp [hunits]
  rw [parse?, String.toList_ofList, htrim]
  simp [-String.ofList_cons, hoffset, hdateTime, hmidnight, hseconds, withoutFront, hago]

end Time

/-! ## Values as they are written -/

namespace QueryReader

/-- What stands for a value in a query: its characters, if none of them ends words, or a quotation
    of them. -/
inductive Writes (text : String) : List Char → Prop
  | bare (h : ∀ c ∈ text.toList, endsWord false c = false) : Writes text text.toList
  | quoted (q : FilterText.Quotation) (h : String.ofList q.out = text) :
    Writes text (q.quote :: q.content)

variable {text : String} {written rest : List Char} {now : Timestamp}

/-- That a text does not end words, as a check of its characters. -/
theorem not_endsWord_of_all {cs : List Char} (h : cs.all (!endsWord false ·) = true) :
    ∀ c ∈ cs, endsWord false c = false := by
  intro c hc
  simpa using List.all_eq_true.1 h c hc

/-- Every value can be written. -/
theorem exists_writes (text : String) : ∃ written, Writes text written := by
  let q : FilterText.Quotation := {
    quote := '"'
    content := Stream.renderValue text ++ ['"']
    out := text.toList
    isQuote := by decide
    closes := by
      rw [List.length_append]
      exact quotedContent?_renderValue text [] }
  exact ⟨_, .quoted q String.ofList_toList⟩

theorem isBlank_of_endsWord {stopAtColon : Bool} {c : Char} (h : endsWord stopAtColon c = false) :
    Text.isBlank c = false := by
  simp only [endsWord, Bool.or_eq_false_iff] at h
  exact h.1.1

theorem isQuote_of_endsWord {stopAtColon : Bool} {c : Char} (h : endsWord stopAtColon c = false) :
    isQuote c = false := by
  rw [Bool.eq_false_iff]
  intro hquote
  simp only [isQuote, Bool.or_eq_true, decide_eq_true_eq] at hquote
  rcases hquote with (rfl | rfl) | rfl <;> simp [endsWord] at h

theorem afterBlanks_of_not_endsWord (h : ∀ c ∈ written, endsWord false c = false) :
    afterBlanks written = written := by
  cases written with
  | nil => rfl
  | cons c cs => exact afterBlanks_cons (isBlank_of_endsWord (h c List.mem_cons_self)) cs

theorem reads_bareWord_end (h : ∀ c ∈ written, endsWord false c = false) :
    Reads (bareWord false) written (String.ofList written) [] := by
  have hread := reads_bareWord false written
  have hnone : ([] : List Char).head?.all (endsWord false) = true := rfl
  obtain ⟨htake, hdrop⟩ := takeWhile_word h hnone
  rw [List.append_nil] at htake hdrop
  rwa [afterBlanks_of_not_endsWord h, htake, hdrop] at hread

theorem reads_peekQuote_bare (h : ∀ c ∈ written, endsWord false c = false) :
    Reads peekQuote written false written := by
  have hread := reads_peekQuote written
  rw [afterBlanks_of_not_endsWord h] at hread
  cases written with
  | nil => exact hread
  | cons c cs =>
    rwa [List.head?_cons, Option.any_some, isQuote_of_endsWord (h c List.mem_cons_self)] at hread

/-- A written value is read back. -/
theorem Writes.reads_value (h : Writes text written) : Reads (value false) written text [] := by
  cases h with
  | bare h =>
    refine .bind (reads_peekQuote_bare h) ?_
    have hread := reads_bareWord_end h
    rwa [String.ofList_toList] at hread
  | quoted q h =>
    rw [← List.append_nil (q.quote :: q.content)]
    refine .bind q.reads_peekQuote ?_
    rw [if_pos rfl, ← h]
    exact q.reads_quoted

/-! ## Comparisons -/

theorem reads_compareOp (op : CompareOp) (h : rest.head? ≠ some '=') :
    Reads compareOp (op.mark ++ rest) op rest := by
  have hbare := beq_false_of_ne h
  cases op
  case gt =>
    refine .bind (reads_peek? ('>' :: rest)) (.bind (reads_bump _ rest) (.bind (reads_peek? _) ?_))
    rw [hbare]
    exact .pure _ _
  case lt =>
    refine .bind (reads_peek? ('<' :: rest)) (.bind (reads_bump _ rest) (.bind (reads_peek? _) ?_))
    rw [hbare]
    exact .pure _ _
  all_goals
    exact .bind (reads_peek? _) (.bind (reads_bump _ _) (.bind (reads_peek? _)
      (.bind (reads_bump _ _) (.pure _ _))))

theorem reads_comparison (op : CompareOp) {bound : Timestamp} (hwrites : Writes text written)
    (hparse : Time.parse? text now = some bound) :
    Reads (comparison now timeName) (op.mark ++ written) (timesCompared op bound) [] := by
  have hequals : written.head? ≠ some '=' := by
    cases hwrites with
    | bare h =>
      intro hhead
      obtain ⟨cs, hcs⟩ := List.head?_eq_some_iff.1 hhead
      have hnone := Time.parse?_eq_none_of_equals
        (fun c hc => isBlank_of_endsWord (h c (hcs ▸ List.mem_cons_of_mem _ hc))) now
      rw [← hcs, String.ofList_toList, hparse] at hnone
      cases hnone
    | quoted q =>
      intro hhead
      have hquote := q.noMark.2
      rw [Option.some.inj hhead] at hquote
      exact hquote (by decide)
  refine .bind (reads_compareOp op hequals) (.get_bind fun _ => .bind hwrites.reads_value ?_)
  rw [if_pos rfl, hparse]
  exact .pure _ _

end QueryReader

/-! ## Durations -/

namespace Time

open QueryReader

theorem endsWord_of_isNumberChar {c : Char} (h : isNumberChar c = true) :
    endsWord false c = false := by
  simp only [isNumberChar, Text.isAsciiDigit, Bool.or_eq_true, Bool.and_eq_true,
    decide_eq_true_eq] at h
  obtain ⟨hlow, hhigh⟩ | rfl := h
  · have hlow : 48 ≤ c.toNat := hlow
    have hhigh : c.toNat ≤ 57 := hhigh
    exact endsWord_of_toNat (by omega) (by omega) (by omega) (by omega) false
  · decide

theorem endsWord_of_unitNanos? {unit : List Char} {nanos : Float}
    (h : unitNanos? unit = some nanos) : ∀ c ∈ unit, endsWord false c = false := by
  have hunit : ∀ {name : String}, String.ofList unit = name → unit = name.toList := by
    rintro _ rfl
    exact String.toList_ofList.symm
  rw [unitNanos?] at h
  split at h
  case h_11 => cases h
  all_goals
    next heq =>
      rw [hunit heq]
      exact not_endsWord_of_all (by decide)

/-- Numbers with units do not end words, and begin with a number. -/
theorem sumUnits_chars {fuel : Nat} {cs : List Char} {total sum : Float}
    (h : sumUnits fuel cs total = some sum) :
    (∀ c ∈ cs, endsWord false c = false) ∧ ∀ c ∈ cs.head?, isNumberChar c = true := by
  induction fuel generalizing cs total with
  | zero =>
    cases cs with
    | nil => exact ⟨nofun, nofun⟩
    | cons c cs => cases h
  | succ fuel ih =>
    cases cs with
    | nil => exact ⟨nofun, nofun⟩
    | cons c cs =>
      rw [sumUnits_cons, List.span_eq_takeWhile_dropWhile] at h
      dsimp only at h
      split at h
      · cases h
      next hnumber =>
      rw [List.span_eq_takeWhile_dropWhile] at h
      obtain ⟨n, -, h⟩ := Option.bind_eq_some_iff.1 h
      obtain ⟨nanos, hunit, h⟩ := Option.bind_eq_some_iff.1 h
      -- the text is a number, a unit and what is behind them
      constructor
      · rw [← List.takeWhile_append_dropWhile (p := isNumberChar) (l := c :: cs),
          ← List.takeWhile_append_dropWhile (p := (!isNumberChar ·))
            (l := (c :: cs).dropWhile isNumberChar)]
        refine List.forall_mem_append.2 ⟨fun d hd => ?_, List.forall_mem_append.2 ⟨?_, (ih h).1⟩⟩
        · exact endsWord_of_isNumberChar (List.mem_takeWhile_imp hd)
        · exact endsWord_of_unitNanos? hunit
      · intro d hd
        obtain rfl := Option.some.inj hd
        by_contra hc
        rw [List.takeWhile_cons_of_neg hc] at hnumber
        exact hnumber rfl

/-- The text of a duration is, but for blanks around it, numbers with units, or a minus and them. -/
theorem exists_sumUnits_of_parseDuration? {text : String} {d : Int64}
    (h : parseDuration? text = some d) :
    ∃ cs sum, sumUnits cs.length cs 0.0 = some sum ∧ cs ≠ [] ∧
      (Text.trimChars text.toList = cs ∨ Text.trimChars text.toList = '-' :: cs) := by
  rw [parseDuration?] at h
  dsimp only at h
  split at h <;> split at h
  case isTrue => cases h
  case isTrue => cases h
  next cs hminus hne =>
    obtain ⟨sum, hsum, -⟩ := Option.bind_eq_some_iff.1 h
    exact ⟨cs, sum, hsum, by simpa using hne, .inr hminus⟩
  next hne =>
    obtain ⟨sum, hsum, -⟩ := Option.bind_eq_some_iff.1 h
    exact ⟨_, sum, hsum, by simpa using hne, .inl rfl⟩

/-- The text of a duration but for blanks around it does not end words, and begins with no mark. -/
theorem parseDuration?_chars {text : String} {d : Int64} (h : parseDuration? text = some d) :
    (∀ c ∈ Text.trimChars text.toList, endsWord false c = false) ∧
      ∃ c cs, Text.trimChars text.toList = c :: cs ∧ c ∉ "=~><\x7b".toList := by
  obtain ⟨cs, sum, hsum, hne, htext⟩ := exists_sumUnits_of_parseDuration? h
  obtain ⟨hchars, hfirst⟩ := sumUnits_chars hsum
  obtain htext | htext := htext <;> rw [htext]
  · obtain ⟨c, cs, rfl⟩ := List.exists_cons_of_ne_nil hne
    refine ⟨hchars, c, cs, rfl, fun hmark => ?_⟩
    have hnumber := hfirst c rfl
    simp only [String.reduceToList, List.mem_cons, List.not_mem_nil, or_false] at hmark
    obtain rfl | rfl | rfl | rfl | rfl := hmark <;> exact absurd hnumber (by decide)
  · exact ⟨List.forall_mem_cons.2 ⟨by decide, hchars⟩, _, _, rfl, by decide⟩

/-- Blanks around it do not change a duration. -/
theorem parseDuration?_trimChars {text : String} {d : Int64} (h : parseDuration? text = some d) :
    parseDuration? (String.ofList (Text.trimChars text.toList)) = some d := by
  have hchars := (parseDuration?_chars h).1
  rw [parseDuration?, String.toList_ofList,
    Text.trimChars_of_not_blank fun c hc => isBlank_of_endsWord (hchars c hc)]
  exact h

end Time

namespace Text

/-- Blanks in front cut off, a text is the trimmed one and blanks. -/
theorem exists_dropWhile_eq_trimChars_append (cs : List Char) :
    ∃ gap : FilterText.Blanks, cs.dropWhile isBlank = trimChars cs ++ gap.chars := by
  have hsplit :=
    List.takeWhile_append_dropWhile (p := isBlank) (l := (cs.dropWhile isBlank).reverse)
  refine ⟨⟨((cs.dropWhile isBlank).reverse.takeWhile isBlank).reverse, fun c hc => ?_⟩, ?_⟩
  · exact List.mem_takeWhile_imp (List.mem_reverse.1 hc)
  · rw [trimChars, ← List.reverse_append, hsplit, List.reverse_reverse]

end Text

namespace QueryReader

variable {text : String} {now : Timestamp}

/-- A duration as the value of the time. -/
theorem reads_leafValue_duration {d : Int64} (hparse : Time.parseDuration? text = some d)
    (hpos : 0 < d) (gap : FilterText.Blanks) :
    Reads (leafValue now timeName) (Text.trimChars text.toList ++ gap.chars)
      (.time (Timestamp.clamp (now.toInt - d.toInt)) now) gap.chars := by
  obtain ⟨hchars, c, cs, hcons, hmark⟩ := Time.parseDuration?_chars hparse
  have hduration : positiveDuration? (String.ofList (Text.trimChars text.toList)) = some d := by
    rw [positiveDuration?, Time.parseDuration?_trimChars hparse]
    exact Option.filter_some_pos (by simpa using hpos)
  have hends : FilterText.EndsWord gap.chars := by
    rw [FilterText.EndsWord]
    cases hgap : gap.chars with
    | nil => rfl
    | cons c more => simp [endsWord, gap.blank c (hgap ▸ List.mem_cons_self)]
  have hparen : gap.chars.head? ≠ some '(' := by
    intro hhead
    exact absurd (gap.blank '(' (List.mem_of_mem_head? hhead)) (by decide)
  have hfront : afterBlanks (Text.trimChars text.toList ++ gap.chars)
      = Text.trimChars text.toList ++ gap.chars := by
    rw [hcons] at hchars ⊢
    exact afterBlanks_cons (isBlank_of_endsWord (hchars c List.mem_cons_self)) _
  have hpeek := reads_peekQuote (Text.trimChars text.toList ++ gap.chars)
  have hword := reads_bareWord false (Text.trimChars text.toList ++ gap.chars)
  obtain ⟨htake, hdrop⟩ := takeWhile_word hchars hends
  rw [hfront] at hpeek hword
  rw [htake, hdrop] at hword
  have hplain : Reads (plainValue now timeName) (Text.trimChars text.toList ++ gap.chars)
      (.time (Timestamp.clamp (now.toInt - d.toInt)) now) gap.chars := by
    refine .bind hpeek ?_
    rw [hcons] at hchars
    rw [hcons, List.cons_append, List.head?_cons, Option.any_some,
      isQuote_of_endsWord (hchars c List.mem_cons_self)]
    refine .get_bind fun _ => .bind (by rwa [hcons] at hword) (.bind (reads_peek? _) ?_)
    rw [if_neg fun h => hparen h.2, if_pos rfl, ← hcons, hduration]
    exact .pure _ _
  rw [hcons] at hchars hplain ⊢
  exact FilterText.reads_leafValue_plain (isBlank_of_endsWord (hchars c List.mem_cons_self)) hmark
    hplain

end QueryReader

/-! ## The text behind the name -/

namespace QueryReader

variable {text : String} {written : List Char} {now : Timestamp} {f : Filter}

/-- Blanks behind a filter do not matter. -/
theorem reads_orFilter_blanks {field : String} {cs : List Char} {fuel : Nat}
    (gap : FilterText.Blanks) (h : Reads (unaryFilter now (fuel + 1) field) cs f gap.chars) :
    Reads (orFilter now (fuel + 3) field) cs f [] := by
  have hend := gap.afterBlanks_chars
  have hrest : Reads (andRest now (fuel + 1) field) gap.chars [] (afterBlanks gap.chars) :=
    reads_andRest_end (by rw [hend]; exact endsConjuncts_nil)
  rw [hend] at hrest
  rw [orFilter]
  refine .bind ?_ (.bind (reads_orRest_nil (fuel + 1)) (.pure _ _))
  rw [andFilter]
  exact .bind h (.bind hrest (.pure _ _))

theorem parse_of_reads_leafValue (now : Timestamp) (hparen : written.head? ≠ some '(')
    (gap : FilterText.Blanks) (h : Reads (leafValue now timeName) written f gap.chars) :
    Query.parse (String.ofList (timeName.toList ++ ':' :: written)) now = .ok ⟨f, []⟩ := by
  have hname : FilterText.IsName timeName := ⟨by decide, by decide, by decide⟩
  have hopens := hname.opensAtom written
  refine FilterText.parse_of_opens (String.toList_ofList ▸ hopens.afterBlanks) hopens.toOpens ?_
  refine reads_orFilter_blanks gap (hopens.reads_unaryFilter ?_)
  exact reads_termFilter_field hname.isWord hparen h

theorem parse_comparison (op : CompareOp) {bound : Timestamp} (hwrites : Writes text written)
    (hparse : Time.parse? text now = some bound) :
    Query.parse (String.ofList (timeName.toList ++ ':' :: (op.mark ++ written))) now
      = .ok ⟨timesCompared op bound, []⟩ := by
  refine parse_of_reads_leafValue now ?_ ⟨[], nofun⟩ ?_
  · cases op <;> simp [CompareOp.mark]
  · have hread := reads_comparison op hwrites hparse
    cases op <;> exact .bind (reads_peek? _) hread

theorem parse_duration {d : Int64} (hparse : Time.parseDuration? text = some d) (hpos : 0 < d) :
    Query.parse (String.ofList (timeName.toList ++ ':' :: afterBlanks text.toList)) now
      = .ok ⟨.time (Timestamp.clamp (now.toInt - d.toInt)) now, []⟩ := by
  obtain ⟨hchars, c, cs, hcons, -⟩ := Time.parseDuration?_chars hparse
  obtain ⟨gap, hgap⟩ := Text.exists_dropWhile_eq_trimChars_append text.toList
  rw [afterBlanks, hgap]
  refine parse_of_reads_leafValue now ?_ gap (reads_leafValue_duration hparse hpos gap)
  rw [hcons] at hchars ⊢
  intro hparen
  obtain rfl := Option.some.inj hparen
  exact absurd (hchars '(' List.mem_cons_self) (by decide)

end QueryReader

open QueryReader

/-- **What filters of time accept.** Whatever text is read as a time, and however it is written, a
    comparison with it is read as a filter of the rows whose time compares with it as asked. The
    exceptions are the ends of the range: of the times that come after the last and of those that
    come before the first, of which there are none, the last and the first are accepted. A positive
    duration, blanks in front of which are no part of it, accepts the times from so long ago to the
    present. -/
theorem Query.parse_time_filter (now : Timestamp) :
    (∀ text written bound (op : CompareOp),
      Time.parse? text now = some bound → Writes text written → ∃ f,
        Query.parse (String.ofList (timeName.toList ++ ':' :: (op.mark ++ written))) now
          = .ok ⟨f, []⟩ ∧
        ∀ row, f.accepts row = true ↔
          ∃ t, row.timestamp = some t ∧ (op.Compares t bound ∨ t = bound ∧ op.AtEnd bound)) ∧
    (∀ text d, Time.parseDuration? text = some d → 0 < d → ∃ f,
        Query.parse (String.ofList (timeName.toList ++ ':' :: afterBlanks text.toList)) now
          = .ok ⟨f, []⟩ ∧
        ∀ row, f.accepts row = true ↔
          ∃ t, row.timestamp = some t ∧ now.toInt - d.toInt ≤ t.toInt ∧ t.toInt ≤ now.toInt) := by
  refine ⟨fun text written bound op hparse hwrites => ?_, fun text d hparse hpos => ?_⟩
  · exact ⟨_, parse_comparison op hwrites hparse, fun _ => accepts_timesCompared_iff⟩
  · refine ⟨_, parse_duration hparse hpos, fun row => Filter.accepts_time_iff.trans ?_⟩
    refine exists_congr fun t => and_congr_right fun _ => ?_
    have hmin : Int64.minValue.toInt = -(2 ^ 63) := rfl
    have hmax : Int64.maxValue.toInt = 2 ^ 63 - 1 := rfl
    have hd : 0 < d.toInt := Int64.lt_iff_toInt_lt.1 hpos
    have hnow := Int64.toInt_lt now
    have ht := Int64.le_toInt t
    rw [Int64.le_iff_toInt_le, Int64.le_iff_toInt_le, Timestamp.toInt_clamp]
    omega

/-- A comparison with the last time there is, and one with the time before. -/
theorem Query.parse_time_filter_at_end :
    Time.parse? "2262-04-11T23:47:16.854775807Z" 0 = some Int64.maxValue ∧
      Time.parse? "2262-04-11T23:47:16.854775806Z" 0 = some (Int64.maxValue - 1) ∧
      ∃ last before,
        Query.parse "_time:>2262-04-11T23:47:16.854775807Z" 0 = .ok ⟨last, []⟩ ∧
        Query.parse "_time:>2262-04-11T23:47:16.854775806Z" 0 = .ok ⟨before, []⟩ ∧
        last.accepts ⟨some Int64.maxValue, []⟩ = true ∧
        before.accepts ⟨some (Int64.maxValue - 1), []⟩ = false := by
  have hlast : Time.parse? "2262-04-11T23:47:16.854775807Z" 0 = some Int64.maxValue := by
    decide +kernel
  have hbefore : Time.parse? "2262-04-11T23:47:16.854775806Z" 0 = some (Int64.maxValue - 1) := by
    decide +kernel
  obtain ⟨last, hparse, haccepts⟩ :=
    (Query.parse_time_filter 0).1 _ _ _ .gt hlast (.bare (not_endsWord_of_all (by decide)))
  obtain ⟨before, hparse', haccepts'⟩ :=
    (Query.parse_time_filter 0).1 _ _ _ .gt hbefore (.bare (not_endsWord_of_all (by decide)))
  refine ⟨hlast, hbefore, last, before, hparse, hparse', ?_, ?_⟩
  · exact (haccepts _).2 ⟨_, rfl, .inr ⟨rfl, rfl⟩⟩
  · rw [Bool.eq_false_iff, Ne, haccepts']
    rintro ⟨t, ht, hcompares | ⟨-, hend⟩⟩
    · obtain rfl := Option.some.inj ht
      exact absurd hcompares (by decide)
    · exact absurd hend (by decide)

end Logbook
