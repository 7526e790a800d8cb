import Logbook.Proofs.Codec.Varint

set_option autoImplicit false

/-! # Cut payloads

A payload that ends inside a row is refused as cut short, and for no other reason. Each reader of
the codec finds every strict beginning of what it reads too short (`RowCodec.CutShort`); a reader
that goes on where another one ended inherits this from both (`RowCodec.CutShort.bind`), so that it
is shown for the numbers and the bytes a row is made of and put together for texts, fields and rows
as they are. The error names the row in which the payload ends and a place in what there is of that
row (`RowCodec.decodeAll_cut`). -/

namespace Logbook.RowCodec

/-! ## Readers that find bytes missing -/

/-- A row is refused because the bytes end too early, at a place between the cursor and their
    end. -/
def EndsEarly {α : Type} (row : Nat) (c : Cursor) (result : Except Error α) : Prop :=
  ∃ offset part, result = .error (.truncated offset row part) ∧
    c.offset ≤ offset ∧ offset ≤ c.offset + c.rest.length

/-- A reader finds every strict beginning of these bytes too short. -/
def CutShort {α : Type} (row : Nat) (read : Cursor → Except Error α) (bytes : Bytes) : Prop :=
  ∀ cut lost offset, cut ++ lost = bytes → lost ≠ [] →
    EndsEarly row ⟨cut, offset⟩ (read ⟨cut, offset⟩)

/-- A strict beginning of two byte strings ends within the first of them or behind it. -/
theorem strict_prefix_append {a b cut lost : Bytes} (h : cut ++ lost = a ++ b) (hlost : lost ≠ []) :
    (∃ missing, cut ++ missing = a ∧ missing ≠ []) ∨
      ∃ more, cut = a ++ more ∧ more ++ lost = b := by
  rcases List.append_eq_append_iff.1 h with ⟨missing, rfl, rfl⟩ | ⟨more, rfl, rfl⟩
  · by_cases hmissing : missing = []
    · subst hmissing
      exact .inr ⟨[], by simp⟩
    · exact .inl ⟨missing, rfl, hmissing⟩
  · exact .inr ⟨more, rfl, rfl⟩

section

variable {α β : Type} {row : Nat}

/-- What would be done after a reader does not matter if bytes are missing. -/
theorem CutShort.andThen {first : Cursor → Except Error α} {a : Bytes} (h : CutShort row first a)
    (next : Cursor → α → Except Error β) : CutShort row (fun c => first c >>= next c) a := by
  intro cut lost offset hcut hlost
  obtain ⟨found, part, herror, hbounds⟩ := h cut lost offset hcut hlost
  exact ⟨found, part, congrArg (· >>= next ⟨cut, offset⟩) herror, hbounds⟩

/-- A reader that goes on where another one ended finds what either of them finds. -/
theorem CutShort.bind {first : Cursor → Except Error (α × Cursor)} {a b : Bytes} {x : α}
    {next : α × Cursor → Except Error β} (hfirst : CutShort row first a)
    (hread : ∀ offset rest, first ⟨a ++ rest, offset⟩ = .ok (x, ⟨rest, offset + a.length⟩))
    (hnext : CutShort row (fun c => next (x, c)) b) :
    CutShort row (fun c => first c >>= next) (a ++ b) := by
  intro cut lost offset hcut hlost
  rcases strict_prefix_append hcut hlost with ⟨missing, ha, hmissing⟩ | ⟨more, rfl, hb⟩
  · exact hfirst.andThen (fun _ => next) cut missing offset ha hmissing
  · obtain ⟨found, part, herror, hle, hge⟩ := hnext more lost (offset + a.length) hb hlost
    refine ⟨found, part, ?_, ?_, ?_⟩
    · exact (congrArg (· >>= next) (hread offset more)).trans herror
    · exact Nat.le_trans (Nat.le_add_right offset a.length) hle
    · rwa [List.length_append, ← Nat.add_assoc]

end

/-! ## The parts of a row -/

theorem cutShort_readVarint {n : Nat} (row : Nat) (h : n < 2 ^ 64) :
    CutShort row (readVarint row) (Varint.encode n) := by
  intro cut lost offset hcut hlost
  have hwhole := Varint.whole_encode n
  have hunfinished := (hcut ▸ hwhole : Varint.Whole (cut ++ lost)).unfinished_of_append hlost
  have hlen : cut.length ≤ 10 := by
    have hle := Varint.length_encode_le_ten h
    rw [← hcut, List.length_append] at hle
    omega
  refine ⟨offset + cut.length, .varint, ?_, Nat.le_add_right _ _, Nat.le_refl _⟩
  rw [readVarint, Varint.read_unfinished hunfinished, if_pos hlen]

theorem cutShort_take (row : Nat) (part : Part) (b : Bytes) :
    CutShort row (take row b.length part) b := by
  intro cut lost offset hcut hlost
  have hpos := List.length_pos_iff.2 hlost
  have hlen := congrArg List.length hcut
  rw [List.length_append] at hlen
  exact ⟨offset, part, if_neg (by simp only; omega), Nat.le_refl _, Nat.le_add_right _ _⟩

theorem cutShort_readText {s : String} (row : Nat) (part : Part) (h : s.utf8ByteSize < 2 ^ 64) :
    CutShort row (readText row part) (Stream.lengthPrefixed s) :=
  (cutShort_readVarint row h).bind (readVarint_encode row · · h)
    ((cutShort_take row part (Bytes.ofString s)).andThen _)

theorem cutShort_readField {f : Field} (row : Nat) (h : FieldFits f) :
    CutShort row (readField row) (encodeField f) :=
  (cutShort_readText row .fieldName h.1).bind (readText_lengthPrefixed row · _ · h.1)
    ((cutShort_readText row .fieldValue h.2).andThen _)

theorem cutShort_readFields {fs : List Field} (row : Nat) (h : ∀ f ∈ fs, FieldFits f) :
    CutShort row (readFields row fs.length) (fs.flatMap encodeField) := by
  induction fs with
  | nil =>
    intro cut lost _ hcut hlost
    exact absurd (List.append_eq_nil_iff.1 hcut).2 hlost
  | cons f fs ih =>
    have hf := h f List.mem_cons_self
    exact (cutShort_readField row hf).bind (readField_encodeField row · · hf)
      ((ih fun g hg => h g (List.mem_cons_of_mem f hg)).andThen _)

/-! ## Rows -/

theorem cutShort_readRow {row : DecodedRow} (number : Nat) (h : Fits row) :
    CutShort number (readRow number) (encode row) := by
  have hle : row.streamFields.length ≤ row.fields.length := by
    simp [DecodedRow.fields]
  have hstream : row.streamFields.length < 2 ^ 64 := Nat.lt_of_le_of_lt hle h.count
  have htime := cutShort_take number .timestamp (encodeTimestamp (row.timestamp.getD 0))
  rw [length_encodeTimestamp] at htime
  rw [encode, List.append_assoc, List.append_assoc]
  refine (cutShort_readVarint number hstream).bind (readVarint_encode number · · hstream)
    ((cutShort_readVarint number h.count).bind (readVarint_encode number · · h.count) ?_)
  -- both numbers are whole here, and the first is not the greater one
  simp only [if_neg (Nat.not_lt.2 hle)]
  exact (cutShort_readFields number h.field).bind (readFields_encode number · · h.field)
    (htime.andThen _)

/-! ## Payloads -/

theorem readRows_of_readRow_eq_error {number : Nat} {c : Cursor} {e : Error} (hne : c.rest ≠ [])
    (h : readRow number c = .error e) : readRows number c = .error e := by
  rw [readRows, if_neg hne]
  split
  · next e' he =>
    rw [h] at he
    cases he
    rfl
  · next r d he =>
    rw [h] at he
    contradiction

/-- Rows in front of the one that is cut only move the place at which it is refused. -/
theorem endsEarly_readRows {kept : List DecodedRow} {next : DecodedRow} {part missing : Bytes}
    (hkept : ∀ row ∈ kept, Fits row) (hnext : Fits next) (hcut : part ++ missing = encode next)
    (hmissing : missing ≠ []) (hpart : part ≠ []) (number offset : Nat) :
    EndsEarly (number + kept.length) ⟨part, offset + (encodeAll kept).length⟩
      (readRows number ⟨encodeAll kept ++ part, offset⟩) := by
  induction kept generalizing number offset with
  | nil =>
    obtain ⟨found, what, herror, hbounds⟩ :=
      cutShort_readRow number hnext part missing offset hcut hmissing
    exact ⟨found, what, readRows_of_readRow_eq_error hpart herror, hbounds⟩
  | cons row kept ih =>
    have hfits := hkept row List.mem_cons_self
    have hrow := readRow_encode number offset (encodeAll kept ++ part) hfits
    obtain ⟨found, what, herror, hbounds⟩ := ih (fun r hr => hkept r (List.mem_cons_of_mem row hr))
      (number + 1) (offset + (encode row).length)
    have hnumber : number + (row :: kept).length = number + 1 + kept.length := by
      rw [List.length_cons]
      omega
    rw [hnumber, encodeAll_cons, List.append_assoc, readRows_of_readRow hrow, herror,
      List.length_append, ← Nat.add_assoc]
    exact ⟨found, what, rfl, hbounds⟩

theorem encodeAll_mono {kept rows : List DecodedRow} (h : kept <+: rows) :
    encodeAll kept <+: encodeAll rows := by
  obtain ⟨later, rfl⟩ := h
  rw [encodeAll, encodeAll, List.flatMap_append]
  exact List.prefix_append _ _

/-- A beginning of a payload is some of its rows, and a strict beginning of the next one if there
    are bytes left. -/
theorem exists_rows_of_cut {rows : List DecodedRow} {cut : Bytes} (h : cut <+: encodeAll rows) :
    (∃ kept, kept <+: rows ∧ cut = encodeAll kept) ∨
      ∃ kept next part missing, kept ++ [next] <+: rows ∧ cut = encodeAll kept ++ part ∧
        part ++ missing = encode next ∧ missing ≠ [] ∧ part ≠ [] := by
  induction rows generalizing cut with
  | nil => exact .inl ⟨[], List.prefix_rfl, List.prefix_nil.1 h⟩
  | cons row rows ih =>
    obtain ⟨lost, hlost⟩ := h
    by_cases hempty : cut = []
    · exact .inl ⟨[], List.nil_prefix, hempty⟩
    by_cases hall : lost = []
    · rw [hall, List.append_nil] at hlost
      exact .inl ⟨row :: rows, List.prefix_rfl, hlost⟩
    rw [encodeAll_cons] at hlost
    rcases strict_prefix_append hlost hall with ⟨missing, hrow, hmissing⟩ | ⟨more, rfl, hmore⟩
    · exact .inr ⟨[], row, cut, missing, ⟨rows, rfl⟩, rfl, hrow, hmissing, hempty⟩
    · rcases ih ⟨lost, hmore⟩ with
        ⟨kept, hkept, rfl⟩ | ⟨kept, next, part, missing, hkept, rfl, hnext⟩
      · exact .inl ⟨row :: kept, (List.prefix_cons_inj row).2 hkept, rfl⟩
      · have hkept := (List.prefix_cons_inj row).2 hkept
        refine .inr ⟨row :: kept, next, part, missing, hkept, ?_, hnext⟩
        rw [encodeAll_cons, List.append_assoc]

/-- **A cut payload is refused at the row in which it was cut.** A beginning of a payload that ends
    where a row does is read as the rows up to there, except that a time of zero is lost. Any other
    beginning is refused as cut short. The error names the number of the rows that are whole, which
    is the number of the row that is cut, and a place between the start of that row and the end of
    the bytes. -/
theorem decodeAll_cut {rows : List DecodedRow} {cut : Bytes}
    (hrows : ∀ row ∈ rows, Fits row) (hcut : cut <+: encodeAll rows) :
    (∀ kept, kept <+: rows → cut = encodeAll kept →
      decodeAll cut = .ok (kept.map fun row =>
        if row.timestamp = some 0 then { row with timestamp := none } else row)) ∧
    ((∀ kept, kept <+: rows → cut ≠ encodeAll kept) →
      ∃ kept next offset part, kept ++ [next] <+: rows ∧ encodeAll kept <+: cut ∧
        ¬ encodeAll (kept ++ [next]) <+: cut ∧
        decodeAll cut = .error (.truncated offset kept.length part) ∧
        (encodeAll kept).length ≤ offset ∧ offset ≤ cut.length) := by
  constructor
  · rintro kept hkept rfl
    rw [← funext asRead_eq]
    exact readRows_encodeAll 0 0 fun row hrow => hrows row (hkept.subset hrow)
  · intro hinside
    rcases exists_rows_of_cut hcut with
      ⟨kept, hkept, heq⟩ | ⟨kept, next, part, missing, hkept, rfl, hnext, hmissing, hpart⟩
    · exact absurd heq (hinside kept hkept)
    have hfits : ∀ row ∈ kept ++ [next], Fits row := fun row hrow => hrows row (hkept.subset hrow)
    obtain ⟨offset, what, herror, hle, hge⟩ := endsEarly_readRows
      (fun row hrow => hfits row (List.mem_append_left _ hrow))
      (hfits next (List.mem_append_right _ (List.mem_singleton_self next)))
      hnext hmissing hpart 0 0
    rw [Nat.zero_add] at herror hle hge
    refine ⟨kept, next, offset, what, hkept, List.prefix_append _ _, ?_, herror, hle, ?_⟩
    · intro hwhole
      have hlen := hwhole.length_le
      have hpos := List.length_pos_iff.2 hmissing
      have hrow := congrArg List.length hnext
      simp only [encodeAll, List.flatMap_append, List.flatMap_singleton, List.length_append]
        at hlen hrow
      omega
    · rwa [List.length_append]

/-- A row whose time is set to zero. -/
def zeroTime : DecodedRow := ⟨some 0, [], []⟩

/-- A row with a character of two bytes. -/
def accented : DecodedRow := ⟨some 5, [⟨"k", "é"⟩], []⟩

/-- A payload of both rows, up to the middle of the character. -/
def halfCharacter : Bytes :=
  (encodeAll [zeroTime, accented]).take 16

theorem fits_zeroTime_accented : ∀ row ∈ [zeroTime, accented], Fits row := by
  have hlength : ∀ row ∈ [zeroTime, accented], (encode row).length < 2 ^ 64 := by decide +kernel
  exact fun row hrow => fits_of_length_encode (hlength row hrow)

theorem prefix_pair_iff {kept : List DecodedRow} {a b : DecodedRow} :
    kept <+: [a, b] ↔ kept = [] ∨ kept = [a] ∨ kept = [a, b] := by
  simp [List.prefix_cons_iff, and_or_left, exists_or]

/-- The first row is read, and half of the second one is refused. -/
theorem cut_in_half_character :
    (∀ row ∈ [zeroTime, accented], Fits row) ∧
      halfCharacter <+: encodeAll [zeroTime, accented] ∧
      (∀ kept, kept <+: [zeroTime, accented] → halfCharacter ≠ encodeAll kept) ∧
      decodeAll (encodeAll [zeroTime]) = .ok [⟨none, [], []⟩] ∧
      ∃ offset part, decodeAll halfCharacter = .error (.truncated offset 1 part) ∧
        10 ≤ offset ∧ offset ≤ 16 := by
  have hten : (encodeAll [zeroTime]).length = 10 := by decide +kernel
  have hsixteen : halfCharacter.length = 16 := by decide +kernel
  have hcut : halfCharacter <+: encodeAll [zeroTime, accented] := List.take_prefix 16 _
  have hinside : ∀ kept, kept <+: [zeroTime, accented] → halfCharacter ≠ encodeAll kept := by
    intro kept hkept
    rcases prefix_pair_iff.1 hkept with rfl | rfl | rfl <;> decide +kernel
  refine ⟨fits_zeroTime_accented, hcut, hinside, ?_, ?_⟩
  · have hrow : [zeroTime] <+: [zeroTime, accented] := prefix_pair_iff.2 (.inr (.inl rfl))
    exact (decodeAll_cut fits_zeroTime_accented (encodeAll_mono hrow)).1 _ hrow rfl
  · obtain ⟨kept, next, offset, part, hkept, -, hnext, herror, hle, hge⟩ :=
      (decodeAll_cut fits_zeroTime_accented hcut).2 hinside
    rcases prefix_pair_iff.1 hkept with h | h | h
    · simp at h
    · exact absurd (h ▸ hnext) (by decide +kernel)
    · have hpair : kept ++ [next] = [zeroTime] ++ [accented] := h
      obtain ⟨rfl, -⟩ := List.append_inj' hpair rfl
      exact ⟨offset, part, herror, hten ▸ hle, hsixteen ▸ hge⟩

/-- A time that is set to zero is lost where a payload is cut behind its row. -/
theorem zero_time_not_returned :
    encodeAll [zeroTime] <+: encodeAll [zeroTime, accented] ∧
      encodeAll [zeroTime] ≠ encodeAll [zeroTime, accented] ∧
      decodeAll (encodeAll [zeroTime]) ≠ .ok [zeroTime] := by
  have hread : decodeAll (encodeAll [zeroTime]) = .ok [asRead zeroTime] :=
    decodeAll_encodeAll_of_length (by decide +kernel)
  have hfirst : [zeroTime] <+: [zeroTime, accented] := prefix_pair_iff.2 (.inr (.inl rfl))
  refine ⟨encodeAll_mono hfirst, by decide +kernel, ?_⟩
  rw [hread]
  decide +kernel

end Logbook.RowCodec
