import Logbook.Proofs.Storage.Operations

set_option autoImplicit false

/-! # Parts

A part holds its rows in the order of their streams and, within a stream, of their times
(`Part.ofRows_sorted`). Sorting is stable: rows of one stream and one time stay as they were
(`Part.alike_ofRows`). The bounds of a part are as tight as the rows allow, so that a flush that
finds no expired row does the same to the parts of any store (`Storage.flushedParts_eq_settle`). -/

namespace Logbook

namespace Part

/-! ## The order of rows -/

theorem rowLe_total (a b : StoredRow) : (rowLe a b || rowLe b a) = true := by
  by_cases hstream : a.streamId = b.streamId
  · simpa [rowLe, hstream] using Int64.le_total a.timestamp b.timestamp
  · have hother : ¬ b.streamId = a.streamId := fun h => hstream h.symm
    simp only [rowLe, if_neg hstream, if_neg hother, StreamId.le]
    grind

theorem rowLe_trans (a b c : StoredRow) (hab : rowLe a b = true) (hbc : rowLe b c = true) :
    rowLe a c = true := by
  have hcases : ∀ x y : StreamId,
      x.le y = true ↔ x.high < y.high ∨ x.high = y.high ∧ x.low ≤ y.low := by
    intro x y
    simp [StreamId.le]
  have hext : ∀ x y : StreamId, x.high = y.high → x.low = y.low → x = y := by
    rintro ⟨_, _⟩ ⟨_, _⟩ rfl rfl
    rfl
  unfold rowLe at *
  grind

/-- Rows of a part are in the order of their streams, those of one stream in that of their times. -/
theorem ofRows_sorted (rows : List StoredRow) :
    (ofRows rows).rows.Pairwise fun a b => rowLe a b = true :=
  List.pairwise_mergeSort rowLe_trans rowLe_total rows

/-- Rows that are all equal in the order are as they were before sorting. -/
theorem filter_ofRows {p : StoredRow → Bool}
    (hp : ∀ a b, p a = true → p b = true → rowLe a b = true) (rows : List StoredRow) :
    (ofRows rows).rows.filter p = rows.filter p := by
  have hequal : (rows.filter p).Pairwise fun a b => rowLe a b = true :=
    List.pairwise_of_forall_mem_list fun a ha b hb =>
      hp a b (List.mem_filter.1 ha).2 (List.mem_filter.1 hb).2
  have hsub : (rows.filter p).Sublist (ofRows rows).rows :=
    List.sublist_mergeSort rowLe_trans rowLe_total hequal List.filter_sublist
  have hfiltered := hsub.filter p
  rw [List.filter_filter] at hfiltered
  simp only [Bool.and_self] at hfiltered
  exact (hfiltered.eq_of_length ((Storage.ofRows_rows_perm rows).filter _).length_eq.symm).symm

/-- The rows of one stream and one time. -/
def alike (stream : Stream) (t : Timestamp) (rows : List StoredRow) : List StoredRow :=
  rows.filter fun row => row.stream = stream ∧ row.timestamp = t

/-- Rows of one stream and one time are as they were before sorting. -/
theorem alike_ofRows (stream : Stream) (t : Timestamp) (rows : List StoredRow) :
    alike stream t (ofRows rows).rows = alike stream t rows := by
  refine filter_ofRows (fun a b ha hb => ?_) rows
  obtain ⟨hstream, rfl⟩ := of_decide_eq_true ha
  obtain ⟨hstream', htime⟩ := of_decide_eq_true hb
  have hid : a.streamId = b.streamId := by
    rw [a.streamId_eq, b.streamId_eq, hstream, hstream']
  simp [rowLe, hid, htime]

/-! ## Parts that are made from rows -/

/-- The part is made from rows, of which there are some. -/
def Made (p : Part) : Prop :=
  ∃ rows ≠ [], p = ofRows rows

theorem Made.sorted {p : Part} (h : p.Made) : p.rows.Pairwise fun a b => rowLe a b = true := by
  obtain ⟨rows, -, rfl⟩ := h
  exact ofRows_sorted rows

theorem le_earliest {rows : List StoredRow} {limit t : Timestamp} (ht : limit ≤ t)
    (hrows : ∀ r ∈ rows, limit ≤ r.timestamp) : limit ≤ earliest rows t := by
  induction rows generalizing t with
  | nil => exact ht
  | cons r rest ih =>
    refine ih ?_ fun r' hr' => hrows r' (List.mem_cons_of_mem r hr')
    show limit ≤ if t ≤ r.timestamp then t else r.timestamp
    split
    · exact ht
    · exact hrows r List.mem_cons_self

/-- The least time of a part is that of a row, so that no limit lies between. -/
theorem Made.le_minTime {p : Part} (h : p.Made) {limit : Timestamp}
    (hrows : ∀ r ∈ p.rows, limit ≤ r.timestamp) : limit ≤ p.minTime := by
  obtain ⟨rows, -, rfl⟩ := h
  exact le_earliest (Int64.le_maxValue limit) fun r hr =>
    hrows r ((Storage.ofRows_rows_perm rows).mem_iff.2 hr)

theorem Made.rows_ne_nil {p : Part} (h : p.Made) : p.rows ≠ [] := by
  obtain ⟨rows, hne, rfl⟩ := h
  exact fun hnil => hne (List.perm_nil.1 (hnil ▸ (Storage.ofRows_rows_perm rows).symm))

theorem max_time_eq_or (t u : Timestamp) : max t u = t ∨ max t u = u := by
  show (if t ≤ u then u else t) = t ∨ (if t ≤ u then u else t) = u
  split
  · exact .inr rfl
  · exact .inl rfl

/-- A bound of the times of rows is one of these times unless it is the one to start from. -/
theorem foldl_timestamp_cases {f : Timestamp → Timestamp → Timestamp}
    (hf : ∀ t u, f t u = t ∨ f t u = u) (rows : List StoredRow) (t : Timestamp) :
    rows.foldl (fun t r => f t r.timestamp) t = t ∨
      ∃ r ∈ rows, r.timestamp = rows.foldl (fun t r => f t r.timestamp) t := by
  induction rows generalizing t with
  | nil => exact .inl rfl
  | cons r rest ih =>
    rcases ih (f t r.timestamp) with h | ⟨r', hr', h⟩
    · exact (hf t r.timestamp).imp h.trans fun hr => ⟨r, List.mem_cons_self, (h.trans hr).symm⟩
    · exact .inr ⟨r', List.mem_cons_of_mem r hr', h⟩

/-- The least time of a part is that of a row. -/
theorem Made.exists_minTime {p : Part} (h : p.Made) : ∃ r ∈ p.rows, r.timestamp = p.minTime := by
  obtain ⟨r, hr⟩ := List.exists_mem_of_ne_nil _ h.rows_ne_nil
  obtain ⟨rows, -, rfl⟩ := h
  rcases foldl_timestamp_cases (fun _ _ => Std.min_eq_or) rows Int64.maxValue
    with hmax | ⟨r', hr', h⟩
  · have hle : r.timestamp ≤ (ofRows rows).minTime := by
      rw [show (ofRows rows).minTime = Int64.maxValue from hmax]
      exact Int64.le_maxValue _
    exact ⟨r, hr, Int64.le_antisymm hle ((ofRows rows).minTime_le r hr)⟩
  · exact ⟨r', (Storage.ofRows_rows_perm rows).mem_iff.2 hr', h⟩

/-- The greatest time of a part is that of a row. -/
theorem Made.exists_maxTime {p : Part} (h : p.Made) : ∃ r ∈ p.rows, r.timestamp = p.maxTime := by
  obtain ⟨r, hr⟩ := List.exists_mem_of_ne_nil _ h.rows_ne_nil
  obtain ⟨rows, -, rfl⟩ := h
  rcases foldl_timestamp_cases max_time_eq_or rows Int64.minValue with hmin | ⟨r', hr', h⟩
  · have hle : (ofRows rows).maxTime ≤ r.timestamp := by
      rw [show (ofRows rows).maxTime = Int64.minValue from hmin]
      exact Int64.minValue_le _
    exact ⟨r, hr, Int64.le_antisymm ((ofRows rows).le_maxTime r hr) hle⟩
  · exact ⟨r', (Storage.ofRows_rows_perm rows).mem_iff.2 hr', h⟩

/-! ## Searching -/

/-- Searching a part finds the rows between the bounds, whether or not the part is looked into. -/
theorem search_eq_filter (p : Part) (lo hi : Timestamp) :
    p.search lo hi = p.rows.filter fun r => lo ≤ r.timestamp && r.timestamp ≤ hi := by
  rw [search]
  split
  · next hout =>
    refine (List.filter_eq_nil_iff.2 ?_).symm
    intro r hr hin
    rw [Bool.and_eq_true, decide_eq_true_eq, decide_eq_true_eq] at hin
    rcases hout with hout | hout
    · have hlt : r.timestamp < lo := Int64.lt_of_le_of_lt (p.le_maxTime r hr) hout
      exact Int64.lt_irrefl (Int64.lt_of_le_of_lt hin.1 hlt)
    · have hlt : hi < r.timestamp := Int64.lt_of_lt_of_le hout (p.minTime_le r hr)
      exact Int64.lt_irrefl (Int64.lt_of_lt_of_le hlt hin.2)
  · rfl

end Part

namespace Storage

/-- No row between the bounds is missed by the parts that are not looked into. -/
theorem search_eq_filter (s : Storage) (lo hi : Timestamp) :
    s.search lo hi = s.visibleRows.filter fun r => lo ≤ r.timestamp && r.timestamp ≤ hi := by
  rw [search, visibleRows, List.filter_flatMap]
  refine congrArg List.flatten (List.map_congr_left ?_)
  intro p _
  exact p.search_eq_filter lo hi

open Logbook.Part (Made alike alike_ofRows)

theorem made_of_mem_partsOf {rows : List StoredRow} {p : Part} (h : p ∈ partsOf rows) :
    p.Made := by
  unfold partsOf at h
  split at h
  · cases h
  · next hne =>
    rw [List.mem_singleton.1 h]
    exact ⟨rows, fun hnil => hne (List.isEmpty_iff.2 hnil), rfl⟩

theorem alike_flatMap_partsOf (stream : Stream) (t : Timestamp) (rows : List StoredRow) :
    alike stream t ((partsOf rows).flatMap (·.rows)) = alike stream t rows := by
  unfold partsOf
  split
  · next h => rw [List.isEmpty_iff.1 h, List.flatMap_nil]
  · rw [List.flatMap_singleton, alike_ofRows]

/-! ## Flushing without expired rows -/

/-- The parts that are left if no row has expired: all of them, merged if there are too many. -/
def settle (parts : List Part) : List Part :=
  if maxParts < parts.length then partsOf (parts.flatMap (·.rows)) else parts

theorem made_settle {parts : List Part} (h : ∀ p ∈ parts, p.Made) :
    ∀ p ∈ settle parts, p.Made := by
  unfold settle
  split
  · exact fun p hp => made_of_mem_partsOf hp
  · exact h

theorem made_allParts {s : Storage} (h : ∀ p ∈ s.visible, p.Made) : ∀ p ∈ s.allParts, p.Made := by
  intro p hp
  rcases List.mem_append.1 hp with hp | hp
  · exact h p hp
  · exact made_of_mem_partsOf hp

/-- What a flush makes of the parts depends neither on the time nor on the retention as long as no
    row has expired. -/
theorem flushedParts_eq_settle {s : Storage} {limit : Timestamp} (hmade : ∀ p ∈ s.visible, p.Made)
    (h : ∀ row ∈ s.held, limit ≤ row.timestamp) : s.flushedParts limit = settle s.allParts := by
  have hrows : ∀ p ∈ s.allParts, ∀ row ∈ p.rows, limit ≤ row.timestamp := fun p hp row hrow =>
    h row ((flatMap_allParts_perm s).mem_iff.1 (List.mem_flatMap.2 ⟨p, hp, hrow⟩))
  have hexpired : s.allParts.any (·.minTime < limit) = false := by
    refine List.any_eq_false.2 fun p hp => ?_
    have hle := (made_allParts hmade p hp).le_minTime (hrows p hp)
    simpa using hle
  have hkept : (s.allParts.flatMap (·.rows)).filter (limit ≤ ·.timestamp)
      = s.allParts.flatMap (·.rows) := by
    refine List.filter_eq_self.2 fun row hrow => decide_eq_true ?_
    obtain ⟨p, hp, hrow⟩ := List.mem_flatMap.1 hrow
    exact hrows p hp row hrow
  rw [flushedParts, hexpired, Bool.false_or, mergeParts, hkept, settle]
  simp only [decide_eq_true_eq]

/-- Rows of one stream and one time are as they were before the flush, the pending ones behind the
    visible ones. -/
theorem alike_settle_allParts (stream : Stream) (t : Timestamp) (s : Storage) :
    alike stream t ((settle s.allParts).flatMap (·.rows)) = alike stream t s.held := by
  have hall : alike stream t (s.allParts.flatMap (·.rows)) = alike stream t s.held := by
    have hpending := alike_flatMap_partsOf stream t s.pending
    unfold alike at hpending ⊢
    rw [allParts, List.flatMap_append, List.filter_append, hpending, held, List.filter_append,
      visibleRows]
  unfold settle
  split
  · rw [alike_flatMap_partsOf, hall]
  · exact hall

end Storage

end Logbook
