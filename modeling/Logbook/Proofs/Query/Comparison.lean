import Logbook.Proofs.Decimal.Order
import Logbook.Proofs.Query.Sorting

set_option autoImplicit false

/-! # Comparing rows

Which of two rows comes first is decided from the pair: by time if both have one, as numbers if both
values are numbers, and as texts otherwise. Turning the pair around turns the result around, but
three rows can follow each other in a circle (`SortPipe.mixed_values_follow_in_circle`). This takes
a value that lies between two others although it is not compared with them as they are compared
with each other: a text between numbers, NaN between numbers, or a row without a time between rows
with times. Where there is none, the comparison is a total preorder
(**`SortPipe.compareRows_orders`**). -/

namespace Logbook

namespace SortPipe

/-! ## Total preorders -/

/-- The comparison is transitive at three elements. -/
def TransAt {α : Type} (cmp : α → α → Ordering) (a b c : α) : Prop :=
  cmp a b ≠ .gt → cmp b c ≠ .gt → cmp a c ≠ .gt

/-- A comparison that is turned around with its arguments and transitive on some rows. -/
structure TotalOn (rows : List QueryRow) (cmp : QueryRow → QueryRow → Ordering) : Prop where
  swap : ∀ a b, cmp b a = (cmp a b).swap
  trans : ∀ a ∈ rows, ∀ b ∈ rows, ∀ c ∈ rows, TransAt cmp a b c

variable {rows : List QueryRow} {cmp cmp' : QueryRow → QueryRow → Ordering}

/-- Two comparisons one after the other tell the third. -/
theorem TotalOn.eq_then (h : TotalOn rows cmp) {a b c : QueryRow} (ha : a ∈ rows) (hb : b ∈ rows)
    (hc : c ∈ rows) (hab : cmp a b ≠ .gt) (hbc : cmp b c ≠ .gt) :
    cmp a c = (cmp a b).then (cmp b c) := by
  have hac : cmp a c ≠ .gt := h.trans a ha b hb c hc hab hbc
  have hbca := h.trans b hb c hc a ha
  have hcab := h.trans c hc a ha b hb
  have hcba := h.trans c hc b hb a ha
  unfold TransAt at hbca hcab hcba
  rw [h.swap a b, h.swap a c] at hbca
  rw [h.swap a c, h.swap b c] at hcab
  rw [h.swap b c, h.swap a b, h.swap a c] at hcba
  revert hab hbc hac hbca hcab hcba
  cases cmp a b <;> cases cmp b c <;> cases cmp a c <;> simp

theorem TotalOn.swapped (h : TotalOn rows cmp) : TotalOn rows fun a b => (cmp a b).swap where
  swap a b := congrArg Ordering.swap (h.swap a b)
  trans a ha b hb c hc := by
    show (cmp a b).swap ≠ .gt → (cmp b c).swap ≠ .gt → (cmp a c).swap ≠ .gt
    rw [← h.swap, ← h.swap, ← h.swap]
    exact fun hba hcb => h.trans c hc b hb a ha hcb hba

theorem TotalOn.reverseIf (h : TotalOn rows cmp) (desc : Bool) :
    TotalOn rows fun a b => reverseIf desc (cmp a b) := by
  cases desc
  · exact h
  · exact h.swapped

/-- Rows that are equal in one comparison may be told apart by another. -/
theorem TotalOn.then (h : TotalOn rows cmp) (h' : TotalOn rows cmp') :
    TotalOn rows fun a b => (cmp a b).then (cmp' a b) where
  swap a b := by
    rw [h.swap a b, h'.swap a b]
    cases cmp a b <;> rfl
  trans a ha b hb c hc := by
    show (cmp a b).then (cmp' a b) ≠ .gt → (cmp b c).then (cmp' b c) ≠ .gt →
      (cmp a c).then (cmp' a c) ≠ .gt
    intro hab hbc
    have hab' : cmp a b ≠ .gt := fun e => hab (by rw [e]; rfl)
    have hbc' : cmp b c ≠ .gt := fun e => hbc (by rw [e]; rfl)
    have hac := h.eq_then ha hb hc hab' hbc'
    have htrans := h'.trans a ha b hb c hc
    unfold TransAt at htrans
    revert hab hbc
    rw [hac]
    cases hab : cmp a b with
    | gt => exact absurd hab hab'
    | lt => intro _ _; nofun
    | eq =>
      cases hbc : cmp b c with
      | gt => exact absurd hbc hbc'
      | lt => intro _ _; nofun
      | eq => exact htrans

/-- If `b` lies between `a` and `c`, which are in `P` while `b` is not, then `a` and `c` are in that
    order. -/
def Around {α : Type} (P : α → Prop) (cmp : α → α → Ordering) (a b c : α) : Prop :=
  P a → P c → ¬ P b → cmp a b ≠ .gt → cmp b c ≠ .gt → cmp a c = (cmp a b).then (cmp b c)

instance {α : Type} (P : α → Prop) [DecidablePred P] (cmp : α → α → Ordering) (a b c : α) :
    Decidable (Around P cmp a b c) :=
  inferInstanceAs (Decidable (_ → _))

/-- A comparison that treats the elements of `P` in a way of their own is transitive if each way is
    and no other element lies between two elements of `P` that are not in that order. -/
theorem transAt_of_around {α : Type} {P : α → Prop} {cmp : α → α → Ordering} {a b c : α}
    (swap : ∀ a b, cmp b a = (cmp a b).swap)
    (inside : P a → P b → P c → TransAt cmp a b c)
    (outside : ¬ (P a ∧ P b) → ¬ (P b ∧ P c) → ¬ (P a ∧ P c) → TransAt cmp a b c)
    (hb : Around P cmp a b c) (hc : Around P cmp b c a) (ha : Around P cmp c a b) :
    TransAt cmp a b c := by
  intro hab hbc hac
  have hca : cmp c a = .lt := by rw [swap a c, hac]; rfl
  have hca' : cmp c a ≠ .gt := by rw [hca]; nofun
  by_cases pa : P a
  · by_cases pb : P b
    · by_cases pc : P c
      · exact inside pa pb pc hab hbc hac
      · -- `c` lies between `b` and `a`
        have hba := hc pb pa pc hbc hca'
        rw [hca, swap a b] at hba
        revert hab hbc hba
        cases cmp a b <;> cases cmp b c <;> simp
    · by_cases pc : P c
      · have hac' := hb pa pc pb hab hbc
        rw [hac] at hac'
        revert hab hbc hac'
        cases cmp a b <;> cases cmp b c <;> simp
      · exact outside (fun h => pb h.2) (fun h => pb h.1) (fun h => pc h.2) hab hbc hac
  · by_cases pbc : P b ∧ P c
    · -- `a` lies between `c` and `b`
      have hcb := ha pbc.2 pbc.1 pa hca' hab
      rw [hca, swap b c] at hcb
      revert hbc hcb
      cases cmp b c <;> simp
    · exact outside (fun h => pa h.1) pbc (fun h => pa h.1) hab hbc hac

/-! ## Numbers and texts -/

theorem compareNumbers_eq_gt {x y : Float} : compareNumbers x y = .gt ↔ y < x := by
  unfold compareNumbers
  by_cases h : x < y
  · simp [h, Decimal.not_lt_of_lt h]
  · by_cases h' : x > y <;> simp [h, h']

theorem compareNumbers_swap (x y : Float) : compareNumbers y x = (compareNumbers x y).swap := by
  unfold compareNumbers
  by_cases h : x < y
  · simp [h, Decimal.not_lt_of_lt h]
  · by_cases h' : y < x <;> simp [h, h']

/-- NaN is equal to every number. -/
theorem compareNumbers_of_nan {x y : Float} (h : ¬ (x.isNaN = false ∧ y.isNaN = false)) :
    compareNumbers x y = .eq := by
  have hlt : ¬ x < y := fun hxy => h (Decimal.isNaN_of_lt hxy)
  have hgt : ¬ x > y := fun hxy => h (Decimal.isNaN_of_lt hxy).symm
  rw [compareNumbers, if_neg hlt, if_neg hgt]

theorem compareNumbers_trans {x y z : Float} (hx : x.isNaN = false) (hy : y.isNaN = false)
    (hz : z.isNaN = false) : TransAt compareNumbers x y z := by
  unfold TransAt
  rw [ne_eq, ne_eq, ne_eq, compareNumbers_eq_gt, compareNumbers_eq_gt, compareNumbers_eq_gt,
    Decimal.lt_iff_rank_lt hy hx, Decimal.lt_iff_rank_lt hz hy, Decimal.lt_iff_rank_lt hz hx,
    not_lt, not_lt, not_lt]
  exact le_trans

theorem compareValues_of_numbers {v w : String} {x y : Float} (hx : Decimal.read? v = some x)
    (hy : Decimal.read? w = some y) : compareValues v w = compareNumbers x y := by
  rw [compareValues, hx, hy]

theorem compareValues_of_text {v w : String}
    (h : ¬ ((Decimal.read? v).isSome ∧ (Decimal.read? w).isSome)) :
    compareValues v w = compare v w := by
  unfold compareValues
  split
  · next hx hy => exact absurd ⟨by rw [hx]; rfl, by rw [hy]; rfl⟩ h
  · rfl

theorem compareValues_swap (v w : String) : compareValues w v = (compareValues v w).swap := by
  by_cases h : (Decimal.read? v).isSome ∧ (Decimal.read? w).isSome
  · obtain ⟨x, hx⟩ := Option.isSome_iff_exists.1 h.1
    obtain ⟨y, hy⟩ := Option.isSome_iff_exists.1 h.2
    rw [compareValues_of_numbers hx hy, compareValues_of_numbers hy hx, compareNumbers_swap]
  · rw [compareValues_of_text h, compareValues_of_text fun h' => h h'.symm]
    exact Std.OrientedOrd.eq_swap

theorem transAt_compare {α : Type} [Ord α] [Std.TransOrd α] (x y z : α) :
    TransAt compare x y z := by
  unfold TransAt
  simp only [ne_eq, Ordering.ne_gt_iff_isLE]
  exact Std.TransCmp.isLE_trans

/-! ## One key -/

/-- The key is the time and the row has one. -/
def Timed (field : String) (row : QueryRow) : Prop :=
  field = timeName ∧ row.timestamp.isSome

/-- The value of the field is a number. -/
def Numeric (field : String) (row : QueryRow) : Prop :=
  (Decimal.read? (row.value field)).isSome

/-- The value of the field is a number other than NaN. -/
def Proper (field : String) (row : QueryRow) : Prop :=
  ∃ x ∈ Decimal.read? (row.value field), x.isNaN = false

/-- The field is compared by its values. -/
def ByValue (field : String) (a b : QueryRow) : Prop :=
  ¬ (Timed field a ∧ Timed field b)

/-- Every two of three rows are compared by value. -/
def AllByValue (field : String) (a b c : QueryRow) : Prop :=
  ByValue field a b ∧ ByValue field b c ∧ ByValue field a c

instance (field : String) (row : QueryRow) : Decidable (Timed field row) :=
  inferInstanceAs (Decidable (_ ∧ _))

instance (field : String) (row : QueryRow) : Decidable (Numeric field row) :=
  inferInstanceAs (Decidable (_ = true))

instance (field : String) (row : QueryRow) : Decidable (Proper field row) :=
  inferInstanceAs (Decidable (∃ x ∈ _, Float.isNaN x = false))

instance (field : String) (a b : QueryRow) : Decidable (ByValue field a b) :=
  inferInstanceAs (Decidable (¬ _))

instance (field : String) (a b c : QueryRow) : Decidable (AllByValue field a b c) :=
  inferInstanceAs (Decidable (_ ∧ _ ∧ _))

theorem ByValue.symm {field : String} {a b : QueryRow} (h : ByValue field a b) :
    ByValue field b a :=
  fun h' => h h'.symm

theorem AllByValue.rotate {field : String} {a b c : QueryRow} (h : AllByValue field a b c) :
    AllByValue field b c a :=
  ⟨h.2.1, h.2.2.symm, h.1.symm⟩

theorem compareField_of_timed {field : String} {a b : QueryRow} (ha : Timed field a)
    (hb : Timed field b) : ∃ x y, a.timestamp = some x ∧ b.timestamp = some y ∧
      compareField a b field = compare x.toInt y.toInt := by
  obtain ⟨x, hx⟩ := Option.isSome_iff_exists.1 ha.2
  obtain ⟨y, hy⟩ := Option.isSome_iff_exists.1 hb.2
  refine ⟨x, y, hx, hy, ?_⟩
  rw [compareField, if_pos ha.1, hx, hy]

theorem compareField_of_byValue {field : String} {a b : QueryRow} (h : ByValue field a b) :
    compareField a b field = compareValues (a.value field) (b.value field) := by
  unfold compareField
  split
  · next hfield =>
    split
    · next hx hy => exact absurd ⟨⟨hfield, by rw [hx]; rfl⟩, ⟨hfield, by rw [hy]; rfl⟩⟩ h
    · rfl
  · rfl

theorem compareField_swap (field : String) (a b : QueryRow) :
    compareField b a field = (compareField a b field).swap := by
  by_cases h : Timed field a ∧ Timed field b
  · obtain ⟨x, y, hx, hy, hab⟩ := compareField_of_timed h.1 h.2
    rw [hab, compareField, if_pos h.1.1, hy, hx]
    exact Std.OrientedOrd.eq_swap
  · rw [compareField_of_byValue h, compareField_of_byValue (ByValue.symm h), compareValues_swap]

/-- What is not compared with two others as these are compared with each other lies between them
    only if they are in that order: a row without a time between two rows with times, if the key is
    the time, a text between two numbers, and NaN between two numbers that are not NaN. -/
structure Consistent (field : String) (rows : List QueryRow) : Prop where
  around_untimed : ∀ a ∈ rows, ∀ b ∈ rows, ∀ c ∈ rows,
    Around (Timed field) (compareField · · field) a b c
  around_text : ∀ a ∈ rows, ∀ b ∈ rows, ∀ c ∈ rows,
    AllByValue field a b c → Around (Numeric field) (compareField · · field) a b c
  around_nan : ∀ a ∈ rows, ∀ b ∈ rows, ∀ c ∈ rows,
    AllByValue field a b c → Numeric field b → Around (Proper field) (compareField · · field) a b c

instance (field : String) (rows : List QueryRow) : Decidable (Consistent field rows) :=
  decidable_of_iff
    ((∀ a ∈ rows, ∀ b ∈ rows, ∀ c ∈ rows,
        Around (Timed field) (compareField · · field) a b c) ∧
      (∀ a ∈ rows, ∀ b ∈ rows, ∀ c ∈ rows,
        AllByValue field a b c → Around (Numeric field) (compareField · · field) a b c) ∧
      ∀ a ∈ rows, ∀ b ∈ rows, ∀ c ∈ rows, AllByValue field a b c → Numeric field b →
        Around (Proper field) (compareField · · field) a b c)
    ⟨fun h => ⟨h.1, h.2.1, h.2.2⟩, fun h => ⟨h.1, h.2, h.3⟩⟩

theorem proper_iff {field : String} {row : QueryRow} {x : Float}
    (h : Decimal.read? (row.value field) = some x) : Proper field row ↔ x.isNaN = false := by
  simp [Proper, h]

/-- Rows that are compared by value, all with numbers, are compared as numbers. -/
theorem transAt_of_numeric {field : String} {a b c : QueryRow} (h : AllByValue field a b c)
    (na : Numeric field a) (nb : Numeric field b) (nc : Numeric field c)
    (hb : Around (Proper field) (compareField · · field) a b c)
    (hc : Around (Proper field) (compareField · · field) b c a)
    (ha : Around (Proper field) (compareField · · field) c a b) :
    TransAt (compareField · · field) a b c := by
  obtain ⟨x, hx⟩ := Option.isSome_iff_exists.1 na
  obtain ⟨y, hy⟩ := Option.isSome_iff_exists.1 nb
  obtain ⟨z, hz⟩ := Option.isSome_iff_exists.1 nc
  have cab : compareField a b field = compareNumbers x y := by
    rw [compareField_of_byValue h.1, compareValues_of_numbers hx hy]
  have cbc : compareField b c field = compareNumbers y z := by
    rw [compareField_of_byValue h.2.1, compareValues_of_numbers hy hz]
  have cac : compareField a c field = compareNumbers x z := by
    rw [compareField_of_byValue h.2.2, compareValues_of_numbers hx hz]
  refine transAt_of_around (compareField_swap field) ?_ ?_ hb hc ha
  · intro pa pb pc
    show compareField a b field ≠ .gt → compareField b c field ≠ .gt → compareField a c field ≠ .gt
    rw [cab, cbc, cac]
    exact compareNumbers_trans ((proper_iff hx).1 pa) ((proper_iff hy).1 pb) ((proper_iff hz).1 pc)
  · -- one of the outer two is NaN
    intro _ _ hnan _ _
    rw [proper_iff hx, proper_iff hz] at hnan
    show compareField a c field ≠ .gt
    rw [cac, compareNumbers_of_nan hnan]
    nofun

/-- Rows that are compared by value, at most one with a number, are compared as texts. -/
theorem transAt_of_text {field : String} {a b c : QueryRow} (h : AllByValue field a b c)
    (nab : ¬ (Numeric field a ∧ Numeric field b)) (nbc : ¬ (Numeric field b ∧ Numeric field c))
    (nac : ¬ (Numeric field a ∧ Numeric field c)) : TransAt (compareField · · field) a b c := by
  show compareField a b field ≠ .gt → compareField b c field ≠ .gt → compareField a c field ≠ .gt
  rw [compareField_of_byValue h.1, compareField_of_byValue h.2.1, compareField_of_byValue h.2.2,
    compareValues_of_text nab, compareValues_of_text nbc, compareValues_of_text nac]
  exact transAt_compare _ _ _

theorem transAt_of_timed {field : String} {a b c : QueryRow} (ta : Timed field a)
    (tb : Timed field b) (tc : Timed field c) : TransAt (compareField · · field) a b c := by
  obtain ⟨x, y, hx, hy, hab⟩ := compareField_of_timed ta tb
  obtain ⟨y', z, hy', hz, hbc⟩ := compareField_of_timed tb tc
  obtain ⟨x', z', hx', hz', hac⟩ := compareField_of_timed ta tc
  cases hy.symm.trans hy'
  cases hx.symm.trans hx'
  cases hz.symm.trans hz'
  show compareField a b field ≠ .gt → compareField b c field ≠ .gt → compareField a c field ≠ .gt
  rw [hab, hbc, hac]
  exact transAt_compare _ _ _

/-- **Consistent rows are those that a key compares as a total preorder.** -/
theorem totalOn_compareField_iff {field : String} :
    TotalOn rows (compareField · · field) ↔ Consistent field rows := by
  constructor
  · intro h
    constructor
    · intro a ha b hb c hc _ _ _
      exact h.eq_then ha hb hc
    · intro a ha b hb c hc _ _ _ _
      exact h.eq_then ha hb hc
    · intro a ha b hb c hc _ _ _ _ _
      exact h.eq_then ha hb hc
  · intro h
    refine ⟨compareField_swap field, ?_⟩
    intro a ha b hb c hc
    refine transAt_of_around (compareField_swap field) transAt_of_timed ?_
      (h.around_untimed a ha b hb c hc) (h.around_untimed b hb c hc a ha)
      (h.around_untimed c hc a ha b hb)
    intro hab hbc hac
    have habc : AllByValue field a b c := ⟨hab, hbc, hac⟩
    have hbca := habc.rotate
    have hcab := hbca.rotate
    refine transAt_of_around (compareField_swap field) ?_ (transAt_of_text habc)
      (h.around_text a ha b hb c hc habc) (h.around_text b hb c hc a ha hbca)
      (h.around_text c hc a ha b hb hcab)
    intro na nb nc
    exact transAt_of_numeric habc na nb nc (h.around_nan a ha b hb c hc habc nb)
      (h.around_nan b hb c hc a ha hbca nc) (h.around_nan c hc a ha b hb hcab na)

/-- NaN is equal to 9 and to 10, but 9 is less than 10. -/
example : ¬ Consistent "n"
    [⟨none, [⟨"n", "9"⟩]⟩, ⟨none, [⟨"n", "NaN"⟩]⟩, ⟨none, [⟨"n", "10"⟩]⟩] := by
  decide +kernel

/-! ## Several keys -/

theorem compareKeys_cons (key : SortKey) (keys : List SortKey) (a b : QueryRow) :
    compareKeys (key :: keys) a b
      = (SortPipe.reverseIf key.desc (compareField a b key.field)).then (compareKeys keys a b) := by
  rw [compareKeys]
  cases SortPipe.reverseIf key.desc (compareField a b key.field) <;> rfl

theorem totalOn_compareKeys {keys : List SortKey}
    (h : ∀ key ∈ keys, TotalOn rows (compareField · · key.field)) :
    TotalOn rows (compareKeys keys) := by
  induction keys with
  | nil => exact ⟨fun _ _ => rfl, fun _ _ _ _ _ _ _ _ => nofun⟩
  | cons key keys ih =>
    have hfirst := (h key List.mem_cons_self).reverseIf key.desc
    have hrest := ih fun key hkey => h key (List.mem_cons_of_mem _ hkey)
    have heq : compareKeys (key :: keys) = fun a b =>
        (SortPipe.reverseIf key.desc (compareField a b key.field)).then (compareKeys keys a b) := by
      funext a b
      exact compareKeys_cons key keys a b
    rw [heq]
    exact hfirst.then hrest

theorem totalOn_reverseIf_iff {desc : Bool} :
    (TotalOn rows fun a b => SortPipe.reverseIf desc (cmp a b)) ↔ TotalOn rows cmp := by
  refine ⟨fun h => ?_, fun h => h.reverseIf desc⟩
  have htwice := h.reverseIf desc
  cases desc
  · exact htwice
  · have heq : (fun a b => SortPipe.reverseIf true (SortPipe.reverseIf true (cmp a b))) = cmp := by
      funext a b
      exact Ordering.swap_swap
    rwa [heq] at htwice

/-! ## The rows of a sort -/

theorem totalOn_compareRows {s : SortPipe}
    (h : ∀ key ∈ s.effectiveKeys, TotalOn rows (compareField · · key.field)) :
    TotalOn rows s.compareRows :=
  (totalOn_compareKeys h).reverseIf s.desc

/-- To turn two rows around turns the result around. -/
theorem compareRows_swap (s : SortPipe) (a b : QueryRow) :
    s.compareRows b a = (s.compareRows a b).swap := by
  have hnone : TotalOn [] s.compareRows :=
    totalOn_compareRows fun key _ => ⟨compareField_swap key.field, nofun⟩
  exact hnone.swap a b

theorem orders_iff_totalOn {s : SortPipe} : s.Orders rows ↔ TotalOn rows s.compareRows := by
  constructor
  · intro h
    exact ⟨s.compareRows_swap, fun _ ha _ hb _ hc => h.trans ha hb hc⟩
  · intro h
    exact ⟨fun _ _ => h.swap _ _, fun ha hb hc => h.trans _ ha _ hb _ hc⟩

/-- With one key, the rows are ordered as the key orders them. -/
theorem totalOn_compareRows_singleton {s : SortPipe} {key : SortKey} (h : s.effectiveKeys = [key]) :
    TotalOn rows s.compareRows ↔ TotalOn rows (compareField · · key.field) := by
  have heq : s.compareRows = fun a b =>
      SortPipe.reverseIf s.desc (SortPipe.reverseIf key.desc (compareField a b key.field)) := by
    funext a b
    rw [compareRows, h, compareKeys_cons, compareKeys, Ordering.then_eq]
  rw [heq]
  exact totalOn_reverseIf_iff.trans totalOn_reverseIf_iff

/-- **The comparison of rows is a total preorder on rows that every key finds consistent.** It is
    turned around with its arguments in any case. With one key it is a total preorder on no other
    rows. -/
theorem compareRows_orders (s : SortPipe) :
    (∀ a b, s.compareRows b a = (s.compareRows a b).swap) ∧
      ∀ rows, ((∀ key ∈ s.effectiveKeys, Consistent key.field rows) → s.Orders rows) ∧
        ∀ key, s.effectiveKeys = [key] → s.Orders rows → Consistent key.field rows := by
  refine ⟨s.compareRows_swap, fun rows => ⟨fun h => ?_, fun key hkey h => ?_⟩⟩
  · refine orders_iff_totalOn.2 (totalOn_compareRows fun key hkey => ?_)
    exact totalOn_compareField_iff.2 (h key hkey)
  · rw [orders_iff_totalOn, totalOn_compareRows_singleton hkey, totalOn_compareField_iff] at h
    exact h

/-- Sorts by a number, the greatest first, and then by time. -/
def sampleByNumber : SortPipe where
  keys := [⟨"n", true⟩, ⟨timeName, false⟩]
  desc := false
  limit := none

/-- Rows with numbers and one without. -/
def sampleNumbers : List QueryRow :=
  [⟨some 3, [⟨"n", "9"⟩]⟩, ⟨some 2, [⟨"n", "10"⟩]⟩, ⟨some 1, []⟩, ⟨some 0, [⟨"n", "1e1"⟩]⟩]

/-- A value that is missing stands before all numbers. -/
theorem orders_sampleNumbers :
    (∀ key ∈ sampleByNumber.effectiveKeys, Consistent key.field sampleNumbers) ∧
      sampleByNumber.Orders sampleNumbers := by
  have hconsistent : ∀ key ∈ sampleByNumber.effectiveKeys,
      Consistent key.field sampleNumbers := by
    decide +kernel
  exact ⟨hconsistent, ((compareRows_orders sampleByNumber).2 sampleNumbers).1 hconsistent⟩

/-- As texts `10` stands before `1a` and `1a` before `9`, but as numbers `9` stands before `10`. -/
theorem mixed_values_follow_in_circle :
    ¬ ∀ (s : SortPipe) (a b c : QueryRow), s.compareRows b a = (s.compareRows a b).swap ∧
      (s.compareRows a b ≠ .gt → s.compareRows b c ≠ .gt → s.compareRows a c ≠ .gt) := by
  intro h
  have hcircle := (h ⟨[⟨"n", false⟩], false, none⟩ ⟨none, [⟨"n", "10"⟩]⟩ ⟨none, [⟨"n", "1a"⟩]⟩
    ⟨none, [⟨"n", "9"⟩]⟩).2
  exact hcircle (by decide +kernel) (by decide +kernel) (by decide +kernel)

end SortPipe

end Logbook
