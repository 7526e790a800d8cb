import Mathlib.Data.List.Induction
import Mathlib.Data.List.Infix
import Logbook.Proofs.SortedMap
import Logbook.Query.Stats

set_option autoImplicit false

/-! # Statistics of many sets of rows

Merging the states of two sets of rows gives the state of all of them. Counts and distinct values
merge for any rows. Sums, averages and extremes of numbers merge if the operation behind them is
associative on the numbers that occur, which is what **`StatsFunc.Lawful`** asks; it is a condition
on the rows, since adding numbers of limited precision is not associative everywhere. -/

namespace Logbook

/-! ## Numbers that occur -/

namespace Numbers

/-- Numbers added up from the first to the last. -/
def sum (numbers : List Float) : Float :=
  numbers.foldl (· + ·) 0.0

/-- The numbers themselves and the sums of consecutive ones. -/
def Occurs (numbers : List Float) (x : Float) : Prop :=
  x ∈ numbers ∨ ∃ l : List Float, l <:+: numbers ∧ sum l = x

/-- Addition is associative and zero neutral on the numbers that occur. -/
structure AddLaws (numbers : List Float) : Prop where
  assoc : ∀ {x y z}, Occurs numbers x → Occurs numbers y → Occurs numbers z →
    x + y + z = x + (y + z)
  zero_add : ∀ {x}, Occurs numbers x → 0.0 + x = x
  add_zero : ∀ {x}, Occurs numbers x → x + 0.0 = x

/-- The operation is associative on the numbers. -/
def AssocOn (op : Float → Float → Float) (numbers : List Float) : Prop :=
  ∀ x ∈ numbers, ∀ y ∈ numbers, ∀ z ∈ numbers, op (op x y) z = op x (op y z)

/-- All numbers that occur. -/
def occurring (numbers : List Float) : List Float :=
  numbers ++ (numbers.tails.flatMap List.inits).map sum

theorem occurs_iff_mem {numbers : List Float} {x : Float} :
    Occurs numbers x ↔ x ∈ occurring numbers := by
  simp only [Occurs, occurring, List.mem_append, List.mem_map, List.mem_flatMap, List.mem_tails,
    List.mem_inits, List.infix_iff_prefix_suffix, and_comm]

/-- Only finitely many numbers occur. -/
instance (numbers : List Float) : Decidable (AddLaws numbers) :=
  decidable_of_iff
    ((∀ x ∈ occurring numbers, ∀ y ∈ occurring numbers, ∀ z ∈ occurring numbers,
        x + y + z = x + (y + z)) ∧
      ∀ x ∈ occurring numbers, 0.0 + x = x ∧ x + 0.0 = x)
    ⟨fun ⟨hassoc, hzero⟩ =>
      ⟨fun hx hy hz =>
          hassoc _ (occurs_iff_mem.1 hx) _ (occurs_iff_mem.1 hy) _ (occurs_iff_mem.1 hz),
        fun hx => (hzero _ (occurs_iff_mem.1 hx)).1, fun hx => (hzero _ (occurs_iff_mem.1 hx)).2⟩,
    fun laws =>
      ⟨fun _ hx _ hy _ hz =>
          laws.assoc (occurs_iff_mem.2 hx) (occurs_iff_mem.2 hy) (occurs_iff_mem.2 hz),
        fun _ hx => ⟨laws.zero_add (occurs_iff_mem.2 hx), laws.add_zero (occurs_iff_mem.2 hx)⟩⟩⟩

instance (op : Float → Float → Float) (numbers : List Float) : Decidable (AssocOn op numbers) :=
  inferInstanceAs (Decidable (∀ x ∈ numbers, ∀ y ∈ numbers, ∀ z ∈ numbers, _))

theorem Occurs.mono {numbers numbers' : List Float} (h : numbers' <:+: numbers) {x : Float}
    (hx : Occurs numbers' x) : Occurs numbers x := by
  rcases hx with hx | ⟨l, hl, hx⟩
  · exact Or.inl (h.subset hx)
  · exact Or.inr ⟨l, hl.trans h, hx⟩

theorem occurs_sum {numbers l : List Float} (h : l <:+: numbers) :
    Occurs numbers (sum l) :=
  Or.inr ⟨l, h, rfl⟩

theorem AddLaws.mono {numbers numbers' : List Float} (h : numbers' <:+: numbers)
    (laws : AddLaws numbers) : AddLaws numbers' :=
  ⟨fun hx hy hz => laws.assoc (hx.mono h) (hy.mono h) (hz.mono h),
    fun hx => laws.zero_add (hx.mono h), fun hx => laws.add_zero (hx.mono h)⟩

theorem AssocOn.mono {op : Float → Float → Float} {numbers numbers' : List Float}
    (h : numbers' <:+: numbers) (assoc : AssocOn op numbers) : AssocOn op numbers' :=
  fun x hx y hy z hz => assoc x (h.subset hx) y (h.subset hy) z (h.subset hz)

theorem foldl_add_sum (xs ys : List Float) : ys.foldl (· + ·) (sum xs) = sum (xs ++ ys) :=
  List.foldl_append.symm

/-- The sums of two lists of numbers add up to the sum of both. -/
theorem AddLaws.sum_append {numbers : List Float} (laws : AddLaws numbers) {xs ys : List Float}
    (h : xs ++ ys <:+: numbers) : sum xs + sum ys = sum (xs ++ ys) := by
  induction ys generalizing xs with
  | nil =>
    rw [List.append_nil] at h ⊢
    exact laws.add_zero (occurs_sum h)
  | cons y rest ih =>
    have hxs : Occurs numbers (sum xs) :=
      occurs_sum ((List.prefix_append xs _).isInfix.trans h)
    have htail : y :: rest <:+: numbers := (List.suffix_append xs _).isInfix.trans h
    have hy : Occurs numbers y := Or.inl (htail.subset (List.mem_cons_self ..))
    have hrest : Occurs numbers (sum rest) :=
      occurs_sum ((List.suffix_cons y rest).isInfix.trans htail)
    have hsingle : sum [y] = y := laws.zero_add hy
    calc sum xs + sum (y :: rest)
        = sum xs + (sum [y] + sum rest) := by rw [@ih [y] htail]; rfl
      _ = sum xs + y + sum rest := by rw [hsingle, laws.assoc hxs hy hrest]
      _ = sum (xs ++ [y]) + sum rest := by rw [← foldl_add_sum xs [y]]; rfl
      _ = sum (xs ++ y :: rest) := by
        rw [ih (by rw [List.append_assoc]; exact h), List.append_assoc, List.singleton_append]

/-- The sum of numbers if there are any. -/
def total (numbers : List Float) : Option Float :=
  if numbers.isEmpty then none else some (sum numbers)

theorem AddLaws.combine_total {numbers : List Float} (laws : AddLaws numbers) {xs ys : List Float}
    (h : xs ++ ys <:+: numbers) :
    StatsState.combine (· + ·) (total xs) (total ys) = total (xs ++ ys) := by
  cases ys with
  | nil => rw [List.append_nil]; cases total xs <;> rfl
  | cons y ys =>
    cases xs with
    | nil => rfl
    | cons x xs => exact congrArg some (laws.sum_append h)

/-- Once there is a value, every further number is combined with it. -/
theorem foldl_some {op : Float → Float → Float} {step : Option Float → Float → Option Float}
    (h : ∀ t v, step (some t) v = some (op t v)) (l : List Float) (t : Float) :
    l.foldl step (some t) = some (l.foldl op t) := by
  induction l generalizing t with
  | nil => rfl
  | cons v rest ih => rw [List.foldl_cons, h, ih, List.foldl_cons]

theorem foldl_total (numbers : List Float) :
    numbers.foldl (fun x v => some (x.getD 0.0 + v)) none = total numbers := by
  cases numbers with
  | nil => rfl
  | cons v rest => exact foldl_some (fun _ _ => rfl) rest _

/-- The choice among numbers, taken one after the other. -/
def choose (op : Float → Float → Float) : List Float → Option Float
  | [] => none
  | x :: xs => some (xs.foldl op x)

theorem foldl_choose (op : Float → Float → Float) (numbers : List Float) :
    numbers.foldl (fun x v => StatsState.combine op x (some v)) none = choose op numbers := by
  cases numbers with
  | nil => rfl
  | cons v rest => exact foldl_some (fun _ _ => rfl) rest v

/-- Choosing among numbers one after the other chooses among the numbers. -/
theorem foldl_choice_mem {op : Float → Float → Float} (choice : ∀ x y, op x y = x ∨ op x y = y)
    (x : Float) (l : List Float) : l.foldl op x ∈ x :: l := by
  induction l generalizing x with
  | nil => exact List.mem_cons_self ..
  | cons y rest ih =>
    rcases List.mem_cons.1 (ih (op x y)) with heq | hmem
    · rw [List.foldl_cons, heq]
      rcases choice x y with h | h <;> simp [h]
    · exact List.mem_cons_of_mem _ (List.mem_cons_of_mem _ hmem)

theorem AssocOn.foldl_choice {op : Float → Float → Float} {numbers : List Float}
    (assoc : AssocOn op numbers) (choice : ∀ x y, op x y = x ∨ op x y = y) {x y : Float}
    (hx : x ∈ numbers) (hy : y ∈ numbers) {l : List Float} (hl : ∀ z ∈ l, z ∈ numbers) :
    l.foldl op (op x y) = op x (l.foldl op y) := by
  induction l generalizing y with
  | nil => rfl
  | cons z rest ih =>
    have hz := hl z (List.mem_cons_self ..)
    have hyz : op y z ∈ numbers := by
      rcases choice y z with h | h <;> rw [h] <;> assumption
    rw [List.foldl_cons, List.foldl_cons, assoc x hx y hy z hz,
      ih hyz fun w hw => hl w (List.mem_cons_of_mem _ hw)]

/-- Choosing among the numbers of two lists chooses among the choices of both. -/
theorem AssocOn.combine_foldl {op : Float → Float → Float} {numbers : List Float}
    (assoc : AssocOn op numbers) (choice : ∀ x y, op x y = x ∨ op x y = y) {xs ys : List Float}
    (h : ∀ x ∈ xs ++ ys, x ∈ numbers) :
    StatsState.combine op (choose op xs) (choose op ys) = choose op (xs ++ ys) := by
  cases ys with
  | nil => rw [List.append_nil]; cases choose op xs <;> rfl
  | cons y ys =>
    cases xs with
    | nil => rfl
    | cons x xs =>
      have hx : xs.foldl op x ∈ numbers :=
        h _ (List.mem_append_left _ (foldl_choice_mem choice x xs))
      have hy : ∀ z ∈ y :: ys, z ∈ numbers := fun z hz => h z (List.mem_append_right _ hz)
      have hrest := assoc.foldl_choice choice hx (hy y (List.mem_cons_self ..))
        fun z hz => hy z (List.mem_cons_of_mem _ hz)
      show some (op (xs.foldl op x) (ys.foldl op y)) = some ((xs ++ y :: ys).foldl op x)
      rw [← hrest, List.foldl_append, List.foldl_cons]

end Numbers

/-! ## States of rows -/

namespace StatsFunc

/-- The numbers that rows have in the fields of the function. -/
def numbersOf (f : StatsFunc) (rows : List QueryRow) : List Float :=
  rows.flatMap f.numbers

/-- The operation behind the function is associative on the numbers that occur in the rows. -/
def Lawful (f : StatsFunc) (rows : List QueryRow) : Prop :=
  match f.kind with
  | .count | .countUniq => True
  | .sum | .avg => Numbers.AddLaws (f.numbersOf rows)
  | .min => Numbers.AssocOn StatsState.lesser (f.numbersOf rows)
  | .max => Numbers.AssocOn StatsState.greater (f.numbersOf rows)

instance (f : StatsFunc) (rows : List QueryRow) : Decidable (f.Lawful rows) :=
  match f with
  | ⟨.count, _, _⟩ | ⟨.countUniq, _, _⟩ => inferInstanceAs (Decidable True)
  | ⟨.sum, _, _⟩ | ⟨.avg, _, _⟩ => inferInstanceAs (Decidable (Numbers.AddLaws _))
  | ⟨.min, _, _⟩ | ⟨.max, _, _⟩ => inferInstanceAs (Decidable (Numbers.AssocOn _ _))

theorem numbersOf_cons (f : StatsFunc) (row : QueryRow) (rows : List QueryRow) :
    f.numbersOf (row :: rows) = f.numbers row ++ f.numbersOf rows :=
  List.flatMap_cons

theorem numbersOf_append (f : StatsFunc) (rows rows' : List QueryRow) :
    f.numbersOf (rows ++ rows') = f.numbersOf rows ++ f.numbersOf rows' :=
  List.flatMap_append

theorem numbersOf_infix (f : StatsFunc) {rows rows' : List QueryRow} (h : rows' <:+: rows) :
    f.numbersOf rows' <:+: f.numbersOf rows := by
  obtain ⟨front, back, rfl⟩ := h
  rw [numbersOf_append, numbersOf_append]
  exact ⟨_, _, rfl⟩

theorem Lawful.mono {f : StatsFunc} {rows rows' : List QueryRow} (h : rows' <:+: rows)
    (laws : f.Lawful rows) : f.Lawful rows' := by
  have hnumbers := f.numbersOf_infix h
  unfold Lawful at laws ⊢
  split at laws
  · trivial
  · trivial
  · exact laws.mono hnumbers
  · exact laws.mono hnumbers
  · exact laws.mono hnumbers
  · exact laws.mono hnumbers

end StatsFunc

namespace StatsState

open Numbers (sum choose)

/-- The state after some more rows. -/
def addRows (s : StatsState) (f : StatsFunc) (rows : List QueryRow) : StatsState :=
  rows.foldl (fun s row => s.add f row) s

/-- The state of rows. -/
def ofRows (f : StatsFunc) (rows : List QueryRow) : StatsState :=
  (initial f.kind).addRows f rows

theorem ofRows_append_singleton (f : StatsFunc) (rows : List QueryRow) (row : QueryRow) :
    ofRows f (rows ++ [row]) = (ofRows f rows).add f row :=
  List.foldl_append

/-- What rows count as among distinct values; a row without values does not count. -/
def uniqueKeys (f : StatsFunc) (rows : List QueryRow) : List (List String) :=
  (rows.map (uniqueKey f)).filter fun key => key.any (· != "")

theorem addRows_count (f : StatsFunc) (rows : List QueryRow) (n : Nat) :
    (count (n % UInt64.size)).addRows f rows
      = count ((n + rows.countP (counts f)) % UInt64.size) := by
  induction rows generalizing n with
  | nil => rfl
  | cons row rest ih =>
    show ((count (n % UInt64.size)).add f row).addRows f rest = _
    rw [List.countP_cons]
    by_cases h : counts f row = true
    · rw [add, if_pos h, addCounts, Nat.mod_add_mod, ih, if_pos h]
      congr 2
      omega
    · rw [add, if_neg h, ih, if_neg h, Nat.add_zero]

theorem addRows_countUniq (f : StatsFunc) (rows : List QueryRow)
    (values : SortedMap (List String) Unit) :
    (countUniq values).addRows f rows
      = countUniq ((uniqueKeys f rows).foldl insertValue values) := by
  induction rows generalizing values with
  | nil => rfl
  | cons row rest ih =>
    show ((countUniq values).add f row).addRows f rest = _
    rw [uniqueKeys, List.map_cons, List.filter_cons, add]
    split
    · exact ih ..
    · exact ih ..

/-- A state that is made from the numbers of rows, one after the other. -/
theorem addRows_numbers {α : Type} {f : StatsFunc} {state : α → StatsState} {step : α → Float → α}
    (h : ∀ x row, (state x).add f row = state ((f.numbers row).foldl step x))
    (rows : List QueryRow) (x : α) :
    (state x).addRows f rows = state ((f.numbersOf rows).foldl step x) := by
  induction rows generalizing x with
  | nil => rfl
  | cons row rest ih =>
    show ((state x).add f row).addRows f rest = _
    rw [h, ih, f.numbersOf_cons, List.foldl_append]

theorem addRows_avg (f : StatsFunc) (rows : List QueryRow) (x : Float) (n : Nat) :
    (avg x (n % UInt64.size)).addRows f rows
      = avg ((f.numbersOf rows).foldl (· + ·) x)
          ((n + (f.numbersOf rows).length) % UInt64.size) := by
  induction rows generalizing x n with
  | nil => rfl
  | cons row rest ih =>
    show ((avg x (n % UInt64.size)).add f row).addRows f rest = _
    rw [add, addCounts, Nat.mod_add_mod, ih, f.numbersOf_cons, List.foldl_append,
      List.length_append, Nat.add_assoc]

/-- The state of rows, told from what the function reads in all of them. -/
theorem ofRows_eq (f : StatsFunc) (rows : List QueryRow) :
    ofRows f rows = match f.kind with
      | .count => .count (rows.countP (counts f) % UInt64.size)
      | .countUniq => .countUniq ((uniqueKeys f rows).foldl insertValue [])
      | .sum => .sum (Numbers.total (f.numbersOf rows))
      | .min => .min (Numbers.choose lesser (f.numbersOf rows))
      | .max => .max (Numbers.choose greater (f.numbersOf rows))
      | .avg =>
        .avg (Numbers.sum (f.numbersOf rows)) ((f.numbersOf rows).length % UInt64.size) := by
  rw [ofRows]
  cases f.kind with
  | count =>
    have h := addRows_count f rows 0
    rwa [Nat.zero_add] at h
  | countUniq => exact addRows_countUniq f rows []
  | sum => rw [initial, addRows_numbers (fun _ _ => rfl), Numbers.foldl_total]
  | min => rw [initial, addRows_numbers (fun _ _ => rfl), Numbers.foldl_choose]
  | max => rw [initial, addRows_numbers (fun _ _ => rfl), Numbers.foldl_choose]
  | avg =>
    have h := addRows_avg f rows 0.0 0
    rwa [Nat.zero_add] at h

theorem lesser_choice (x y : Float) : lesser x y = x ∨ lesser x y = y := by
  unfold lesser
  split
  · exact Or.inr rfl
  · split
    · exact Or.inr rfl
    · exact Or.inl rfl

theorem greater_choice (x y : Float) : greater x y = x ∨ greater x y = y := by
  unfold greater
  split
  · exact Or.inr rfl
  · split
    · exact Or.inr rfl
    · exact Or.inl rfl

open SortedMap (Sorted sorted_nil sorted_alter) in
/-- Distinct values of two sets of rows are those of both. -/
theorem merge_foldl_insertValue {vs ws : SortedMap (List String) Unit} (hvs : Sorted vs)
    (hws : Sorted ws) (keys : List (List String)) :
    SortedMap.merge (fun _ _ => ()) vs (keys.foldl insertValue ws)
      = keys.foldl insertValue (SortedMap.merge (fun _ _ => ()) vs ws) := by
  induction keys generalizing ws with
  | nil => rfl
  | cons key rest ih =>
    have hstep : SortedMap.merge (fun _ _ => ()) vs (insertValue ws key)
        = insertValue (SortedMap.merge (fun _ _ => ()) vs ws) key :=
      SortedMap.merge_alter hvs hws (by cases SortedMap.get? vs key <;> rfl)
    rw [List.foldl_cons, List.foldl_cons, ← hstep]
    exact ih (sorted_alter hws ..)

theorem sorted_foldl_insertValue {vs : SortedMap (List String) Unit} (h : SortedMap.Sorted vs)
    (keys : List (List String)) : SortedMap.Sorted (keys.foldl insertValue vs) := by
  induction keys generalizing vs with
  | nil => exact h
  | cons key rest ih => exact ih (SortedMap.sorted_alter h ..)

/-- **The states of two sets of rows merge into the state of all of them.** -/
theorem merge_ofRows {f : StatsFunc} {rows rows' : List QueryRow}
    (laws : f.Lawful (rows ++ rows')) :
    (ofRows f rows).merge (ofRows f rows') = .ok (ofRows f (rows ++ rows')) := by
  have hnumbers := f.numbersOf_append rows rows'
  have hmem : ∀ x ∈ f.numbersOf rows ++ f.numbersOf rows', x ∈ f.numbersOf (rows ++ rows') :=
    fun x hx => hnumbers ▸ hx
  have hinfix : f.numbersOf rows ++ f.numbersOf rows' <:+: f.numbersOf (rows ++ rows') :=
    hnumbers ▸ List.infix_rfl
  rw [ofRows_eq, ofRows_eq, ofRows_eq, hnumbers]
  unfold StatsFunc.Lawful at laws
  cases hkind : f.kind with
  | count =>
    simp only [merge, addCounts, List.countP_append, Nat.mod_add_mod, Nat.add_mod_mod]
  | countUniq =>
    have hkeys : uniqueKeys f (rows ++ rows') = uniqueKeys f rows ++ uniqueKeys f rows' := by
      rw [uniqueKeys, List.map_append, List.filter_append]
      rfl
    simp only [merge, hkeys, List.foldl_append]
    rw [merge_foldl_insertValue (sorted_foldl_insertValue SortedMap.sorted_nil _)
      SortedMap.sorted_nil]
    rfl
  | sum =>
    rw [hkind] at laws
    simp only [merge, Numbers.AddLaws.combine_total laws hinfix]
  | min =>
    rw [hkind] at laws
    simp only [merge, Numbers.AssocOn.combine_foldl laws lesser_choice hmem]
  | max =>
    rw [hkind] at laws
    simp only [merge, Numbers.AssocOn.combine_foldl laws greater_choice hmem]
  | avg =>
    rw [hkind] at laws
    simp only [merge, addCounts, Numbers.AddLaws.sum_append laws hinfix, List.length_append,
      Nat.mod_add_mod, Nat.add_mod_mod]

end StatsState

/-! ## Groups of rows -/

namespace PartialStats

open SortedMap (Sorted sorted_nil sorted_alter get?_alter_self get?_alter_of_ne)

/-- The groups after some more rows. -/
def addRows (p : PartialStats) (pipe : StatsPipe) (rows : List QueryRow) : PartialStats :=
  rows.foldl (fun (acc : PartialStats) row => acc.addRow pipe row) p

/-- The groups of rows. -/
def ofRows (pipe : StatsPipe) (rows : List QueryRow) : PartialStats :=
  addRows [] pipe rows

/-- The rows of one group. -/
def groupRows (pipe : StatsPipe) (key : List String) (rows : List QueryRow) : List QueryRow :=
  rows.filter fun row => pipe.groupKey row == key

theorem groupRows_append (pipe : StatsPipe) (key : List String) (rows rows' : List QueryRow) :
    groupRows pipe key (rows ++ rows') = groupRows pipe key rows ++ groupRows pipe key rows' :=
  List.filter_append ..

/-- The states of rows of one group, one for each function. -/
def statesOf (pipe : StatsPipe) (rows : List QueryRow) : List StatsState :=
  pipe.funcs.map fun f => .ofRows f rows

theorem sorted_ofRows (pipe : StatsPipe) (rows : List QueryRow) : Sorted (ofRows pipe rows) := by
  induction rows using List.reverseRecOn with
  | nil => exact sorted_nil
  | append_singleton rows row ih =>
    rw [ofRows, addRows, List.foldl_append]
    exact sorted_alter ih ..

theorem addToStates_statesOf (pipe : StatsPipe) (rows : List QueryRow) (row : QueryRow) :
    addToStates (statesOf pipe rows) pipe.funcs row = statesOf pipe (rows ++ [row]) := by
  unfold statesOf
  induction pipe.funcs with
  | nil => rfl
  | cons f rest ih =>
    rw [List.map_cons, List.map_cons, addToStates, ih, StatsState.ofRows_append_singleton]

/-- A group without rows has the states before any row. -/
theorem getD_statesOf (pipe : StatsPipe) (rows : List QueryRow) :
    (if rows.isEmpty then none else some (statesOf pipe rows)).getD
      (pipe.funcs.map fun f => .initial f.kind) = statesOf pipe rows := by
  cases rows <;> rfl

/-- There is a group for every key of a row, with the states of the rows of that key. -/
theorem get?_ofRows (pipe : StatsPipe) (rows : List QueryRow) (key : List String) :
    SortedMap.get? (ofRows pipe rows) key
      = if (groupRows pipe key rows).isEmpty then none
        else some (statesOf pipe (groupRows pipe key rows)) := by
  induction rows using List.reverseRecOn with
  | nil => rfl
  | append_singleton rows row ih =>
    have hstep : ofRows pipe (rows ++ [row]) = (ofRows pipe rows).addRow pipe row :=
      List.foldl_append
    rw [hstep, addRow, groupRows_append]
    by_cases hkey : key = pipe.groupKey row
    · subst hkey
      rw [get?_alter_self (sorted_ofRows pipe rows), ih, getD_statesOf, addToStates_statesOf]
      simp [groupRows]
    · have hne : (pipe.groupKey row == key) = false := beq_eq_false_iff_ne.2 (Ne.symm hkey)
      rw [get?_alter_of_ne _ _ hkey, ih]
      simp [groupRows, hne]

theorem mergeStates_statesOf {pipe : StatsPipe} {rows rows' : List QueryRow}
    (laws : ∀ f ∈ pipe.funcs, f.Lawful (rows ++ rows')) :
    mergeStates (statesOf pipe rows) (statesOf pipe rows')
      = (statesOf pipe (rows ++ rows'), none) := by
  unfold statesOf
  generalize pipe.funcs = funcs at laws ⊢
  induction funcs with
  | nil => rfl
  | cons f rest ih =>
    have hf := StatsState.merge_ofRows (laws f (List.mem_cons_self ..))
    have hrest := ih fun g hg => laws g (List.mem_cons_of_mem _ hg)
    simp only [List.map_cons, mergeStates, hf, hrest]

/-- Groups merge key by key if the states of every key in both can be merged. -/
theorem mergeGroups_eq {p q : PartialStats} (hp : Sorted p) (hq : Sorted q)
    (h : ∀ key old new, SortedMap.get? p key = some old → SortedMap.get? q key = some new →
      old.length = new.length ∧ (mergeStates old new).2 = none) :
    ∃ m, mergeGroups p q = (m, none) ∧ Sorted m ∧ ∀ key, SortedMap.get? m key
      = Option.merge (fun old new => (mergeStates old new).1) (SortedMap.get? p key)
          (SortedMap.get? q key) := by
  induction q generalizing p with
  | nil => exact ⟨p, rfl, hp, fun key => by cases SortedMap.get? p key <;> rfl⟩
  | cons e rest ih =>
    obtain ⟨k, states⟩ := e
    obtain ⟨hk, hrest⟩ := List.pairwise_cons.1 hq
    have hnone : SortedMap.get? rest k = none := SortedMap.get?_eq_none_of_lt hk
    have hne : ∀ {key new}, SortedMap.get? rest key = some new → key ≠ k := by
      rintro key new hnew rfl
      rw [hnone] at hnew
      cases hnew
    -- merging the first group changes nothing but its key
    obtain ⟨states', hgroup, hstates'⟩ : ∃ states',
        mergeGroup p k states = (SortedMap.insert p k states', none) ∧ some states'
          = Option.merge (fun old new => (mergeStates old new).1) (SortedMap.get? p k)
            (some states) := by
      cases hold : SortedMap.get? p k with
      | none => exact ⟨states, by rw [mergeGroup, hold], rfl⟩
      | some old =>
        obtain ⟨hlength, herror⟩ := h k old states hold (SortedMap.get?_cons_self ..)
        refine ⟨(mergeStates old states).1, ?_, rfl⟩
        simp only [mergeGroup, hold, hlength, ne_eq, not_true_eq_false, if_false, herror]
    obtain ⟨m, hm, hsorted, hget⟩ := ih (sorted_alter hp k fun _ => states') hrest
      fun key old new hold hnew => by
        rw [get?_alter_of_ne _ _ (hne hnew)] at hold
        exact h key old new hold (by rwa [SortedMap.get?_cons_of_ne _ _ (hne hnew)])
    refine ⟨m, ?_, hsorted, fun key => ?_⟩
    · rw [mergeGroups, hgroup]
      exact hm
    · rw [hget]
      by_cases hkey : key = k
      · subst hkey
        rw [get?_alter_self hp, hnone, SortedMap.get?_cons_self, ← hstates']
        rfl
      · rw [get?_alter_of_ne _ _ hkey, SortedMap.get?_cons_of_ne _ _ hkey]

/-- **The groups of two sets of rows merge into the groups of all of them.** -/
theorem merge_ofRows {pipe : StatsPipe} {rows rows' : List QueryRow}
    (laws : ∀ f ∈ pipe.funcs, ∀ key, f.Lawful (groupRows pipe key (rows ++ rows'))) :
    (ofRows pipe rows).merge (ofRows pipe rows') = .ok (ofRows pipe (rows ++ rows')) := by
  have hmerge : ∀ key, mergeStates (statesOf pipe (groupRows pipe key rows))
      (statesOf pipe (groupRows pipe key rows'))
        = (statesOf pipe (groupRows pipe key rows ++ groupRows pipe key rows'), none) := by
    intro key
    refine mergeStates_statesOf ?_
    intro f hf
    rw [← groupRows_append]
    exact laws f hf key
  obtain ⟨m, hm, hsorted, hget⟩ := mergeGroups_eq (sorted_ofRows pipe rows)
    (sorted_ofRows pipe rows') fun key old new hold hnew => by
      rw [get?_ofRows] at hold hnew
      split at hold <;> cases hold
      split at hnew <;> cases hnew
      exact ⟨by simp [statesOf], by rw [hmerge]⟩
  rw [merge, hm]
  refine congrArg Except.ok (SortedMap.eq_of_get? hsorted (sorted_ofRows ..) ?_)
  intro key
  have hkey := hmerge key
  rw [hget, get?_ofRows, get?_ofRows, get?_ofRows, groupRows_append]
  generalize groupRows pipe key rows = xs at hkey ⊢
  generalize groupRows pipe key rows' = ys at hkey ⊢
  cases ys with
  | nil => rw [List.append_nil]; cases xs <;> rfl
  | cons y ys =>
    cases xs with
    | nil => rfl
    | cons x xs => exact congrArg (fun m : List StatsState × _ => some m.1) hkey

end PartialStats

end Logbook
