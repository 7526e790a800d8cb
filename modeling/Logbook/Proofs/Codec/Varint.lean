import Mathlib.Data.Nat.Digits.Defs
import Logbook.Proofs.Codec.RoundTrip

set_option autoImplicit false

/-! # What a variable-length number is read as

Any bytes may stand where a number is read. They hold a whole number if one of them is below 128:
the first such byte ends it (`Varint.Whole`). A number of at most ten bytes is read as the sum of
its groups modulo `2 ^ 64`, and a longer one is refused (`Varint.read_whole`). Ten groups hold
seventy bits, so that six bits of the tenth byte are lost without a word: the sum itself is read if
and only if there is no tenth byte above one (`RowCodec.readVarint_reads_sum`). No encoding has such
a byte. -/

namespace Logbook

namespace Varint

/-- The bytes of one number: each of them but the last says that another follows. -/
inductive Whole : Bytes → Prop
  | last {b : UInt8} : b.toNat < 128 → Whole [b]
  | more {b : UInt8} {groups : Bytes} : 128 ≤ b.toNat → Whole groups → Whole (b :: groups)

/-- What groups of seven bits add up to, the least significant group first. -/
def sum (groups : Bytes) : Nat :=
  Nat.ofDigits 128 (groups.map fun b => b.toNat % 128)

/-! ## Sums -/

theorem sum_cons (b : UInt8) (groups : Bytes) :
    sum (b :: groups) = b.toNat % 128 + 128 * sum groups :=
  Nat.ofDigits_cons

theorem sum_singleton (b : UInt8) : sum [b] = b.toNat % 128 :=
  Nat.ofDigits_singleton

theorem sum_append (a b : Bytes) : sum (a ++ b) = sum a + 128 ^ a.length * sum b := by
  rw [sum, List.map_append, Nat.ofDigits_append, List.length_map, sum, sum]

theorem sum_lt (groups : Bytes) : sum groups < 128 ^ groups.length := by
  have hdigit : ∀ d ∈ groups.map fun b => b.toNat % 128, d < 128 := by
    intro d hd
    obtain ⟨b, -, rfl⟩ := List.mem_map.1 hd
    exact Nat.mod_lt _ (by decide)
  have hlt := Nat.ofDigits_lt_base_pow_length (by decide) hdigit
  rwa [List.length_map] at hlt

/-- Ten groups fit in sixty-four bits if the tenth has only the last of them. -/
theorem sum_lt_iff {groups : Bytes} (hlen : groups.length ≤ 10) :
    sum groups < 2 ^ 64 ↔ ∀ b ∈ groups[9]?, b.toNat % 128 ≤ 1 := by
  by_cases hten : groups.length = 10
  · have hnine : (groups.take 9).length = 9 := List.length_take_of_le (by omega)
    have hsplit : groups = groups.take 9 ++ [groups[9]] := by
      conv_lhs => rw [← List.take_append_drop 9 groups]
      rw [List.drop_eq_getElem_cons (by omega), List.drop_eq_nil_of_le (by omega)]
    have hsum : sum groups = sum (groups.take 9) + 128 ^ 9 * (groups[9].toNat % 128) := by
      conv_lhs => rw [hsplit]
      rw [sum_append, hnine, sum_singleton]
    have hlow := sum_lt (groups.take 9)
    rw [hnine] at hlow
    rw [List.getElem?_eq_getElem (by omega)]
    simp only [Option.mem_some_iff, forall_eq']
    omega
  · have hnone : groups[9]? = none := List.getElem?_eq_none (by omega)
    have hshort : sum groups < 128 ^ 9 :=
      Nat.lt_of_lt_of_le (sum_lt groups) (Nat.pow_le_pow_right (by decide) (by omega))
    simp only [hnone, Option.not_mem_none, false_implies, implies_true, iff_true]
    omega

/-! ## Reading -/

/-- A byte that says that another follows is added to what was read. -/
theorem readFrom_more {b : UInt8} {rest : Bytes} {index acc : Nat} (hb : 128 ≤ b.toNat)
    (hindex : index < 10) :
    readFrom (b :: rest) index acc
      = readFrom rest (index + 1) ((acc + 128 ^ index * (b.toNat % 128)) % 2 ^ 64) := by
  rw [readFrom, if_neg (by omega), if_neg (by omega), Nat.shiftLeft_eq, Nat.pow_mul, Nat.mul_comm]
  rfl

theorem readFrom_last {b : UInt8} {rest : Bytes} {index acc : Nat} (hb : b.toNat < 128)
    (hindex : index < 10) :
    readFrom (b :: rest) index acc
      = .value ((acc + 128 ^ index * (b.toNat % 128)) % 2 ^ 64) rest := by
  rw [readFrom, if_neg (by omega), if_pos hb, Nat.shiftLeft_eq, Nat.pow_mul, Nat.mul_comm]
  rfl

theorem readFrom_of_ten_le {b : UInt8} {rest : Bytes} {index acc : Nat} (hindex : 10 ≤ index) :
    readFrom (b :: rest) index acc = .overlong := by
  rw [readFrom, if_pos hindex]

/-- Reading on through a whole number, with `index` groups already read. -/
theorem readFrom_whole {groups : Bytes} (h : Whole groups) (rest : Bytes) {index acc : Nat}
    (hindex : index ≤ 10) :
    readFrom (groups ++ rest) index acc
      = if index + groups.length ≤ 10 then .value ((acc + 128 ^ index * sum groups) % 2 ^ 64) rest
        else .overlong := by
  -- with ten groups read, the next byte is refused whatever it is
  induction h generalizing index acc with
  | @last b hb =>
    rcases Nat.lt_or_eq_of_le hindex with hlt | rfl
    · rw [List.singleton_append, readFrom_last hb hlt, List.length_singleton,
        if_pos (Nat.succ_le_of_lt hlt), sum_singleton]
    · rw [List.singleton_append, readFrom_of_ten_le (Nat.le_refl 10), if_neg (by simp)]
  | @more b groups hb _ ih =>
    rcases Nat.lt_or_eq_of_le hindex with hlt | rfl
    · have hsum : acc + 128 ^ index * (b.toNat % 128) + 128 ^ (index + 1) * sum groups
          = acc + 128 ^ index * sum (b :: groups) := by
        rw [sum_cons, pow_succ]
        ring
      rw [List.cons_append, readFrom_more hb hlt, ih (show index + 1 ≤ 10 from hlt),
        Nat.mod_add_mod, hsum, List.length_cons, Nat.add_right_comm, Nat.add_assoc]
    · rw [List.cons_append, readFrom_of_ten_le (Nat.le_refl 10), if_neg (by simp)]

/-- **Reading a whole number** gives the sum of its groups modulo `2 ^ 64`, unless there are more
    than ten. -/
theorem read_whole {groups : Bytes} (h : Whole groups) (rest : Bytes) :
    read (groups ++ rest)
      = if groups.length ≤ 10 then .value (sum groups % 2 ^ 64) rest else .overlong := by
  rw [read, readFrom_whole h rest (Nat.zero_le 10)]
  simp

/-- Bytes that all say that another follows are no number. -/
theorem readFrom_unfinished {b : Bytes} (h : ∀ x ∈ b, 128 ≤ x.toNat) {index acc : Nat}
    (hindex : index ≤ 10) :
    readFrom b index acc = if index + b.length ≤ 10 then .ended else .overlong := by
  induction b generalizing index acc with
  | nil => rw [readFrom, if_pos (by simpa using hindex)]
  | cons x b ih =>
    rcases Nat.lt_or_eq_of_le hindex with hlt | rfl
    · rw [readFrom_more (h x List.mem_cons_self) hlt,
        ih (fun y hy => h y (List.mem_cons_of_mem x hy)) (show index + 1 ≤ 10 from hlt),
        List.length_cons, Nat.add_right_comm, Nat.add_assoc]
    · rw [readFrom_of_ten_le (Nat.le_refl 10), if_neg (by simp)]

theorem read_unfinished {b : Bytes} (h : ∀ x ∈ b, 128 ≤ x.toNat) :
    read b = if b.length ≤ 10 then .ended else .overlong := by
  rw [read, readFrom_unfinished h (Nat.zero_le 10), Nat.zero_add]

/-- Bytes are either the beginning of a number or have a whole one at their front. -/
theorem unfinished_or_whole (b : Bytes) :
    (∀ x ∈ b, 128 ≤ x.toNat) ∨ ∃ groups rest, Whole groups ∧ b = groups ++ rest := by
  induction b with
  | nil => exact .inl nofun
  | cons x b ih =>
    by_cases hx : x.toNat < 128
    · exact .inr ⟨[x], b, .last hx, rfl⟩
    · have hx : 128 ≤ x.toNat := Nat.not_lt.1 hx
      rcases ih with hall | ⟨groups, rest, hwhole, rfl⟩
      · exact .inl fun y hy => (List.mem_cons.1 hy).elim (fun h => h ▸ hx) (hall y)
      · exact .inr ⟨x :: groups, rest, .more hx hwhole, rfl⟩

/-- What is read as a number is a whole number of at most ten bytes. -/
theorem exists_whole_of_read {b rest : Bytes} {n : Nat} (h : read b = .value n rest) :
    ∃ groups, Whole groups ∧ groups.length ≤ 10 ∧ b = groups ++ rest ∧
      n = sum groups % 2 ^ 64 := by
  rcases unfinished_or_whole b with hall | ⟨groups, rest', hwhole, rfl⟩
  · rw [read_unfinished hall] at h
    split at h <;> contradiction
  · rw [read_whole hwhole] at h
    split at h
    · next hlen =>
      cases h
      exact ⟨groups, hwhole, hlen, rfl, rfl⟩
    · contradiction

/-! ## Encodings -/

theorem whole_encode (n : Nat) : Whole (encode n) := by
  induction n using Nat.strongRecOn with
  | ind n ih =>
    by_cases hn : n < 128
    · rw [encode_of_lt hn]
      refine .last ?_
      rw [UInt8.toNat_ofNat']
      omega
    · rw [encode_of_ge (Nat.not_lt.1 hn)]
      refine .more ?_ (ih (n / 128) (by omega))
      rw [UInt8.toNat_ofNat']
      omega

/-- Sixty-four bits take ten bytes at most. -/
theorem length_encode_le_ten {n : Nat} (h : n < 2 ^ 64) : (encode n).length ≤ 10 := by
  have hread := read_encode [] h
  rw [read_whole (whole_encode n)] at hread
  by_contra hlong
  rw [if_neg hlong] at hread
  contradiction

/-- Cutting a number leaves bytes that all say that another follows. -/
theorem Whole.unfinished_of_append {cut lost : Bytes} (h : Whole (cut ++ lost))
    (hlost : lost ≠ []) : ∀ x ∈ cut, 128 ≤ x.toNat := by
  generalize hgroups : cut ++ lost = groups at h
  induction h generalizing cut with
  | last _ =>
    rcases List.append_eq_singleton_iff.1 hgroups with ⟨rfl, -⟩ | ⟨-, hnil⟩
    · nofun
    · contradiction
  | more hx _ ih =>
    rcases List.append_eq_cons_iff.1 hgroups with ⟨rfl, -⟩ | ⟨cut, rfl, hrest⟩
    · nofun
    · intro y hy
      rcases List.mem_cons.1 hy with rfl | hy
      · exact hx
      · exact ih hrest.symm y hy

end Varint

namespace RowCodec

theorem readVarint_whole {groups : Bytes} (h : Varint.Whole groups) (row offset : Nat)
    (rest : Bytes) :
    readVarint row ⟨groups ++ rest, offset⟩
      = if groups.length ≤ 10 then
          .ok (Varint.sum groups % 2 ^ 64, ⟨rest, offset + groups.length⟩)
        else .error (.varint offset row) := by
  rw [readVarint, Varint.read_whole h]
  by_cases hlen : groups.length ≤ 10 <;> simp [hlen]

/-- Only a whole number of at most ten bytes is read, and the cursor moves behind it. -/
theorem exists_whole_of_readVarint {row n : Nat} {c d : Cursor}
    (h : readVarint row c = .ok (n, d)) :
    ∃ groups, Varint.Whole groups ∧ groups.length ≤ 10 ∧ c.rest = groups ++ d.rest ∧
      d.offset = c.offset + groups.length ∧ n = Varint.sum groups % 2 ^ 64 := by
  rw [readVarint] at h
  split at h
  · next m rest hread =>
    cases h
    obtain ⟨groups, hwhole, hlen, hsplit, hsum⟩ := Varint.exists_whole_of_read hread
    refine ⟨groups, hwhole, hlen, hsplit, ?_, hsum⟩
    rw [hsplit, List.length_append, Nat.add_sub_cancel]
  · contradiction
  · contradiction

/-- **A number is read as the sum of its groups, unless a tenth byte loses some of it.** Whatever
    the bytes are, what is read is a whole number of at most ten bytes. It is their sum if and only
    if the tenth, should there be one, has no group above one, and the sum modulo `2 ^ 64` in any
    case. A number is refused as malformed if and only if it takes more than ten bytes, whether or
    not its sum fits. Every encoding is read back, and not a byte beyond it. -/
theorem readVarint_reads_sum (row : Nat) (c : Cursor) :
    (∀ n d, readVarint row c = .ok (n, d) →
      ∃ groups, Varint.Whole groups ∧ groups.length ≤ 10 ∧ c.rest = groups ++ d.rest ∧
        d.offset = c.offset + groups.length ∧ n = Varint.sum groups % 2 ^ 64 ∧
        (n = Varint.sum groups ↔ ∀ b ∈ groups[9]?, b.toNat % 128 ≤ 1)) ∧
    (∀ groups rest, Varint.Whole groups → c.rest = groups ++ rest →
      (readVarint row c = .error (.varint c.offset row) ↔ 10 < groups.length)) ∧
    ∀ n rest, n < 2 ^ 64 → c.rest = Varint.encode n ++ rest →
      readVarint row c = .ok (n, ⟨rest, c.offset + (Varint.encode n).length⟩) := by
  obtain ⟨bytes, offset⟩ := c
  refine ⟨?_, ?_, ?_⟩
  · intro n d h
    obtain ⟨groups, hwhole, hlen, hrest, hoffset, hsum⟩ := exists_whole_of_readVarint h
    refine ⟨groups, hwhole, hlen, hrest, hoffset, hsum, ?_⟩
    rw [hsum, ← Varint.sum_lt_iff hlen]
    exact Nat.mod_eq_iff_lt (by decide)
  · rintro groups rest hwhole rfl
    rw [readVarint_whole hwhole]
    by_cases hlen : groups.length ≤ 10
    · simp [hlen]
    · simp [hlen, Nat.not_le.1 hlen]
  · rintro n rest hn rfl
    exact readVarint_encode row offset rest hn

/-- The sixty-fifth bit, in a tenth byte. -/
def tooLarge : Bytes :=
  List.replicate 9 0x80 ++ [0x02]

/-- The number is read as zero. With one byte more in front it is refused. -/
theorem sixty_fifth_bit_lost :
    Varint.sum tooLarge = 2 ^ 64 ∧ readVarint 0 ⟨tooLarge, 0⟩ = .ok (0, ⟨[], 10⟩) ∧
      Varint.Whole (0x80 :: tooLarge) ∧
      readVarint 0 ⟨0x80 :: tooLarge, 0⟩ = .error (.varint 0 0) := by
  have hwhole : Varint.Whole (0x80 :: tooLarge) := by
    repeat refine .more (by decide) ?_
    exact .last (by decide)
  have hrefused := (readVarint_reads_sum 0 ⟨0x80 :: tooLarge, 0⟩).2.1 _ [] hwhole rfl
  exact ⟨by decide, by decide, hwhole, hrefused.2 (by decide)⟩

end RowCodec

end Logbook
