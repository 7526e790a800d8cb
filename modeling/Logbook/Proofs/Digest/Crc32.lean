import Mathlib.Data.Nat.Bitwise
import Logbook.Digest.Crc32

set_option autoImplicit false

/-! # Bursts change the checksum

No two byte strings that differ in one burst of at most thirty-two bits have the same CRC-32
(`Crc32.checksum_ne_of_burst`). The register is shifted linearly (`shiftBits_xor`), so that the
*difference* of two registers runs through the same steps as a register. The polynomial has its
highest bit set: as long as a shifted difference is small, nothing was divided out and the
difference was only halved (`toNat_of_shiftBits_lt`). Going backwards from equal registers, a
difference is therefore small for four bytes (`toNat_xor_lt_of_foldl_eq`), too small to come from
one byte alone. -/

namespace Logbook.Crc32

/-! ## One bit -/

theorem and_one_eq_one_iff (r : UInt32) : r &&& 1 = 1 ↔ r.toNat % 2 = 1 := by
  rw [← UInt32.toNat_inj, UInt32.toNat_and]
  simp

theorem shiftBit_of_even {r : UInt32} (h : r.toNat % 2 = 0) : shiftBit r = r >>> 1 := by
  rw [shiftBit, if_neg]
  rw [and_one_eq_one_iff]
  omega

theorem shiftBit_of_odd {r : UInt32} (h : r.toNat % 2 = 1) :
    shiftBit r = r >>> 1 ^^^ polynomial := by
  rw [shiftBit, if_pos]
  rwa [and_one_eq_one_iff]

theorem shiftBit_xor (a b : UInt32) : shiftBit (a ^^^ b) = shiftBit a ^^^ shiftBit b := by
  have hlow : (a ^^^ b).toNat % 2 = (a.toNat + b.toNat) % 2 := by
    rw [UInt32.toNat_xor, Nat.xor_mod_two_eq]
  -- the polynomial is divided out on both sides, and twice is not at all
  rcases Nat.mod_two_eq_zero_or_one a.toNat with ha | ha <;>
    rcases Nat.mod_two_eq_zero_or_one b.toNat with hb | hb
  · rw [shiftBit_of_even ha, shiftBit_of_even hb, shiftBit_of_even (by omega),
      UInt32.shiftRight_xor]
  · rw [shiftBit_of_even ha, shiftBit_of_odd hb, shiftBit_of_odd (by omega),
      UInt32.shiftRight_xor, UInt32.xor_assoc]
  · rw [shiftBit_of_odd ha, shiftBit_of_even hb, shiftBit_of_odd (by omega),
      UInt32.shiftRight_xor]
    ac_rfl
  · rw [shiftBit_of_odd ha, shiftBit_of_odd hb, shiftBit_of_even (by omega),
      UInt32.shiftRight_xor]
    calc a >>> 1 ^^^ b >>> 1
        = a >>> 1 ^^^ b >>> 1 ^^^ (polynomial ^^^ polynomial) := by
          rw [UInt32.xor_self, UInt32.xor_zero]
      _ = a >>> 1 ^^^ polynomial ^^^ (b >>> 1 ^^^ polynomial) := by ac_rfl

/-- The highest bit tells that the polynomial was divided out. -/
theorem toNat_of_shiftBit_lt {r : UInt32} (h : (shiftBit r).toNat < 2 ^ 31) :
    r.toNat = 2 * (shiftBit r).toNat := by
  have hhalf : (r >>> 1).toNat = r.toNat / 2 := by
    rw [UInt32.toNat_shiftRight, Nat.shiftRight_eq_div_pow]
    rfl
  rcases Nat.mod_two_eq_zero_or_one r.toNat with hr | hr
  · rw [shiftBit_of_even hr, hhalf]
    omega
  · have hpoly : polynomial.toNat.testBit 31 = true := by decide
    have hlt : r.toNat < 2 ^ 32 := r.toNat_lt
    have hshifted : (r.toNat / 2).testBit 31 = false := Nat.testBit_lt_two_pow (by omega)
    rw [shiftBit_of_odd hr, UInt32.toNat_xor, hhalf] at h
    have htop := Nat.testBit_lt_two_pow h
    rw [Nat.testBit_xor, hshifted, hpoly] at htop
    contradiction

/-! ## Several bits -/

theorem shiftBits_xor (n : Nat) (a b : UInt32) :
    shiftBits n (a ^^^ b) = shiftBits n a ^^^ shiftBits n b := by
  induction n generalizing a b with
  | zero => rfl
  | succ n ih => rw [shiftBits, shiftBit_xor, ih, shiftBits, shiftBits]

/-- What is small after some shifts was multiplied by no more than them. -/
theorem toNat_of_shiftBits_lt {n : Nat} {r : UInt32} (hn : n ≤ 32)
    (h : (shiftBits n r).toNat < 2 ^ (32 - n)) : r.toNat = 2 ^ n * (shiftBits n r).toNat := by
  induction n generalizing r with
  | zero => simp [shiftBits]
  | succ n ih =>
    rw [shiftBits] at h ⊢
    have hwide : 2 ^ (32 - n) = 2 * 2 ^ (32 - (n + 1)) := by
      rw [← Nat.pow_succ']
      congr 1
      omega
    have hrest := ih (r := shiftBit r) (by omega) (by omega)
    have hlt : (shiftBit r).toNat < 2 ^ 31 := by
      calc (shiftBit r).toNat
          = 2 ^ n * (shiftBits n (shiftBit r)).toNat := hrest
        _ < 2 ^ n * 2 ^ (32 - (n + 1)) := Nat.mul_lt_mul_of_pos_left h (Nat.two_pow_pos n)
        _ = 2 ^ 31 := by
          rw [← Nat.pow_add]
          congr 1
          omega
    rw [toNat_of_shiftBit_lt hlt, Nat.pow_succ', Nat.mul_assoc, ← hrest]

/-! ## Bytes -/

/-- The difference after a byte comes from the differences before it and of the byte. -/
theorem step_xor_step (r r' : UInt32) (b b' : UInt8) :
    step r b ^^^ step r' b' = shiftBits 8 (r ^^^ r' ^^^ (b ^^^ b').toUInt32) := by
  rw [step, step, ← shiftBits_xor, UInt8.toUInt32_xor]
  congr 1
  ac_rfl

theorem toNat_toUInt32_lt (b : UInt8) : b.toUInt32.toNat < 2 ^ 8 := by
  rw [UInt8.toNat_toUInt32]
  exact b.toNat_lt

/-- A small difference behind a byte was multiplied by `2 ^ 8`. -/
theorem toNat_of_step_xor_lt {r r' : UInt32} {b b' : UInt8}
    (h : (step r b ^^^ step r' b').toNat < 2 ^ 24) :
    (r ^^^ r' ^^^ (b ^^^ b').toUInt32).toNat = 2 ^ 8 * (step r b ^^^ step r' b').toNat := by
  rw [step_xor_step] at h ⊢
  exact toNat_of_shiftBits_lt (by decide) h

theorem step_left_injective {r r' : UInt32} {b : UInt8} (h : step r b = step r' b) : r = r' := by
  have hzero : step r b ^^^ step r' b = 0 := UInt32.xor_eq_zero_iff.2 h
  have hsmall : (step r b ^^^ step r' b).toNat < 2 ^ 24 := by
    rw [hzero]
    decide
  have hdiff := toNat_of_step_xor_lt hsmall
  rw [hzero, UInt8.xor_self] at hdiff
  exact UInt32.xor_eq_zero_iff.1 (UInt32.toNat_inj.1 (by simpa using hdiff))

/-- Equal bytes keep registers apart. -/
theorem foldl_step_left_injective {bytes : Bytes} {r r' : UInt32}
    (h : bytes.foldl step r = bytes.foldl step r') : r = r' := by
  induction bytes generalizing r r' with
  | nil => exact h
  | cons b bytes ih => exact step_left_injective (ih h)

/-- Registers that up to four bytes bring together differ in no more bits than those bytes have. -/
theorem toNat_xor_lt_of_foldl_eq {old new : Bytes} {r r' : UInt32}
    (hlen : old.length = new.length) (hfour : old.length ≤ 4)
    (h : old.foldl step r = new.foldl step r') : (r ^^^ r').toNat < 2 ^ (8 * old.length) := by
  induction old generalizing new r r' with
  | nil =>
    obtain rfl := List.eq_nil_of_length_eq_zero hlen.symm
    simp only [List.foldl_nil] at h
    simp [h]
  | cons b old ih =>
    obtain ⟨b', new, rfl⟩ := List.exists_cons_of_length_eq_add_one hlen.symm
    simp only [List.length_cons, Nat.add_right_cancel_iff, List.foldl_cons] at hlen hfour h ⊢
    have hafter := ih hlen (by omega) h
    have hsmall : 2 ^ (8 * old.length) ≤ 2 ^ 24 := Nat.pow_le_pow_right (by decide) (by omega)
    have hdiff := toNat_of_step_xor_lt (Nat.lt_of_lt_of_le hafter hsmall)
    -- the difference before is the one after, shifted back, and that of the bytes
    have hback : r ^^^ r' = r ^^^ r' ^^^ (b ^^^ b').toUInt32 ^^^ (b ^^^ b').toUInt32 := by
      rw [UInt32.xor_assoc, UInt32.xor_self, UInt32.xor_zero]
    rw [hback, UInt32.toNat_xor, hdiff]
    have hpow : 2 ^ (8 * (old.length + 1)) = 2 ^ 8 * 2 ^ (8 * old.length) := by
      rw [← Nat.pow_add]
      congr 1
      omega
    refine Nat.xor_lt_two_pow (by omega) ?_
    calc (b ^^^ b').toUInt32.toNat < 2 ^ 8 := toNat_toUInt32_lt _
      _ ≤ 2 ^ (8 * (old.length + 1)) := Nat.pow_le_pow_right (by decide) (by omega)

/-- Up to four bytes are told by the register they leave. -/
theorem foldl_step_injective {old new : Bytes} {r : UInt32} (hlen : old.length = new.length)
    (hfour : old.length ≤ 4) (h : old.foldl step r = new.foldl step r) : old = new := by
  induction old generalizing new r with
  | nil => exact (List.eq_nil_of_length_eq_zero hlen.symm).symm
  | cons b old ih =>
    obtain ⟨b', new, rfl⟩ := List.exists_cons_of_length_eq_add_one hlen.symm
    simp only [List.length_cons, Nat.add_right_cancel_iff, List.foldl_cons] at hlen hfour h ⊢
    have hafter := toNat_xor_lt_of_foldl_eq hlen (by omega) h
    have hsmall : 2 ^ (8 * old.length) ≤ 2 ^ 24 := Nat.pow_le_pow_right (by decide) (by omega)
    have hdiff := toNat_of_step_xor_lt (Nat.lt_of_lt_of_le hafter hsmall)
    -- a byte is less than `2 ^ 8`, and so no multiple of it but zero
    have hbyte := toNat_toUInt32_lt (b ^^^ b')
    rw [UInt32.xor_self, UInt32.zero_xor] at hdiff
    have hzero : (b ^^^ b').toUInt32.toNat = 0 := by omega
    rw [UInt8.toNat_toUInt32] at hzero
    have hb : b = b' := UInt8.xor_eq_zero_iff.1 (UInt8.toNat_inj.1 hzero)
    subst hb
    rw [ih hlen (by omega) h]

/-- **A burst changes the checksum.** Byte strings that differ within four consecutive bytes have
    different checksums, whatever stands before and behind these bytes. -/
theorem checksum_ne_of_burst {old new : Bytes} (before after : Bytes)
    (hlen : old.length = new.length) (hfour : old.length ≤ 4) (hne : old ≠ new) :
    checksum (before ++ old ++ after) ≠ checksum (before ++ new ++ after) := by
  intro h
  simp only [checksum, List.foldl_append, UInt32.xor_left_inj] at h
  exact hne (foldl_step_injective hlen hfour (foldl_step_left_injective h))

end Logbook.Crc32
