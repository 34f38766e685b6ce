import Mathlib.Data.BitVec
import Mathlib.Tactic.Ring

/-!
# Shifts of words

A field of a word is sign-extended by two shifts, and a product with a fixed-point factor is taken
apart at the shift, or at the middle of the word; whichever it is, the result is the same.
-/

namespace Shifts

/-! ## Extension by two shifts -/

section Extension

variable {n w : Nat} (x : BitVec n)

/-- Up and arithmetically down again: the lower bits with their sign. -/
theorem sshiftRight_shiftLeft (hw : 0 < w) (hn : w ≤ n) :
    (x <<< (n - w)).sshiftRight (n - w) = (x.setWidth w).signExtend n := by
  ext i hi
  rw [BitVec.getElem_sshiftRight, BitVec.getElem_signExtend, BitVec.msb_shiftLeft,
    BitVec.msb_setWidth, BitVec.getMsbD_eq_getLsbD]
  by_cases hlow : i < w
  · rw [dif_pos (show n - w + i < n by omega), dif_pos hlow]
    simp [BitVec.getLsbD_eq_getElem hi]
  · rw [dif_neg (show ¬ n - w + i < n by omega), dif_neg hlow]
    simp [hw, show n - w < n by omega, show n - 1 - (n - w) = w - 1 by omega]

/-- Up and down again: the lower bits. -/
theorem toNat_ushiftRight_shiftLeft (hn : w ≤ n) :
    ((x <<< (n - w)) >>> (n - w)).toNat = x.toNat % 2 ^ w := by
  rw [BitVec.toNat_ushiftRight, BitVec.toNat_shiftLeft, Nat.shiftLeft_eq, Nat.shiftRight_eq_div_pow]
  have hpow : 2 ^ n = 2 ^ w * 2 ^ (n - w) := by
    rw [← Nat.pow_add, Nat.add_sub_cancel' hn]
  rw [hpow, Nat.mul_mod_mul_right, Nat.mul_div_cancel _ (Nat.two_pow_pos _)]

theorem ushiftRight_shiftLeft_eq_iff (hn : w ≤ n) :
    (x <<< (n - w)) >>> (n - w) = x ↔ x.toNat < 2 ^ w := by
  rw [← BitVec.toNat_inj, toNat_ushiftRight_shiftLeft x hn]
  exact Nat.mod_eq_iff_lt (Nat.two_pow_pos w).ne'

/-- A word below `2^w` is a signed number that is not negative, unless it has `w` bits. -/
theorem toNat_lt_iff (hn : w ≤ n) :
    x.toNat < 2 ^ w ↔ w = n ∨ 0 ≤ x.toInt ∧ x.toInt < 2 ^ w := by
  have hlt := x.isLt
  rw [BitVec.toInt_eq_toNat_cond]
  obtain rfl | hne := Nat.eq_or_lt_of_le hn
  · exact iff_of_true hlt (.inl rfl)
  · have hpow : 2 * 2 ^ w ≤ 2 ^ n := by
      rw [← Nat.pow_succ']
      exact Nat.pow_le_pow_right (by decide) hne
    have hcast : ((2 ^ w : Nat) : Int) = 2 ^ w := by push_cast; rfl
    rw [← hcast]
    split
    · omega
    · omega

end Extension

/-! ## Products with a fixed-point factor -/

section Product

variable {a m s : Nat}

/-- Any part of the multiplicand that is divisible may be divided first. -/
theorem mul_div_split (q r : Nat) (ha : a = r + q * 2 ^ s) : q * m + r * m / 2 ^ s = a * m / 2 ^ s := by
  have hsplit : a * m = r * m + q * m * 2 ^ s := by
    rw [ha]
    ring
  rw [hsplit, Nat.add_mul_div_right _ _ (Nat.two_pow_pos s), Nat.add_comm]

/-- At the shift. -/
theorem mul_div_quot_rem : a / 2 ^ s * m + a % 2 ^ s * m / 2 ^ s = a * m / 2 ^ s := by
  apply mul_div_split
  rw [Nat.mul_comm, Nat.mod_add_div]

/-- At bit 32. -/
theorem mul_div_halves (hs : s ≤ 32) :
    a % 2 ^ 32 * m / 2 ^ s + a / 2 ^ 32 * m * 2 ^ (32 - s) = a * m / 2 ^ s := by
  have hpow : 2 ^ (32 - s) * 2 ^ s = 2 ^ 32 := by
    rw [← Nat.pow_add, Nat.sub_add_cancel hs]
  have hsplit : a = a % 2 ^ 32 + a / 2 ^ 32 * 2 ^ (32 - s) * 2 ^ s := by
    rw [Nat.mul_assoc, hpow, Nat.mul_comm, Nat.mod_add_div]
  rw [← mul_div_split _ _ hsplit]
  ring

end Product

end Shifts
