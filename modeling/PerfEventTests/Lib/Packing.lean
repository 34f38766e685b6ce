import Mathlib.Data.Prod.Lex
import Mathlib.Tactic.Linarith
import Mathlib.Tactic.Ring

/-!
# The order of packed words

Words that stand one behind the other in a longer word are compared lexicographically when the longer
word is compared; its sign is that of the first of them.
-/

namespace Packing

/-- A remainder only matters where the quotients are the same. -/
theorem mul_add_lt_iff {p a b : Int} {r s : Nat} (hr : r < p) (hs : s < p) :
    p * a + r < p * b + s ↔ toLex (a, r) < toLex (b, s) := by
  have hp : 0 ≤ p := by omega
  rw [Prod.Lex.toLex_lt_toLex]
  dsimp only
  rcases lt_trichotomy a b with h | rfl | h
  · have hmul : p * (a + 1) ≤ p * b := mul_le_mul_of_nonneg_left h hp
    rw [mul_add, mul_one] at hmul
    exact iff_of_true (by omega) (.inl h)
  · simp
  · have hmul : p * (b + 1) ≤ p * a := mul_le_mul_of_nonneg_left h hp
    rw [mul_add, mul_one] at hmul
    refine iff_of_false (by omega) ?_
    rintro (hlt | ⟨heq, -⟩) <;> omega

variable {n m : Nat} {x x' : BitVec n} {y y' : BitVec m}

theorem toNat_lt_pow (y : BitVec m) : (y.toNat : Int) < 2 ^ m := by
  have hlt := y.isLt
  exact_mod_cast hlt

theorem toInt_append_lt_iff (hn : n ≠ 0) : (x ++ y).toInt < (x' ++ y').toInt ↔
    toLex (x.toInt, y.toNat) < toLex (x'.toInt, y'.toNat) := by
  have hzero : (n == 0) = false := by simpa using hn
  rw [BitVec.toInt_append, BitVec.toInt_append, hzero]
  exact mul_add_lt_iff (toNat_lt_pow y) (toNat_lt_pow y')

theorem append_inj_iff : x ++ y = x' ++ y' ↔ x = x' ∧ y = y' := by
  refine ⟨fun h => ⟨?_, ?_⟩, fun ⟨hx, hy⟩ => by rw [hx, hy]⟩
  · rw [← BitVec.extractLsb'_append_eq_left (a := x) (b := y), h, BitVec.extractLsb'_append_eq_left]
  · rw [← BitVec.setWidth_append_eq_right (a := x) (b := y), h, BitVec.setWidth_append_eq_right]

/-- The order of three words. -/
theorem toInt_append₃_lt_iff {k : Nat} (hn : n ≠ 0) {z z' : BitVec k} :
    (x ++ y ++ z).toInt < (x' ++ y' ++ z').toInt ↔
      toLex (x.toInt, toLex (y.toNat, z.toNat)) < toLex (x'.toInt, toLex (y'.toNat, z'.toNat)) := by
  rw [toInt_append_lt_iff (by omega), Prod.Lex.toLex_lt_toLex, toInt_append_lt_iff hn, BitVec.toInt_inj,
    append_inj_iff, Prod.Lex.toLex_lt_toLex, Prod.Lex.toLex_lt_toLex]
  dsimp only
  rw [Prod.Lex.toLex_lt_toLex, BitVec.toInt_inj, BitVec.toNat_inj]
  tauto

/-- Zeros behind a word change nothing. -/
theorem toInt_append_zero_lt_iff {l : Nat} (hn : n ≠ 0) :
    (x ++ 0#l).toInt < (x' ++ 0#l).toInt ↔ x.toInt < x'.toInt := by
  rw [toInt_append_lt_iff hn, Prod.Lex.toLex_lt_toLex]
  simp

end Packing
