import Mathlib.Data.Nat.BinaryRec
import Mathlib.Data.Nat.Count
import Mathlib.Data.Nat.Bitwise

/-!
# Bits under a mask

The bits of a number are spread over the positions of a mask, the lowest first. Gathering them again
gives the number modulo the power of two for the number of positions.
-/

namespace Masks

variable {p w : Nat → Bool}

/-- The positions of a mask below `n`, in their order. -/
def positions (p : Nat → Bool) (n : Nat) : List Nat := (List.range n).filter p

/-- The number whose bits stand at these positions of a word. -/
def gather (w : Nat → Bool) : List Nat → Nat
  | [] => 0
  | k :: ks => Nat.bit (w k) (gather w ks)

theorem length_positions (n : Nat) : (positions p n).length = Nat.count (p · = true) n := by
  induction n with
  | zero => rfl
  | succ n ih =>
    rw [positions, List.range_succ, List.filter_append, List.length_append, Nat.count_succ, ← ih]
    cases hp : p n <;> simp [hp, positions]

/-- A position stands behind as many others as the mask has below it. -/
theorem count_of_getElem? {n j k : Nat} (h : (positions p n)[j]? = some k) :
    p k = true ∧ Nat.count (p · = true) k = j := by
  induction n with
  | zero => simp [positions] at h
  | succ n ih =>
    rw [positions, List.range_succ, List.filter_append] at h
    change (positions p n ++ _)[j]? = some k at h
    by_cases hj : j < (positions p n).length
    · rw [List.getElem?_append_left hj] at h
      exact ih h
    · have hle := Nat.not_lt.1 hj
      rw [List.getElem?_append_right hle] at h
      cases hp : p n with
      | false => simp [hp] at h
      | true =>
        rw [List.filter_cons_of_pos hp, List.filter_nil, List.getElem?_singleton] at h
        split at h
        case isTrue hzero =>
          cases h
          rw [← length_positions]
          exact ⟨hp, by omega⟩
        case isFalse => cases h

theorem testBit_gather (ks : List Nat) (j : Nat) : (gather w ks).testBit j = ks[j]?.any w := by
  induction ks generalizing j with
  | nil => simp [gather]
  | cons k ks ih =>
    cases j with
    | zero => simp [gather]
    | succ j => rw [gather, Nat.testBit_bit_succ, ih, List.getElem?_cons_succ]

/-- Every position of the mask has the bit of `v` whose turn it is. -/
def Deposited (v : Nat) (p w : Nat → Bool) (n : Nat) : Prop :=
  ∀ k < n, p k = true → w k = v.testBit (Nat.count (p · = true) k)

theorem gather_deposited {v n : Nat} (h : Deposited v p w n) :
    gather w (positions p n) = v % 2 ^ Nat.count (p · = true) n := by
  apply Nat.eq_of_testBit_eq
  intro j
  rw [testBit_gather, Nat.testBit_mod_two_pow, ← length_positions]
  cases hj : (positions p n)[j]? with
  | none =>
    have hlength := List.getElem?_eq_none_iff.1 hj
    simp [Nat.not_lt.2 hlength]
  | some k =>
    obtain ⟨hlt, -⟩ := List.getElem?_eq_some_iff.1 hj
    obtain ⟨hp, hcount⟩ := count_of_getElem? hj
    have hk : k < n := by
      have hmem := List.mem_of_getElem? hj
      exact List.mem_range.1 (List.mem_filter.1 hmem).1
    rw [Option.any_some, h k hk hp, hcount, decide_eq_true hlt, Bool.true_and]

/-- Below `n` only the lower bits of a number are deposited. -/
theorem testBit_of_mod_eq {v v' n k : Nat} (hk : k < n) (hp : p k = true)
    (h : v % 2 ^ Nat.count (p · = true) n = v' % 2 ^ Nat.count (p · = true) n) :
    v.testBit (Nat.count (p · = true) k) = v'.testBit (Nat.count (p · = true) k) := by
  have hlt : Nat.count (p · = true) k < Nat.count (p · = true) n := Nat.count_strict_mono hp hk
  have hbit := congrArg (Nat.testBit · (Nat.count (p · = true) k)) h
  simpa [Nat.testBit_mod_two_pow, hlt] using hbit

end Masks
