import Mathlib.Data.List.Forall2
import PerfEventTests.ParseRecord.Reader

/-!
# Names of bits

Some values of a sample are printed by name. The fields of the header say which bit a name is for;
the reader goes through masks, and clears bits on the way.
-/

namespace PerfEvent.ParseRecord

/-! ## What the header says -/

/-- The register ABIs. -/
def regsAbis : List (Nat × String) := [
  (perfSampleRegsAbiNone, "PERF_SAMPLE_REGS_ABI_NONE"), (perfSampleRegsAbi32, "PERF_SAMPLE_REGS_ABI_32"),
  (perfSampleRegsAbi64, "PERF_SAMPLE_REGS_ABI_64")]

/-- The first four fields of `struct perf_branch_entry` behind its addresses. -/
def branchFlags : List (Nat × String) :=
  [(0, "MISPREDICTED "), (1, "PREDICTED "), (2, "IN_TRANSACTION "), (3, "TRANSACTION_ABORT ")]

/-- The first five fields of `union perf_mem_data_src`: where each starts, and its bits. -/
def dataSrcFields : List (Nat × List String) := [
  (0, ["Op Not available ", "Load ", "Store ", "Prefetch ", "Executable code "]),
  (5, ["Level Not available ", "Hit ", "Miss ", "L1 cache ", "Line fill buffer ", "L2 cache ",
    "L3 cache ", "Local DRAM ", "Remote DRAM 1 hop ", "Remote DRAM 2 hops ", "Remote cache 1 hop ",
    "Remote cache 2 hops ", "I/O memory ", "Uncached memory "]),
  (19, ["Not available ", "No snoop ", "Snoop hit ", "Snoop miss ", "Snoop hit modified "]),
  (24, ["Not available ", "Locked transaction "]),
  (26, ["Not available ", "Hit ", "Miss ", "Level 1 TLB ", "Level 2 TLB ", "Hardware walker ",
    "OS fault handler "])]

def dataSrcBits : List (Nat × String) :=
  dataSrcFields.flatMap fun f => f.2.zipIdx.map fun x => (f.1 + x.2, x.1)

/-- The names of the bits of a value that are set. -/
def bitNames (bits : List (Nat × String)) (v : UInt64) : List String :=
  (bits.filter fun x => v.toNat.testBit x.1).map (·.2)

def shownAbi (abi : UInt64) : List String := (regsAbis.filter fun x => abi.toNat = x.1).map (·.2)

/-- Flags of which none is set are printed as a zero. -/
def shownFlags (flags : UInt64) : List String :=
  (if flags.toNat = 0 then ["0"] else []) ++ bitNames branchFlags flags

/-! ## Masks -/

theorem and_twoPow_ne_zero {v : BitVec 64} {j : Nat} (hj : j < 64) :
    v &&& BitVec.twoPow 64 j ≠ 0 ↔ v.getLsbD j = true := by
  have hbit : BitVec.twoPow 64 j ≠ 0#64 := by
    intro hzero
    have hget := congrArg (·.getLsbD j) hzero
    simp [hj] at hget
  rw [BitVec.and_twoPow]
  cases v.getLsbD j with
  | true => exact iff_of_true hbit rfl
  | false => exact iff_of_false (fun h => h rfl) (by decide)

theorem getLsbD_ofNat_toNat (v : UInt64) {j : Nat} (hj : j < 64) :
    (BitVec.ofNat 64 v.toNat).getLsbD j = v.toNat.testBit j := by
  rw [BitVec.getLsbD_ofNat, decide_eq_true hj, Bool.true_and]

/-- A test with a mask of one bit. -/
theorem and_mask_ne_zero (v : UInt64) {mask : BitVec 64} {j : Nat} (hj : j < 64)
    (hmask : mask = BitVec.twoPow 64 j) :
    BitVec.ofNat 64 v.toNat &&& mask ≠ 0 ↔ v.toNat.testBit j = true := by
  rw [hmask, and_twoPow_ne_zero hj, getLsbD_ofNat_toNat v hj]

/-- The same names are taken from two tables whose entries agree on what is tested. -/
theorem filter_names {α β : Type} {p : α → Bool} {q : β → Bool} {f : α → String} {g : β → String}
    {xs : List α} {ys : List β} (h : List.Forall₂ (fun x y => p x = q y ∧ f x = g y) xs ys) :
    (xs.filter p).map f = (ys.filter q).map g := by
  induction h with
  | nil => rfl
  | @cons x y xs ys hxy _ ih =>
    rw [List.filter_cons, List.filter_cons, hxy.1]
    split
    · rw [List.map_cons, List.map_cons, hxy.2, ih]
    · exact ih

/-! ## Branch flags -/

section Tests

variable {f g : BitVec 64} {tests : List (BitVec 64 × String × BitVec 64)}

theorem testFlags_congr (h : ∀ t ∈ tests, f &&& t.1 = g &&& t.1) :
    testFlags tests f = testFlags tests g := by
  induction tests generalizing f g with
  | nil => rfl
  | cons t tests ih =>
    obtain ⟨ht, htests⟩ := List.forall_mem_cons.1 h
    have hcleared : ∀ u ∈ tests, (f &&& ~~~t.2.2) &&& u.1 = (g &&& ~~~t.2.2) &&& u.1 := by
      intro u hu
      rw [BitVec.and_assoc, BitVec.and_comm (~~~t.2.2), ← BitVec.and_assoc, htests u hu,
        BitVec.and_assoc, BitVec.and_comm u.1, ← BitVec.and_assoc]
    unfold testFlags
    rw [ht, ih htests, ih hcleared]

/-- Where no test clears a bit that a later one looks at, all tests are made on the flags as they
are. -/
theorem testFlags_eq (h : tests.Pairwise fun t u => f &&& t.1 ≠ 0 →
    (f &&& ~~~t.2.2) &&& u.1 = f &&& u.1) :
    testFlags tests f = (tests.filter fun t => f &&& t.1 ≠ 0).map (·.2.1) := by
  induction tests with
  | nil => rfl
  | cons t tests ih =>
    obtain ⟨ht, htests⟩ := List.pairwise_cons.1 h
    rw [testFlags, List.filter_cons]
    by_cases hset : f &&& t.1 ≠ 0
    · rw [if_pos hset, if_pos (decide_eq_true hset), testFlags_congr fun u hu => ht u hu hset,
        ih htests]
      rfl
    · rw [if_neg hset, if_neg (by simpa using hset), ih htests]

end Tests

theorem clear_apart {f cleared mask : BitVec 64} (h : ~~~cleared &&& mask = mask) :
    (f &&& ~~~cleared) &&& mask = f &&& mask := by
  rw [BitVec.and_assoc, h]

/-- Flags that do not say both that the branch was predicted and that it was not. -/
def OnePrediction (flags : UInt64) : Prop :=
  ¬(flags.toNat.testBit 0 = true ∧ flags.toNat.testBit 1 = true)

instance (flags : UInt64) : Decidable (OnePrediction flags) := inferInstanceAs (Decidable (¬_))

/-- The first test clears the bit of the second. -/
theorem branchFlagNames_eq {flags : UInt64} (h : OnePrediction flags) :
    branchFlagNames flags.toNat = shownFlags flags := by
  have hmis : BitVec.ofNat 64 flags.toNat &&& 1 ≠ 0 ↔ flags.toNat.testBit 0 = true :=
    and_mask_ne_zero flags (by decide) (by decide)
  have hpred : BitVec.ofNat 64 flags.toNat &&& 2 ≠ 0 ↔ flags.toNat.testBit 1 = true :=
    and_mask_ne_zero flags (by decide) (by decide)
  have hin : BitVec.ofNat 64 flags.toNat &&& 4 ≠ 0 ↔ flags.toNat.testBit 2 = true :=
    and_mask_ne_zero flags (by decide) (by decide)
  have habort : BitVec.ofNat 64 flags.toNat &&& 8 ≠ 0 ↔ flags.toNat.testBit 3 = true :=
    and_mask_ne_zero flags (by decide) (by decide)
  have htests : testFlags branchTests (BitVec.ofNat 64 flags.toNat) =
      bitNames branchFlags flags := by
    rw [testFlags_eq]
    · apply filter_names
      refine .cons ⟨?_, rfl⟩ (.cons ⟨?_, rfl⟩ (.cons ⟨?_, rfl⟩ (.cons ⟨?_, rfl⟩ .nil)))
      · exact (Bool.eq_iff_iff).2 (decide_eq_true_iff.trans hmis)
      · exact (Bool.eq_iff_iff).2 (decide_eq_true_iff.trans hpred)
      · exact (Bool.eq_iff_iff).2 (decide_eq_true_iff.trans hin)
      · exact (Bool.eq_iff_iff).2 (decide_eq_true_iff.trans habort)
    · have hsecond : BitVec.ofNat 64 flags.toNat &&& 1 ≠ 0 →
          BitVec.ofNat 64 flags.toNat &&& 2 = 0 := by
        intro hset
        by_contra hboth
        exact h ⟨hmis.1 hset, hpred.1 hboth⟩
      -- the test of MISPREDICTED clears the bit of PREDICTED, which is not set then
      have hclear : ∀ f : BitVec 64, (f &&& ~~~2) &&& 2 = 0 := by
        intro f
        rw [BitVec.and_assoc, show ~~~2 &&& 2 = 0#64 by decide]
        exact BitVec.and_zero
      unfold branchTests
      simp only [List.pairwise_cons, List.forall_mem_cons, List.not_mem_nil, false_imp_iff,
        implies_true, and_true, List.Pairwise.nil]
      refine ⟨⟨fun hset => ?_, fun _ => clear_apart (by decide), fun _ => clear_apart (by decide)⟩,
        ⟨fun _ => clear_apart (by decide), fun _ => clear_apart (by decide)⟩,
        fun _ => clear_apart (by decide)⟩
      rw [hclear, hsecond hset]
  unfold branchFlagNames shownFlags
  rw [htests]

theorem regsAbiNames_eq (abi : UInt64) : regsAbiNames abi.toNat = shownAbi abi := by
  unfold regsAbiNames shownAbi regsAbis
  simp only [List.filter_cons, List.filter_nil, decide_eq_true_eq]
  split_ifs <;> rfl

/-! ## Data sources -/

/-- The sign bits that the mask of the hardware walker has besides its own. -/
def walkerMask : BitVec 64 := intMask 0x20 26

/-- The bit of the hardware walker is set, or none of those that its mask has besides it. -/
def OneWalker (src : UInt64) : Prop := src.toNat.testBit 31 = true ∨ src.toNat < 2 ^ 32

instance (src : UInt64) : Decidable (OneWalker src) := inferInstanceAs (Decidable (_ ∨ _))

theorem and_walkerMask_ne_zero {src : UInt64} (h : OneWalker src) :
    BitVec.ofNat 64 src.toNat &&& walkerMask ≠ 0 ↔ src.toNat.testBit 31 = true := by
  obtain hbit | hsmall := h
  · refine iff_of_true (fun hzero => ?_) hbit
    have hget := congrArg (·.getLsbD 31) hzero
    rw [BitVec.getLsbD_and, getLsbD_ofNat_toNat src (by decide), hbit] at hget
    exact absurd hget (by decide)
  · -- below bit 32 the two masks are the same, and above it the value has nothing
    have hlow : ∀ j < 32, walkerMask.getLsbD j = (BitVec.twoPow 64 31).getLsbD j := by decide
    have hsame : BitVec.ofNat 64 src.toNat &&& walkerMask =
        BitVec.ofNat 64 src.toNat &&& BitVec.twoPow 64 31 := by
      apply BitVec.eq_of_getLsbD_eq
      intro j hj
      rw [BitVec.getLsbD_and, BitVec.getLsbD_and, getLsbD_ofNat_toNat src hj]
      by_cases hlt : j < 32
      · rw [hlow j hlt]
      · have hhigh : src.toNat < 2 ^ j := hsmall.trans_le (Nat.pow_le_pow_right (by decide) (by omega))
        rw [Nat.testBit_lt_two_pow hhigh, Bool.false_and, Bool.false_and]
    rw [hsame]
    exact and_mask_ne_zero src (by decide) rfl

/-- The masks are those of the bits, but for the one of the hardware walker. -/
theorem dataSrcTests_bits : List.Forall₂ (fun x y => (y.1 < 64 ∧ x.1 = BitVec.twoPow 64 y.1 ∨
    y.1 = 31 ∧ x.1 = walkerMask) ∧ x.2 = y.2) dataSrcTests dataSrcBits := by
  decide

theorem dataSrcNames_eq {src : UInt64} (h : OneWalker src) :
    dataSrcNames src.toNat = bitNames dataSrcBits src := by
  apply filter_names
  refine List.Forall₂.imp ?_ dataSrcTests_bits
  rintro x y ⟨hmask, hname⟩
  refine ⟨(Bool.eq_iff_iff).2 (decide_eq_true_iff.trans ?_), hname⟩
  obtain ⟨hlt, hmask⟩ | ⟨hbit, hmask⟩ := hmask
  · exact and_mask_ne_zero src hlt hmask
  · rw [hmask, hbit]
    exact and_walkerMask_ne_zero h

end PerfEvent.ParseRecord
