import PerfEventTests.Rdpmc.ReadSelf

/-!
# The times of a reading

The clock is read in the loop where `cap_user_time` is set and the two times differ, and it is added
behind the loop wherever they differ. So the times are those of the last round when that round has
read all of the clock, and the product with the multiplier is one that C defines.
-/

namespace PerfEvent.Rdpmc

open Shifts

/-! ## The documented times -/

/-- `cyc`, which is shorter than a word where `cap_user_time_short` is set -/
def cycles (r : Round) : BitVec 64 :=
  if r.page.capUserTimeShort then
    r.page.timeCycles + ((r.tsc - r.page.timeCycles) &&& r.page.timeMask)
  else r.tsc

def documentedDelta (r : Round) : BitVec 64 :=
  let quot := cycles r >>> r.page.timeShift.toNat
  let rem := cycles r &&& (((1 : BitVec 64) <<< r.page.timeShift.toNat) - 1)
  r.page.timeOffset + quot * r.page.timeMult.setWidth 64 +
    ((rem * r.page.timeMult.setWidth 64) >>> r.page.timeShift.toNat)

/-- The documented loop reads no clock where an event has run all the time that it was enabled. -/
def timeIncrease (r : Round) : BitVec 64 :=
  if r.page.ReadsClock then documentedDelta r else 0

/-! ## The product -/

section Product

variable {wild : Wild} {a : BitVec 64} {m : BitVec 32} {s : BitVec 16}

/-- Both shifts of the product have counts that C defines. -/
def ProductDefined (a : BitVec 64) (s : BitVec 16) : Prop :=
  s.toNat ≤ 32 ∨ s.toNat < 64 ∧ a.toNat < 2 ^ 32

theorem toNat_mulU32U32 (x y : BitVec 32) : (mulU32U32 x y).toNat = x.toNat * y.toNat := by
  have hlt : x.toNat * y.toNat < 2 ^ 32 * 2 ^ 32 := Nat.mul_lt_mul'' x.isLt y.isLt
  rw [mulU32U32, BitVec.toNat_mul, BitVec.toNat_setWidth_of_le (by decide),
    BitVec.toNat_setWidth_of_le (by decide)]
  exact Nat.mod_eq_of_lt hlt

theorem setWidth_factor (m : BitVec 32) : (m.setWidth 64).setWidth 32 = m :=
  BitVec.setWidth_setWidth_of_le m (by decide)

theorem toNat_shift (s : BitVec 16) : (s.setWidth 32).toNat = s.toNat :=
  BitVec.toNat_setWidth_of_le (by decide)

theorem toNat_low (a : BitVec 64) : (a.setWidth 32).toNat = a.toNat % 2 ^ 32 :=
  BitVec.toNat_setWidth 32 a

theorem toNat_high (a : BitVec 64) : ((a >>> 32).setWidth 32).toNat = a.toNat / 2 ^ 32 := by
  rw [BitVec.toNat_setWidth, BitVec.toNat_ushiftRight, Nat.shiftRight_eq_div_pow]
  exact Nat.mod_eq_of_lt (Nat.div_lt_of_lt_mul a.isLt)

theorem high_eq_zero_iff : (a >>> 32).setWidth 32 = 0 ↔ a.toNat < 2 ^ 32 := by
  rw [← BitVec.toNat_inj, toNat_high]
  exact Nat.div_eq_zero_iff_lt (by decide)

theorem toNat_mulU64U32Shr (h : ProductDefined a s) :
    (mulU64U32Shr wild a (m.setWidth 64) (s.setWidth 32)).toNat =
      a.toNat * m.toNat / 2 ^ s.toNat % 2 ^ 64 := by
  have hlt : (s.setWidth 32).toNat < 64 := by
    rw [toNat_shift]
    rcases h with h | h <;> omega
  have hright : (shr wild (mulU32U32 (a.setWidth 32) m) (s.setWidth 32)).toNat =
      a.toNat % 2 ^ 32 * m.toNat / 2 ^ s.toNat := by
    rw [shr, shiftBy_of_lt hlt, toNat_shift, BitVec.toNat_ushiftRight, toNat_mulU32U32, toNat_low,
      Nat.shiftRight_eq_div_pow]
  simp only [mulU64U32Shr, setWidth_factor]
  by_cases hhigh : (a >>> 32).setWidth 32 = 0
  · have hsmall := high_eq_zero_iff.1 hhigh
    rw [if_neg (not_not.2 hhigh), ← Nat.mod_eq_of_lt (BitVec.isLt _), hright,
      Nat.mod_eq_of_lt hsmall]
  · have hs : s.toNat ≤ 32 := by
      rcases h with h | h
      · exact h
      · exact absurd (high_eq_zero_iff.2 h.2) hhigh
    have hcount : (32 - s.setWidth 32).toNat = 32 - s.toNat := by
      rw [BitVec.toNat_sub, toNat_shift]
      change (2 ^ 32 - s.toNat + 32) % 2 ^ 32 = _
      omega
    have hleft : (shl wild (mulU32U32 ((a >>> 32).setWidth 32) m) (32 - s.setWidth 32)).toNat =
        a.toNat / 2 ^ 32 * m.toNat * 2 ^ (32 - s.toNat) % 2 ^ 64 := by
      rw [shl, shiftBy_of_lt (by omega), hcount, BitVec.toNat_shiftLeft, toNat_mulU32U32,
        toNat_high, Nat.shiftLeft_eq]
    rw [if_pos hhigh, BitVec.toNat_add, hright, hleft, Nat.add_mod_mod, mul_div_halves hs]

/-- The documented product: it is taken apart at the shift. -/
def product (a : BitVec 64) (m : BitVec 32) (s : BitVec 16) : BitVec 64 :=
  (a >>> s.toNat) * m.setWidth 64 +
    (((a &&& (((1 : BitVec 64) <<< s.toNat) - 1)) * m.setWidth 64) >>> s.toNat)

theorem toNat_rem (hs : s.toNat < 64) :
    (a &&& (((1 : BitVec 64) <<< s.toNat) - 1)).toNat = a.toNat % 2 ^ s.toNat := by
  have hmask : (((1 : BitVec 64) <<< s.toNat) - 1).toNat = 2 ^ s.toNat - 1 := by
    have hlt : 2 ^ s.toNat < 2 ^ 64 := Nat.pow_lt_pow_right (by decide) hs
    have hpos := Nat.two_pow_pos s.toNat
    rw [BitVec.toNat_sub, BitVec.toNat_shiftLeft, Nat.shiftLeft_eq]
    change (2 ^ 64 - 1 + 1 * 2 ^ s.toNat % 2 ^ 64) % 2 ^ 64 = _
    rw [Nat.one_mul, Nat.mod_eq_of_lt hlt]
    omega
  rw [BitVec.toNat_and, hmask, Nat.and_two_pow_sub_one_eq_mod]

theorem toNat_product (h : ProductDefined a s) :
    (product a m s).toNat = a.toNat * m.toNat / 2 ^ s.toNat % 2 ^ 64 := by
  have hs : s.toNat < 64 := by rcases h with h | h <;> omega
  have hrem : a.toNat % 2 ^ s.toNat < 2 ^ 32 := by
    rcases h with h | h
    · exact Nat.lt_of_lt_of_le (Nat.mod_lt _ (Nat.two_pow_pos _)) (Nat.pow_le_pow_right (by decide) h)
    · exact Nat.lt_of_le_of_lt (Nat.mod_le _ _) h.2
  have hmul : a.toNat % 2 ^ s.toNat * m.toNat < 2 ^ 64 := by
    have hlt : a.toNat % 2 ^ s.toNat * m.toNat < 2 ^ 32 * 2 ^ 32 := Nat.mul_lt_mul'' hrem m.isLt
    exact hlt
  rw [product, BitVec.toNat_add, BitVec.toNat_mul, BitVec.toNat_ushiftRight,
    BitVec.toNat_ushiftRight, BitVec.toNat_mul, toNat_rem hs,
    BitVec.toNat_setWidth_of_le (by decide), Nat.shiftRight_eq_div_pow, Nat.shiftRight_eq_div_pow,
    Nat.mod_eq_of_lt hmul, Nat.mod_add_mod, mul_div_quot_rem]

theorem mulU64U32Shr_eq (h : ProductDefined a s) :
    mulU64U32Shr wild a (m.setWidth 64) (s.setWidth 32) = product a m s := by
  apply BitVec.eq_of_toNat_eq
  rw [toNat_mulU64U32Shr h, toNat_product h]

/-- The documented formula, of the values that a round reads. -/
def quotRemTime (timeOffset cyc : BitVec 64) (timeMult timeShift : BitVec 32) : BitVec 64 :=
  let quot := cyc >>> timeShift.toNat
  let rem := cyc &&& (((1 : BitVec 64) <<< timeShift.toNat) - 1)
  timeOffset + quot * timeMult.setWidth 64 + ((rem * timeMult.setWidth 64) >>> timeShift.toNat)

theorem mulU64U32Shr_quotRemTime (wild : Wild) (shift : BitVec 32) (hshift : shift.toNat ≤ 32) :
    (∀ (a : BitVec 64) (b : BitVec 32), (mulU64U32Shr wild a (b.setWidth 64) shift).toNat =
      a.toNat * b.toNat / 2 ^ shift.toNat % 2 ^ 64) ∧
    ∀ (timeOffset cyc : BitVec 64) (timeMult : BitVec 32),
      timeOffset + mulU64U32Shr wild cyc (timeMult.setWidth 64) shift =
        quotRemTime timeOffset cyc timeMult shift := by
  -- such a count is one of the counts that the page has
  have hnat : (shift.setWidth 16).toNat = shift.toNat := by
    rw [BitVec.toNat_setWidth]
    exact Nat.mod_eq_of_lt (by omega)
  have hshort : (shift.setWidth 16).setWidth 32 = shift := by
    apply BitVec.eq_of_toNat_eq
    rw [toNat_shift, hnat]
  have hdefined (a : BitVec 64) : ProductDefined a (shift.setWidth 16) := .inl (hnat ▸ hshift)
  constructor
  · intro a b
    rw [← hnat, ← toNat_mulU64U32Shr (hdefined a), hshort]
  · intro timeOffset cyc timeMult
    have hproduct : mulU64U32Shr wild cyc (timeMult.setWidth 64) ((shift.setWidth 16).setWidth 32) =
        product cyc timeMult (shift.setWidth 16) :=
      mulU64U32Shr_eq (hdefined cyc)
    rw [hshort, product, hnat] at hproduct
    rw [hproduct, quotRemTime, BitVec.add_assoc]

theorem mulU64U32Shr_quotRemTime_top :
    (mulU64U32Shr (fun v _ => v) (BitVec.allOnes 64) ((BitVec.allOnes 32).setWidth 64) 32).toNat =
      (2 ^ 64 - 1) * (2 ^ 32 - 1) / 2 ^ 32 % 2 ^ 64 ∧
    1 + mulU64U32Shr (fun v _ => v) 5 ((3 : BitVec 32).setWidth 64) 32 = quotRemTime 1 5 3 32 :=
  have h := mulU64U32Shr_quotRemTime (fun v _ => v) 32 (by decide)
  ⟨h.1 (BitVec.allOnes 64) (BitVec.allOnes 32), h.2 1 5 3⟩

/-- Where C does not define a shift, the product is no particular value. -/
theorem exists_mulU64U32Shr_ne (h : ¬ ProductDefined a s) (v : BitVec 64) :
    ∃ wild, mulU64U32Shr wild a (m.setWidth 64) (s.setWidth 32) ≠ v := by
  by_contra hall
  push Not at hall
  have hsame := (hall fun _ _ => 0).trans (hall fun _ _ => 1).symm
  unfold ProductDefined at h
  push Not at h
  obtain ⟨hs, hlarge⟩ := h
  have hcount : ¬ (32 - s.setWidth 32).toNat < 64 := by
    have hs' := s.isLt
    rw [BitVec.toNat_sub, toNat_shift]
    change ¬ (2 ^ 32 - s.toNat + 32) % 2 ^ 32 < 64
    omega
  have hleft (k x : BitVec 64) : shl (fun _ _ => k) x (32 - s.setWidth 32) = k := if_neg hcount
  by_cases hshift : s.toNat < 64
  · have hhigh : ¬ (a >>> 32).setWidth 32 = 0 := fun hzero =>
      absurd (high_eq_zero_iff.1 hzero) (Nat.not_lt.2 (hlarge hshift))
    have hright (k x : BitVec 64) : shr (fun _ _ => k) x (s.setWidth 32) = x >>> s.toNat := by
      rw [shr, shiftBy_of_lt (by rwa [toNat_shift]), toNat_shift]
    simp only [mulU64U32Shr, if_pos hhigh, hleft, hright] at hsame
    exact absurd ((BitVec.add_right_inj _).1 hsame) (by decide)
  · have hright (k x : BitVec 64) : shr (fun _ _ => k) x (s.setWidth 32) = k :=
      if_neg (by rwa [toNat_shift])
    by_cases hhigh : (a >>> 32).setWidth 32 = 0
    · simp only [mulU64U32Shr, hhigh, ne_eq, not_true_eq_false, if_false, hright] at hsame
      exact absurd hsame (by decide)
    · simp only [mulU64U32Shr, if_pos hhigh, hleft, hright] at hsame
      exact absurd hsame (by decide)

/-- The product depends on the cycles, unless the factor is zero. -/
theorem exists_product_ne (hm : m ≠ 0 ∨ 32 < s.toNat) (v : BitVec 64) :
    ∃ wild a, mulU64U32Shr wild a (m.setWidth 64) (s.setWidth 32) ≠ v := by
  by_cases hs : 32 < s.toNat
  · have hundefined : ¬ ProductDefined (2 ^ 32 : BitVec 64) s := by
      rintro (h | ⟨-, h⟩)
      · omega
      · exact absurd h (by decide)
    obtain ⟨wild, hne⟩ := exists_mulU64U32Shr_ne hundefined v
    exact ⟨wild, _, hne⟩
  · have hm' : m ≠ 0 := hm.resolve_right hs
    have hs' : s.toNat ≤ 32 := Nat.not_lt.1 hs
    by_contra hall
    push Not at hall
    have hpow : (BitVec.ofNat 64 (2 ^ s.toNat)).toNat = 2 ^ s.toNat := by
      rw [BitVec.toNat_ofNat]
      exact Nat.mod_eq_of_lt (Nat.pow_lt_pow_right (by decide) (by omega))
    have hsame := congrArg BitVec.toNat ((hall (fun _ _ => 0) 0).trans
      (hall (fun _ _ => 0) (BitVec.ofNat 64 (2 ^ s.toNat))).symm)
    rw [toNat_mulU64U32Shr (.inl hs'), toNat_mulU64U32Shr (.inl hs'), hpow,
      Nat.mul_div_cancel_left _ (Nat.two_pow_pos _)] at hsame
    have hmul : m.toNat % 2 ^ 64 = m.toNat := Nat.mod_eq_of_lt (Nat.lt_trans m.isLt (by decide))
    rw [hmul] at hsame
    apply hm'
    apply BitVec.eq_of_toNat_eq
    simpa using hsame.symm

end Product

theorem documentedDelta_eq (r : Round) : documentedDelta r = r.page.timeOffset +
    product (cycles r) r.page.timeMult r.page.timeShift :=
  BitVec.add_assoc ..

/-! ## What the rounds leave -/

section Rounds

variable {c : Clock} {r : Round} {rs : List Round}

/-- The round takes the cycles and the mask of a short clock. -/
def Round.ReadsShort (r : Round) : Prop := r.page.ReadsClock ∧ r.page.capUserTimeShort

theorem readClock_of_not (h : ¬ r.page.ReadsClock) : readClock c r = c := if_neg h

/-- A round that reads the clock, but not a short one. -/
theorem readClock_long (h : r.page.ReadsClock) (hshort : r.page.capUserTimeShort = false) :
    readClock c r = ⟨r.tsc, r.page.timeOffset, r.page.timeMult, r.page.timeShift.setWidth 32,
      c.timeCycles, c.timeMask⟩ := by
  rw [readClock, if_pos h, hshort]
  rfl

theorem readClock_short (h : r.page.ReadsClock) (hshort : r.page.capUserTimeShort = true) :
    readClock c r = ⟨r.tsc, r.page.timeOffset, r.page.timeMult, r.page.timeShift.setWidth 32,
      r.page.timeCycles, r.page.timeMask⟩ := by
  rw [readClock, if_pos h, hshort]
  rfl

/-- The cycles and the mask that are left. -/
def Clock.shortPart (c : Clock) : BitVec 64 × BitVec 64 := (c.timeCycles, c.timeMask)

theorem shortPart_readClock (h : ¬ r.ReadsShort) : (readClock c r).shortPart = c.shortPart := by
  by_cases hclock : r.page.ReadsClock
  · have hlong : r.page.capUserTimeShort = false := by
      simpa [Round.ReadsShort, hclock] using h
    rw [readClock_long hclock hlong]
    rfl
  · rw [readClock_of_not hclock]

theorem shortPart_readClock_short (h : r.ReadsShort) :
    (readClock c r).shortPart = (r.page.timeCycles, r.page.timeMask) := by
  rw [readClock_short h.1 h.2]
  rfl

theorem shortPart_foldl (h : ∀ r ∈ rs, ¬ r.ReadsShort) :
    (rs.foldl readClock c).shortPart = c.shortPart := by
  induction rs generalizing c with
  | nil => rfl
  | cons r rs ih =>
    rw [List.foldl_cons, ih fun q hq => h q (List.mem_cons_of_mem r hq),
      shortPart_readClock (h r (List.mem_cons_self ..))]

/-- Where all short clocks that are found are the same, it is the one that is left. -/
theorem shortPart_foldl_short {p : BitVec 64 × BitVec 64}
    (hp : ∀ r ∈ rs, (r.page.timeCycles, r.page.timeMask) = p)
    (h : c.shortPart = p ∨ ∃ r ∈ rs, r.ReadsShort) : (rs.foldl readClock c).shortPart = p := by
  induction rs generalizing c with
  | nil =>
    obtain h | ⟨r, hr, -⟩ := h
    · exact h
    · exact absurd hr (List.not_mem_nil)
  | cons r rs ih =>
    rw [List.foldl_cons]
    apply ih fun q hq => hp q (List.mem_cons_of_mem r hq)
    by_cases hshort : r.ReadsShort
    · exact .inl ((shortPart_readClock_short hshort).trans (hp r (List.mem_cons_self ..)))
    · rw [shortPart_readClock hshort]
      refine h.imp_right ?_
      rintro ⟨q, hq, hread⟩
      obtain rfl | hq := List.mem_cons.1 hq
      · exact absurd hread hshort
      · exact ⟨q, hq, hread⟩

end Rounds

/-! ## Reported times -/

/-- Two rounds that read the same parts of the clock, whatever they find there. -/
def Alike (r r' : Round) : Prop :=
  (r.page.ReadsClock ↔ r'.page.ReadsClock) ∧ r.page.capUserTimeShort = r'.page.capUserTimeShort

theorem Alike.readsShort {r r' : Round} (h : Alike r r') (hread : r'.ReadsShort) : r.ReadsShort :=
  ⟨h.1.2 hread.1, h.2.trans hread.2⟩

theorem not_readsShort_of_alike {rs rs' : List Round} (h : List.Forall₂ Alike rs rs')
    (hnone : ∀ r ∈ rs, ¬ r.ReadsShort) : ∀ r ∈ rs', ¬ r.ReadsShort := by
  induction h with
  | nil => simp
  | cons hr _ ih =>
    rw [List.forall_mem_cons] at hnone ⊢
    exact ⟨fun hread => hnone.1 (hr.readsShort hread), ih hnone.2⟩

/-- The call reports the times of the last round, and it would do so whatever the discarded rounds
had found of the clock, and whatever the variables without an initial value have. -/
def TimesRight (d : Reading) : Prop :=
  ∀ d' : Reading, d'.last = d.last → List.Forall₂ Alike d.discarded d'.discarded →
    ∀ wild en ru later cyc timeMult timeShift, ∃ count,
      mmapReadSelf wild en ru (d'.rounds ++ later) (Clock.initial cyc timeMult timeShift) =
        some ⟨count, if en then some (d.last.page.timeEnabled + timeIncrease d.last) else none,
          if ru then some (d.last.page.timeRunning + timeIncrease d.last) else none⟩

/-- The last round has taken all of the clock that it uses, and its product is defined. -/
def TakesClock (d : Reading) : Prop :=
  (d.last.page.capUserTimeShort ∨ ∀ r ∈ d.discarded, ¬ r.ReadsShort) ∧
      ProductDefined (cycles d.last) d.last.page.timeShift ∨
    d.last.page.timeMult = 0 ∧ d.last.page.timeShift.toNat ≤ 32

/-- The reading with other values of the clock in the discarded rounds. -/
def Round.stale (timeCycles timeMask : BitVec 64) (r : Round) : Round :=
  { r with
    tsc := 1
    page := { r.page with
      timeOffset := 0
      timeMult := 1
      timeShift := 0
      timeCycles := timeCycles
      timeMask := timeMask } }

theorem Round.stale_alike (timeCycles timeMask : BitVec 64) (r : Round) :
    Alike r (r.stale timeCycles timeMask) :=
  ⟨Iff.rfl, rfl⟩

def Reading.stale (timeCycles timeMask : BitVec 64) (d : Reading) : Reading where
  discarded := d.discarded.map (Round.stale timeCycles timeMask)
  last := d.last
  allowed := by
    intro r hr
    obtain rfl | hr := List.mem_cons.1 hr
    · exact d.allowed _ (List.mem_cons_self ..)
    · obtain ⟨q, hq, rfl⟩ := List.mem_map.1 hr
      exact d.allowed q (List.mem_cons_of_mem _ hq)
  changed := by
    intro r hr
    obtain ⟨q, hq, rfl⟩ := List.mem_map.1 hr
    exact d.changed q hq
  unchanged := d.unchanged

theorem Reading.stale_alike (timeCycles timeMask : BitVec 64) (d : Reading) :
    List.Forall₂ Alike d.discarded (d.stale timeCycles timeMask).discarded := by
  apply List.forall₂_map_right_iff.2
  apply List.forall₂_same.2
  exact fun r _ => Round.stale_alike timeCycles timeMask r

/-- What the call adds to the times. -/
def added (wild : Wild) (r : Round) (c : Clock) : BitVec 64 :=
  if r.page.timeEnabled ≠ r.page.timeRunning then timeDelta wild c else 0

theorem report_eq (wild : Wild) (en ru : Bool) {r : Round} (hindex : r.page.index ≠ 0) (c : Clock) :
    report wild en ru r c = ⟨readCount wild r,
      if en then some (r.page.timeEnabled + added wild r c) else none,
      if ru then some (r.page.timeRunning + added wild r c) else none⟩ := by
  by_cases hne : r.page.timeEnabled ≠ r.page.timeRunning
  · simp only [report, added, if_pos hne, if_pos hindex]
  · simp only [report, added, if_neg hne]
    rw [add_zero, add_zero]

theorem timesRight_iff (d : Reading) : TimesRight d ↔
    ∀ d' : Reading, d'.last = d.last → List.Forall₂ Alike d.discarded d'.discarded →
      ∀ wild cyc timeMult timeShift,
        added wild d.last (d'.clock (Clock.initial cyc timeMult timeShift)) = timeIncrease d.last := by
  have hrun (d' : Reading) (hlast : d'.last = d.last) (wild : Wild) (en ru : Bool)
      (later : List Round) (c : Clock) : mmapReadSelf wild en ru (d'.rounds ++ later) c =
        some ⟨readCount wild d.last,
          if en then some (d.last.page.timeEnabled + added wild d.last (d'.clock c)) else none,
          if ru then some (d.last.page.timeRunning + added wild d.last (d'.clock c)) else none⟩ := by
    rw [d'.mmapReadSelf_rounds, hlast,
      report_eq wild en ru (d.allowed d.last (List.mem_cons_self ..)).2]
  constructor
  · intro h d' hlast halike wild cyc timeMult timeShift
    obtain ⟨count, hcount⟩ := h d' hlast halike wild true true [] cyc timeMult timeShift
    rw [hrun d' hlast] at hcount
    injection hcount with hresult
    injection hresult with _ henabled _
    exact (BitVec.add_right_inj _).1 (Option.some.inj henabled)
  · intro h d' hlast halike wild en ru later cyc timeMult timeShift
    refine ⟨readCount wild d.last, ?_⟩
    rw [hrun d' hlast, h d' hlast halike]

/-- The cycles that the call uses, from what the discarded rounds leave. -/
def usedCycles (r : Round) (left : BitVec 64 × BitVec 64) : BitVec 64 :=
  if r.page.capUserTimeShort then cycles r else left.1 + ((r.tsc - left.1) &&& left.2)

theorem timeDelta_readClock {wild : Wild} {r : Round} {c : Clock} (hr : r.page.ReadsClock) :
    timeDelta wild (readClock c r) = r.page.timeOffset +
      mulU64U32Shr wild (usedCycles r c.shortPart) (r.page.timeMult.setWidth 64)
        (r.page.timeShift.setWidth 32) := by
  cases hshort : r.page.capUserTimeShort with
  | false =>
    rw [readClock_long hr hshort]
    simp only [usedCycles, hshort]
    rfl
  | true =>
    rw [readClock_short hr hshort]
    simp only [timeDelta, usedCycles, cycles, hshort, if_true]

/-- Nothing is left of a short clock, or the last round has its own. -/
theorem usedCycles_initial {r : Round} {left : BitVec 64 × BitVec 64}
    (h : r.page.capUserTimeShort ∨ left = (0, BitVec.allOnes 64)) : usedCycles r left = cycles r := by
  unfold usedCycles
  split
  case isTrue => rfl
  case isFalse hlong =>
    rw [h.resolve_left hlong, cycles, if_neg hlong]
    change 0 + ((r.tsc - 0) &&& BitVec.allOnes 64) = r.tsc
    rw [zero_add, sub_zero, BitVec.and_allOnes]

theorem timesRight_of_takesClock {d : Reading}
    (h : d.last.page.timeEnabled ≠ d.last.page.timeRunning →
      d.last.page.capUserTime ∧ TakesClock d) : TimesRight d := by
  rw [timesRight_iff]
  intro d' hlast halike wild cyc timeMult timeShift
  by_cases hne : d.last.page.timeEnabled ≠ d.last.page.timeRunning
  · obtain ⟨hcap, htakes⟩ := h hne
    have hclock : d.last.page.ReadsClock := ⟨hcap, hne⟩
    rw [added, if_pos hne, timeIncrease, if_pos hclock, Reading.clock, hlast,
      timeDelta_readClock hclock, documentedDelta_eq]
    congr 1
    obtain ⟨hshort, hdefined⟩ | ⟨hzero, hshift⟩ := htakes
    · have hleft : d.last.page.capUserTimeShort ∨
          (d'.discarded.foldl readClock (Clock.initial cyc timeMult timeShift)).shortPart =
            (0, BitVec.allOnes 64) := by
        refine hshort.imp_right fun hnone => ?_
        rw [shortPart_foldl]
        · rfl
        · exact not_readsShort_of_alike halike hnone
      rw [usedCycles_initial hleft, mulU64U32Shr_eq hdefined]
    · rw [mulU64U32Shr_eq (.inl hshift), hzero]
      simp [product]
  · have hclock : ¬ d.last.page.ReadsClock := fun hclock => hne hclock.2
    rw [added, if_neg hne, timeIncrease, if_neg hclock]

/-! ## Where the times are wrong -/

/-- A clock that is left from before the last round. -/
def staleClock : Clock := Clock.initial 1 1 0

theorem readClock_stale (r : Round) :
    readClock staleClock (r.stale 0 (BitVec.allOnes 64)) = staleClock := by
  by_cases hclock : (r.stale 0 (BitVec.allOnes 64)).page.ReadsClock
  · cases hshort : (r.stale 0 (BitVec.allOnes 64)).page.capUserTimeShort with
    | false => exact readClock_long hclock hshort
    | true => exact readClock_short hclock hshort
  · exact readClock_of_not hclock

theorem foldl_stale (rs : List Round) :
    (rs.map (Round.stale 0 (BitVec.allOnes 64))).foldl readClock staleClock = staleClock := by
  induction rs with
  | nil => rfl
  | cons r rs ih => rw [List.map_cons, List.foldl_cons, readClock_stale, ih]

theorem timeDelta_staleClock : timeDelta (fun v _ => v) staleClock = 1 := by decide

/-- The last round does not read the clock that is added. -/
theorem TimesRight.capUserTime {d : Reading} (h : TimesRight d)
    (hne : d.last.page.timeEnabled ≠ d.last.page.timeRunning) : d.last.page.capUserTime := by
  by_contra hcap
  have hclock : ¬ d.last.page.ReadsClock := fun hclock => hcap hclock.1
  have hadded := (timesRight_iff d).1 h (d.stale 0 (BitVec.allOnes 64)) rfl (d.stale_alike _ _)
    (fun v _ => v) 1 1 0
  have hlast : (d.stale 0 (BitVec.allOnes 64)).clock staleClock = staleClock := by
    rw [Reading.clock, Reading.stale, foldl_stale, readClock_of_not hclock]
  rw [added, if_pos hne, timeIncrease, if_neg hclock] at hadded
  change timeDelta _ ((d.stale 0 (BitVec.allOnes 64)).clock staleClock) = 0 at hadded
  rw [hlast, timeDelta_staleClock] at hadded
  exact absurd hadded (by decide)

/-- Whatever short clock is left. -/
theorem TimesRight.product {d : Reading} (h : TimesRight d) (hclock : d.last.page.ReadsClock)
    (wild : Wild) (timeCycles timeMask : BitVec 64) :
    mulU64U32Shr wild (usedCycles d.last
        (((d.stale timeCycles timeMask).discarded.foldl readClock staleClock).shortPart))
        (d.last.page.timeMult.setWidth 64) (d.last.page.timeShift.setWidth 32) =
      Rdpmc.product (cycles d.last) d.last.page.timeMult d.last.page.timeShift := by
  have hadded := (timesRight_iff d).1 h (d.stale timeCycles timeMask) rfl (d.stale_alike _ _)
    wild 1 1 0
  rw [added, if_pos hclock.2, timeIncrease, if_pos hclock, documentedDelta_eq, Reading.clock] at hadded
  change timeDelta wild (readClock ((d.stale timeCycles timeMask).discarded.foldl readClock
    staleClock) d.last) = _ at hadded
  rw [timeDelta_readClock hclock] at hadded
  exact (BitVec.add_right_inj _).1 hadded

theorem TimesRight.takesClock {d : Reading} (h : TimesRight d)
    (hclock : d.last.page.ReadsClock) : TakesClock d := by
  by_cases hown : d.last.page.capUserTimeShort ∨ ∀ r ∈ d.discarded, ¬ r.ReadsShort
  · -- the cycles are those of the last round
    refine .inl ⟨hown, ?_⟩
    by_contra hdefined
    obtain ⟨wild, hne⟩ := exists_mulU64U32Shr_ne (m := d.last.page.timeMult) hdefined
      (Rdpmc.product (cycles d.last) d.last.page.timeMult d.last.page.timeShift)
    apply hne
    rw [← h.product hclock wild 0 (BitVec.allOnes 64), usedCycles_initial]
    right
    rw [Reading.stale, foldl_stale]
    rfl
  · -- they come from a discarded round, and can be any
    right
    by_contra hzero
    obtain ⟨hlong, hshort⟩ := not_or.1 hown
    have hmult : d.last.page.timeMult ≠ 0 ∨ 32 < d.last.page.timeShift.toNat := by
      rw [not_and_or, Nat.not_le] at hzero
      exact hzero
    obtain ⟨wild, a, hne⟩ := exists_product_ne hmult
      (Rdpmc.product (cycles d.last) d.last.page.timeMult d.last.page.timeShift)
    apply hne
    have hleft : ((d.stale a 0).discarded.foldl readClock staleClock).shortPart = (a, 0) := by
      apply shortPart_foldl_short
      · intro r hr
        obtain ⟨q, -, rfl⟩ := List.mem_map.1 hr
        rfl
      · right
        push Not at hshort
        obtain ⟨r, hr, hread⟩ := hshort
        exact ⟨r.stale a 0, List.mem_map_of_mem hr, hread⟩
    have hcycles : usedCycles d.last (a, 0) = a := by
      rw [usedCycles, if_neg hlong]
      change a + ((d.last.tsc - a) &&& 0#64) = a
      rw [BitVec.and_zero, BitVec.add_zero]
    rw [← h.product hclock wild a 0, hleft, hcycles]

theorem mmapReadSelf_times_iff (d : Reading) : TimesRight d ↔
    (d.last.page.timeEnabled ≠ d.last.page.timeRunning →
      d.last.page.capUserTime ∧ TakesClock d) := by
  constructor
  · intro h hne
    have hcap := h.capUserTime hne
    exact ⟨hcap, h.takesClock ⟨hcap, hne⟩⟩
  · exact timesRight_of_takesClock

/-- One round without `cap_user_time`, of an event that has not run all the time. -/
def unsetReading : Reading where
  discarded := []
  last := ⟨⟨2, 1, 0, 2, 1, true, false, false, 48, 0, 0, 0, 0, 0⟩, 0, fun _ => 0, 2⟩
  allowed := by simp
  changed := Reading.changed_nil
  unchanged := rfl

theorem unsetReading_not_right : ¬ TimesRight unsetReading := by
  intro h
  exact absurd (h.capUserTime (by decide)) (by decide)

end PerfEvent.Rdpmc
