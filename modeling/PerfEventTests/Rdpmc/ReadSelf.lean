import PerfEventTests.Lib.Shifts

/-!
# Reading a counter in user space

`mmap_read_self` of `tests/rdpmc/rdpmc_lib.c`. The call goes round a loop until the lock of the mapped
page is the same at both ends of a round. A round reads each field of the page once, so it is given
by the values that it finds, whenever the kernel changes the page; what one round has left in the
variables, the next one has.
-/

namespace PerfEvent.Rdpmc

open Shifts

/-- The fields of `struct perf_event_mmap_page` that are read. -/
structure MmapPage where
  lock : BitVec 32
  index : BitVec 32
  /-- a signed field -/
  offset : BitVec 64
  timeEnabled : BitVec 64
  timeRunning : BitVec 64
  capUserRdpmc : Bool
  capUserTime : Bool
  capUserTimeShort : Bool
  pmcWidth : BitVec 16
  timeShift : BitVec 16
  timeMult : BitVec 32
  timeOffset : BitVec 64
  timeCycles : BitVec 64
  timeMask : BitVec 64

/-- What one round of the loop finds. -/
structure Round where
  page : MmapPage
  /-- `rdtsc()` -/
  tsc : BitVec 64
  /-- `rdpmc()` -/
  counter : BitVec 32 → BitVec 64
  /-- `pc->lock` at the end -/
  lockAfter : BitVec 32

/-- The variables that a round may leave as they are. -/
structure Clock where
  cyc : BitVec 64
  timeOffset : BitVec 64
  timeMult : BitVec 32
  timeShift : BitVec 32
  timeCycles : BitVec 64
  timeMask : BitVec 64

/-- Three of the variables have no initial value. -/
def Clock.initial (cyc : BitVec 64) (timeMult timeShift : BitVec 32) : Clock :=
  ⟨cyc, 0, timeMult, timeShift, 0, BitVec.allOnes 64⟩

/-- `cap_user_time` is set, and `enabled` is not `running`. -/
def MmapPage.ReadsClock (pc : MmapPage) : Prop := pc.capUserTime ∧ pc.timeEnabled ≠ pc.timeRunning

instance (pc : MmapPage) : Decidable pc.ReadsClock := inferInstanceAs (Decidable (_ ∧ _))

def readClock (c : Clock) (r : Round) : Clock :=
  if r.page.ReadsClock then
    let c := { c with
      cyc := r.tsc
      timeOffset := r.page.timeOffset
      timeMult := r.page.timeMult
      timeShift := r.page.timeShift.setWidth 32 }
    if r.page.capUserTimeShort then
      { c with timeCycles := r.page.timeCycles, timeMask := r.page.timeMask }
    else c
  else c

/-! ## Shifts and products -/

/-- What the shifts give that C does not define. -/
abbrev Wild : Type := BitVec 64 → BitVec 32 → BitVec 64

/-- A shift by a count that is not below the width gives anything. -/
def shiftBy (op : BitVec 64 → Nat → BitVec 64) (wild : Wild) (v : BitVec 64) (n : BitVec 32) :
    BitVec 64 :=
  if n.toNat < 64 then op v n.toNat else wild v n

def shl : Wild → BitVec 64 → BitVec 32 → BitVec 64 := shiftBy (· <<< ·)

def shr : Wild → BitVec 64 → BitVec 32 → BitVec 64 := shiftBy (· >>> ·)

/-- `>>` of a signed value -/
def sar : Wild → BitVec 64 → BitVec 32 → BitVec 64 := shiftBy BitVec.sshiftRight

variable (wild : Wild)

def mulU32U32 (a b : BitVec 32) : BitVec 64 := a.setWidth 64 * b.setWidth 64

def mulU64U32Shr (a b : BitVec 64) (shift : BitVec 32) : BitVec 64 :=
  let al := a.setWidth 32
  let ah := (a >>> 32).setWidth 32
  let ret := shr wild (mulU32U32 al (b.setWidth 32)) shift
  if ah ≠ 0 then ret + shl wild (mulU32U32 ah (b.setWidth 32)) (32 - shift) else ret

/-! ## The call -/

def readCount (r : Round) : BitVec 64 :=
  let width := r.page.pmcWidth.setWidth 32
  let count := shr wild (shl wild r.page.offset (64 - width)) (64 - width)
  let pmc := r.counter (r.page.index - 1)
  let pmc := sar wild (shl wild pmc (64 - width)) (64 - width)
  count + pmc

/-- What is added to the times. -/
def timeDelta (c : Clock) : BitVec 64 :=
  let cyc := c.timeCycles + ((c.cyc - c.timeCycles) &&& c.timeMask)
  c.timeOffset + mulU64U32Shr wild cyc (c.timeMult.setWidth 64) c.timeShift

/-- What the call returns, and what it stores, where the pointers are not null. -/
structure Result where
  count : BitVec 64
  enabled : Option (BitVec 64)
  running : Option (BitVec 64)

/-- Behind the loop. -/
def report (en ru : Bool) (r : Round) (c : Clock) : Result :=
  let enabled := r.page.timeEnabled
  let running := r.page.timeRunning
  let (enabled, running) :=
    if enabled ≠ running then
      let delta := timeDelta wild c
      (enabled + delta, if r.page.index ≠ 0 then running + delta else running)
    else (enabled, running)
  ⟨readCount wild r, if en then some enabled else none, if ru then some running else none⟩

/-- The call over the rounds of its loop. There is no result when it is still in the loop. -/
def mmapReadSelf (en ru : Bool) : List Round → Clock → Option Result
  | [], _ => none
  | r :: rs, c =>
    let c := readClock c r
    if r.page.capUserRdpmc ∧ r.page.index ≠ 0 then
      if r.lockAfter ≠ r.page.lock then mmapReadSelf en ru rs c else some (report wild en ru r c)
    else some ⟨BitVec.allOnes 64, none, none⟩

/-! ## Readings -/

/-- The rounds of a call that comes to its end while it may read the counter: the lock changes in
all of them but the last. -/
structure Reading where
  discarded : List Round
  last : Round
  allowed : ∀ r ∈ last :: discarded, r.page.capUserRdpmc ∧ r.page.index ≠ 0
  changed : ∀ r ∈ discarded, r.lockAfter ≠ r.page.lock
  unchanged : last.lockAfter = last.page.lock

namespace Reading

theorem changed_nil : ∀ r ∈ ([] : List Round), r.lockAfter ≠ r.page.lock := by simp

variable (d : Reading)

def rounds : List Round := d.discarded ++ [d.last]

/-- The variables of the clock behind the loop. -/
def clock (c : Clock) : Clock := readClock (d.discarded.foldl readClock c) d.last

/-- A discarded round leaves nothing but the clock. -/
theorem mmapReadSelf_rounds (en ru : Bool) (later : List Round) (c : Clock) :
    mmapReadSelf wild en ru (d.rounds ++ later) c = some (report wild en ru d.last (d.clock c)) := by
  obtain ⟨discarded, last, hallowed, hchanged, hunchanged⟩ := d
  simp only [rounds, clock]
  induction discarded generalizing c with
  | nil =>
    have hlast := hallowed last (by simp)
    simp only [List.nil_append, List.cons_append, mmapReadSelf, if_pos hlast, List.foldl_nil]
    exact if_neg (not_not.2 hunchanged)
  | cons r rs ih =>
    have hr := hallowed r (by simp)
    have hrest : ∀ q ∈ last :: rs, q.page.capUserRdpmc ∧ q.page.index ≠ 0 := by
      intro q hq
      apply hallowed
      simp only [List.mem_cons] at hq ⊢
      tauto
    rw [List.cons_append, List.cons_append, mmapReadSelf]
    simp only [if_pos hr, if_pos (hchanged r (List.mem_cons_self ..)), List.foldl_cons]
    exact ih _ hrest fun q hq => hchanged q (List.mem_cons_of_mem r hq)

end Reading

/-! ## The count -/

section Count

variable {wild : Wild} {r : Round}

/-- `offset` and the lower `pmc_width` bits of the counter with their sign. -/
def documentedCount (r : Round) : BitVec 64 :=
  BitVec.ofInt 64 (r.page.offset.toInt +
    ((r.counter (r.page.index - 1)).setWidth r.page.pmcWidth.toNat).toInt)

theorem toNat_shiftCount (hwidth : r.page.pmcWidth.toNat ≤ 64) :
    (64 - r.page.pmcWidth.setWidth 32).toNat = 64 - r.page.pmcWidth.toNat := by
  have hsame : (r.page.pmcWidth.setWidth 32).toNat = r.page.pmcWidth.toNat :=
    BitVec.toNat_setWidth_of_le (by decide)
  rw [BitVec.toNat_sub, hsame]
  change (2 ^ 32 - r.page.pmcWidth.toNat + 64) % 2 ^ 32 = _
  omega

theorem shiftBy_of_lt {op : BitVec 64 → Nat → BitVec 64} {n : BitVec 32} (h : n.toNat < 64)
    (v : BitVec 64) : shiftBy op wild v n = op v n.toNat :=
  if_pos h

/-- The source loses the bits of `offset` above `pmc_width`. -/
theorem readCount_eq (hpos : 0 < r.page.pmcWidth.toNat) (hwidth : r.page.pmcWidth.toNat ≤ 64) :
    readCount wild r =
      (r.page.offset <<< (64 - r.page.pmcWidth.toNat)) >>> (64 - r.page.pmcWidth.toNat) +
        ((r.counter (r.page.index - 1)).setWidth r.page.pmcWidth.toNat).signExtend 64 := by
  have hcount := toNat_shiftCount hwidth
  have hlt : (64 - r.page.pmcWidth.setWidth 32).toNat < 64 := by omega
  simp only [readCount, shl, shr, sar, shiftBy_of_lt hlt]
  rw [hcount, sshiftRight_shiftLeft _ hpos hwidth]

theorem documentedCount_eq (r : Round) : documentedCount r = r.page.offset +
    ((r.counter (r.page.index - 1)).setWidth r.page.pmcWidth.toNat).signExtend 64 := by
  rw [documentedCount, BitVec.ofInt_add, BitVec.ofInt_toInt]
  rfl

/-- The call returns, and it returns the documented count of the last round. -/
def CountRight (wild : Wild) (d : Reading) : Prop :=
  ∀ en ru later c, ∃ result, mmapReadSelf wild en ru (d.rounds ++ later) c = some result ∧
    result.count = documentedCount d.last

theorem mmapReadSelf_count_iff (wild : Wild) (d : Reading) (hpos : 0 < d.last.page.pmcWidth.toNat)
    (hwidth : d.last.page.pmcWidth.toNat ≤ 64) :
    CountRight wild d ↔ d.last.page.pmcWidth.toNat = 64 ∨
      0 ≤ d.last.page.offset.toInt ∧
        d.last.page.offset.toInt < 2 ^ d.last.page.pmcWidth.toNat := by
  have hcount : CountRight wild d ↔ readCount wild d.last = documentedCount d.last := by
    constructor
    · intro h
      obtain ⟨result, hresult, hcount⟩ := h true true [] (Clock.initial 0 0 0)
      rw [d.mmapReadSelf_rounds] at hresult
      cases hresult
      exact hcount
    · intro h en ru later c
      exact ⟨_, d.mmapReadSelf_rounds wild en ru later c, h⟩
  rw [hcount, readCount_eq hpos hwidth, documentedCount_eq, BitVec.add_left_inj,
    ushiftRight_shiftLeft_eq_iff _ hwidth, toNat_lt_iff _ hwidth]

/-- A page with the given offset and width of the counter, and nothing to tell of the time. -/
def countPage (offset : BitVec 64) (pmcWidth : BitVec 16) : MmapPage :=
  ⟨2, 1, offset, 0, 0, true, false, false, pmcWidth, 0, 0, 0, 0, 0⟩

/-- One round, in which the counter has nothing. -/
def countReading (offset : BitVec 64) (pmcWidth : BitVec 16) : Reading where
  discarded := []
  last := ⟨countPage offset pmcWidth, 0, fun _ => 0, 2⟩
  allowed := by simp [countPage]
  changed := Reading.changed_nil
  unchanged := rfl

theorem countReading_right_iff : CountRight (fun v _ => v) (countReading 5 48) ↔
    (48 = 64 ∨ 0 ≤ (5 : BitVec 64).toInt ∧ (5 : BitVec 64).toInt < 2 ^ 48) :=
  mmapReadSelf_count_iff _ (countReading 5 48) (by decide) (by decide)

/-- A negative offset comes back as `2^48` more. -/
theorem negativeOffset_not_right : ¬ CountRight (fun v _ => v) (countReading (-1) 48) := by
  intro h
  obtain ⟨result, hresult, hcount⟩ := h true true [] (Clock.initial 0 0 0)
  rw [Reading.mmapReadSelf_rounds] at hresult
  cases hresult
  have hne : readCount (fun v _ => v) (countReading (-1) 48).last ≠
    documentedCount (countReading (-1) 48).last := by decide
  exact hne hcount

end Count

end PerfEvent.Rdpmc
