import PerfEventTests.Fuzzer.LinkedOps

/-!
# What `sigio_handler` leaves behind

The handler closes every active event, one after the other, and nothing that changes the tables
interrupts it. Its effect is given first as a function on states, for one event, and then as a
relation that any number of deliveries stays in.
-/

namespace PerfEvent.Fuzzer

open Draws Programs

/-! ## Counting -/

/-- The slot has the address and the length of a mapping. -/
def MmapEntry.live (m : MmapEntry) : Bool := m.addr ≠ mapFailed && m.size ≠ 0

/-- The slot after `unmap_mmap`. -/
def MmapEntry.unmapped (m : MmapEntry) : MmapEntry :=
  if m.addr = mapFailed then m
  else { m with active := false, addr := mapFailed, mapped := m.mapped && m.size = 0 }

def countActive (s : St) : Nat := countSlots EventData.active s

def countLive (s : St) : Nat := Nat.count (fun k : Nat => (s.mmaps k).live = true) maxMmaps

def LiveInRange (s : St) : Prop := ∀ j, (s.mmaps j).live = true → InRange maxMmaps j

@[simp] theorem unmapped_live (m : MmapEntry) : m.unmapped.live = false := by
  unfold MmapEntry.unmapped MmapEntry.live
  split
  · rename_i h
    simp [h]
  · simp

/-! ## Descriptors -/

/-- Each active event owns its descriptor, no two have the same one, the files that were left open
are still open, and the calls so far were made on the events they were meant for. -/
structure Owned (s : St) : Prop where
  own : ∀ i, (s.eventData i).active = true →
    s.fds (s.eventData i).fd = some (.perf (s.eventData i).serial)
  distinct : ∀ i j, (s.eventData i).active = true → (s.eventData j).active = true →
    (s.eventData i).serial = (s.eventData j).serial → i = j
  fresh : ∀ fd n, s.fds fd = some (.perf n) → n < s.nextSerial
  files : ∀ k, s.openFds k ≠ 0 → s.fds (s.openFds k) = some .file
  places : ∀ j k, s.openFds j ≠ 0 → s.openFds j = s.openFds k → j = k
  calls : ∀ call ∈ s.calls, call.active = true ∨ call.request = .close →
    call.target = some (.perf call.serial)

theorem Owned.fd_ne {s : St} (h : Owned s) {i j : Int} (hi : (s.eventData i).active = true)
    (hj : (s.eventData j).active = true) (hij : i ≠ j) : (s.eventData i).fd ≠ (s.eventData j).fd := by
  intro hfd
  have hi' := h.own i hi
  rw [hfd, h.own j hj] at hi'
  exact hij (h.distinct i j hi hj (Descriptor.perf.inj (Option.some.inj hi')).symm)

/-! ## Relations -/

/-- The two states agree on the tables, the counters and the descriptors; the latter only under
`F`, which says that `our_handler` closes nothing. -/
structure Still (F : Prop) (s s' : St) : Prop where
  active : ∀ i, (s'.eventData i).active = (s.eventData i).active
  fd : ∀ i, (s'.eventData i).fd = (s.eventData i).fd
  mmap : ∀ i, (s'.eventData i).mmap = (s.eventData i).mmap
  serial : ∀ i, (s'.eventData i).serial = (s.eventData i).serial
  activeEvents : s'.activeEvents = s.activeEvents
  mmaps : ∀ j, s'.mmaps j = s.mmaps j
  activeMmaps : s'.activeMmaps = s.activeMmaps
  openFds : s'.openFds = s.openFds
  nextSerial : s'.nextSerial = s.nextSerial
  calls : F → s'.calls = s.calls
  fds : F → s'.fds = s.fds

/-- Events have been closed at most, and no descriptor but theirs. -/
structure Fades (F : Prop) (s s' : St) : Prop where
  active : ∀ i, (s'.eventData i).active = true → (s.eventData i).active = true
  fd : ∀ i, (s'.eventData i).fd = (s.eventData i).fd
  mmap : ∀ i, (s'.eventData i).mmap = (s.eventData i).mmap
  serial : ∀ i, (s'.eventData i).serial = (s.eventData i).serial
  openFds : s'.openFds = s.openFds
  kept : F → ∀ fd, (∀ i, (s.eventData i).active = true → (s.eventData i).fd ≠ fd) →
    s'.fds fd = s.fds fd
  owned : F → Owned s → Owned s'

/-- Some events have been closed completely: the counters have followed the tables. -/
structure Closes (F : Prop) (s s' : St) : Prop extends Fades F s s' where
  events : s'.activeEvents - countActive s' = s.activeEvents - countActive s
  live : LiveInRange s → s'.activeMmaps - countLive s' = s.activeMmaps - countLive s
  slot : ∀ j, s'.mmaps j = s.mmaps j ∨ s'.mmaps j = (s.mmaps j).unmapped ∧
    ∃ k : Nat, k < numEvents ∧ (s.eventData k).active = true ∧ (s.eventData k).mmap = j

/-- All events have been closed, or none. -/
structure Swept (F : Prop) (s s' : St) : Prop extends Closes F s s' where
  fate : (∀ i, (s'.eventData i).active = (s.eventData i).active) ∨
    ∀ k : Nat, k < numEvents → (s'.eventData k).active = false

section Relations

variable {F : Prop} {s s' s'' : St}

theorem Still.refl (s : St) : Still F s s :=
  ⟨fun _ => rfl, fun _ => rfl, fun _ => rfl, fun _ => rfl, rfl, fun _ => rfl, rfl, rfl, rfl,
    fun _ => rfl, fun _ => rfl⟩

theorem Still.trans (h : Still F s s') (h' : Still F s' s'') : Still F s s'' :=
  ⟨fun i => (h'.active i).trans (h.active i), fun i => (h'.fd i).trans (h.fd i),
    fun i => (h'.mmap i).trans (h.mmap i), fun i => (h'.serial i).trans (h.serial i),
    h'.activeEvents.trans h.activeEvents, fun j => (h'.mmaps j).trans (h.mmaps j),
    h'.activeMmaps.trans h.activeMmaps, h'.openFds.trans h.openFds,
    h'.nextSerial.trans h.nextSerial, fun hF => (h'.calls hF).trans (h.calls hF),
    fun hF => (h'.fds hF).trans (h.fds hF)⟩

theorem SameCore.still (h : SameCore s s') : Still F s s' :=
  ⟨h.active, h.fd, h.mmap, h.serial, h.activeEvents, fun j => by rw [h.mmaps], h.activeMmaps,
    h.openFds, h.nextSerial, fun _ => h.calls, fun _ => h.fds⟩

/-- `Owned` looks at these parts only. -/
theorem Owned.of_eq (h : Owned s) (hactive : ∀ i, (s'.eventData i).active = (s.eventData i).active)
    (hfd : ∀ i, (s'.eventData i).fd = (s.eventData i).fd)
    (hserial : ∀ i, (s'.eventData i).serial = (s.eventData i).serial)
    (hopen : s'.openFds = s.openFds) (hnext : s'.nextSerial = s.nextSerial)
    (hcalls : s'.calls = s.calls) (hfds : s'.fds = s.fds) : Owned s' := by
  refine ⟨fun i hi => ?_, fun i j hi hj hij => ?_, fun fd n hn => ?_, fun k hk => ?_,
    fun j k hj hjk => ?_, fun call hcall => ?_⟩
  · rw [hfds, hfd, hserial]
    exact h.own i (hactive i ▸ hi)
  · rw [hserial, hserial] at hij
    exact h.distinct i j (hactive i ▸ hi) (hactive j ▸ hj) hij
  · rw [hnext]
    exact h.fresh fd n (hfds ▸ hn)
  · rw [hfds, hopen]
    exact h.files k (hopen ▸ hk)
  · rw [hopen] at hj hjk
    exact h.places j k hj hjk
  · exact h.calls call (hcalls ▸ hcall)

theorem Still.fades (h : Still F s s') : Fades F s s' :=
  ⟨fun i hi => h.active i ▸ hi, h.fd, h.mmap, h.serial, h.openFds,
    fun hF fd _ => by rw [h.fds hF], fun hF hs =>
      hs.of_eq h.active h.fd h.serial h.openFds h.nextSerial (h.calls hF) (h.fds hF)⟩

theorem Fades.trans (h : Fades F s s') (h' : Fades F s' s'') : Fades F s s'' where
  active i hi := h.active i (h'.active i hi)
  fd i := (h'.fd i).trans (h.fd i)
  mmap i := (h'.mmap i).trans (h.mmap i)
  serial i := (h'.serial i).trans (h.serial i)
  openFds := h'.openFds.trans h.openFds
  kept hF fd hfd := by
    rw [h'.kept hF fd fun i hi => ?_, h.kept hF fd hfd]
    rw [h.fd]
    exact hfd i (h.active i hi)
  owned hF hs := h'.owned hF (h.owned hF hs)

theorem Still.countActive (h : Still F s s') : countActive s' = countActive s := by
  unfold Fuzzer.countActive countSlots
  exact count_congr fun k _ => by rw [h.active]

theorem Still.countLive (h : Still F s s') : countLive s' = countLive s := by
  unfold Fuzzer.countLive
  exact count_congr fun k _ => by rw [h.mmaps]

theorem Still.closes (h : Still F s s') : Closes F s s' where
  toFades := h.fades
  events := by rw [h.activeEvents, h.countActive]
  live _ := by rw [h.activeMmaps, h.countLive]
  slot j := .inl (h.mmaps j)

theorem Still.swept (h : Still F s s') : Swept F s s' := ⟨h.closes, .inl h.active⟩

theorem Closes.liveInRange (h : Closes F s s') (hs : LiveInRange s) : LiveInRange s' := by
  intro j hj
  rcases h.slot j with hsame | ⟨hgone, -⟩
  · exact hs j (hsame ▸ hj)
  · rw [hgone, unmapped_live] at hj
    exact absurd hj Bool.false_ne_true

theorem unmapped_unmapped (m : MmapEntry) : m.unmapped.unmapped = m.unmapped := by
  unfold MmapEntry.unmapped
  split
  · rfl
  · rfl

theorem Closes.trans (h : Closes F s s') (h' : Closes F s' s'') : Closes F s s'' where
  toFades := h.toFades.trans h'.toFades
  events := h'.events.trans h.events
  live hs := (h'.live (h.liveInRange hs)).trans (h.live hs)
  slot j := by
    have hback : ∀ k : Nat, k < numEvents ∧ (s'.eventData k).active = true ∧
        (s'.eventData k).mmap = j →
          k < numEvents ∧ (s.eventData k).active = true ∧ (s.eventData k).mmap = j :=
      fun k hk => ⟨hk.1, h.active k hk.2.1, (h.mmap k).symm.trans hk.2.2⟩
    rcases h.slot j with hsame | ⟨hgone, k, hk⟩ <;> rcases h'.slot j with hsame' | ⟨hgone', k', hk'⟩
    · exact .inl (hsame'.trans hsame)
    · exact .inr ⟨by rw [hgone', hsame], k', hback k' hk'⟩
    · exact .inr ⟨hsame'.trans hgone, k, hk⟩
    · exact .inr ⟨by rw [hgone', hgone, unmapped_unmapped], k, hk⟩

theorem Swept.trans (h : Swept F s s') (h' : Swept F s' s'') : Swept F s s'' where
  toCloses := h.toCloses.trans h'.toCloses
  fate := by
    rcases h'.fate with hsame' | hnone'
    · rcases h.fate with hsame | hnone
      · exact .inl fun i => (hsame' i).trans (hsame i)
      · exact .inr fun k hk => (hsame' k).trans (hnone k hk)
    · exact .inr hnone'

end Relations

/-! ## Closing one event, as a function -/

namespace St

def unmapSlot (s : St) (j : Int) : St :=
  { s.setMmap j MmapEntry.unmapped with
    activeMmaps := s.activeMmaps - if (s.mmaps j).live then 1 else 0 }

def deactivate (s : St) (i : Int) : St := s.setEvent i fun ev => { ev with active := false }

def closeFdOf (s : St) (i : Int) : St := (s.addCall i .close).setFd (s.eventData i).fd none

def closeSlot (s : St) (i : Int) : St :=
  { ((s.deactivate i).closeFdOf i).unmapSlot (s.eventData i).mmap with
    activeEvents := s.activeEvents - 1 }

end St

section CloseSlot

variable {F : Prop} {s : St} {i : Int}

theorem deactivate_active (s : St) (i k : Int) : ((s.deactivate i).eventData k).active =
    if k = i then false else (s.eventData k).active := by
  show (if k = i then _ else _ : EventData).active = _
  split <;> rfl

theorem deactivate_fd (s : St) (i k : Int) :
    ((s.deactivate i).eventData k).fd = (s.eventData k).fd := by
  show (if k = i then _ else _ : EventData).fd = _
  split
  · rename_i h
    rw [h]
  · rfl

theorem deactivate_mmap (s : St) (i k : Int) :
    ((s.deactivate i).eventData k).mmap = (s.eventData k).mmap := by
  show (if k = i then _ else _ : EventData).mmap = _
  split
  · rename_i h
    rw [h]
  · rfl

theorem deactivate_serial (s : St) (i k : Int) :
    ((s.deactivate i).eventData k).serial = (s.eventData k).serial := by
  show (if k = i then _ else _ : EventData).serial = _
  split
  · rename_i h
    rw [h]
  · rfl

theorem active_of_deactivate {k : Int} (h : ((s.deactivate i).eventData k).active = true) :
    k ≠ i ∧ (s.eventData k).active = true := by
  rw [deactivate_active] at h
  split at h
  · exact absurd h Bool.false_ne_true
  · exact ⟨by assumption, h⟩

theorem fades_deactivate (s : St) (i : Int) : Fades F s (s.deactivate i) where
  active k hk := (active_of_deactivate hk).2
  fd := deactivate_fd s i
  mmap := deactivate_mmap s i
  serial := deactivate_serial s i
  openFds := rfl
  kept _ _ _ := rfl
  owned _ hs := by
    refine ⟨fun k hk => ?_, fun k l hk hl hkl => ?_, hs.fresh, hs.files, hs.places, hs.calls⟩
    · rw [deactivate_fd, deactivate_serial]
      exact hs.own k (active_of_deactivate hk).2
    · rw [deactivate_serial, deactivate_serial] at hkl
      exact hs.distinct k l (active_of_deactivate hk).2 (active_of_deactivate hl).2 hkl

/-- A descriptor that is open on an event which no slot owns any more is closed. -/
theorem owned_closeFdOf (hs : Owned s)
    (hfd : s.fds (s.eventData i).fd = some (.perf (s.eventData i).serial))
    (hloose : ∀ k, (s.eventData k).active = true → (s.eventData k).fd ≠ (s.eventData i).fd) :
    Owned (s.closeFdOf i) where
  own k hk := by
    show (if (s.eventData k).fd = (s.eventData i).fd then none else s.fds (s.eventData k).fd) = _
    rw [if_neg (hloose k hk)]
    exact hs.own k hk
  distinct := hs.distinct
  fresh fd n hn := by
    change (if fd = (s.eventData i).fd then none else s.fds fd) = _ at hn
    split at hn
    · exact nomatch hn
    · exact hs.fresh fd n hn
  files k hk := by
    show (if s.openFds k = (s.eventData i).fd then none else s.fds (s.openFds k)) = _
    split
    · rename_i h
      have hfile := hs.files k hk
      rw [h, hfd] at hfile
      exact nomatch hfile
    · exact hs.files k hk
  places := hs.places
  calls call hcall hwhich := by
    rcases List.mem_cons.1 hcall with rfl | hcall
    · exact hfd
    · exact hs.calls call hcall hwhich

theorem fades_closed (hi : (s.eventData i).active = true) :
    Fades F s ((s.deactivate i).closeFdOf i) where
  active k hk := (active_of_deactivate hk).2
  fd := deactivate_fd s i
  mmap := deactivate_mmap s i
  serial := deactivate_serial s i
  openFds := rfl
  kept _ fd hfd := by
    show (if fd = ((s.deactivate i).eventData i).fd then none else s.fds fd) = _
    rw [deactivate_fd, if_neg (hfd i hi).symm]
  owned hF hs := by
    refine owned_closeFdOf ((fades_deactivate s i).owned hF hs) ?_ fun k hk => ?_
    · rw [deactivate_fd, deactivate_serial]
      exact hs.own i hi
    · rw [deactivate_fd, deactivate_fd]
      have hk := active_of_deactivate hk
      exact hs.fd_ne hk.2 hi hk.1

/-- Steps that concern the mappings and the counters only. -/
theorem fades_of_eq {s s' : St} (h : s'.eventData = s.eventData) (hfds : s'.fds = s.fds)
    (hopen : s'.openFds = s.openFds) (hnext : s'.nextSerial = s.nextSerial)
    (hcalls : s'.calls = s.calls) : Fades F s s' where
  active i hi := h ▸ hi
  fd i := by rw [h]
  mmap i := by rw [h]
  serial i := by rw [h]
  openFds := hopen
  kept _ fd _ := by rw [hfds]
  owned _ hs := hs.of_eq (fun i => by rw [h]) (fun i => by rw [h]) (fun i => by rw [h]) hopen hnext
    hcalls hfds

theorem unmapSlot_mmaps (s : St) (j k : Int) :
    (s.unmapSlot j).mmaps k = if k = j then (s.mmaps j).unmapped else s.mmaps k := rfl

theorem countLive_unmapSlot (hs : LiveInRange s) (j : Int) :
    (s.unmapSlot j).activeMmaps - countLive (s.unmapSlot j) = s.activeMmaps - countLive s := by
  by_cases hj : (s.mmaps j).live = true
  · obtain ⟨n, rfl⟩ := Int.eq_ofNat_of_zero_le (hs j hj).1
    have hcount : countLive s = countLive (s.unmapSlot n) + 1 := by
      unfold countLive
      refine count_remove (Int.ofNat_lt.1 (hs n hj).2) hj ?_ fun k _ hk => ?_
      · rw [unmapSlot_mmaps, if_pos rfl, unmapped_live]
        exact Bool.false_ne_true
      · rw [unmapSlot_mmaps, if_neg (by omega)]
    have hactive : (s.unmapSlot n).activeMmaps = s.activeMmaps - 1 := by
      show s.activeMmaps - (if (s.mmaps n).live = true then 1 else 0) = _
      rw [if_pos hj]
    omega
  · have hcount : countLive (s.unmapSlot j) = countLive s := by
      unfold countLive
      refine count_congr fun k _ => ?_
      rw [unmapSlot_mmaps]
      split
      · rename_i hk
        rw [unmapped_live, hk]
        exact ⟨fun h => absurd h Bool.false_ne_true, fun h => absurd h hj⟩
      · rfl
    have hactive : (s.unmapSlot j).activeMmaps = s.activeMmaps := by
      show s.activeMmaps - (if (s.mmaps j).live = true then 1 else 0) = _
      rw [if_neg hj, Int.sub_zero]
    omega

theorem countActive_deactivate (hi : InRange numEvents i) (hactive : (s.eventData i).active = true) :
    countActive s = countActive (s.deactivate i) + 1 := by
  obtain ⟨n, rfl⟩ := Int.eq_ofNat_of_zero_le hi.1
  unfold countActive countSlots
  refine count_remove (Int.ofNat_lt.1 hi.2) hactive ?_ fun k _ hk => ?_
  · rw [deactivate_active, if_pos rfl]
    exact Bool.false_ne_true
  · rw [deactivate_active, if_neg (by omega)]

theorem closes_closeSlot (hi : InRange numEvents i) (hactive : (s.eventData i).active = true) :
    Closes F s (s.closeSlot i) where
  toFades := (fades_closed hactive).trans (fades_of_eq rfl rfl rfl rfl rfl)
  events := by
    have hcount : countActive s = countActive (s.closeSlot i) + 1 := countActive_deactivate hi hactive
    have hevents : (s.closeSlot i).activeEvents = s.activeEvents - 1 := rfl
    omega
  live hs := countLive_unmapSlot (s := (s.deactivate i).closeFdOf i) hs _
  slot j := by
    rcases eq_or_ne j (s.eventData i).mmap with rfl | hj
    · obtain ⟨n, rfl⟩ := Int.eq_ofNat_of_zero_le hi.1
      exact .inr ⟨if_pos rfl, n, Int.ofNat_lt.1 hi.2, hactive, rfl⟩
    · exact .inl (if_neg hj)

end CloseSlot

end PerfEvent.Fuzzer
