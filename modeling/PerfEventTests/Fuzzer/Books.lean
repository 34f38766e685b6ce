import PerfEventTests.Fuzzer.Deliveries

/-!
# The counters and the tables

`active_events` and `active_mmaps` differ from what the tables hold by what the operation under way
still owes them. Points of the program keep the difference, and the quiet operations do as well.
-/

namespace PerfEvent.Fuzzer

open Draws Programs

/-- The slot is active exactly if it has a mapping, and the mapping is there. -/
def MmapEntry.Settled (m : MmapEntry) : Prop := m.active = m.live ∧ m.mapped = m.live

def MmapEntry.liveCount (m : MmapEntry) : Int := if m.live then 1 else 0

/-- The counters are ahead of the tables by `de` events and `dm` mappings, and all slots are settled
but for the one that is being worked on. -/
structure Books (F : Prop) (de dm : Int) (slot : Option Int) (s : St) : Prop where
  events : s.activeEvents = countActive s + de
  live : s.activeMmaps = countLive s + dm
  eventRange : ∀ i, (s.eventData i).active = true → InRange numEvents i
  liveRange : LiveInRange s
  settled : ∀ j, slot ≠ some j → (s.mmaps j).Settled
  owned : F → Owned s

/-- What holds wherever a run may end. -/
def Owns (F : Prop) (s : St) : Prop := F → Owned s

/-- A descriptor that is open on an event, and that no active slot names. -/
def Loose (F : Prop) (fd : Int) (n : Nat) (s : St) : Prop :=
  F → s.fds fd = some (.perf n) ∧
    ∀ k, (s.eventData k).active = true → (s.eventData k).fd ≠ fd ∧ (s.eventData k).serial ≠ n

/-- A file that the operation has opened and not stored anywhere. -/
def OpenedFile (F : Prop) (fd : Int) (s : St) : Prop :=
  F → s.fds fd = some .file ∧ ∀ k, s.openFds k = fd → fd = 0

section Lemmas

variable {F : Prop} {de dm : Int} {slot : Option Int} {s s' : St}

theorem settled_unmapped {m : MmapEntry} (h : m.Settled) : m.unmapped.Settled := by
  refine ⟨?_, ?_⟩
  · rw [unmapped_live]
    unfold MmapEntry.unmapped
    split
    · rename_i haddr
      rw [h.1]
      simp [MmapEntry.live, haddr]
    · rfl
  · rw [unmapped_live]
    unfold MmapEntry.unmapped
    split
    · rename_i haddr
      rw [h.2]
      simp [MmapEntry.live, haddr]
    · rename_i haddr
      show (m.mapped && decide (m.size = 0)) = false
      rw [h.2]
      by_cases hsize : m.size = 0 <;> simp [MmapEntry.live, hsize]

theorem Books.swept (h : Books F de dm slot s) (hs : Swept F s s') : Books F de dm slot s' where
  events := by have := hs.events; have := h.events; omega
  live := by have := hs.live h.liveRange; have := h.live; omega
  eventRange i hi := h.eventRange i (hs.active i hi)
  liveRange := hs.liveInRange h.liveRange
  settled j hj := by
    rcases hs.slot j with hsame | ⟨hgone, -⟩
    · exact hsame ▸ h.settled j hj
    · exact hgone ▸ settled_unmapped (h.settled j hj)
  owned hF := hs.owned hF (h.owned hF)

theorem Books.still (h : Books F de dm slot s) (hs : Still F s s') : Books F de dm slot s' :=
  h.swept hs.swept

theorem Loose.fades {fd : Int} {n : Nat} (h : Loose F fd n s) (hs : Fades F s s') :
    Loose F fd n s' := by
  intro hF
  obtain ⟨hfd, hloose⟩ := h hF
  refine ⟨by rw [hs.kept hF fd fun k hk => (hloose k hk).1, hfd], fun k hk => ?_⟩
  rw [hs.fd, hs.serial]
  exact hloose k (hs.active k hk)

theorem OpenedFile.fades {fd : Int} (h : OpenedFile F fd s) (ho : Owns F s) (hs : Fades F s s') :
    OpenedFile F fd s' := by
  intro hF
  obtain ⟨hfd, hplace⟩ := h hF
  refine ⟨?_, by rw [hs.openFds]; exact hplace⟩
  rw [hs.kept hF fd fun k hk hk' => ?_, hfd]
  have hown := (ho hF).own k hk
  rw [hk', hfd] at hown
  exact nomatch hown

/-- An update of one event that keeps what the relations look at. -/
theorem still_setEvent (s : St) (i : Int) {f : EventData → EventData}
    (hf : ∀ ev, (f ev).active = ev.active ∧ (f ev).fd = ev.fd ∧ (f ev).mmap = ev.mmap ∧
      (f ev).serial = ev.serial) : Still F s (s.setEvent i f) := by
  have hslot : ∀ j, ∃ ev, (s.setEvent i f).eventData j = ev ∧ (ev = f (s.eventData j) ∨
      ev = s.eventData j) := by
    intro j
    by_cases hj : j = i
    · exact ⟨_, if_pos hj, .inl (by rw [hj])⟩
    · exact ⟨_, if_neg hj, .inr rfl⟩
  refine ⟨fun j => ?_, fun j => ?_, fun j => ?_, fun j => ?_, rfl, fun _ => rfl, rfl, rfl, rfl,
    fun _ => rfl, fun _ => rfl⟩ <;> obtain ⟨ev, hev, rfl | rfl⟩ := hslot j <;> rw [hev]
  exacts [(hf _).1, (hf _).2.1, (hf _).2.2.1, (hf _).2.2.2]

/-! ### One slot of the mappings -/

theorem countLive_setMmap (hs : LiveInRange s) (j : Int) (f : MmapEntry → MmapEntry)
    (hf : (f (s.mmaps j)).live = true → InRange maxMmaps j) :
    (countLive (s.setMmap j f) : Int) =
      countLive s + (f (s.mmaps j)).liveCount - (s.mmaps j).liveCount := by
  have hself : (s.setMmap j f).mmaps j = f (s.mmaps j) := if_pos rfl
  have hother : ∀ k, k ≠ j → (s.setMmap j f).mmaps k = s.mmaps k := fun k hk => if_neg hk
  have hsame : (f (s.mmaps j)).live = (s.mmaps j).live →
      countLive (s.setMmap j f) = countLive s := by
    intro heq
    unfold countLive
    refine count_congr fun k _ => ?_
    rcases eq_or_ne (k : Int) j with hk | hk
    · rw [hk, hself, heq]
    · rw [hother k hk]
  unfold MmapEntry.liveCount
  cases hnew : (f (s.mmaps j)).live <;> cases hold : (s.mmaps j).live
  · rw [hsame (hnew.trans hold.symm)]
    exact (Int.add_sub_cancel _ _).symm
  · obtain ⟨n, rfl⟩ := Int.eq_ofNat_of_zero_le (hs j hold).1
    have hcount : countLive s = countLive (s.setMmap n f) + 1 := by
      refine count_remove (Int.ofNat_lt.1 (hs n hold).2) hold ?_ fun k _ hk => ?_
      · rw [hself, hnew]
        exact Bool.false_ne_true
      · rw [hother k (by omega)]
    simp only [Bool.false_eq_true, if_false, if_true]
    omega
  · obtain ⟨n, rfl⟩ := Int.eq_ofNat_of_zero_le (hf hnew).1
    have hcount : countLive (s.setMmap n f) = countLive s + 1 := by
      refine count_remove (Int.ofNat_lt.1 (hf hnew).2) (hself ▸ hnew) ?_ fun k _ hk => ?_
      · rw [hold]
        exact Bool.false_ne_true
      · rw [hother k (by omega)]
    simp only [Bool.false_eq_true, if_false, if_true]
    omega
  · rw [hsame (hnew.trans hold.symm)]
    exact (Int.add_sub_cancel _ _).symm

/-- A step on the slot that is being worked on. -/
theorem Books.setMmap (h : Books F de dm slot s) {slot' : Option Int} {j : Int}
    {f : MmapEntry → MmapEntry} {dm' : Int}
    (hdm : dm' = dm + (s.mmaps j).liveCount - (f (s.mmaps j)).liveCount)
    (hrange : (f (s.mmaps j)).live = true → InRange maxMmaps j)
    (hother : ∀ k, k ≠ j → slot' ≠ some k → slot ≠ some k)
    (hself : slot' ≠ some j → (f (s.mmaps j)).Settled) : Books F de dm' slot' (s.setMmap j f) where
  events := h.events
  live := by
    have hcount := countLive_setMmap h.liveRange j f hrange
    have hlive := h.live
    show s.activeMmaps = _
    omega
  eventRange := h.eventRange
  liveRange k hk := by
    rcases eq_or_ne k j with rfl | hkj
    · exact hrange (by rwa [show (s.setMmap k f).mmaps k = f (s.mmaps k) from if_pos rfl] at hk)
    · exact h.liveRange k (by rwa [show (s.setMmap j f).mmaps k = s.mmaps k from if_neg hkj] at hk)
  settled k hk := by
    rcases eq_or_ne k j with rfl | hkj
    · rw [show (s.setMmap k f).mmaps k = f (s.mmaps k) from if_pos rfl]
      exact hself hk
    · rw [show (s.setMmap j f).mmaps k = s.mmaps k from if_neg hkj]
      exact h.settled k (hother k hkj hk)
  owned hF := (h.owned hF).of_eq (fun _ => rfl) (fun _ => rfl) (fun _ => rfl) rfl rfl rfl rfl

/-- The counters catch up with the tables. -/
theorem Books.count (h : Books F de dm slot s) (a b : Int) : Books F (de + a) (dm + b) slot
    { s with activeEvents := s.activeEvents + a, activeMmaps := s.activeMmaps + b } where
  events := by
    show s.activeEvents + a = countActive s + (de + a)
    have := h.events
    omega
  live := by
    show s.activeMmaps + b = countLive s + (dm + b)
    have := h.live
    omega
  eventRange := h.eventRange
  liveRange := h.liveRange
  settled := h.settled
  owned hF := (h.owned hF).of_eq (fun _ => rfl) (fun _ => rfl) (fun _ => rfl) rfl rfl rfl rfl

theorem Books.countMmap (h : Books F de dm slot s) (b : Int) :
    Books F de (dm + b) slot { s with activeMmaps := s.activeMmaps + b } := by
  have := h.count 0 b
  simpa only [Int.add_zero] using this

theorem Books.countEvent (h : Books F de dm slot s) (a : Int) :
    Books F (de + a) dm slot { s with activeEvents := s.activeEvents + a } := by
  have := h.count a 0
  simpa only [Int.add_zero] using this

/-! ### One event -/

/-- An update of an event that is not active, or that concerns its mapping only. -/
theorem Books.setEvent (h : Books F de dm slot s) {i : Int} {f : EventData → EventData}
    (hf : (f (s.eventData i)).active = (s.eventData i).active)
    (hown : (s.eventData i).active = true → (f (s.eventData i)).fd = (s.eventData i).fd ∧
      (f (s.eventData i)).serial = (s.eventData i).serial) : Books F de dm slot (s.setEvent i f) := by
  have hactive : ∀ k, ((s.setEvent i f).eventData k).active = (s.eventData k).active := by
    intro k
    show (if k = i then f (s.eventData i) else s.eventData k).active = _
    split
    · rename_i hk
      rw [hf, hk]
    · rfl
  have hcount : countActive (s.setEvent i f) = countActive s := by
    unfold countActive countSlots
    exact count_congr fun k _ => by rw [hactive]
  have hsame : ∀ k, (s.eventData k).active = true →
      ((s.setEvent i f).eventData k).fd = (s.eventData k).fd ∧
        ((s.setEvent i f).eventData k).serial = (s.eventData k).serial := by
    intro k hk
    rcases eq_or_ne k i with rfl | hki
    · rw [show (s.setEvent k f).eventData k = f (s.eventData k) from if_pos rfl]
      exact hown hk
    · rw [show (s.setEvent i f).eventData k = s.eventData k from if_neg hki]
      exact ⟨rfl, rfl⟩
  refine ⟨by rw [hcount]; exact h.events, h.live, fun k hk => h.eventRange k (hactive k ▸ hk),
    h.liveRange, h.settled, fun hF => ?_⟩
  have ho := h.owned hF
  refine ⟨fun k hk => ?_, fun k l hk hl hkl => ?_, ho.fresh, ho.files, ho.places, ho.calls⟩
  · rw [hactive] at hk
    rw [(hsame k hk).1, (hsame k hk).2]
    exact ho.own k hk
  · rw [hactive] at hk hl
    rw [(hsame k hk).2, (hsame l hl).2] at hkl
    exact ho.distinct k l hk hl hkl

theorem Books.deactivate (h : Books F de dm slot s) {i : Int}
    (hi : (s.eventData i).active = true) : Books F (de + 1) dm slot (s.deactivate i) where
  events := by
    have hcount := countActive_deactivate (h.eventRange i hi) hi
    have hevents := h.events
    show s.activeEvents = _
    omega
  live := h.live
  eventRange k hk := h.eventRange k (active_of_deactivate hk).2
  liveRange := h.liveRange
  settled := h.settled
  owned hF := (fades_deactivate s i).owned hF (h.owned hF)

theorem loose_deactivate (ho : Owns F s) {i : Int} (hi : (s.eventData i).active = true) :
    Loose F (s.eventData i).fd (s.eventData i).serial (s.deactivate i) := by
  intro hF
  refine ⟨(ho hF).own i hi, fun k hk => ?_⟩
  rw [deactivate_fd, deactivate_serial]
  have hk := active_of_deactivate hk
  exact ⟨(ho hF).fd_ne hk.2 hi hk.1, fun h => hk.1 ((ho hF).distinct k i hk.2 hi h)⟩

def St.activate (s : St) (i : Int) : St := s.setEvent i fun ev => { ev with active := true }

theorem Books.activate (h : Books F de dm slot s) {i : Int} (hi : InRange numEvents i)
    (hoff : (s.eventData i).active = false)
    (hloose : Loose F (s.eventData i).fd (s.eventData i).serial s) :
    Books F (de - 1) dm slot (s.activate i) := by
  have hself : ((s.activate i).eventData i) = { s.eventData i with active := true } := if_pos rfl
  have hother : ∀ k, k ≠ i → (s.activate i).eventData k = s.eventData k := fun k hk => if_neg hk
  have hback : (s.activate i).deactivate i = s := by
    have hevents : ((s.activate i).deactivate i).eventData = s.eventData := by
      have hoff' : s.eventData i = { s.eventData i with active := false } := by rw [← hoff]
      funext k
      show (if k = i then { (s.activate i).eventData i with active := false } else
        (s.activate i).eventData k) = s.eventData k
      split
      · rename_i hk
        rw [hself, hk]
        exact hoff'.symm
      · rename_i hk
        exact hother k hk
    show { s with eventData := ((s.activate i).deactivate i).eventData } = s
    rw [hevents]
  have hactive : ∀ k, ((s.activate i).eventData k).active = true → k ≠ i →
      (s.eventData k).active = true := fun k hk hki => by rwa [hother k hki] at hk
  have hcount : countActive (s.activate i) = countActive s + 1 := by
    have := countActive_deactivate (s := s.activate i) hi (by rw [hself])
    rwa [hback] at this
  refine ⟨?_, h.live, fun k hk => ?_, h.liveRange, h.settled, fun hF => ?_⟩
  · show s.activeEvents = _
    have := h.events
    omega
  · rcases eq_or_ne k i with rfl | hki
    · exact hi
    · exact h.eventRange k (hactive k hk hki)
  obtain ⟨hfd, hfree⟩ := hloose hF
  have ho := h.owned hF
  have hserial : ∀ k, ((s.activate i).eventData k).serial = (s.eventData k).serial := by
    intro k
    rcases eq_or_ne k i with rfl | hki
    · rw [hself]
    · rw [hother k hki]
  refine ⟨fun k hk => ?_, fun k l hk hl hkl => ?_, ho.fresh, ho.files, ho.places, ho.calls⟩
  · rcases eq_or_ne k i with rfl | hki
    · rw [hself]
      exact hfd
    · rw [hother k hki]
      exact ho.own k (hactive k hk hki)
  · rw [hserial, hserial] at hkl
    rcases eq_or_ne k i with rfl | hki <;> rcases eq_or_ne l k with rfl | hlk
    · rfl
    · exact absurd hkl.symm (hfree l (hactive l hl hlk)).2
    · rfl
    · rcases eq_or_ne l i with rfl | hli
      · exact absurd hkl (hfree k (hactive k hk hki)).2
      · exact ho.distinct k l (hactive k hk hki) (hactive l hl hli) hkl

end Lemmas

end PerfEvent.Fuzzer
