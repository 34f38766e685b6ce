import PerfEventTests.Fuzzer.Sweep

/-!
# What a point of the main program may change

`sigio_handler` is followed step by step through `close_event`; from it comes what any number of
signals at one point leave behind, as long as none of them strikes where the interrupted operation
would do the same work a second time.
-/

namespace PerfEvent.Fuzzer

open Draws Programs

/-! ## One event -/

/-- The points leave everything as it is, but for what `our_handler` counts. -/
def Undisturbed (e : Env) (F : Prop) (E : St → Prop) : Prop :=
  ∀ loc t, (∀ s, Still F t s → E s) → Keeps (Still F t) (e.pt loc) E

section CloseEvent

variable {e : Env} {F : Prop} {E : St → Prop} {t : St}

theorem freeIndex_still : FreeIndex (Still F t) := fun _ h =>
  ⟨h.active, h.fd, h.mmap, h.serial, h.activeEvents, h.mmaps, h.activeMmaps, h.openFds,
    h.nextSerial, h.calls, h.fds⟩

theorem Undisturbed.at (hq : Undisturbed e F E) (hE : ∀ s, Fades F t s → E s) {t' : St}
    (ht' : Fades F t t') (loc : Loc) : Keeps (Still F t') (e.pt loc) E :=
  hq loc t' fun s hs => hE s (ht'.trans hs.fades)

theorem still_setMmap {s : St} (h : Still F t s) (j : Int) (f : MmapEntry → MmapEntry) :
    Still F (t.setMmap j f) (s.setMmap j f) :=
  ⟨h.active, h.fd, h.mmap, h.serial, h.activeEvents, fun k => by
    show (if k = j then f (s.mmaps j) else s.mmaps k) = if k = j then f (t.mmaps j) else t.mmaps k
    rw [h.mmaps, h.mmaps], h.activeMmaps, h.openFds, h.nextSerial, h.calls, h.fds⟩

/-- What `munmap` says about a slot. -/
def munmapResult (m : MmapEntry) : Int := if m.addr = mapFailed ∨ m.size = 0 then -1 else 0

theorem sysMunmap_still (j : Int) : Triple (Still F t) (sysMunmap j)
    (fun r s => Still F (t.setMmap j fun m =>
      { m with mapped := m.mapped && munmapResult m ≠ 0 }) s ∧ r = munmapResult (t.mmaps j)) E := by
  refine triple_bind (triple_getMmap (.inr freeIndex_still)) fun m => ?_
  refine triple_ite (fun hm => triple_pure fun s hs => ?_) fun hm => ?_
  · obtain ⟨hs, rfl⟩ := hs
    rw [hs.mmaps] at hm
    have hres : munmapResult (t.mmaps j) = -1 := if_pos hm
    refine ⟨⟨hs.active, hs.fd, hs.mmap, hs.serial, hs.activeEvents, fun k => ?_, hs.activeMmaps,
      hs.openFds, hs.nextSerial, hs.calls, hs.fds⟩, hres.symm⟩
    show s.mmaps k = if k = j then { t.mmaps j with
      mapped := (t.mmaps j).mapped && munmapResult (t.mmaps j) ≠ 0 } else t.mmaps k
    split
    · rename_i hk
      rw [hs.mmaps, hk, hres]
      simp
    · exact hs.mmaps k
  · refine triple_bind (Q := fun _ s => Still F (t.setMmap j fun m =>
      { m with mapped := m.mapped && munmapResult m ≠ 0 }) s ∧ 0 = munmapResult (t.mmaps j))
      (triple_update fun s hs => ?_) fun _ => triple_pure fun _ hs => hs
    obtain ⟨hs, rfl⟩ := hs
    have hs' : Still F t (s.checkMmap j) := checkMmap_keeps (.inr freeIndex_still) hs
    rw [hs.mmaps] at hm
    have hres : munmapResult (t.mmaps j) = 0 := if_neg hm
    refine ⟨⟨hs'.active, hs'.fd, hs'.mmap, hs'.serial, hs'.activeEvents, fun k => ?_,
      hs'.activeMmaps, hs'.openFds, hs'.nextSerial, hs'.calls, hs'.fds⟩, hres.symm⟩
    show (if k = j then { (s.checkMmap j).mmaps j with mapped := false } else
      (s.checkMmap j).mmaps k) = if k = j then { t.mmaps j with
        mapped := (t.mmaps j).mapped && munmapResult (t.mmaps j) ≠ 0 } else t.mmaps k
    rw [hs'.mmaps, hs'.mmaps, hres]
    simp

theorem still_unmapSlot_of_failed {s : St} {j : Int} (h : Still F t s)
    (hj : (t.mmaps j).addr = mapFailed) : Still F (t.unmapSlot j) s := by
  refine ⟨h.active, h.fd, h.mmap, h.serial, h.activeEvents, fun k => ?_, ?_, h.openFds,
    h.nextSerial, h.calls, h.fds⟩
  · rw [h.mmaps, unmapSlot_mmaps]
    split
    · rename_i hk
      rw [hk, MmapEntry.unmapped, if_pos hj]
    · rfl
  · show s.activeMmaps = t.activeMmaps - _
    have hlive : (t.mmaps j).live = false := by simp [MmapEntry.live, hj]
    rw [h.activeMmaps, hlive]
    simp

theorem setMmap_still (j : Int) (f : MmapEntry → MmapEntry) :
    Triple (Still F t) (setMmap j f) (fun _ => Still F (t.setMmap j f)) E :=
  triple_setMmap (.inr freeIndex_still) fun _ hs => still_setMmap hs j f

/-- The slot after the three steps of `unmap_mmap`. -/
theorem unmapped_eq {m : MmapEntry} (h : m.addr ≠ mapFailed) : m.unmapped =
    { m with active := false, addr := mapFailed, mapped := m.mapped && munmapResult m ≠ 0 } := by
  rw [MmapEntry.unmapped, if_neg h, munmapResult]
  by_cases hsize : m.size = 0 <;> simp [h, hsize]

theorem munmapResult_eq_zero {m : MmapEntry} : munmapResult m = 0 ↔ m.live = true := by
  unfold munmapResult MmapEntry.live
  by_cases haddr : m.addr = mapFailed <;> by_cases hsize : m.size = 0 <;> simp [haddr, hsize]

theorem unmapMmap_still (hq : Undisturbed e F E) (hE : ∀ s, Fades F t s → E s) (j : Int) :
    Triple (Still F t) (unmapMmap e j true) (fun _ => Still F (t.unmapSlot j)) E := by
  have hpt : ∀ {t'}, Fades F t t' → ∀ loc, Keeps (Still F t') (e.pt loc) E :=
    fun h loc => hq.at hE h loc
  refine triple_bind (hpt (Still.refl t).fades _) fun _ =>
    triple_bind (triple_getMmap (.inr freeIndex_still)) fun m => ?_
  refine Triple.weaken_pre (P := fun s => Still F t s ∧ m = t.mmaps j) ?_
    fun s hs => ⟨hs.1, hs.2.trans (hs.1.mmaps j)⟩
  refine triple_of_pure_right fun hm => triple_whenever (fun haddr => ?_) fun haddr s hs =>
    still_unmapSlot_of_failed hs (not_not.1 (hm ▸ haddr))
  rw [hm] at haddr
  refine triple_bind (hpt (Still.refl t).fades _) fun _ => triple_bind (setMmap_still j _) fun _ => ?_
  refine triple_bind (hpt (by exact fades_of_eq rfl rfl rfl rfl rfl) _) fun _ =>
    triple_bind (sysMunmap_still j) fun r => triple_of_pure_right fun hr => ?_
  have hslot : ((t.setMmap j fun m => { m with active := false }).mmaps j) =
      { t.mmaps j with active := false } := if_pos rfl
  rw [hslot] at hr
  have hlive : r = 0 ↔ (t.mmaps j).live = true := hr ▸ munmapResult_eq_zero
  refine triple_bind (hpt (by exact fades_of_eq rfl rfl rfl rfl rfl) _) fun _ => triple_bind
    (keeps_whenever fun h => absurd h Bool.false_ne_true) fun _ => ?_
  refine triple_bind (setMmap_still j _) fun _ =>
    triple_bind (hpt (by exact fades_of_eq rfl rfl rfl rfl rfl) _) fun _ => ?_
  -- the three updates of the slot make it `unmapped`
  have hmmaps : ∀ {s}, Still F (((t.setMmap j fun m => { m with active := false }).setMmap j fun m =>
      { m with mapped := m.mapped && munmapResult m ≠ 0 }).setMmap j fun m =>
        { m with addr := mapFailed }) s → ∀ k, s.mmaps k = (t.unmapSlot j).mmaps k := by
    intro s hs k
    rw [hs.mmaps, unmapSlot_mmaps]
    by_cases hk : k = j
    · subst hk
      simp only [St.setMmap, if_true, unmapped_eq haddr]
      rfl
    · simp only [St.setMmap, if_neg hk]
  refine triple_whenever (fun h => triple_update fun s hs => ?_) fun h s hs => ?_
  · refine ⟨hs.active, hs.fd, hs.mmap, hs.serial, hs.activeEvents, fun k => hmmaps hs k, ?_, hs.openFds,
      hs.nextSerial, hs.calls, hs.fds⟩
    show s.activeMmaps - 1 = t.activeMmaps - if (t.mmaps j).live then 1 else 0
    rw [if_pos (hlive.1 h), hs.activeMmaps]
    rfl
  · refine ⟨hs.active, hs.fd, hs.mmap, hs.serial, hs.activeEvents, fun k => hmmaps hs k, ?_, hs.openFds,
      hs.nextSerial, hs.calls, hs.fds⟩
    show s.activeMmaps = t.activeMmaps - if (t.mmaps j).live then 1 else 0
    rw [if_neg (fun hl => h (hlive.2 hl)), hs.activeMmaps, Int.sub_zero]
    rfl

theorem unmapOf_still (hq : Undisturbed e F E) (hE : ∀ s, Fades F t s → E s) (i : Int) :
    Triple (Still F t) (unmapOf e i true)
      (fun _ => Still F (t.unmapSlot (t.eventData i).mmap)) E := by
  refine triple_bind (triple_getEvent (.inr freeIndex_still)) fun ev => ?_
  refine Triple.weaken_pre (P := fun s => Still F t s ∧ ev.mmap = (t.eventData i).mmap) ?_
    fun s hs => ⟨hs.1, by rw [hs.2, hs.1.mmap]⟩
  exact triple_of_pure_right fun hmmap => hmmap ▸ unmapMmap_still hq hE ev.mmap

theorem closeDescriptor_still (i : Int) :
    Triple (Still F t) (closeDescriptor i) (fun _ => Still F (t.closeFdOf i)) E := by
  refine triple_bind (triple_getEvent (.inr freeIndex_still)) fun ev => ?_
  refine Triple.weaken_pre (P := fun s => Still F t s ∧ ev.fd = (t.eventData i).fd) ?_
    fun s hs => ⟨hs.1, by rw [hs.2, hs.1.fd]⟩
  refine triple_of_pure_right fun hfd => triple_bind
    (triple_update (Q := fun _ => Still F (t.addCall i .close)) fun s hs => ?_) fun _ => ?_
  · refine ⟨hs.active, hs.fd, hs.mmap, hs.serial, hs.activeEvents, hs.mmaps, hs.activeMmaps,
      hs.openFds, hs.nextSerial, fun hF => ?_, hs.fds⟩
    show (⟨_, _, _, _, _⟩ :: s.calls : List Call) = ⟨_, _, _, _, _⟩ :: t.calls
    rw [hs.calls hF, hs.fd, hs.serial, hs.active, hs.fds hF]
  · refine triple_bind (triple_bind keeps_getState fun _ => triple_bind
      (triple_update (Q := fun _ => Still F (t.closeFdOf i)) fun s hs => ?_) fun _ => keeps_pure)
      fun _ => keeps_pure
    refine ⟨hs.active, hs.fd, hs.mmap, hs.serial, hs.activeEvents, hs.mmaps, hs.activeMmaps,
      hs.openFds, hs.nextSerial, hs.calls, fun hF => ?_⟩
    funext n
    show (if n = ev.fd then none else s.fds n) = if n = (t.eventData i).fd then none else t.fds n
    rw [hfd, hs.fds hF]
    rfl

theorem closeEvent_still (hq : Undisturbed e F E) {i : Int} (hi : 0 ≤ i)
    (hactive : (t.eventData i).active = true) (hE : ∀ s, Fades F t s → E s) :
    Triple (Still F t) (closeEvent e i true) (fun _ => Still F (t.closeSlot i)) E := by
  have hopen : ∀ {t'}, Fades F t t' → ∀ loc, Keeps (Still F t') (e.pt loc) E :=
    fun ht' loc => hq.at hE ht' loc
  have hoff : Fades F t (t.deactivate i) := fades_deactivate t i
  have hclosed : Fades F t ((t.deactivate i).closeFdOf i) := fades_closed hactive
  have hmmap : ((t.deactivate i).eventData i).mmap = (t.eventData i).mmap := deactivate_mmap t i i
  refine triple_whenever (fun _ => ?_) fun h => absurd hi h
  refine triple_bind (hopen (Still.refl t).fades _) fun _ => ?_
  refine triple_bind keeps_rand fun r => triple_bind (hopen (Still.refl t).fades _) fun _ => ?_
  refine triple_bind (triple_setEvent (Q := fun _ => Still F (t.deactivate i))
    (.inr freeIndex_still) fun s hs => ?_) fun _ => ?_
  · refine ⟨fun k => ?_, fun k => ?_, fun k => ?_, fun k => ?_, hs.activeEvents, hs.mmaps,
      hs.activeMmaps, hs.openFds, hs.nextSerial, hs.calls, hs.fds⟩
    · rw [deactivate_active]
      exact (deactivate_active s i k).trans (by rw [hs.active])
    · exact (deactivate_fd s i k).trans ((hs.fd k).trans (deactivate_fd t i k).symm)
    · exact (deactivate_mmap s i k).trans ((hs.mmap k).trans (deactivate_mmap t i k).symm)
    · exact (deactivate_serial s i k).trans ((hs.serial k).trans (deactivate_serial t i k).symm)
  refine triple_bind (hopen hoff _) fun _ => ?_
  have hskip : Keeps (Still F ((t.deactivate i).closeFdOf i)) (whenever (!true) do
      let ev ← getEvent i
      logLine e 'C' (closeLine ev.fd)
      e.pt .elsewhere) E := keeps_whenever fun h => absurd h (by decide)
  -- the mapping goes before or after the descriptor
  by_cases hr : r % 2 = 1
  · refine triple_bind (triple_whenever (fun _ => unmapOf_still hq
      (fun s hs => hE s (hoff.trans hs)) i) fun h => absurd hr h) fun _ => ?_
    rw [hmmap]
    have hstep : Fades F t ((t.deactivate i).unmapSlot (t.eventData i).mmap) :=
      hoff.trans (fades_of_eq rfl rfl rfl rfl rfl)
    have hlast : Fades F t (((t.deactivate i).unmapSlot (t.eventData i).mmap).closeFdOf i) :=
      hclosed.trans (fades_of_eq rfl rfl rfl rfl rfl)
    refine triple_bind (hopen hstep _) fun _ => triple_bind (closeDescriptor_still i) fun _ => ?_
    refine triple_bind (hopen hlast _) fun _ => triple_bind
      (keeps_whenever fun h => absurd h (by decide)) fun _ => ?_
    refine triple_bind (keeps_whenever fun h => absurd hr h) fun _ =>
      triple_bind (hopen hlast _) fun _ => triple_update fun s hs => ?_
    exact ⟨hs.active, hs.fd, hs.mmap, hs.serial, congrArg (· - 1) hs.activeEvents, hs.mmaps,
      hs.activeMmaps, hs.openFds, hs.nextSerial, hs.calls, hs.fds⟩
  · refine triple_bind (keeps_whenever fun h => absurd h hr) fun _ => ?_
    refine triple_bind (hopen hoff _) fun _ => triple_bind (closeDescriptor_still i) fun _ => ?_
    refine triple_bind (hopen hclosed _) fun _ => triple_bind hskip fun _ => ?_
    refine triple_bind (triple_whenever (fun _ => unmapOf_still hq
      (fun s hs => hE s (hclosed.trans hs)) i) fun h => absurd hr h) fun _ => ?_
    have hlast : Fades F t (((t.deactivate i).closeFdOf i).unmapSlot (t.eventData i).mmap) :=
      hclosed.trans (fades_of_eq rfl rfl rfl rfl rfl)
    have hmmap' : (((t.deactivate i).closeFdOf i).eventData i).mmap = (t.eventData i).mmap := hmmap
    rw [hmmap']
    refine triple_bind (hopen hlast _) fun _ => triple_update fun s hs => ?_
    exact ⟨hs.active, hs.fd, hs.mmap, hs.serial, congrArg (· - 1) hs.activeEvents, hs.mmaps,
      hs.activeMmaps, hs.openFds, hs.nextSerial, hs.calls, hs.fds⟩

theorem closeIfActive_closes (hq : Undisturbed e F E) (hE : ∀ s, Fades F t s → E s) {i : Int}
    (hi : InRange numEvents i) : Triple (fun s => s = t) (closeIfActive e i)
      (fun _ s => Closes F t s ∧ (s.eventData i).active = false) E := by
  refine Triple.weaken_pre (P := Still F t) ?_ fun s hs => hs ▸ Still.refl _
  refine triple_bind (hq.at hE (Still.refl t).fades _) fun _ =>
    triple_bind (triple_getEvent (.inr freeIndex_still)) fun ev => ?_
  refine Triple.weaken_pre (P := fun s => Still F t s ∧ ev.active = (t.eventData i).active) ?_
    fun s hs => ⟨hs.1, by rw [hs.2, hs.1.active]⟩
  refine triple_of_pure_right fun hev => triple_whenever (fun hactive => ?_) fun hactive s hs => ?_
  · rw [hev] at hactive
    refine (closeEvent_still hq hi.1 hactive hE).strengthen_post fun _ s hs => ?_
    refine ⟨(closes_closeSlot hi hactive).trans hs.closes, ?_⟩
    rw [hs.active]
    exact (deactivate_active t i i).trans (if_pos rfl)
  · refine ⟨hs.closes, ?_⟩
    rw [hs.active, ← hev]
    exact Bool.eq_false_of_not_eq_true hactive

theorem sigioHandler_swept (hq : Undisturbed e F E) (hE : ∀ s, Fades F t s → E s) :
    Triple (fun s => s = t) (sigioHandler e) (fun _ s => Swept F t s) E := by
  refine triple_bind keeps_answer fun siKernel => triple_whenever (fun _ => ?_)
    fun _ s hs => hs ▸ (Still.refl _).swept
  refine triple_bind (triple_update (Q := fun _ s => Still F t s) fun s hs => ?_) fun _ => ?_
  · exact hs ▸ ⟨fun _ => rfl, fun _ => rfl, fun _ => rfl, fun _ => rfl, rfl, fun _ => rfl, rfl, rfl,
      rfl, fun _ => rfl, fun _ => rfl⟩
  -- the slots below the counter are closed
  refine (triple_forRange (I := fun n s => Closes F t s ∧
    ∀ k : Nat, k < n → (s.eventData k).active = false) numEvents 0 fun n _ hn => ?_).consequence
      (fun s hs => ⟨hs.closes, fun k hk => absurd hk (Nat.not_lt_zero k)⟩)
      (fun _ s hs => ⟨hs.1, .inr fun k hk => hs.2 k (by omega)⟩) fun _ hs => hs
  refine triple_from fun s hs => ?_
  refine (closeIfActive_closes hq (fun s' hs' => hE s' (hs.1.toFades.trans hs'))
    (inRange_natCast (by omega))).strengthen_post fun _ s' hs' => ⟨hs.1.trans hs'.1, fun k hk => ?_⟩
  rcases Nat.lt_succ_iff_lt_or_eq.1 hk with hk | rfl
  · have hoff := hs.2 k hk
    rw [← Bool.not_eq_true] at hoff ⊢
    exact fun h => hoff (hs'.1.active k h)
  · exact hs'.2

end CloseEvent

/-! ## One point -/

/-- `sigio_handler` does not do what the operation that it interrupts is about to do as well: the
event that is being closed is no longer active, the mapping that is being made or undone is not
that of an active event. -/
def Harmless (loc : Loc) (s : St) : Prop :=
  match loc with
  | .closing i => (s.eventData i).active = false
  | .mapped i | .unmapped i => (s.mmaps i).live = true →
      ∀ k < numEvents, (s.eventData k).active = true → (s.eventData k).mmap ≠ i
  | _ => True

instance (loc : Loc) (s : St) : Decidable (Harmless loc s) := by
  cases loc <;> unfold Harmless <;> infer_instance

/-- What the interrupted operation relies on is still there. -/
def Spared (loc : Loc) (s s' : St) : Prop :=
  match loc with
  | .closing i => (s.eventData i).active = true → (s'.eventData i).active = true
  | .mapped i | .unmapped i => (s.mmaps i).live = true → (s'.mmaps i).live = true
  | _ => True

theorem Spared.refl (loc : Loc) (s : St) : Spared loc s s := by
  cases loc <;> first | exact trivial | exact id

theorem Spared.trans {loc : Loc} {s s' s'' : St} (h : Spared loc s s') (h' : Spared loc s' s'') :
    Spared loc s s'' := by
  cases loc <;> first | exact trivial | exact fun hs => h' (h hs)

theorem Still.spared {F : Prop} {s s' : St} (h : Still F s s') (loc : Loc) : Spared loc s s' := by
  cases loc with
  | closing i => exact fun hs => (h.active i).trans hs
  | mapped i => exact fun hs => by rw [h.mmaps]; exact hs
  | unmapped i => exact fun hs => by rw [h.mmaps]; exact hs
  | _ => exact trivial

theorem Swept.live_of_unowned {F : Prop} {s s' : St} (h : Swept F s s') {i : Int}
    (hfree : (s.mmaps i).live = true →
      ∀ k < numEvents, (s.eventData k).active = true → (s.eventData k).mmap ≠ i)
    (hlive : (s.mmaps i).live = true) : (s'.mmaps i).live = true := by
  rcases h.slot i with hsame | ⟨-, k, hk, hactive, hmmap⟩
  · rw [hsame]
    exact hlive
  · exact absurd hmmap (hfree hlive k hk hactive)

theorem Swept.spared {F : Prop} {s s' : St} (h : Swept F s s') {loc : Loc} (hs : Harmless loc s) :
    Spared loc s s' := by
  cases loc with
  | closing i => exact fun hactive => absurd (hs.symm.trans hactive) Bool.false_ne_true
  | mapped i => exact fun hlive => h.live_of_unowned hs hlive
  | unmapped i => exact fun hlive => h.live_of_unowned hs hlive
  | _ => exact trivial

/-- A run is kept from harmful deliveries, and under `F` from closing throttled events. -/
structure Kept (r : Rules) (F : Prop) : Prop where
  storm : ∀ i s, r.passes (.storm i) s = true → ¬F
  delivers : ∀ loc s, r.delivers loc s = true → Harmless loc s

section Points

variable {c : Config} {r : Rules} {F : Prop} {P E : St → Prop}

/-- What `our_handler` does keeps every assertion that `Still` keeps. -/
theorem attended_of_still (hk : Kept r F) (hstops : ∀ s, P s → E s)
    (hstill : ∀ s s', Still F s s' → P s → P s') {rest : Loc → Fuzz Unit}
    (hrest : ∀ loc, Keeps P (rest loc) E) : Attended ⟨c, fun loc => do passPoint r loc; rest loc⟩ P E where
  stops := hstops
  same _ _ h hs := hstill _ _ h.still hs
  here := keeps_bind (keeps_passPoint hstops _) fun _ => hrest _
  storm i := by
    refine triple_bind ((triple_passPoint hstops _).strengthen_post fun _ s hs =>
      (⟨hs.1, hk.storm i s hs.2⟩ : P s ∧ ¬F)) fun _ => triple_of_pure_right fun hF => ?_
    refine (hrest _).strengthen_post fun _ s hs => ⟨hs, fun s fd hs => hstill s _ ?_ hs⟩
    exact ⟨fun _ => rfl, fun _ => rfl, fun _ => rfl, fun _ => rfl, rfl, fun _ => rfl, rfl, rfl, rfl,
      fun h => absurd h hF, fun h => absurd h hF⟩
  stored _ _ := .inl fun s hs => hstill s _ ⟨fun _ => rfl, fun _ => rfl, fun _ => rfl, fun _ => rfl,
    rfl, fun _ => rfl, rfl, rfl, rfl, fun _ => rfl, fun _ => rfl⟩ hs

theorem undisturbed_quietPoint : Undisturbed ⟨c, quietPoint r⟩ F E := fun _ _ hstops =>
  keeps_bind (keeps_passPoint hstops _) fun _ => keeps_bind (keeps_arrivals hstops) fun _ => keeps_pure

theorem undisturbed_pointInSigio (hk : Kept r F) : Undisturbed ⟨c, pointInSigio c r⟩ F E :=
  fun _ _ hstops => keeps_bind (keeps_passPoint hstops _) fun _ =>
    keeps_bind (keeps_arrivals hstops) fun _ => keeps_forRange _ _ fun _ _ _ =>
      keeps_bind keeps_answer fun fd => (attended_of_still hk hstops
        (fun _ _ h hs => hs.trans h) fun _ => keeps_bind (keeps_arrivals hstops) fun _ =>
          keeps_pure).ourHandler fd

variable {t : St} (hk : Kept r F) (hE : ∀ s, Fades F t s → E s)
include hk hE

/-- One delivery of `sigio_handler`. -/
theorem deliverSigio_swept {e : Env} (hq : Undisturbed e F E) (loc : Loc) :
    Keeps (fun s => Swept F t s ∧ Spared loc t s) (deliverSigio r loc (sigioHandler e)) E := by
  refine triple_bind (triple_getState (Q := fun s' s => (Swept F t s ∧ Spared loc t s) ∧ s' = s)
    fun s hs => ⟨hs, rfl⟩) fun s' => triple_ite (fun hdel => ?_) fun _ =>
      triple_stop fun s hs => hE s hs.1.1.toFades
  refine triple_from fun s hs => ?_
  obtain ⟨⟨hswept, hspared⟩, rfl⟩ := hs
  refine (sigioHandler_swept hq fun s'' hs'' => hE s'' (hswept.toFades.trans hs'')).strengthen_post
    fun _ s'' hs'' => ⟨hswept.trans hs'', hspared.trans ?_⟩
  exact hs''.spared (hk.delivers loc s' hdel)

/-- Whatever arrives at a point of the main program. -/
theorem point_swept (loc : Loc) : Triple (fun s => s = t) ((c.env r).pt loc)
    (fun _ s => Swept F t s ∧ Spared loc t s) E := by
  have hstops : ∀ s, (Swept F t s ∧ Spared loc t s) → E s := fun s hs => hE s hs.1.toFades
  refine Triple.weaken_pre (P := fun s => Swept F t s ∧ Spared loc t s) ?_
    fun s hs => hs ▸ ⟨(Still.refl _).swept, Spared.refl loc _⟩
  refine keeps_bind (keeps_passPoint hstops loc) fun _ => keeps_bind (keeps_arrivals hstops)
    fun _ => keeps_forRange _ _ fun _ _ _ => keeps_bind keeps_answer fun fd =>
      keeps_ite (fun _ => ?_) fun _ => ?_
  · exact deliverSigio_swept hk hE (undisturbed_pointInSigio hk) loc
  · refine (attended_of_still hk hstops (fun s s' h hs =>
      ⟨hs.1.trans h.swept, hs.2.trans (h.spared loc)⟩) fun _ => ?_).ourHandler fd
    exact keeps_bind (keeps_arrivals hstops) fun _ => keeps_forRange _ _ fun _ _ _ =>
      deliverSigio_swept hk hE undisturbed_quietPoint loc

end Points

end PerfEvent.Fuzzer
