import PerfEventTests.Fuzzer.Groups

/-!
# What the operations do to the groups

Closing and opening are followed step by step; everything else leaves alone what an assertion about
the events and their groups looks at.
-/

namespace PerfEvent.Fuzzer

open Draws Programs Text

/-- The two states agree on the events. -/
structure SameEvents (s s' : St) : Prop where
  active : ∀ i, (s'.eventData i).active = (s.eventData i).active
  entry : ∀ i, (s'.eventData i).entry = (s.eventData i).entry
  activeEvents : s'.activeEvents = s.activeEvents
  nextSerial : s'.nextSerial = s.nextSerial

theorem SameEvents.refl (s : St) : SameEvents s s := ⟨fun _ => rfl, fun _ => rfl, rfl, rfl⟩

theorem SameEvents.trans {s s' s'' : St} (h : SameEvents s s') (h' : SameEvents s' s'') :
    SameEvents s s'' :=
  ⟨fun i => (h'.active i).trans (h.active i), fun i => (h'.entry i).trans (h.entry i),
    h'.activeEvents.trans h.activeEvents, h'.nextSerial.trans h.nextSerial⟩

theorem SameEvents.of_eventData {s s' : St} (h : s'.eventData = s.eventData)
    (h1 : s'.activeEvents = s.activeEvents) (h2 : s'.nextSerial = s.nextSerial) : SameEvents s s' :=
  ⟨fun i => by rw [h], fun i => by rw [h], h1, h2⟩

theorem SameEvents.groups {s s' : St} (h : SameEvents s s') : groups s' = groups s := by
  funext i
  unfold Fuzzer.groups
  rw [h.active, h.entry]

theorem SameCore.sameEvents {s s' : St} (h : SameCore s s') : SameEvents s s' := by
  refine ⟨h.active, fun i => ?_, h.activeEvents, h.nextSerial⟩
  have hgroup := h.group i
  unfold EventData.group at hgroup
  simp only [Prod.mk.injEq] at hgroup
  unfold EventData.entry
  rw [h.fd, h.serial, h.attr, hgroup.1, hgroup.2.1, hgroup.2.2.1, hgroup.2.2.2]

/-- An update of one slot that leaves the event alone. -/
theorem sameEvents_setEvent (s : St) (i : Int) {f : EventData → EventData}
    (hf : ∀ ev, (f ev).active = ev.active ∧ (f ev).entry = ev.entry) :
    SameEvents s (s.setEvent i f) := by
  refine ⟨fun j => ?_, fun j => ?_, rfl, rfl⟩
  · show (if j = i then f (s.eventData i) else s.eventData j).active = _
    split
    · rename_i h
      rw [(hf _).1, h]
    · rfl
  · show (if j = i then f (s.eventData i) else s.eventData j).entry = _
    split
    · rename_i h
      rw [(hf _).2, h]
    · rfl

theorem groups_setEvent (s : St) (i : Int) (f : EventData → EventData) :
    groups (s.setEvent i f) = (groups s).set i
      (if (f (s.eventData i)).active then some (f (s.eventData i)).entry else none) := by
  funext j
  by_cases hji : j = i
  · subst hji
    have hslot : (s.setEvent j f).eventData j = f (s.eventData j) := if_pos rfl
    rw [set_self]
    unfold groups
    rw [hslot]
  · have hslot : (s.setEvent i f).eventData j = s.eventData j := if_neg hji
    rw [set_other hji]
    unfold groups
    rw [hslot]

/-- `P` looks at the events only. -/
def OnEvents (P : St → Prop) : Prop := ∀ s s', SameEvents s s' → P s → P s'

theorem onEvents_sameEvents (t : St) : OnEvents (SameEvents t) := fun _ _ h hs => hs.trans h

/-- The points of the program leave the events alone. -/
def Unmoved (e : Env) : Prop :=
  ∀ P, OnEvents P → ∀ loc, Keeps P (e.pt loc) fun _ => True

namespace OnEvents

variable {e : Env} {P Q : St → Prop}

theorem of_rfl (hP : OnEvents P) {s s' : St} (hs : P s) (h : s'.eventData = s.eventData)
    (h1 : s'.activeEvents = s.activeEvents) (h2 : s'.nextSerial = s.nextSerial) : P s' :=
  hP s s' (.of_eventData h h1 h2) hs

theorem freeIndex (hP : OnEvents P) : FreeIndex P := fun _ hs => hP.of_rfl hs rfl rfl rfl

theorem steady (hP : OnEvents P) (he : Unmoved e) :
    Steady e P (fun _ _ => True) fun _ => True where
  stops _ _ := trivial
  same _ _ h hs := hP _ _ h.sameEvents hs
  here := he P hP _
  storm _ := (he P hP _).strengthen_post fun _ _ hs => ⟨hs, fun _ _ hs => hP.of_rfl hs rfl rfl rfl⟩
  stored _ _ := .inl hP.freeIndex
  use _ := (he P hP _).strengthen_post fun _ _ hs => ⟨hs, .inr hP.freeIndex⟩
  call _ _ _ _ hs := hP.of_rfl hs rfl rfl rfl
  line _ _ _ _ hs := hP.of_rfl hs rfl rfl rfl
  filterLine _ _ _ _ := (he P hP _).strengthen_post fun _ _ hs =>
    ⟨hs, fun _ hs => hP.of_rfl hs rfl rfl rfl⟩
  opened _ _ hs _ _ := ⟨hP.of_rfl hs rfl rfl rfl, trivial⟩
  closed _ _ hs _ := hP.of_rfl hs rfl rfl rfl
  hereFile _ := (he P hP _).consequence (fun _ hs => hs.1) (fun _ _ hs => ⟨hs, trivial⟩) fun _ => id
  sameFile _ _ _ _ _ := trivial
  lineFile _ _ _ _ _ := trivial
  place _ _ _ _ hs _ := hP.of_rfl hs rfl rfl rfl
  unplace _ _ _ hs _ := hP.of_rfl hs rfl rfl rfl

end OnEvents

/-! ## The signals -/

section Signals

variable {c : Config} {P : St → Prop}

/-- `our_handler` where no event is closed for good. -/
theorem OnEvents.attended (hP : OnEvents P) {r : Rules} (hstorm : ∀ i s, r.passes (.storm i) s = false)
    {rest : Loc → Fuzz Unit} (hrest : ∀ loc, Keeps P (rest loc) fun _ => True) :
    Attended ⟨c, fun loc => do passPoint r loc; rest loc⟩ P fun _ => True where
  stops _ _ := trivial
  same _ _ h hs := hP _ _ h.sameEvents hs
  here := keeps_bind (keeps_passPoint (fun _ _ => trivial) _) fun _ => hrest _
  storm i := by
    refine triple_bind ((triple_passPoint (fun _ _ => trivial) _).strengthen_post
      (S := fun _ _ => False) fun _ s hs => ?_) fun _ _ hw => hw.elim
    exact absurd ((hstorm i s).symm.trans hs.2) Bool.false_ne_true
  stored _ _ := .inl hP.freeIndex

theorem unmoved_pointInSigio {r : Rules} (hstorm : ∀ i s, r.passes (.storm i) s = false) :
    Unmoved ⟨c, pointInSigio c r⟩ := fun _ hP loc =>
  keeps_bind (keeps_passPoint (fun _ _ => trivial) loc) fun _ =>
    keeps_bind (keeps_arrivals fun _ _ => trivial) fun _ => keeps_forRange _ _ fun _ _ _ =>
      keeps_bind keeps_answer fun fd => (hP.attended hstorm fun _ =>
        keeps_bind (keeps_arrivals fun _ _ => trivial) fun _ => keeps_pure).ourHandler fd

/-- Signals on overflow may arrive at every point, as long as no event is throttled too often. -/
theorem unmoved_env {r : Rules} (hstorm : ∀ i s, r.passes (.storm i) s = false)
    (hsigio : ∀ loc s, r.delivers loc s = false) : Unmoved (c.env r) := by
  intro P hP loc
  have hnone : ∀ loc handler, Keeps P (deliverSigio r loc handler) fun _ => True := by
    refine fun loc handler => triple_bind (triple_getState (Q := fun s' s => P s ∧ s' = s)
      fun _ hs => ⟨hs, rfl⟩) fun s' => triple_ite (fun h => ?_) fun _ => triple_stop fun _ _ => trivial
    exact absurd ((hsigio loc s').symm.trans h) Bool.false_ne_true
  refine keeps_bind (keeps_passPoint (fun _ _ => trivial) loc) fun _ =>
    keeps_bind (keeps_arrivals fun _ _ => trivial) fun _ => keeps_forRange _ _ fun _ _ _ =>
      keeps_bind keeps_answer fun fd => keeps_ite (fun _ => hnone loc _) fun _ => ?_
  exact (hP.attended hstorm fun _ => keeps_bind (keeps_arrivals fun _ _ => trivial) fun _ =>
    keeps_forRange _ _ fun _ _ _ => hnone loc _).ourHandler fd

end Signals

/-! ## Mappings -/

namespace OnEvents

section Mappings

variable {e : Env} {P : St → Prop} (hP : OnEvents P)
include hP

theorem keeps_update {f : St → St} (hf : ∀ s, SameEvents s (f s)) :
    Keeps P (update f) fun _ => True :=
  triple_update fun s hs => hP _ _ (hf s) hs

theorem usable {size : Nat} {i : Int} : Usable P size i := .inr hP.freeIndex

theorem getEvent (i : Int) : Keeps P (getEvent i) fun _ => True := keeps_getEvent hP.usable

theorem getMmap (i : Int) : Keeps P (getMmap i) fun _ => True := keeps_getMmap hP.usable

theorem setMmap (i : Int) (f : MmapEntry → MmapEntry) : Keeps P (setMmap i f) fun _ => True :=
  triple_setMmap hP.usable fun _ hs => hP.of_rfl hs rfl rfl rfl

theorem logLine (letter : Char) (text : Str) : Keeps P (logLine e letter text) fun _ => True :=
  triple_logLine fun _ hs => hP.of_rfl hs rfl rfl rfl

theorem setEvent (i : Int) {f : EventData → EventData}
    (hf : ∀ ev, (f ev).active = ev.active ∧ (f ev).entry = ev.entry) :
    Keeps P (setEvent i f) fun _ => True :=
  triple_setEvent hP.usable fun s hs => hP _ _ (sameEvents_setEvent s i hf) hs

variable (he : Unmoved e)
include he

theorem unmapMmap (i : Int) (fromSigio : Bool) :
    Keeps P (unmapMmap e i fromSigio) fun _ => True := by
  have hpt := he P hP
  refine keeps_bind (hpt _) fun _ => keeps_bind (hP.getMmap i) fun m => keeps_whenever fun _ =>
    keeps_bind (hpt _) fun _ => keeps_bind (hP.setMmap i _) fun _ => keeps_bind (hpt _) fun _ => ?_
  refine keeps_bind (keeps_bind (hP.getMmap i) fun m => keeps_ite (fun _ => keeps_pure) fun _ =>
    keeps_bind (hP.setMmap i _) fun _ => keeps_pure) fun result => keeps_bind (hpt _) fun _ => ?_
  refine keeps_bind (keeps_whenever fun _ => keeps_bind (hP.getMmap i) fun _ =>
    keeps_bind (hP.logLine _ _) fun _ => hpt _) fun _ => ?_
  refine keeps_bind (hP.setMmap i _) fun _ => keeps_bind (hpt _) fun _ => keeps_whenever fun _ => ?_
  exact hP.keeps_update fun _ => .of_eventData rfl rfl rfl

theorem unmapOf (i : Int) (fromSigio : Bool) : Keeps P (unmapOf e i fromSigio) fun _ => True :=
  keeps_bind (hP.getEvent i) fun _ => hP.unmapMmap he _ fromSigio

theorem prepareMmap (i : Int) (fill : MmapEntry → MmapEntry) :
    Keeps P (prepareMmap e i fill) fun _ => True :=
  keeps_bind (he P hP _) fun _ => keeps_bind (hP.setMmap i _) fun _ =>
    keeps_bind (he P hP _) fun _ => hP.setMmap i fill

omit he in
theorem callMmap (i which size : Int) : Keeps P (callMmap i which size) fun _ => True :=
  keeps_bind (hP.getEvent which) fun _ => keeps_bind (keeps_bind keeps_answer fun _ => keeps_pure)
    fun _ => hP.setMmap i _

theorem recordMmap (i which : Int) (own : MmapEntry → MmapEntry) :
    Keeps P (recordMmap e i which own) fun _ => True := by
  have hpt := he P hP
  refine keeps_bind (hP.keeps_update fun _ => .of_eventData rfl rfl rfl) fun _ =>
    keeps_bind (hpt _) fun _ => keeps_bind (hP.setEvent which fun _ => ⟨rfl, rfl⟩) fun _ => keeps_bind (hpt _) fun _ =>
      keeps_bind (hP.getEvent which) fun _ => keeps_bind (hP.setMmap i _) fun _ => ?_
  refine keeps_bind (hpt _) fun _ => keeps_bind (hP.getMmap i) fun _ =>
    keeps_bind (hP.getEvent which) fun _ => keeps_bind (hP.logLine _ _) fun _ => ?_
  exact keeps_bind (hpt _) fun _ => keeps_bind (hP.setMmap i _) fun _ => hpt _

theorem findEmptyMmap : Keeps P (findEmptyMmap e) fun _ => True := by
  refine (triple_findRange (S := fun _ _ => True) maxMmaps 0 fun k _ _ => ?_).strengthen_post
    fun _ _ hs => hs.1
  refine triple_bind (he P hP _) fun _ => triple_bind (hP.getMmap k) fun m => ?_
  exact triple_pure fun s hs => ⟨hs, fun _ => trivial⟩

theorem setupMmapAux (which parent : Int) :
    Keeps P (setupMmapAux e which parent) fun _ => True := by
  have hpt := he P hP
  refine keeps_bind (hP.findEmptyMmap he) fun i => keeps_whenever fun _ => keeps_bind keeps_draw
    fun size => keeps_bind keeps_draw fun prot => keeps_bind keeps_draw fun flags => ?_
  refine keeps_bind (hP.prepareMmap he i _) fun _ => keeps_bind (hpt _) fun _ =>
    keeps_bind (hP.getMmap parent) fun _ => keeps_bind (hP.callMmap i which size) fun _ => ?_
  refine keeps_bind (hpt _) fun _ => keeps_bind (hP.getMmap i) fun _ => keeps_whenever fun _ => ?_
  exact keeps_bind (hpt _) fun _ => hP.recordMmap he i which _

theorem setupMmap (which : Found) : Keeps P (setupMmap e which) fun _ => True := by
  have hpt := he P hP
  refine keeps_bind (hP.findEmptyMmap he) fun i => keeps_whenever fun _ => keeps_bind keeps_draw
    fun size => keeps_bind keeps_draw fun prot => keeps_bind keeps_draw fun flags => ?_
  refine keeps_bind (hP.prepareMmap he i _) fun _ => keeps_bind keeps_draw fun _ =>
    keeps_bind (hpt _) fun _ => keeps_bind (hpt _) fun _ =>
      keeps_bind (hP.callMmap i which.index size) fun _ => keeps_bind (hpt _) fun _ => ?_
  refine keeps_bind (hP.getMmap i) fun _ => keeps_whenever fun _ => keeps_bind (hpt _) fun _ => ?_
  refine keeps_bind (hP.recordMmap he i which.index _) fun _ => keeps_bind keeps_rand fun _ => ?_
  exact keeps_whenever fun _ => hP.setupMmapAux he which.index i

theorem mmapRandomEvent : Keeps P (mmapRandomEvent e) fun _ => True := by
  have hs := hP.steady he
  refine keeps_bind keeps_rand fun r => ?_
  split
  · exact triple_bind hs.findRandomSlot fun which =>
      (hP.setupMmap he which).weaken_pre fun _ hs => hs.1
  · exact triple_bind hs.findRandomActiveMmap fun which => Triple.weaken_pre
      (keeps_whenever fun _ => hP.unmapMmap he which false) fun _ hs => hs.1
  · exact triple_bind hs.findRandomActiveMmap fun which => Triple.weaken_pre (keeps_whenever fun _ =>
      keeps_bind (hs.perfMmapRead hP.usable) fun _ => keeps_pure) fun _ hs => hs.1
  · exact keeps_whenever fun _ => hs.trashRandomMmap
  · exact keeps_pure

end Mappings

/-! ## Closing -/

section Closing

variable {e : Env} {P Q : St → Prop} (hQ : OnEvents Q) (he : Unmoved e)
  (hcount : ∀ s n, Q s → Q { s with activeEvents := n })
include hQ he hcount

theorem closeEvent (hP : OnEvents P) {i : Int} (h0 : 0 ≤ i) (fromSigio : Bool)
    (hoff : ∀ s, P s → Q (s.deactivate i)) :
    Triple P (closeEvent e i fromSigio) (fun _ => Q) fun _ => True := by
  have hpt := he Q hQ
  refine triple_whenever (fun _ => ?_) fun h => absurd h0 h
  refine triple_bind (he P hP _) fun _ => triple_bind keeps_rand fun r => triple_bind (he P hP _)
    fun _ => triple_bind (triple_setEvent (Q := fun _ => Q) hP.usable hoff) fun _ => ?_
  refine keeps_bind (hpt _) fun _ => keeps_bind (keeps_whenever fun _ =>
    hQ.unmapOf he i fromSigio) fun _ => keeps_bind (hpt _) fun _ => keeps_bind ?_ fun _ => ?_
  · refine keeps_bind (hQ.getEvent i) fun ev => keeps_bind (hQ.keeps_update fun _ =>
      .of_eventData rfl rfl rfl) fun _ => keeps_bind (keeps_bind keeps_getState fun _ => ?_)
        fun _ => keeps_pure
    exact keeps_bind (hQ.keeps_update fun _ => .of_eventData rfl rfl rfl) fun _ => keeps_pure
  refine keeps_bind (hpt _) fun _ => keeps_bind (keeps_whenever fun _ =>
    keeps_bind (hQ.getEvent i) fun _ => keeps_bind (hQ.logLine _ _) fun _ => hpt _) fun _ => ?_
  refine keeps_bind (keeps_whenever fun _ => hQ.unmapOf he i fromSigio) fun _ =>
    keeps_bind (hpt _) fun _ => triple_update fun s hs => hcount s _ hs

end Closing

end OnEvents

section CloseSteps

variable {e : Env} {t : St}

theorem onEvents_groups (T : GroupTable) : OnEvents fun s => groups s = T :=
  fun _ _ h hs => h.groups.trans hs

theorem closeRandomEvent_step (he : Unmoved e) : Triple (SameEvents t) (closeRandomEvent e)
    (fun _ s => GroupStep t.nextSerial (groups t) (groups s)) fun _ => True := by
  have hP := onEvents_sameEvents t
  refine triple_bind (hP.steady he).findRandomSlot fun found =>
    Triple.weaken_pre (P := SameEvents t) ?_ fun _ hs => hs.1
  by_cases h0 : 0 ≤ found.index
  · refine ((onEvents_groups ((groups t).set found.index none)).closeEvent he (fun _ _ h => h) hP h0
      false fun s hs => ?_).strengthen_post fun _ s hs => ?_
    · exact (groups_setEvent s _ _).trans (by rw [hs.groups, if_neg Bool.false_ne_true])
    · rw [hs]
      exact .close _
  · refine triple_whenever (fun h => absurd h h0) fun _ s hs => ?_
    rw [hs.groups]
    exact .same

/-- The entries stay, whether their slots are active or not. -/
def SameEntries (t s : St) : Prop := ∀ i, (s.eventData i).entry = (t.eventData i).entry

theorem onEvents_sameEntries (t : St) : OnEvents (SameEntries t) :=
  fun _ _ h hs i => (h.entry i).trans (hs i)

theorem sameEntries_deactivate {s : St} (h : SameEntries t s) (i : Int) :
    SameEntries t (s.deactivate i) := by
  intro j
  refine Eq.trans ?_ (h j)
  show (if j = i then _ else _ : EventData).entry = _
  split
  · rename_i hji
    rw [hji]
    rfl
  · rfl

theorem closeIfActive_entries (he : Unmoved e) {i : Int} (h0 : 0 ≤ i) :
    Keeps (SameEntries t) (closeIfActive e i) fun _ => True := by
  have hP := onEvents_sameEntries t
  refine keeps_bind (he _ hP _) fun _ => keeps_bind (hP.getEvent i) fun ev => keeps_whenever fun _ => ?_
  exact hP.closeEvent he (fun _ _ h => h) hP h0 true fun s hs => sameEntries_deactivate hs i

theorem sigioHandler_entries (he : Unmoved e) :
    Keeps (SameEntries t) (sigioHandler e) fun _ => True := by
  refine keeps_bind keeps_answer fun siKernel => keeps_whenever fun _ => keeps_bind
    ((onEvents_sameEntries t).keeps_update fun _ => .of_eventData rfl rfl rfl) fun _ =>
      keeps_forRange _ _ fun i _ _ => ?_
  exact closeIfActive_entries he (Int.natCast_nonneg i)

/-- All events are closed, or none. -/
theorem sigioHandler_step {F : Prop} (he : Unmoved e) (hq : Undisturbed e F fun _ => True) (n : Nat)
    (hrange : ∀ i, (t.eventData i).active = true → InRange numEvents i) :
    Triple (fun s => s = t) (sigioHandler e)
      (fun _ s => GroupStep n (groups t) (groups s)) fun _ => True := by
  refine (triple_and (sigioHandler_swept hq fun _ _ => trivial)
    (sigioHandler_entries (t := t) he)).consequence (fun s hs => ⟨hs, fun i => by rw [hs]⟩)
      (fun _ s hs => ?_) fun _ _ => trivial
  obtain ⟨hswept, hentries⟩ := hs
  rcases hswept.fate with hsame | hnone
  · have hgroups : groups s = groups t := by
      funext i
      unfold groups
      rw [hsame, hentries]
    rw [hgroups]
    exact .same
  · refine .clear _ fun i => if_neg fun hi => ?_
    obtain ⟨k, rfl⟩ := Int.eq_ofNat_of_zero_le (hrange i (hswept.active i hi)).1
    have hk := Int.ofNat_lt.1 (hrange k (hswept.active k hi)).2
    exact Bool.false_ne_true ((hnone k hk).symm.trans hi)

end CloseSteps

/-! ## Opening -/

section Opening

variable {e : Env} {T U : GroupTable} {n : Nat} {A : Int} {i : Int} {x : Entry}

/-- The table and the counter, and a slot that no event is in. -/
structure Vacant (T : GroupTable) (A : Int) (i : Int) (s : St) : Prop where
  groups : groups s = T
  activeEvents : s.activeEvents = A
  inactive : (s.eventData i).active = false

theorem Vacant.free {s : St} (h : Vacant T A i s) : T i = none := by
  rw [← h.groups]
  exact if_neg fun hi => Bool.false_ne_true (h.inactive.symm.trans hi)

theorem Vacant.same {s s' : St} (h : Vacant T A i s) (hs : SameEvents s s') : Vacant T A i s' :=
  ⟨hs.groups.trans h.groups, hs.activeEvents.trans h.activeEvents, (hs.active i).trans h.inactive⟩

theorem set_eq_self {y : Option Entry} (h : T i = y) : T.set i y = T := by
  funext k
  by_cases hki : k = i
  · rw [hki, set_self, h]
  · rw [set_other hki]

/-- What is written into the slot while it is not active does not show. -/
theorem Vacant.setEvent {s : St} (h : Vacant T A i s) {f : EventData → EventData}
    (hf : ∀ ev, (f ev).active = ev.active) : Vacant T A i (s.setEvent i f) := by
  have hoff : (f (s.eventData i)).active = false := (hf _).trans h.inactive
  refine ⟨?_, h.activeEvents, ?_⟩
  · rw [groups_setEvent, h.groups, hoff, if_neg Bool.false_ne_true]
    exact set_eq_self h.free
  · exact (congrArg EventData.active (if_pos rfl)).trans hoff

/-- The slot is vacant, and `n` is the serial number of the next event. -/
def Awaiting (T : GroupTable) (A : Int) (i : Int) (n : Nat) (s : St) : Prop :=
  Vacant T A i s ∧ s.nextSerial = n

theorem onEvents_vacant : OnEvents (Vacant T A i) := fun _ _ h hs => hs.same h

theorem onEvents_awaiting : OnEvents (Awaiting T A i n) :=
  fun _ _ h hs => ⟨hs.1.same h, h.nextSerial.trans hs.2⟩

theorem setEvent_awaiting {f : EventData → EventData} (hf : ∀ ev, (f ev).active = ev.active) :
    Keeps (Awaiting T A i n) (setEvent i f) fun _ => True :=
  triple_setEvent onEvents_awaiting.usable fun _ hs => ⟨hs.1.setEvent hf, hs.2⟩

theorem drawGroup_awaiting (he : Unmoved e) :
    Keeps (Awaiting T A i n) (drawGroup e i) fun _ => True := by
  have hP : OnEvents (Awaiting T A i n) := onEvents_awaiting
  refine triple_bind (hP.steady he).findRandomSlot fun j =>
    Triple.weaken_pre (P := Awaiting T A i n) ?_ fun _ hs => hs.1
  exact keeps_bind (he _ hP _) fun _ => keeps_bind (hP.getEvent _) fun _ =>
    setEvent_awaiting fun _ => rfl

theorem prepareEvent_awaiting (he : Unmoved e) :
    Keeps (Awaiting T A i n) (prepareEvent e i) fun _ => True := by
  have hP : OnEvents (Awaiting T A i n) := onEvents_awaiting
  refine keeps_bind keeps_getState fun _ => keeps_bind keeps_draw fun _ => keeps_bind keeps_draw
    fun _ => keeps_bind (hP.keeps_update fun _ => .of_eventData rfl rfl rfl) fun _ => ?_
  refine keeps_bind (he _ hP _) fun _ => keeps_bind (setEvent_awaiting fun _ => rfl) fun _ =>
    keeps_bind keeps_rand fun _ => keeps_bind (he _ hP _) fun _ => ?_
  refine keeps_bind (keeps_whenever fun _ => drawGroup_awaiting he) fun _ =>
    keeps_bind (he _ hP _) fun _ => keeps_bind (hP.getEvent i) fun _ => keeps_bind keeps_getState
      fun _ => keeps_bind keeps_draw fun _ => setEvent_awaiting fun _ => rfl

/-- A descriptor that is returned is that of the event with the next serial number. -/
theorem openPerf_awaiting : Triple (Awaiting T A i n) openPerf
    (fun r s => Vacant T A i s ∧ (r.1 < 0 → s.nextSerial = n) ∧ r.2 = n) fun _ => True := by
  refine triple_bind keeps_answer fun a => triple_bind (triple_getState
    (Q := fun s' s => Awaiting T A i n s ∧ s' = s) fun _ hs => ⟨hs, rfl⟩) fun s' => ?_
  refine triple_bind (Q := fun _ s => Vacant T A i s ∧
    (freeFd s' a < 0 → s.nextSerial = n) ∧ s'.nextSerial = n)
    (triple_whenever (fun hfd => triple_update fun s hs => ?_) fun _ s hs => ?_) fun _ =>
      triple_pure fun _ hs => hs
  · obtain ⟨hs, rfl⟩ := hs
    refine ⟨⟨hs.1.groups, hs.1.activeEvents, hs.1.inactive⟩, fun hneg => ?_, hs.2⟩
    unfold freeFd at hfd hneg
    split_ifs at hfd hneg with hfree
    · exact absurd hfree.1 (by omega)
    · exact absurd rfl hfd
  · obtain ⟨hs, rfl⟩ := hs
    exact ⟨hs.1, fun _ => hs.2, hs.2⟩

theorem openAttempts_awaiting (he : Unmoved e) (k : Nat) :
    Triple (Awaiting T A i n) (openAttempts e i k)
      (fun r s => Vacant T A i s ∧ (2 < r.1 → r.2 = n)) fun _ => True := by
  induction k with
  | zero => exact triple_stop fun _ _ => trivial
  | succ k ih =>
    have hpt := he _ (onEvents_awaiting (T := T) (A := A) (i := i) (n := n))
    refine triple_bind (prepareEvent_awaiting he) fun _ => triple_bind (hpt _) fun _ =>
      triple_bind openPerf_awaiting fun r => triple_ite (fun _ => ?_) fun _ => ?_
    · exact triple_pure fun _ hs => ⟨hs.1, fun _ => hs.2.2⟩
    refine triple_ite (fun _ => triple_stop fun _ _ => trivial) fun hneg => ?_
    refine Triple.weaken_pre (P := Awaiting T A i n) ?_ fun _ hs => ⟨hs.1, hs.2.1 (by omega)⟩
    refine triple_bind keeps_answer fun errno => triple_ite (fun _ => triple_stop fun _ _ => trivial)
      fun _ => triple_ite (fun _ => triple_pure fun _ hs => ⟨hs.1, ?_⟩) fun _ =>
        triple_bind (hpt _) fun _ => ih
    exact fun h => absurd h (by decide)

/-! ### Joining a group -/

theorem active_of_groups {s : St} (hs : groups s = U) {y : Entry} (hy : U i = some y) :
    (s.eventData i).active = true ∧ (s.eventData i).entry = y := by
  rw [← hs] at hy
  unfold groups at hy
  split at hy
  · rename_i hactive
    exact ⟨hactive, Option.some.inj hy⟩
  · cases hy

theorem hasFd_iff {s : St} (hs : groups s = U) (fd : Int) (k : Int) :
    hasFd fd (s.eventData k) = true ↔ ∃ y ∈ U k, y.fd = fd := by
  unfold hasFd
  rw [Bool.and_eq_true, decide_eq_true_eq, ← hs]
  constructor
  · rintro ⟨hactive, hfd⟩
    exact ⟨_, if_pos hactive, hfd⟩
  · rintro ⟨y, hy, hfd⟩
    obtain ⟨hactive, rfl⟩ := active_of_groups rfl hy
    exact ⟨hactive, hfd⟩

theorem lookupEvent_groups (he : Unmoved e) (hrange : ∀ k, ∀ y ∈ U k, InRange numEvents k)
    (fd : Int) : Triple (fun s => groups s = U ∧ 0 < s.activeEvents) (lookupEvent e fd)
      (fun r s => groups s = U ∧ ((r.index = -1 ∧ ∀ k, ∀ y ∈ U k, y.fd ≠ fd) ∨
        ∃ y ∈ U r.index, y.fd = fd)) fun _ => True := by
  have hP := onEvents_groups U
  have htest : ∀ k : Nat, Triple (fun s => groups s = U) (slotTest e (hasFd fd) k)
      (fun b s => groups s = U ∧ (b = true ↔ ∃ y ∈ U k, y.fd = fd)) fun _ => True := by
    refine fun k => triple_bind (he _ hP _) fun _ => triple_bind (triple_getEvent hP.usable)
      fun ev => triple_pure fun s hs => ⟨hs.1, ?_⟩
    rw [hs.2]
    exact hasFd_iff hs.1 fd k
  refine triple_bind (triple_getState (Q := fun s' s => groups s = U ∧ 0 < s'.activeEvents)
    fun _ hs => hs) fun s' => triple_of_pure_right fun hpos => triple_ite (fun h => ?_) fun _ => ?_
  · omega
  refine triple_bind ((triple_and (triple_findRange (S := fun k _ => ∃ y ∈ U k, y.fd = fd)
    numEvents 0 fun k _ _ => (htest k).strengthen_post fun _ _ hs => ⟨hs.1, hs.2.1⟩)
    (triple_findRange_table (B := fun _ => False) (fun k => (htest k).strengthen_post
      fun _ _ hs => .inl hs) (fun _ _ h => h.elim) numEvents 0)).consequence (fun _ hs => ⟨hs, hs⟩)
      (fun _ _ => id) fun _ _ => trivial) fun r => ?_
  refine triple_bind (triple_getState (Q := fun _ s => groups s = U ∧
    ((r = -1 ∧ ∀ k, ∀ y ∈ U k, y.fd ≠ fd) ∨ ∃ y ∈ U r, y.fd = fd)) fun s hs => ⟨hs.1.1, ?_⟩)
    fun _ => triple_pure fun _ hs => hs
  rcases hs.1.2 with hr | ⟨k, hr, -, -, hk⟩
  · refine .inl ⟨hr, fun k y hy hfd => ?_⟩
    obtain ⟨h0, hlt⟩ := hrange k y hy
    obtain ⟨m, rfl⟩ := Int.eq_ofNat_of_zero_le h0
    have hnone := (hs.2.resolve_right id).2 hr m (Nat.zero_le m)
    rw [Nat.zero_add] at hnone
    exact hnone (Int.ofNat_lt.1 hlt) ⟨y, hy, hfd⟩
  · rw [hr]
    exact .inr hk

theorem groups_setEvent_none {s : St} (hs : groups s = U) {j : Int} (hj : U j = none)
    {f : EventData → EventData} (hf : ∀ ev, (f ev).active = ev.active) :
    groups (s.setEvent j f) = U := by
  have hoff : (f (s.eventData j)).active = false := by
    rw [hf, ← Bool.not_eq_true]
    intro hactive
    rw [← hs] at hj
    exact nomatch hj.symm.trans (if_pos hactive)
  rw [groups_setEvent, hs, hoff, if_neg Bool.false_ne_true]
  exact set_eq_self hj

theorem groups_setEvent_some {s : St} (hs : groups s = U) {j : Int} {y : Entry}
    (hj : U j = some y) {f : EventData → EventData} (hf : ∀ ev, (f ev).active = ev.active) :
    groups (s.setEvent j f) = U.set j (some (f (s.eventData j)).entry) := by
  rw [groups_setEvent, hs, hf, if_pos (active_of_groups hs hj).1]

/-- The two updates of an event that is found. -/
theorem triple_countMember (he : Unmoved e) {j : Int} {y : Entry} (hj : U j = some y) (sure : Bool) :
    Triple (fun s => groups s = U) (do
      e.pt (.use sure)
      setEvent j fun ev => { ev with numberInGroup := ev.numberInGroup + 1 }
      e.pt .elsewhere
      setEvent j fun ev => { ev with readSize := updateReadSize ev })
      (fun _ s => groups s = U.grow j) fun _ => True := by
  have hP := onEvents_groups U
  have hset := onEvents_groups (U.set j (some { y with number := y.number + 1 }))
  refine triple_bind (he _ hP _) fun _ => triple_bind (triple_setEvent
    (Q := fun _ s => groups s = U.set j (some { y with number := y.number + 1 })) hP.usable
    fun s hs => ?_) fun _ => triple_bind (he _ hset _) fun _ =>
      triple_setEvent hset.usable fun s hs => ?_
  · refine Eq.trans (groups_setEvent_some hs hj fun _ => rfl) ?_
    obtain ⟨-, rfl⟩ := active_of_groups hs hj
    rfl
  · refine Eq.trans (groups_setEvent_some hs (set_self _) fun _ => rfl) ?_
    obtain ⟨-, hentry⟩ := active_of_groups hs (set_self _)
    funext k
    by_cases hk : k = j
    · rw [hk, set_self, grow_self hj]
      have hnew : ∀ ev : EventData, ({ ev with readSize := updateReadSize ev } : EventData).entry =
          { ev.entry with readSize := sizeFor ev.entry.readFormat ev.entry.number } := fun _ => rfl
      rw [hnew, hentry]
      rfl
    · rw [set_other hk, set_other hk, grow_other hk]

/-- The new event is in its slot, and counted for the leader that it names. -/
def Entered (T : GroupTable) (i : Int) (n : Nat) (U : GroupTable) : Prop :=
  ∃ T' x, U = T'.set i (some x) ∧ Joins T x T' ∧ x.serial = n

theorem joinGroup_entered (he : Unmoved e) (hrange : ∀ k, ∀ y ∈ T k, InRange numEvents k)
    (hi : InRange numEvents i) (hfree : T i = none) (hgroup : x.groupFd ≠ -1) :
    Triple (fun s => groups s = T.set i (some x) ∧ 0 < s.activeEvents) (joinGroup e x.groupFd)
      (fun _ s => Entered T i x.serial (groups s)) fun _ => True := by
  have hself : T.set i (some x) i = some x := set_self _
  have hnew : ∀ k, ∀ y ∈ T.set i (some x) k, InRange numEvents k := by
    intro k y hy
    by_cases hki : k = i
    · rw [hki]
      exact hi
    · rw [set_other hki] at hy
      exact hrange k y hy
  refine triple_bind (lookupEvent_groups he hnew x.groupFd.toInt) fun r => triple_from
    fun s₀ hs₀ => Triple.weaken_pre (P := fun s => groups s = T.set i (some x)) ?_
      fun s hs => by rw [hs]; exact hs₀.1
  rcases hs₀.2 with ⟨hr, hno⟩ | ⟨y, hy, hfd⟩
  · -- no active event has the descriptor, and what is counted is in front of the table
    have hP := onEvents_groups (T.set i (some x))
    have hnone : T.set i (some x) r.index = none := by
      rw [hr]
      refine Option.eq_none_iff_forall_not_mem.2 fun y hy => ?_
      exact absurd (hnew (-1) y hy).1 (by decide)
    have hkeep : ∀ {f : EventData → EventData}, (∀ ev, (f ev).active = ev.active) →
        Keeps (fun s => groups s = T.set i (some x)) (setEvent r.index f) fun _ => True :=
      fun hf => triple_setEvent hP.usable fun s hs => groups_setEvent_none hs hnone hf
    refine Triple.strengthen_post (Q := fun _ s => groups s = T.set i (some x)) (keeps_bind
      (he _ hP _) fun _ => keeps_bind (hkeep fun _ => rfl) fun _ => keeps_bind (he _ hP _) fun _ =>
        hkeep fun _ => rfl) fun _ s hs => ⟨T, x, hs, .lost fun j z hz => ?_, rfl⟩
    refine hno j z ?_
    have hji : j ≠ i := by
      rintro rfl
      rw [hfree] at hz
      exact nomatch hz
    rw [set_other hji]
    exact hz
  · refine (triple_countMember he hy r.sure).strengthen_post fun _ s hs => ?_
    rw [hs]
    by_cases hri : r.index = i
    · rw [hri] at hy ⊢
      obtain rfl : x = y := Option.some.inj (hself.symm.trans hy)
      refine ⟨T, x.grown, ?_, .self hfd.symm, rfl⟩
      funext k
      by_cases hki : k = i
      · rw [hki, grow_self hself, set_self]
      · rw [grow_other hki, set_other hki, set_other hki]
    · have hyT : T r.index = some y := (set_other hri _).symm.trans hy
      refine ⟨T.grow r.index, x, ?_, .found r.index y hgroup hyT hfd, rfl⟩
      funext k
      by_cases hkr : k = r.index
      · rw [hkr, grow_self hy, set_other hri, grow_self hyT]
      · rw [grow_other hkr]
        by_cases hki : k = i
        · rw [hki, set_self, set_self]
        · rw [set_other hki, set_other hki, grow_other hkr]

/-! ### A new event -/

theorem onEvents_of_groups (R : GroupTable → Prop) : OnEvents fun s => R (groups s) :=
  fun _ _ h hs => show R (groups _) from h.groups ▸ hs

/-- The last two updates count the event for itself. -/
theorem triple_countSelf (he : Unmoved e) (hi : InRange numEvents i) (hfree : T i = none) :
    Triple (fun s => Entered T i n (groups s)) (do
      setEvent i fun ev => { ev with numberInGroup := 1 }
      e.pt .elsewhere
      setEvent i fun ev => { ev with readSize := updateReadSize ev })
      (fun _ s => GroupStep n T (groups s)) fun _ => True := by
  have hP := onEvents_of_groups (Entered T i n)
  have hone := onEvents_of_groups fun U => ∃ (T' : GroupTable) (x : Entry),
    U = T'.set i (some x) ∧ Joins T x T' ∧ x.serial = n ∧ x.number = 1
  refine triple_bind (triple_setEvent (Q := fun _ s => ∃ (T' : GroupTable) (x : Entry),
    groups s = T'.set i (some x) ∧ Joins T x T' ∧ x.serial = n ∧ x.number = 1) hP.usable
    fun s hs => ?_) fun _ => triple_bind (he _ hone _) fun _ =>
      triple_setEvent hone.usable fun s hs => ?_
  · obtain ⟨T', x, hs, hjoin, hserial⟩ := hs
    refine ⟨T', { x with number := 1 }, ?_, hjoin.of_fd rfl rfl, hserial, rfl⟩
    refine Eq.trans (groups_setEvent_some hs (set_self _) fun _ => rfl) ?_
    obtain ⟨-, rfl⟩ := active_of_groups hs (set_self _)
    exact set_set _ _
  · obtain ⟨T', x, hs, hjoin, hserial, hnumber⟩ := hs
    have hnew : groups (s.setEvent i fun ev => { ev with readSize := updateReadSize ev }) =
        T'.set i (some { x with readSize := sizeFor x.readFormat x.number }) := by
      refine Eq.trans (groups_setEvent_some hs (set_self _) fun _ => rfl) ?_
      obtain ⟨-, rfl⟩ := active_of_groups hs (set_self _)
      exact set_set _ _
    rw [hnew]
    refine .enter i _ T' hfree hi hserial hnumber ?_ (hjoin.of_fd rfl rfl)
    exact congrArg (sizeFor x.readFormat) hnumber

theorem enterEvent_step (he : Unmoved e) (hrange : ∀ k, ∀ y ∈ T k, InRange numEvents k)
    (hi : InRange numEvents i) (hA : 0 ≤ A) (r : Int × Nat) :
    Triple (Vacant T A i) (enterEvent e i r) (fun _ s => GroupStep r.2 T (groups s))
      fun _ => True := by
  have hvacant : OnEvents (Vacant T A i) := onEvents_vacant
  have hnamed : OnEvents fun s => Vacant T A i s ∧ (s.eventData i).entry.serial = r.2 :=
    fun s s' h hs => ⟨hs.1.same h, by rw [h.entry]; exact hs.2⟩
  refine triple_bind (hvacant.getEvent i) fun ev => triple_bind (hvacant.logLine _ _) fun _ =>
    triple_bind (he _ hvacant _) fun _ => triple_bind (triple_setEvent
      (Q := fun _ s => Vacant T A i s ∧ (s.eventData i).entry.serial = r.2) hvacant.usable
      fun s hs => ⟨hs.setEvent fun _ => rfl, ?_⟩) fun _ => triple_bind (he _ hnamed _) fun _ => ?_
  · exact congrArg (fun ev : EventData => ev.entry.serial) (if_pos rfl)
  refine triple_from fun s₀ hs₀ => ?_
  obtain ⟨hs₀, hserial⟩ := hs₀
  obtain ⟨x, hx⟩ : ∃ x, x = (s₀.eventData i).entry := ⟨_, rfl⟩
  rw [← hx] at hserial
  have hshown : ∀ m, OnEvents fun s => groups s = T.set i (some x) ∧ s.activeEvents = m :=
    fun m s s' h hs => ⟨h.groups.trans hs.1, h.activeEvents.trans hs.2⟩
  refine triple_bind (triple_update (Q := fun _ s => groups s = T.set i (some x) ∧
    s.activeEvents = A) fun s hs => ?_) fun _ => triple_bind (he _ (hshown A) _) fun _ => ?_
  · have hcheck : SameEvents s₀ (s₀.checkEvent i) := checkEvent_keeps
      (onEvents_sameEvents s₀).usable (SameEvents.refl s₀)
    rw [hs]
    refine ⟨?_, hcheck.activeEvents.trans hs₀.activeEvents⟩
    rw [groups_setEvent, if_pos rfl, hcheck.groups, hs₀.groups, hx, ← hcheck.entry i]
    rfl
  refine triple_bind (triple_update (Q := fun _ s => groups s = T.set i (some x) ∧
    s.activeEvents = A + 1) fun s hs => ⟨hs.1, congrArg (· + 1) hs.2⟩) fun _ =>
      triple_bind (he _ (hshown (A + 1)) _) fun _ => triple_bind ((triple_getEvent
        (hshown (A + 1)).usable).strengthen_post (S := fun ev s => (groups s = T.set i (some x) ∧
          s.activeEvents = A + 1) ∧ ev.groupFd = x.groupFd) fun ev s hs => ⟨hs.1, ?_⟩) fun ev => ?_
  · rw [hs.2, ← (active_of_groups hs.1.1 (set_self _)).2]
    rfl
  refine triple_of_pure_right fun hev => ?_
  rw [hev]
  have hP := onEvents_of_groups (Entered T i r.2)
  refine triple_bind (Q := fun _ s => Entered T i r.2 (groups s)) (triple_whenever (fun hgroup => ?_)
    fun hgroup s hs => ?_) fun _ => ?_
  · rw [← hserial]
    exact (joinGroup_entered he hrange hi hs₀.free hgroup).weaken_pre fun s hs =>
      ⟨hs.1, by rw [hs.2]; omega⟩
  · exact ⟨T, x, hs.1, .alone (not_not.1 hgroup), hserial⟩
  refine triple_bind (he _ hP _) fun _ => triple_bind (keeps_whenever fun _ =>
    hP.setupMmap he _) fun _ => triple_bind (he _ hP _) fun _ => triple_bind (keeps_whenever fun _ =>
      keeps_bind keeps_rand fun _ => keeps_whenever fun _ => ?_) fun _ => ?_
  · exact keeps_bind (hP.getEvent i) fun _ => keeps_bind (hP.logLine _ _) fun _ =>
      keeps_bind (he _ hP _) fun _ => keeps_bind (hP.getEvent i) fun _ => keeps_pure
  · exact triple_bind (he _ hP _) fun _ => triple_countSelf he hi hs₀.free

theorem openRandomEvent_step (he : Unmoved e) {t : St} (hA : 0 ≤ t.activeEvents)
    (hrange : ∀ k, (t.eventData k).active = true → InRange numEvents k) :
    Triple (SameEvents t) (openRandomEvent e)
      (fun _ s => GroupStep t.nextSerial (groups t) (groups s)) fun _ => True := by
  have hP := onEvents_sameEvents t
  refine triple_bind (triple_findEmptyEvent (he _ hP _)) fun i => triple_whenever (fun h0 => ?_)
    fun _ s hs => ?_
  swap
  · rw [hs.1.groups]
    exact .same
  refine Triple.weaken_pre (P := fun s => Awaiting (groups t) t.activeEvents i t.nextSerial s ∧
    InRange numEvents i) ?_ fun s hs => ?_
  swap
  · rcases hs.2 with h | ⟨hi, hoff⟩
    · omega
    · exact ⟨⟨⟨hs.1.groups, hs.1.activeEvents, by simpa using hoff⟩, hs.1.nextSerial⟩, hi⟩
  refine triple_of_pure_right fun hi => triple_bind (he _ onEvents_awaiting _) fun _ =>
    triple_bind (setEvent_awaiting fun _ => rfl) fun _ => triple_bind (openAttempts_awaiting he _)
      fun r => triple_bind (he _ (fun s s' h hs => ⟨onEvents_vacant s s' h hs.1, hs.2⟩) _) fun _ => ?_
  refine triple_of_pure_right fun hserial => triple_whenever (fun hfd => ?_) fun _ s hs => ?_
  · rw [← hserial hfd]
    refine enterEvent_step he (fun k y hy => hrange k ?_) hi hA r
    exact (active_of_groups rfl hy).1
  · rw [hs.groups]
    exact .same

end Opening

end PerfEvent.Fuzzer
