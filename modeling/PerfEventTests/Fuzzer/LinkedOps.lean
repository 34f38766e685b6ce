import PerfEventTests.Fuzzer.QuietOps

/-!
# Whole runs, for assertions about indices and the log

An assertion that looks only at the stored indices, the log and the ghost counters (`Linked`) is
kept by every operation and by both handlers, hence by every run of the main loop.
-/

namespace PerfEvent.Fuzzer

open Draws Programs Text

/-- The two states agree on the stored indices and the log. -/
structure SameLinks (s s' : St) : Prop where
  mmap : ∀ i, (s'.eventData i).mmap = (s.eventData i).mmap
  parentMmap : ∀ i, (s'.mmaps i).parentMmap = (s.mmaps i).parentMmap
  whichEvent : ∀ i, (s'.mmaps i).whichEvent = (s.mmaps i).whichEvent
  log : s'.log = s.log
  logged : s'.logged = s.logged
  storms : s'.storms = s.storms
  outside : s'.outside = s.outside

theorem SameCore.sameLinks {s s' : St} (h : SameCore s s') : SameLinks s s' :=
  ⟨h.mmap, fun i => by rw [h.mmaps], fun i => by rw [h.mmaps], h.log, h.logged, h.storms, h.outside⟩

theorem sameLinks_setEvent (s : St) (i : Int) {f : EventData → EventData}
    (hf : ∀ ev, (f ev).mmap = ev.mmap) : SameLinks s (s.setEvent i f) := by
  refine ⟨fun j => ?_, fun _ => rfl, fun _ => rfl, rfl, rfl, rfl, rfl⟩
  show (if j = i then f (s.eventData i) else s.eventData j).mmap = _
  split
  · rename_i hj
    rw [hf, hj]
  · rfl

theorem sameLinks_setMmap (s : St) (i : Int) {f : MmapEntry → MmapEntry}
    (hf : ∀ m, (f m).parentMmap = m.parentMmap ∧ (f m).whichEvent = m.whichEvent) :
    SameLinks s (s.setMmap i f) := by
  refine ⟨fun _ => rfl, fun j => ?_, fun j => ?_, rfl, rfl, rfl, rfl⟩
  · show (if j = i then f (s.mmaps i) else s.mmaps j).parentMmap = _
    split
    · rename_i hj
      rw [(hf _).1, hj]
    · rfl
  · show (if j = i then f (s.mmaps i) else s.mmaps j).whichEvent = _
    split
    · rename_i hj
      rw [(hf _).2, hj]
    · rfl

theorem sameLinks_setMmap_setMmap (s : St) (i : Int) {f g : MmapEntry → MmapEntry}
    (hfg : ∀ m, (f m).parentMmap = (g m).parentMmap ∧ (f m).whichEvent = (g m).whichEvent) :
    SameLinks (s.setMmap i g) (s.setMmap i f) := by
  refine ⟨fun _ => rfl, fun j => ?_, fun j => ?_, rfl, rfl, rfl, rfl⟩
  · show (if j = i then f (s.mmaps i) else s.mmaps j).parentMmap =
      (if j = i then g (s.mmaps i) else s.mmaps j).parentMmap
    split
    · exact (hfg _).1
    · rfl
  · show (if j = i then f (s.mmaps i) else s.mmaps j).whichEvent =
      (if j = i then g (s.mmaps i) else s.mmaps j).whichEvent
    split
    · exact (hfg _).2
    · rfl

/-- `P` looks at nothing else, and allows every index inside its table to be stored. -/
structure Linked (P : St → Prop) : Prop where
  links : ∀ s s', SameLinks s s' → P s → P s'
  stored : ∀ s, P s → FreeIndex P ∨ StoredInRange s
  entry : ∀ s i k, Usable P maxMmaps k → P s → P (s.setEvent i fun ev => { ev with mmap := k })
  parent : ∀ s i k, Usable P maxMmaps k → P s → P (s.setMmap i fun m => { m with parentMmap := k })
  which : ∀ s i k, Usable P numEvents k → P s → P (s.setMmap i fun m => { m with whichEvent := k })
  line : ∀ letter text s, LineOf letter text → P s → P (s.addLine letter text)
  stormed : ∀ s, P s → P { s with storms := s.storms + 1 }

/-- What the environment owes to `P`. -/
structure Guarded (e : Env) (P E : St → Prop) : Prop where
  stops : ∀ s, P s → E s
  point : ∀ loc, Keeps P (e.pt loc) E
  use : ∀ sure, Triple P (e.pt (.use sure)) (fun _ s => P s ∧ (sure = true ∨ FreeIndex P)) E
  filterLine : ∀ fd custom arg filter, Triple P (e.pt (.filterLine (shownFilter fd custom arg filter)))
    (fun _ s => P s ∧ ∀ s, P s → P (s.addLine 'I' (setFilterLine fd custom arg filter))) E

section Runs

variable {e : Env} {P E : St → Prop}

theorem Linked.steady (hl : Linked P) (hg : Guarded e P E) : Steady e P (fun _ _ => True) E where
  stops := hg.stops
  same _ _ hsame hs := hl.links _ _ hsame.sameLinks hs
  here := hg.point .elsewhere
  use := hg.use
  storm i := (hg.point (.storm i)).strengthen_post fun _ _ hs =>
    ⟨hs, fun s _ hs => hl.links s _ ⟨fun _ => rfl, fun _ => rfl, fun _ => rfl, rfl, rfl, rfl, rfl⟩ hs⟩
  stored := hl.stored
  call s _ _ _ hs := hl.links s _
    ⟨fun _ => rfl, fun _ => rfl, fun _ => rfl, rfl, rfl, rfl, rfl⟩ hs
  line := hl.line
  filterLine := hg.filterLine
  opened s _ hs _ _ :=
    ⟨hl.links s _ ⟨fun _ => rfl, fun _ => rfl, fun _ => rfl, rfl, rfl, rfl, rfl⟩ hs, trivial⟩
  closed s _ hs _ := hl.links s _ ⟨fun _ => rfl, fun _ => rfl, fun _ => rfl, rfl, rfl, rfl, rfl⟩ hs
  hereFile _ := (hg.point .elsewhere).consequence (fun _ hs => hs.1) (fun _ _ hs => ⟨hs, trivial⟩)
    fun _ hs => hs
  sameFile _ _ _ _ _ := trivial
  lineFile _ _ _ _ _ := trivial
  place s _ _ _ hs _ := hl.links s _ ⟨fun _ => rfl, fun _ => rfl, fun _ => rfl, rfl, rfl, rfl, rfl⟩ hs
  unplace s _ _ hs _ := hl.links s _ ⟨fun _ => rfl, fun _ => rfl, fun _ => rfl, rfl, rfl, rfl, rfl⟩ hs

namespace Linked

variable (hl : Linked P) (hg : Guarded e P E)
include hl

theorem keeps_update {f : St → St} (hf : ∀ s, SameLinks s (f s)) : Keeps P (update f) E :=
  triple_update fun s hs => hl.links _ _ (hf s) hs

theorem keeps_setEvent {i : Int} (hi : Usable P numEvents i) {f : EventData → EventData}
    (hf : ∀ ev, (f ev).mmap = ev.mmap) : Keeps P (setEvent i f) E :=
  triple_setEvent hi fun s hs => hl.links _ _ (sameLinks_setEvent s i hf) hs

theorem keeps_setMmap {i : Int} (hi : Usable P maxMmaps i) {f : MmapEntry → MmapEntry}
    (hf : ∀ m, (f m).parentMmap = m.parentMmap ∧ (f m).whichEvent = m.whichEvent) :
    Keeps P (setMmap i f) E :=
  triple_setMmap hi fun s hs => hl.links _ _ (sameLinks_setMmap s i hf) hs

theorem keeps_closeFd (fd : Int) : Keeps P (closeFd fd) E :=
  keeps_bind keeps_getState fun _ => keeps_bind (hl.keeps_update fun _ =>
    ⟨fun _ => rfl, fun _ => rfl, fun _ => rfl, rfl, rfl, rfl, rfl⟩) fun _ => keeps_pure

theorem sysMunmap {i : Int} (hi : Usable P maxMmaps i) : Keeps P (sysMunmap i) E :=
  keeps_bind (keeps_getMmap hi) fun _ => keeps_ite (fun _ => keeps_pure) fun _ =>
    keeps_bind (hl.keeps_setMmap hi fun _ => ⟨rfl, rfl⟩) fun _ => keeps_pure

include hg

theorem unmapMmap {i : Int} (hi : Usable P maxMmaps i) (fromSigio : Bool) :
    Keeps P (unmapMmap e i fromSigio) E := by
  refine keeps_bind (hg.point _) fun _ => keeps_bind (keeps_getMmap hi) fun m =>
    keeps_whenever fun _ => keeps_bind (hg.point _) fun _ => ?_
  refine keeps_bind (hl.keeps_setMmap hi fun _ => ⟨rfl, rfl⟩) fun _ => ?_
  refine keeps_bind (hg.point _) fun _ => keeps_bind (hl.sysMunmap hi) fun result => ?_
  refine keeps_bind (hg.point _) fun _ => keeps_bind (keeps_whenever fun _ => ?_) fun _ => ?_
  · refine keeps_bind (keeps_getMmap hi) fun m => keeps_bind ?_ fun _ => hg.point _
    exact (hl.steady hg).logLine (lineOf_munmapLine _ _ _)
  · refine keeps_bind (hl.keeps_setMmap hi fun _ => ⟨rfl, rfl⟩) fun _ => keeps_bind (hg.point _)
      fun _ => keeps_whenever fun _ => ?_
    exact hl.keeps_update fun _ => ⟨fun _ => rfl, fun _ => rfl, fun _ => rfl, rfl, rfl, rfl, rfl⟩

theorem unmapOf {i : Int} (hi : Usable P numEvents i) (fromSigio : Bool) :
    Keeps P (unmapOf e i fromSigio) E :=
  triple_bind ((triple_getEvent hi).strengthen_post fun ev s hs =>
    (⟨hs.1, hs.2 ▸ (hl.steady hg).storedMmap hs.1 i⟩ : P s ∧ Usable P maxMmaps ev.mmap)) fun _ =>
      triple_of_pure_right fun hmmap => hl.unmapMmap hg hmmap fromSigio

theorem closeEvent {i : Int} (hi : 0 ≤ i → Usable P numEvents i) (fromSigio : Bool) :
    Keeps P (closeEvent e i fromSigio) E := by
  refine keeps_whenever fun h0 => keeps_bind (hg.point _) fun _ => ?_
  have hi := hi h0
  refine keeps_bind keeps_rand fun r => keeps_bind (hg.point _) fun _ => ?_
  refine keeps_bind (hl.keeps_setEvent hi fun _ => rfl) fun _ => keeps_bind (hg.point _) fun _ => ?_
  refine keeps_bind (keeps_whenever fun _ => hl.unmapOf hg hi fromSigio) fun _ => ?_
  refine keeps_bind (hg.point _) fun _ => keeps_bind (keeps_bind (keeps_getEvent hi) fun ev => ?_)
    fun _ => ?_
  · refine keeps_bind (hl.keeps_update fun _ =>
      ⟨fun _ => rfl, fun _ => rfl, fun _ => rfl, rfl, rfl, rfl, rfl⟩) fun _ => ?_
    exact keeps_bind (hl.keeps_closeFd _) fun _ => keeps_pure
  · refine keeps_bind (hg.point _) fun _ => keeps_bind (keeps_whenever fun _ => ?_) fun _ => ?_
    · refine keeps_bind (keeps_getEvent hi) fun ev => keeps_bind ?_ fun _ => hg.point _
      exact (hl.steady hg).logLine (lineOf_closeLine _)
    · refine keeps_bind (keeps_whenever fun _ => hl.unmapOf hg hi fromSigio) fun _ => ?_
      exact keeps_bind (hg.point _) fun _ => hl.keeps_update fun _ =>
        ⟨fun _ => rfl, fun _ => rfl, fun _ => rfl, rfl, rfl, rfl, rfl⟩

theorem closeIfActive {i : Int} (hi : Usable P numEvents i) : Keeps P (closeIfActive e i) E :=
  keeps_bind (hg.point _) fun _ => keeps_bind (keeps_getEvent hi) fun _ =>
    keeps_whenever fun _ => hl.closeEvent hg (fun _ => hi) true

theorem sigioHandler : Keeps P (sigioHandler e) E := by
  refine keeps_bind keeps_answer fun _ => keeps_whenever fun _ =>
    keeps_bind (triple_update fun s hs => hl.stormed s hs) fun _ => keeps_forRange _ _ fun i _ hi => ?_
  rw [Nat.zero_add] at hi
  exact hl.closeIfActive hg (.inl (inRange_natCast hi))

/-! ### Mapping -/

omit hl in
theorem findEmptyMmap : Triple P (findEmptyMmap e)
    (fun r s => P s ∧ (0 ≤ r → InRange maxMmaps r)) E := by
  refine (triple_findRange (S := fun _ _ => True) maxMmaps 0 fun k _ hk => ?_).strengthen_post
    fun r s hs => ⟨hs.1, fun hr => ?_⟩
  · refine triple_bind (hg.point _) fun _ => triple_bind
      (keeps_getMmap (.inl (inRange_natCast (by omega)))) fun m => ?_
    exact triple_pure fun s hs => ⟨hs, fun _ => trivial⟩
  · rcases hs.2 with rfl | ⟨k, rfl, -, hk, -⟩
    · omega
    · exact inRange_natCast (by omega)

theorem prepareMmap {i : Int} (hi : Usable P maxMmaps i) {fill : MmapEntry → MmapEntry}
    (hfill : Keeps P (setMmap i fill) E) : Keeps P (prepareMmap e i fill) E :=
  keeps_bind (hg.point _) fun _ => keeps_bind (hl.keeps_setMmap hi fun _ => ⟨rfl, rfl⟩) fun _ =>
    keeps_bind (hg.point _) fun _ => hfill

omit hg in
theorem callMmap {i : Int} (hi : Usable P maxMmaps i) {which : Int}
    (hwhich : Usable P numEvents which) (size : Int) : Keeps P (callMmap i which size) E :=
  keeps_bind (keeps_getEvent hwhich) fun _ => keeps_bind (keeps_bind keeps_answer fun _ => keeps_pure)
    fun _ => hl.keeps_setMmap hi fun _ => ⟨rfl, rfl⟩

theorem recordMmap {i : Int} (hi : InRange maxMmaps i) {which : Int}
    (hwhich : Usable P numEvents which) {own : MmapEntry → MmapEntry}
    (hown : ∀ fd, Keeps P (setMmap i fun m => own { m with fd := fd }) E) :
    Keeps P (recordMmap e i which own) E := by
  have hi' : Usable P maxMmaps i := .inl hi
  refine keeps_bind (hl.keeps_update fun _ =>
    ⟨fun _ => rfl, fun _ => rfl, fun _ => rfl, rfl, rfl, rfl, rfl⟩) fun _ => ?_
  refine keeps_bind (hg.point _) fun _ => keeps_bind
    (triple_setEvent hwhich fun s hs => hl.entry s which i hi' hs) fun _ => ?_
  refine keeps_bind (hg.point _) fun _ => keeps_bind (keeps_getEvent hwhich) fun ev => ?_
  refine keeps_bind (hown ev.fd) fun _ => keeps_bind (hg.point _) fun _ => ?_
  refine keeps_bind (keeps_getMmap hi') fun _ => keeps_bind (keeps_getEvent hwhich) fun _ => ?_
  refine keeps_bind ((hl.steady hg).logLine (lineOf_mmapLine _ _ _)) fun _ => ?_
  refine keeps_bind (hg.point _) fun _ => ?_
  exact keeps_bind (hl.keeps_setMmap hi' fun _ => ⟨rfl, rfl⟩) fun _ => hg.point _

theorem setupMmapAux {which parent : Int} (hwhich : Usable P numEvents which)
    (hparent : Usable P maxMmaps parent) : Keeps P (setupMmapAux e which parent) E := by
  refine triple_bind (findEmptyMmap hg) fun i => triple_of_pure_right fun hi =>
    keeps_whenever fun h0 => ?_
  have hi := hi h0
  have hi' : Usable P maxMmaps i := .inl hi
  refine keeps_bind keeps_draw fun size => keeps_bind keeps_draw fun prot =>
    keeps_bind keeps_draw fun flags => keeps_bind (hl.prepareMmap hg hi' ?_) fun _ => ?_
  · refine triple_setMmap hi' fun s hs => hl.links _ _ ?_ (hl.parent s i parent hparent hs)
    exact sameLinks_setMmap_setMmap s i fun _ => ⟨rfl, rfl⟩
  · refine keeps_bind (hg.point _) fun _ => keeps_bind (keeps_getMmap hparent) fun _ => ?_
    refine keeps_bind (hl.callMmap hi' hwhich size) fun _ => keeps_bind (hg.point _) fun _ => ?_
    refine keeps_bind (keeps_getMmap hi') fun m => keeps_whenever fun _ => ?_
    refine keeps_bind (hg.point _) fun _ => hl.recordMmap hg hi hwhich fun fd => ?_
    exact hl.keeps_setMmap hi' fun _ => ⟨rfl, rfl⟩

theorem setupMmap {which : Found} (hwhich : SureInRange which) :
    Keeps P (setupMmap e which) E := by
  refine triple_bind (findEmptyMmap hg) fun i => triple_of_pure_right fun hi =>
    keeps_whenever fun h0 => ?_
  have hi := hi h0
  have hi' : Usable P maxMmaps i := .inl hi
  refine keeps_bind keeps_draw fun size => keeps_bind keeps_draw fun prot =>
    keeps_bind keeps_draw fun flags => keeps_bind (hl.prepareMmap hg hi'
      (hl.keeps_setMmap hi' fun _ => ⟨rfl, rfl⟩)) fun _ => ?_
  refine keeps_bind keeps_draw fun _ => keeps_bind (hg.point _) fun _ => ?_
  refine triple_bind ((hl.steady hg).use_usable hwhich) fun _ => triple_of_pure_right fun hwhich => ?_
  refine keeps_bind (hl.callMmap hi' hwhich size) fun _ => keeps_bind (hg.point _) fun _ => ?_
  refine keeps_bind (keeps_getMmap hi') fun m => keeps_whenever fun _ => ?_
  refine keeps_bind (hg.point _) fun _ => keeps_bind (hl.recordMmap hg hi hwhich fun fd => ?_)
    fun _ => keeps_bind keeps_rand fun r => keeps_whenever fun _ => hl.setupMmapAux hg hwhich hi'
  refine triple_setMmap hi' fun s hs => hl.links _ _ ?_ (hl.which s i which.index hwhich hs)
  exact sameLinks_setMmap_setMmap s i fun _ => ⟨rfl, rfl⟩

theorem mmapRandomEvent (hc : Calm e) : Keeps P (mmapRandomEvent e) E := by
  have hs := hl.steady hg
  refine keeps_bind keeps_rand fun r => ?_
  split
  · refine triple_bind ((hs.findRandomSlot_sure hc slotTest_active).strengthen_post fun r s hs =>
      (⟨hs.1, hs.2.2⟩ : P s ∧ SureInRange r)) fun which => triple_of_pure_right fun hwhich => ?_
    exact hl.setupMmap hg hwhich
  · exact triple_bind hs.findRandomActiveMmap fun which => triple_of_pure_right fun hwhich =>
      keeps_whenever fun h0 => hl.unmapMmap hg (.inl (hwhich h0)) false
  · exact triple_bind hs.findRandomActiveMmap fun which => triple_of_pure_right fun hwhich =>
      keeps_whenever fun h0 => keeps_bind (hs.perfMmapRead (.inl (hwhich h0))) fun _ => keeps_pure
  · exact keeps_whenever fun _ => hs.trashRandomMmap
  · exact keeps_pure

/-! ### Opening -/

theorem drawGroup (hc : Calm e) {i : Int} (hi : Usable P numEvents i) : Keeps P (drawGroup e i) E := by
  refine triple_bind (((hl.steady hg).findRandomSlot_sure hc slotTest_active).strengthen_post
    fun r s hs => (⟨hs.1, hs.2.2⟩ : P s ∧ SureInRange r)) fun j => triple_of_pure_right fun hj => ?_
  refine triple_bind ((hl.steady hg).use_usable hj) fun _ => triple_of_pure_right fun hj => ?_
  exact keeps_bind (keeps_getEvent hj) fun _ => hl.keeps_setEvent hi fun _ => rfl

theorem prepareEvent (hc : Calm e) {i : Int} (hi : Usable P numEvents i) :
    Keeps P (prepareEvent e i) E := by
  refine keeps_bind keeps_getState fun s => keeps_bind keeps_draw fun r =>
    keeps_bind keeps_draw fun cpu => keeps_bind (hl.keeps_update fun _ =>
      ⟨fun _ => rfl, fun _ => rfl, fun _ => rfl, rfl, rfl, rfl, rfl⟩) fun _ => ?_
  refine keeps_bind (hg.point _) fun _ => keeps_bind (hl.keeps_setEvent hi fun _ => rfl) fun _ => ?_
  refine keeps_bind keeps_rand fun group => keeps_bind (hg.point _) fun _ =>
    keeps_bind (keeps_whenever fun _ => hl.drawGroup hg hc hi) fun _ => ?_
  refine keeps_bind (hg.point _) fun _ => keeps_bind (keeps_getEvent hi) fun ev => ?_
  exact keeps_bind keeps_getState fun s => keeps_bind keeps_draw fun attr =>
    hl.keeps_setEvent hi fun _ => rfl

omit hg in
theorem openPerf : Keeps P openPerf E :=
  keeps_bind keeps_answer fun _ => keeps_bind keeps_getState fun _ => keeps_bind
    (keeps_whenever fun _ => hl.keeps_update fun _ =>
      ⟨fun _ => rfl, fun _ => rfl, fun _ => rfl, rfl, rfl, rfl, rfl⟩) fun _ => keeps_pure

theorem openAttempts (hc : Calm e) {i : Int} (hi : Usable P numEvents i) (n : Nat) :
    Keeps P (openAttempts e i n) E := by
  induction n with
  | zero => exact triple_stop hg.stops
  | succ n ih =>
    refine keeps_bind (hl.prepareEvent hg hc hi) fun _ => keeps_bind (hg.point _) fun _ =>
      keeps_bind hl.openPerf fun r => keeps_ite (fun _ => keeps_pure) fun _ => ?_
    refine keeps_ite (fun _ => triple_stop hg.stops) fun _ => keeps_bind keeps_answer fun errno => ?_
    refine keeps_ite (fun _ => triple_stop hg.stops) fun _ => ?_
    exact keeps_ite (fun _ => keeps_pure) fun _ => keeps_bind (hg.point _) fun _ => ih

theorem joinGroup (hc : Calm e) (groupFd : BitVec 32) : Keeps P (joinGroup e groupFd) E := by
  refine triple_bind ((hl.steady hg).lookupEvent_sure hc) fun j => triple_of_pure_right fun hj => ?_
  refine triple_bind ((hl.steady hg).use_usable hj) fun _ => triple_of_pure_right fun hj => ?_
  exact keeps_bind (hl.keeps_setEvent hj fun _ => rfl) fun _ => keeps_bind (hg.point _) fun _ =>
    hl.keeps_setEvent hj fun _ => rfl

theorem setupOverflow {i : Int} (hi : Usable P numEvents i) : Keeps P (setupOverflow e i) E :=
  keeps_bind (keeps_getEvent hi) fun _ => keeps_bind
    ((hl.steady hg).logLine (lineOf_overflowLine _)) fun _ => keeps_bind (hg.point _) fun _ =>
      keeps_bind (keeps_getEvent hi) fun _ => keeps_pure

theorem enterEvent (hc : Calm e) {i : Int} (hi : InRange numEvents i) (r : Int × Nat) :
    Keeps P (enterEvent e i r) E := by
  have hi' : Usable P numEvents i := .inl hi
  refine keeps_bind (keeps_getEvent hi') fun ev => keeps_bind
    ((hl.steady hg).logLine (lineOf_openLine _ _ _ _ _ _)) fun _ => keeps_bind (hg.point _) fun _ => ?_
  refine keeps_bind (hl.keeps_setEvent hi' fun _ => rfl) fun _ => keeps_bind (hg.point _) fun _ => ?_
  refine keeps_bind (hl.keeps_setEvent hi' fun _ => rfl) fun _ => keeps_bind (hg.point _) fun _ => ?_
  refine keeps_bind (hl.keeps_update fun _ =>
    ⟨fun _ => rfl, fun _ => rfl, fun _ => rfl, rfl, rfl, rfl, rfl⟩) fun _ => ?_
  refine keeps_bind (hg.point _) fun _ => keeps_bind (keeps_getEvent hi') fun ev => ?_
  refine keeps_bind (keeps_whenever fun _ => hl.joinGroup hg hc _) fun _ => ?_
  refine keeps_bind (hg.point _) fun _ => keeps_bind
    (keeps_whenever fun _ => hl.setupMmap hg fun _ => hi) fun _ => ?_
  refine keeps_bind (hg.point _) fun _ => keeps_bind (keeps_whenever fun _ =>
    keeps_bind keeps_rand fun r => keeps_whenever fun _ => hl.setupOverflow hg hi') fun _ => ?_
  refine keeps_bind (hg.point _) fun _ => keeps_bind (hl.keeps_setEvent hi' fun _ => rfl) fun _ => ?_
  exact keeps_bind (hg.point _) fun _ => hl.keeps_setEvent hi' fun _ => rfl

theorem openRandomEvent (hc : Calm e) : Keeps P (openRandomEvent e) E := by
  refine triple_bind ((triple_findEmptyEvent (hg.point _)).strengthen_post fun r s hs =>
    (⟨hs.1, fun hr => hs.2.inRange hr⟩ : P s ∧ (0 ≤ r → InRange numEvents r))) fun i =>
      triple_of_pure_right fun hi => keeps_whenever fun h0 => ?_
  have hi := hi h0
  refine keeps_bind (hg.point _) fun _ => keeps_bind
    (hl.keeps_setEvent (.inl hi) fun _ => rfl) fun _ => ?_
  exact keeps_bind (hl.openAttempts hg hc (.inl hi) _) fun r => keeps_bind (hg.point _) fun _ =>
    keeps_whenever fun _ => hl.enterEvent hg hc hi r

/-! ### The loop -/

theorem closeRandomEvent : Keeps P (closeRandomEvent e) E :=
  triple_bind (hl.steady hg).findRandomSlot_inRange fun _ => triple_of_pure_right fun hi =>
    hl.closeEvent hg (fun h0 => .inl (hi h0)) false

theorem mainLoop (hc : Calm e) (n : Nat) : Keeps P (mainLoop e n) E :=
  (hl.steady hg).mainLoop hc (hl.openRandomEvent hg hc) (hl.closeRandomEvent hg)
    (hl.mmapRandomEvent hg hc) n

end Linked

/-! ## Points -/

/-- What the rules of a run owe to `P`. -/
structure Owes (r : Rules) (P : St → Prop) : Prop where
  use : ∀ sure s, P s → r.passes (.use sure) s = true → sure = true ∨ FreeIndex P
  filterLine : ∀ fd custom arg filter s, P s →
    r.passes (.filterLine (shownFilter fd custom arg filter)) s = true →
    ∀ s, P s → P (s.addLine 'I' (setFilterLine fd custom arg filter))

variable {c : Config} {r : Rules}

theorem triple_passPoint (hstops : ∀ s, P s → E s) (loc : Loc) :
    Triple P (passPoint r loc) (fun _ s => P s ∧ r.passes loc s = true) E := by
  refine triple_bind (triple_getState (Q := fun s' s => P s ∧ s' = s) fun s hs => ⟨hs, rfl⟩)
    fun s' => triple_ite (fun hpass => ?_) fun _ => triple_stop fun s hs => hstops s hs.1
  exact triple_pure fun s hs => ⟨hs.1, hs.2 ▸ hpass⟩

theorem keeps_arrivals (hstops : ∀ s, P s → E s) : Keeps P arrivals E :=
  keeps_bind keeps_answer fun _ => keeps_ite (fun _ => triple_stop hstops) fun _ => keeps_pure

theorem guarded_of_rest (hstops : ∀ s, P s → E s) (ho : Owes r P) {rest : Loc → Fuzz Unit}
    (hrest : ∀ loc, Keeps P (rest loc) E) :
    Guarded ⟨c, fun loc => do passPoint r loc; rest loc⟩ P E where
  stops := hstops
  point loc := triple_bind (triple_passPoint hstops loc) fun _ =>
    (hrest loc).weaken_pre fun _ hs => hs.1
  use sure := triple_bind (triple_passPoint hstops _) fun _ => by
    refine Triple.weaken_pre (P := fun s => P s ∧ (sure = true ∨ FreeIndex P)) ?_
      fun s hs => ⟨hs.1, ho.use sure s hs.1 hs.2⟩
    exact triple_of_pure_right fun huse => (hrest _).strengthen_post fun _ _ hs => ⟨hs, huse⟩
  filterLine fd custom arg filter := triple_bind (triple_passPoint hstops _) fun _ => by
    refine Triple.weaken_pre
      (P := fun s => P s ∧ ∀ s, P s → P (s.addLine 'I' (setFilterLine fd custom arg filter))) ?_
      fun s hs => ⟨hs.1, ho.filterLine fd custom arg filter s hs.1 hs.2⟩
    exact triple_of_pure_right fun hline => (hrest _).strengthen_post fun _ _ hs => ⟨hs, hline⟩

theorem keeps_deliverSigio (hstops : ∀ s, P s → E s) {loc : Loc} {handler : Fuzz Unit}
    (h : Keeps P handler E) : Keeps P (deliverSigio r loc handler) E :=
  keeps_bind keeps_getState fun _ => keeps_ite (fun _ => h) fun _ => triple_stop hstops

theorem guarded_quietPoint (hstops : ∀ s, P s → E s) (ho : Owes r P) :
    Guarded ⟨c, quietPoint r⟩ P E :=
  guarded_of_rest hstops ho fun _ => keeps_bind (keeps_arrivals hstops) fun _ => keeps_pure

variable (hl : Linked P) (hstops : ∀ s, P s → E s) (ho : Owes r P)
include hl hstops ho

theorem Linked.pointInSigio : Guarded ⟨c, pointInSigio c r⟩ P E :=
  guarded_of_rest hstops ho fun _ => keeps_bind (keeps_arrivals hstops) fun _ =>
    keeps_forRange _ _ fun _ _ _ => keeps_bind keeps_answer fun fd =>
      (hl.steady (guarded_quietPoint hstops ho)).ourHandler fd

theorem Linked.pointInOverflow (loc : Loc) : Guarded ⟨c, pointInOverflow c r loc⟩ P E :=
  guarded_of_rest hstops ho fun _ => keeps_bind (keeps_arrivals hstops) fun _ =>
    keeps_forRange _ _ fun _ _ _ =>
      keeps_deliverSigio hstops (hl.sigioHandler (guarded_quietPoint hstops ho))

theorem Linked.env : Guarded (c.env r) P E :=
  guarded_of_rest hstops ho fun loc => keeps_bind (keeps_arrivals hstops) fun _ =>
    keeps_forRange _ _ fun _ _ _ => keeps_bind keeps_answer fun fd => keeps_ite
      (fun _ => keeps_deliverSigio hstops (hl.sigioHandler (hl.pointInSigio hstops ho)))
      fun _ => (hl.steady (hl.pointInOverflow hstops ho loc)).ourHandler fd

end Runs

/-! ## The environment is calm -/

theorem linked_stormed (n : Nat) : Linked fun s => n < s.storms where
  links _ _ h hs := h.storms ▸ hs
  stored _ _ := .inl fun _ hs => hs
  entry _ _ _ _ hs := hs
  parent _ _ _ _ hs := hs
  which _ _ _ _ hs := hs
  line _ _ _ _ hs := hs
  stormed _ hs := Nat.lt_succ_of_lt hs

/-- The slots are those of `s₀`, or all events have been closed since. -/
def SlotsOrStorm (s₀ s : St) : Prop := CalmSince s₀ s ∨ s₀.storms < s.storms

theorem onTables_slotsOrStorm (s₀ : St) : OnTables (SlotsOrStorm s₀) := by
  intro s s' h hs
  rcases hs with ⟨hstorms, hslots⟩ | hs
  · exact .inl ⟨h.storms.trans hstorms, fun i => ⟨(h.active i).trans (hslots i).1,
      (h.attr i).trans (hslots i).2.1, (h.fd i).trans (hslots i).2.2⟩⟩
  · exact .inr (by rw [h.storms]; exact hs)

theorem owes_stormed (r : Rules) (n : Nat) : Owes r fun s => n < s.storms where
  use _ _ _ _ := .inr fun _ hs => hs
  filterLine _ _ _ _ _ _ _ _ hs := hs

section Calm

variable {c : Config} {r : Rules} {s₀ : St}

theorem keeps_passPoint {P E : St → Prop} (hstops : ∀ s, P s → E s) (loc : Loc) :
    Keeps P (passPoint r loc) E :=
  (triple_passPoint hstops loc).strengthen_post fun _ _ hs => hs.1

theorem sigioHandler_slotsOrStorm {e : Env}
    (hg : Guarded e (fun s => s₀.storms < s.storms) fun _ => True) :
    Keeps (SlotsOrStorm s₀) (sigioHandler e) fun _ => True := by
  refine keeps_bind keeps_answer fun _ => keeps_whenever fun _ => ?_
  refine triple_bind (Q := fun _ s => s₀.storms < s.storms) (triple_update fun s hs => ?_) fun _ => ?_
  · rcases hs with hs | hs
    · exact hs.1 ▸ Nat.lt_succ_self _
    · exact Nat.lt_succ_of_lt hs
  · refine (keeps_forRange _ _ fun i _ hi => ?_).strengthen_post fun _ _ hs => .inr hs
    rw [Nat.zero_add] at hi
    exact (linked_stormed _).closeIfActive hg (.inl (inRange_natCast hi))

theorem pointInOverflow_slotsOrStorm (loc here : Loc) :
    Keeps (SlotsOrStorm s₀) (pointInOverflow c r loc here) fun _ => True :=
  keeps_bind (keeps_passPoint (fun _ _ => trivial) here) fun _ =>
    keeps_bind (keeps_arrivals fun _ _ => trivial) fun _ => keeps_forRange _ _ fun _ _ _ =>
      keeps_deliverSigio (fun _ _ => trivial) (sigioHandler_slotsOrStorm
        (guarded_quietPoint (fun _ _ => trivial) (owes_stormed r _)))

/-- What a search looks at changes only in a storm, whatever the rules. -/
theorem calm_env (c : Config) (r : Rules) : Calm (c.env r) := by
  intro s₀
  have hmain : Keeps (SlotsOrStorm s₀) (mainPoint c r .elsewhere) fun _ => True := by
    refine keeps_bind (keeps_passPoint (fun _ _ => trivial) _) fun _ =>
      keeps_bind (keeps_arrivals fun _ _ => trivial) fun _ => keeps_forRange _ _ fun _ _ _ =>
        keeps_bind keeps_answer fun fd => keeps_ite (fun _ => ?_) fun _ => ?_
    · exact keeps_deliverSigio (fun _ _ => trivial) (sigioHandler_slotsOrStorm
        ((linked_stormed _).pointInSigio (fun _ _ => trivial) (owes_stormed r _)))
    · exact ((onTables_slotsOrStorm s₀).steady (fun _ _ => trivial)
        (pointInOverflow_slotsOrStorm _)).ourHandler fd
  exact hmain.weaken_pre fun s hs => hs ▸ .inl ⟨rfl, fun _ => ⟨rfl, rfl, rfl⟩⟩

end Calm

end PerfEvent.Fuzzer
