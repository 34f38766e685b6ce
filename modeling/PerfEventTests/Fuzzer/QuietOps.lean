import PerfEventTests.Fuzzer.Steady

/-!
# The quiet operations, one by one

Each of them keeps a steady assertion. The searches whose results are used unchecked need a calm
environment to tell that a sure result is an index.
-/

namespace PerfEvent.Fuzzer

open Draws Programs Text

namespace Attended

variable {e : Env} {P E : St → Prop} {p : EventData → Bool}

section Basics

variable (h : Attended e P E)
include h

theorem keeps_update {f : St → St} (hf : ∀ s, SameCore s (f s)) : Keeps P (update f) E :=
  triple_update fun s hs => h.same _ _ (hf s) hs

theorem keeps_setEvent {i : Int} (hi : Usable P numEvents i) {f : EventData → EventData}
    (hf : ∀ ev, (f ev).active = ev.active ∧ (f ev).fd = ev.fd ∧ (f ev).mmap = ev.mmap ∧
      (f ev).serial = ev.serial ∧ (f ev).attr = ev.attr ∧ (f ev).group = ev.group) :
    Keeps P (setEvent i f) E :=
  triple_setEvent hi fun s hs => h.same _ _ (sameCore_setEvent s i hf) hs

theorem storedMmap {s : St} (hs : P s) (i : Int) : Usable P maxMmaps (s.eventData i).mmap :=
  (h.stored s hs).symm.imp (fun hr => hr.mmap i) id

theorem storedParent {s : St} (hs : P s) (i : Int) : Usable P maxMmaps (s.mmaps i).parentMmap :=
  (h.stored s hs).symm.imp (fun hr => hr.parentMmap i) id

theorem storedWhich {s : St} (hs : P s) (i : Int) : Usable P numEvents (s.mmaps i).whichEvent :=
  (h.stored s hs).symm.imp (fun hr => hr.whichEvent i) id

theorem findRandomSlot : Triple P (findRandomSlot e p) (fun r s => P s ∧ Selected p r.index s) E :=
  triple_findRandomSlot h.stops h.here

/-- A search whose result is checked. -/
theorem findRandomSlot_inRange : Triple P (Fuzzer.findRandomSlot e p)
    (fun r s => P s ∧ (0 ≤ r.index → InRange numEvents r.index)) E :=
  h.findRandomSlot.strengthen_post fun _ _ hs => ⟨hs.1, fun hr => hs.2.inRange hr⟩

theorem findRandomSlot_sure (hc : Calm e) (hp : SlotTest p) : Triple P (Fuzzer.findRandomSlot e p)
    (fun r s => P s ∧ Selected p r.index s ∧ SureInRange r) E := by
  refine (triple_and h.findRandomSlot (Fuzzer.findRandomSlot_sure hc hp)).consequence
    (fun s hs => ⟨hs, trivial⟩) (fun r s hs => ⟨hs.1.1, hs.1.2, fun hsure => ?_⟩) fun _ hs => hs.1
  exact (hs.1.2.resolve_left (hs.2 hsure)).1

theorem lookupEvent : Triple P (lookupEvent e fd)
    (fun r s => P s ∧ Selected (hasFd fd) r.index s) E :=
  triple_lookupEvent h.here

theorem lookupEvent_sure (hc : Calm e) : Triple P (Fuzzer.lookupEvent e fd)
    (fun r s => P s ∧ SureInRange r) E := by
  refine (triple_and h.lookupEvent (Fuzzer.lookupEvent_sure hc)).consequence
    (fun s hs => ⟨hs, trivial⟩) (fun r s hs => ⟨hs.1.1, fun hsure => ?_⟩) fun _ hs => hs.1
  exact (hs.1.2.resolve_left (hs.2 hsure)).1

end Basics

/-! ## Reading mapped pages -/

section Pages

variable (h : Attended e P E)
include h

theorem perfMmapAuxRead {which : Int} (hwhich : Usable P maxMmaps which) :
    Keeps P (perfMmapAuxRead which) E := by
  refine triple_bind ((triple_getMmap hwhich).strengthen_post fun m s hs =>
    (⟨hs.1, hs.2 ▸ h.storedParent hs.1 which⟩ : P s ∧ Usable P maxMmaps m.parentMmap)) fun m =>
      triple_of_pure_right fun hparent => keeps_ite (fun _ => keeps_pure) fun _ => ?_
  refine keeps_bind (keeps_getMmap hparent) fun parent => keeps_ite (fun _ => keeps_pure) fun _ => ?_
  exact keeps_ite (fun _ => keeps_pure) fun _ => keeps_answer

theorem perfMmapRead {which : Int} (hwhich : Usable P maxMmaps which) :
    Keeps P (perfMmapRead e which) E := by
  refine keeps_bind h.here fun _ => keeps_bind (keeps_getMmap hwhich) fun m => ?_
  refine keeps_ite (fun _ => h.perfMmapAuxRead hwhich) fun _ => ?_
  refine keeps_ite (fun _ => keeps_pure) fun _ => ?_
  exact keeps_ite (fun _ => keeps_pure) fun _ => keeps_answer

end Pages

/-! ## The overflow handler -/

section Overflow

variable (h : Attended e P E)
include h

theorem throttle {i : Int} (hi : Usable P numEvents i) : Keeps P (throttle e i) E := by
  refine keeps_bind (h.keeps_setEvent hi fun ev => ⟨rfl, rfl, rfl, rfl, rfl, rfl⟩) fun _ => ?_
  refine keeps_bind h.here fun _ => keeps_bind (keeps_getEvent hi) fun ev => ?_
  refine keeps_whenever fun _ => triple_bind (h.storm _) fun _ => triple_of_pure_right fun hclose => ?_
  refine keeps_bind (keeps_getEvent hi) fun ev => keeps_bind (keeps_bind keeps_getState fun s => ?_)
    fun _ => keeps_pure
  exact keeps_bind (triple_update fun s hs => hclose s ev.fd hs) fun _ => keeps_pure

theorem refresh {i : Int} (hi : Usable P numEvents i) : Keeps P (refresh e i) E := by
  refine triple_bind ((triple_getEvent hi).strengthen_post fun ev s hs =>
    (⟨hs.1, hs.2 ▸ h.storedMmap hs.1 i⟩ : P s ∧ Usable P maxMmaps ev.mmap)) fun ev =>
      triple_of_pure_right fun hmmap => ?_
  refine keeps_bind (h.perfMmapRead hmmap) fun _ => keeps_bind h.here fun _ => ?_
  refine keeps_bind keeps_answer fun ret => keeps_whenever fun _ => ?_
  exact h.keeps_setEvent hi fun ev => ⟨rfl, rfl, rfl, rfl, rfl, rfl⟩

theorem countOverflow {i : Int} (hi : Usable P numEvents i) : Keeps P (countOverflow e i) E := by
  refine keeps_bind h.here fun _ => keeps_bind
    (h.keeps_setEvent hi fun ev => ⟨rfl, rfl, rfl, rfl, rfl, rfl⟩) fun _ => ?_
  refine keeps_bind h.here fun _ => keeps_bind (keeps_getEvent hi) fun ev => ?_
  exact keeps_ite (fun _ => h.throttle hi) fun _ => h.refresh hi

theorem handleOverflow (fd : Int) : Keeps P (handleOverflow e fd) E := by
  have hset : ∀ b, Keeps P (update fun s => { s with alreadyHandling := b }) E := fun b =>
    h.keeps_update fun _ => .of_eventData rfl rfl rfl rfl rfl rfl rfl rfl rfl rfl rfl rfl
  refine keeps_bind (hset true) fun _ => keeps_bind h.here fun _ => ?_
  refine keeps_bind keeps_answer fun ret => keeps_bind (keeps_whenever fun _ => ?_) fun _ =>
    keeps_bind h.here fun _ => hset false
  refine triple_bind (h.lookupEvent.strengthen_post fun r s hs =>
    (⟨hs.1, fun hr => hs.2.inRange hr⟩ : P s ∧ (0 ≤ r.index → InRange numEvents r.index))) fun i =>
      triple_of_pure_right fun hi => ?_
  exact keeps_whenever fun h0 => h.countOverflow (.inl (hi h0))

theorem ourHandler (fd : Int) : Keeps P (ourHandler e fd) E :=
  keeps_bind keeps_getState fun _ => keeps_whenever fun _ => h.handleOverflow fd

end Overflow

end Attended

namespace Steady

variable {e : Env} {P E : St → Prop} {File : Int → St → Prop} {p : EventData → Bool}

section Basics

variable (h : Steady e P File E)
include h

theorem logLine {letter : Char} {text : Str} (ht : LineOf letter text) :
    Keeps P (logLine e letter text) E :=
  triple_logLine fun s hs => h.line letter text s ht hs

theorem callOn {i : Int} (hi : Usable P numEvents i) {request : Request}
    (hrequest : request ≠ .close) : Keeps P (callOn i request) E :=
  keeps_bind (triple_update fun _ hs => h.call _ i request hrequest (checkEvent_keeps hi hs))
    fun _ => keeps_answer

/-- The point before an unchecked use. -/
theorem use_usable {r : Found} (hr : SureInRange r) :
    Triple P (e.pt (.use r.sure)) (fun _ s => P s ∧ Usable P numEvents r.index) E :=
  (h.use r.sure).strengthen_post fun _ _ hs => ⟨hs.1, hs.2.imp (fun hsure => hr hsure) id⟩

end Basics

section Mappings

variable (h : Steady e P File E)
include h

theorem trashWrite {i : Int} (hi : Usable P maxMmaps i) : Keeps P (trashWrite i) E := by
  refine keeps_bind keeps_answer fun faults => keeps_whenever fun _ => ?_
  refine triple_bind ((triple_getMmap hi).strengthen_post fun m s hs =>
    (⟨hs.1, hs.2 ▸ h.storedWhich hs.1 i⟩ : P s ∧ Usable P numEvents m.whichEvent)) fun m =>
      triple_of_pure_right fun hwhich => ?_
  exact keeps_bind (keeps_getEvent hwhich) fun _ => keeps_pure

theorem findRandomActiveMmap : Triple P (findRandomActiveMmap e)
    (fun r s => P s ∧ (0 ≤ r → InRange maxMmaps r)) E := by
  refine triple_bind keeps_getState fun s => triple_ite (fun _ => ?_) fun _ => ?_
  · exact triple_pure fun s hs => ⟨hs, fun hr => absurd hr (by decide)⟩
  · refine triple_bind h.here fun _ => triple_bind keeps_getState fun s => ?_
    refine triple_bind (triple_position (Q := fun _ => P) h.stops fun _ _ => id) fun x => ?_
    refine (triple_nthRange (S := fun _ _ => True) maxMmaps 0 x fun k _ hk => ?_).strengthen_post
      fun r s hs => ⟨hs.1, fun hr => ?_⟩
    · refine triple_bind h.here fun _ => triple_bind
        (keeps_getMmap (.inl (inRange_natCast (by omega)))) fun m => ?_
      exact triple_pure fun s hs => ⟨hs, fun _ => trivial⟩
    · rcases hs.2 with rfl | ⟨k, rfl, -, hk, -⟩
      · omega
      · exact inRange_natCast (by omega)

theorem trashAt {i : Int} (hi : InRange maxMmaps i) : Keeps P (trashAt e i) E := by
  refine keeps_bind keeps_rand fun value => keeps_bind h.here fun _ => ?_
  refine keeps_bind (keeps_getMmap (.inl hi)) fun m => keeps_whenever fun _ => ?_
  refine keeps_bind (h.trashWrite (.inl hi)) fun _ => keeps_bind h.here fun _ => ?_
  exact keeps_bind (keeps_getMmap (.inl hi)) fun m => h.logLine (lineOf_trashLine _ _ _)

theorem trashRandomMmap : Keeps P (trashRandomMmap e) E :=
  triple_bind h.findRandomActiveMmap fun _ => triple_of_pure_right fun hi =>
    keeps_whenever fun h0 => h.trashAt (hi h0)

end Mappings

/-! ## Reading, writing and polling -/

section Transfer

variable (h : Steady e P File E)
include h

theorem transferRandomEvent {letter : Char} (hletter : letter ≠ '\n') {request : Int → Request}
    (hrequest : ∀ size, request size ≠ .close) : Keeps P (transferRandomEvent e letter request) E := by
  refine triple_bind h.findRandomSlot_inRange fun i => triple_of_pure_right fun hi =>
    keeps_whenever fun h0 => ?_
  have hi : Usable P numEvents i.index := .inl (hi h0)
  refine keeps_bind h.here fun _ => keeps_bind (keeps_getEvent hi) fun ev =>
    keeps_whenever fun _ => ?_
  refine keeps_bind keeps_draw fun size => keeps_bind h.here fun _ => ?_
  refine keeps_bind (h.callOn hi (hrequest size)) fun result => ?_
  refine keeps_bind h.here fun _ => keeps_whenever fun _ => ?_
  exact keeps_bind (keeps_getEvent hi) fun ev =>
    h.logLine (lineOf_ints hletter [ev.fd, size] (by simp))

theorem pollFds (hc : Calm e) (n : Nat) :
    Triple P (pollFds e n) (fun fds s => P s ∧ fds.length = n) E := by
  induction n with
  | zero => exact triple_pure fun s hs => ⟨hs, rfl⟩
  | succ n ih =>
    refine triple_bind ((h.findRandomSlot_sure hc slotTest_active).strengthen_post fun r s hs =>
      (⟨hs.1, hs.2.2⟩ : P s ∧ SureInRange r)) fun i => triple_of_pure_right fun hi => ?_
    refine triple_bind (h.use_usable hi) fun _ => triple_of_pure_right fun hi => ?_
    refine triple_bind (keeps_getEvent hi) fun ev => triple_bind ih fun fds => ?_
    exact triple_pure fun s hs => ⟨hs.1, by rw [List.length_cons, hs.2]⟩

theorem pollRandomEvent (hc : Calm e) : Keeps P (pollRandomEvent e) E := by
  refine keeps_bind keeps_rand fun num => triple_bind (h.pollFds hc _) fun fds =>
    triple_of_pure_right fun hfds => ?_
  refine keeps_bind keeps_rand fun timeout => keeps_bind h.here fun _ => ?_
  refine keeps_bind keeps_answer fun result => keeps_whenever fun _ => ?_
  exact h.logLine (lineOf_pollLine (by omega) _)

end Transfer

/-! ## The process -/

section Process

variable (h : Steady e P File E)
include h

theorem prctlRandomEvent : Keeps P (prctlRandomEvent e) E := by
  refine keeps_bind keeps_rand fun type => keeps_bind h.here fun _ => ?_
  refine keeps_bind keeps_answer fun ret => keeps_whenever fun _ => ?_
  exact h.logLine (lineOf_ints (by decide) [((type % 2 : Nat) : Int)] (by simp))

theorem forkRandomEvent : Keeps P (forkRandomEvent e) E := by
  refine keeps_bind keeps_getState fun s => keeps_ite (fun _ => ?_) fun _ => ?_
  · refine keeps_bind (h.logLine (lineOf_ints (by decide) [0] (by simp))) fun _ => ?_
    exact keeps_bind h.here fun _ => h.keeps_update fun _ =>
      .of_eventData rfl rfl rfl rfl rfl rfl rfl rfl rfl rfl rfl rfl
  · refine keeps_bind (h.logLine (lineOf_ints (by decide) [1] (by simp))) fun _ => ?_
    refine keeps_bind h.here fun _ => keeps_bind (keeps_bind keeps_answer fun _ => keeps_pure)
      fun pid => h.keeps_update fun _ => ?_
    exact .of_eventData rfl rfl rfl rfl rfl rfl rfl rfl rfl rfl rfl rfl

theorem setAffinity : Keeps P (setAffinity e) E := by
  refine keeps_bind keeps_rand fun which => triple_bind (triple_draw_always
    (affinityCpus_bounds (which % 4))) fun cpus => triple_of_pure_right fun hcpus => ?_
  refine keeps_bind h.here fun _ => keeps_bind keeps_answer fun result => keeps_whenever fun _ => ?_
  exact h.logLine (lineOf_affinityLine (Nat.mod_lt _ (by decide)) hcpus)

theorem cpuAffinityEvent : Keeps P (cpuAffinityEvent e) E := by
  refine keeps_bind keeps_getState fun s => keeps_ite (fun _ => h.setAffinity) fun _ => ?_
  refine keeps_bind keeps_answer fun mask => keeps_whenever fun _ => ?_
  exact keeps_bind (h.keeps_update fun _ =>
    .of_eventData rfl rfl rfl rfl rfl rfl rfl rfl rfl rfl rfl rfl) fun _ => h.setAffinity

theorem vsyscallRandomEvent : Keeps P (vsyscallRandomEvent e) E :=
  keeps_bind keeps_rand fun _ => h.here

end Process

/-! ## Files -/

section Files

variable (h : Steady e P File E)
include h

theorem openFile : Triple P openFile (fun fd s => P s ∧ (fd ≠ -1 → File fd s)) E := by
  refine triple_bind keeps_answer fun a => triple_bind
    (triple_getState (Q := fun s' s => P s ∧ s' = s) fun s hs => ⟨hs, rfl⟩) fun s' => ?_
  refine triple_bind (Q := fun _ s => P s ∧ (freeFd s' a ≠ -1 → File (freeFd s' a) s))
    (triple_whenever (fun hfd => triple_update fun s hs => ?_) fun hfd s hs => ⟨hs.1, fun h => ?_⟩)
    fun _ => triple_pure fun s hs => hs
  · obtain ⟨hs, rfl⟩ := hs
    have hfree : s'.fds (freeFd s' a) = none := by
      unfold freeFd at hfd ⊢
      split at hfd
      · rename_i hcond
        rw [if_pos hcond]
        exact hcond.2.2
      · exact absurd rfl hfd
    exact ⟨(h.opened s' _ hs hfd hfree).1, fun _ => (h.opened s' _ hs hfd hfree).2⟩
  · exact absurd h hfd

theorem closeFile {fd : Int} : Triple (fun s => P s ∧ File fd s) (closeFd fd) (fun _ => P) E :=
  triple_bind keeps_getState fun _ => triple_bind
    (triple_update fun s hs => h.closed s fd hs.1 hs.2) fun _ => keeps_pure

/-- A file that is opened: the rest of the operation knows that it is a file. -/
theorem triple_openFile {α : Type} {f : Int → Fuzz α} {Q : α → St → Prop}
    (hnone : Triple P (f (-1)) Q E)
    (hsome : ∀ fd, fd ≠ -1 → Triple (fun s => P s ∧ File fd s) (f fd) Q E) :
    Triple P (Fuzzer.openFile >>= f) Q E := by
  refine triple_bind h.openFile fun fd => ?_
  rcases eq_or_ne fd (-1) with rfl | hfd
  · exact hnone.weaken_pre fun s hs => hs.1
  · exact (hsome fd hfd).weaken_pre fun s hs => ⟨hs.1, hs.2 hfd⟩

theorem logFileLine {letter : Char} {text : Str} (ht : LineOf letter text) {fd : Int} :
    Keeps (fun s => P s ∧ File fd s) (Fuzzer.logLine e letter text) E :=
  triple_logLine fun s hs => ⟨h.line letter text s ht hs.1, h.lineFile fd letter text s hs.2⟩

theorem transferFile {kind which : Nat} {size : Draw Int} :
    Keeps P (transferFile e kind which size) E := by
  refine h.triple_openFile (keeps_whenever fun hneg => absurd hneg (by decide)) fun fd hfd => ?_
  refine triple_whenever (fun _ => ?_) fun _ s hs => hs.1
  refine triple_bind keeps_draw fun size => triple_bind (h.hereFile fd) fun _ => ?_
  refine triple_bind keeps_answer fun result => triple_bind (h.hereFile fd) fun _ => ?_
  refine triple_bind (h.logFileLine (lineOf_ints (by decide)
    [(kind : Int), which, size, result] (by simp))) fun _ => ?_
  exact triple_bind h.closeFile fun _ => keeps_pure

theorem leaveOpen : Keeps P (leaveOpen e) E := by
  refine h.triple_openFile (keeps_whenever fun hneg => absurd hneg (by decide)) fun fd hfd => ?_
  refine triple_whenever (fun _ => ?_) fun _ s hs => hs.1
  refine triple_bind keeps_getState fun s => triple_bind
    (triple_update (Q := fun _ => P) fun s hs => h.place s _ fd _ hs.1 hs.2) fun _ => ?_
  exact keeps_bind h.here fun _ => h.logLine (lineOf_ints (by decide)
    [2, ((freePlace s : Nat) : Int)] (show 2 < 600 by decide))

theorem closeOpen (k : Nat) : Keeps P (closeOpen e k) E := by
  refine triple_bind (triple_getState (Q := fun s' s => P s ∧ s' = s) fun s hs => ⟨hs, rfl⟩)
    fun s' => triple_whenever (fun hk => ?_) fun _ s hs => hs.1
  refine triple_bind (Q := fun _ => P) (fun w hw => ?_) fun _ => keeps_bind h.here fun _ =>
    h.logLine (lineOf_ints (by decide) [3, (k : Int)] (by simp))
  obtain ⟨hw, rfl⟩ := hw
  exact h.unplace _ k _ hw hk

theorem accessRandomFile : Keeps P (accessRandomFile e) E := by
  refine keeps_bind keeps_rand fun file => keeps_bind keeps_rand fun readSize => ?_
  refine keeps_bind keeps_rand fun which => keeps_bind h.here fun _ => ?_
  split
  · exact h.transferFile
  · exact h.transferFile
  · exact keeps_bind keeps_getState fun s => keeps_whenever fun _ => h.leaveOpen
  · exact keeps_bind keeps_rand fun k => h.closeOpen _

end Files

/-! ## ioctl -/

section Ioctl

variable (h : Steady e P File E)
include h

theorem ioctlOn {i : Int} (hi : Usable P numEvents i) (request : Int) (arg : IoctlArg) :
    Keeps P (ioctlOn i request arg) E :=
  h.callOn hi nofun

theorem logIoctl {i : Int} (hi : Usable P numEvents i) (result request arg : Int) :
    Keeps P (logIoctl e i result request arg) E :=
  keeps_whenever fun _ => keeps_bind (keeps_getEvent hi) fun _ => h.logLine (lineOf_ioctlLine _ _ _)

theorem plainIoctl {i : Int} (hi : Usable P numEvents i) (request : Int) (arg : IoctlArg)
    (shown : Int) : Keeps P (plainIoctl e i request arg shown) E :=
  keeps_bind h.here fun _ => keeps_bind (h.ioctlOn hi request arg) fun result =>
    keeps_bind h.here fun _ => h.logIoctl hi result request shown

theorem refreshEvent {i : Int} (hi : Usable P numEvents i) : Keeps P (refreshEvent e i) E := by
  refine keeps_bind keeps_draw fun arg => keeps_bind h.here fun _ => ?_
  refine keeps_bind (h.ioctlOn hi _ _) fun result => keeps_bind h.here fun _ => ?_
  refine keeps_bind (keeps_whenever fun _ => h.keeps_setEvent hi fun ev =>
    ⟨rfl, rfl, rfl, rfl, rfl, rfl⟩) fun _ => ?_
  exact keeps_bind h.here fun _ => h.logIoctl hi _ _ _

theorem setOutput (hc : Calm e) {i : Int} (hi : Usable P numEvents i) :
    Keeps P (setOutput e i) E := by
  refine triple_bind ((h.findRandomSlot_sure hc slotTest_active).strengthen_post fun r s hs =>
    (⟨hs.1, hs.2.2⟩ : P s ∧ SureInRange r)) fun output => triple_of_pure_right fun hsure => ?_
  refine triple_bind (h.use_usable hsure) fun _ => triple_of_pure_right fun houtput => ?_
  refine keeps_bind (keeps_getEvent houtput) fun ev => keeps_bind keeps_rand fun r => ?_
  exact h.plainIoctl hi _ _ _

theorem setFilter {i : Int} (hi : Usable P numEvents i) : Keeps P (setFilter e i) E := by
  refine keeps_bind keeps_rand fun r => keeps_bind keeps_draw fun arg => ?_
  refine keeps_bind h.here fun _ => keeps_bind (keeps_getEvent hi) fun _ => ?_
  refine keeps_bind keeps_draw fun filter => keeps_bind h.here fun _ => ?_
  refine keeps_bind (h.ioctlOn hi _ _) fun result => keeps_bind h.here fun _ => ?_
  refine keeps_whenever fun _ => keeps_bind (keeps_getEvent hi) fun ev => ?_
  refine triple_bind (h.filterLine _ _ _ _) fun _ => triple_of_pure_right fun hline => ?_
  exact triple_logLine hline

theorem usingFile {use : Fuzz Unit}
    (huse : ∀ fd, Keeps (fun s => P s ∧ File fd s) use E) : Keeps P (usingFile e use) E := by
  refine h.triple_openFile ?_ fun fd hfd => ?_
  · rw [if_pos rfl]
    exact keeps_pure
  · rw [if_neg hfd]
    refine triple_bind (h.hereFile fd) fun _ => triple_bind (huse fd) fun _ => ?_
    exact triple_bind h.closeFile fun _ => keeps_pure

theorem loadBpf : Keeps P (loadBpf e) E := by
  refine keeps_bind h.here fun _ => triple_bind (h.openFile.strengthen_post fun _ _ hs => hs.1)
    fun fd => ?_
  exact keeps_bind (h.keeps_update fun _ =>
    .of_eventData rfl rfl rfl rfl rfl rfl rfl rfl rfl rfl rfl rfl) fun _ => keeps_pure

theorem setupBpfFd : Keeps P (setupBpfFd e) E := by
  refine keeps_bind keeps_getState fun s => keeps_ite (fun _ => keeps_pure) fun _ => ?_
  refine keeps_bind (h.keeps_update fun _ =>
    .of_eventData rfl rfl rfl rfl rfl rfl rfl rfl rfl rfl rfl rfl) fun _ => ?_
  refine keeps_bind (h.usingFile fun _ => keeps_pure) fun written => ?_
  refine keeps_ite (fun _ => keeps_pure) fun _ => keeps_bind h.here fun _ => ?_
  refine keeps_bind (h.usingFile fun fd => ?_) fun found => keeps_ite (fun _ => keeps_pure) fun _ =>
    h.loadBpf
  refine keeps_bind keeps_answer fun id => triple_update fun s hs => ?_
  have hsame : SameCore s { s with kprobeId := id } :=
    .of_eventData rfl rfl rfl rfl rfl rfl rfl rfl rfl rfl rfl rfl
  exact ⟨h.same _ _ hsame hs.1, h.sameFile fd _ _ hsame hs.2⟩

theorem setBpf {i : Int} (hi : Usable P numEvents i) : Keeps P (setBpf e i) E :=
  keeps_bind keeps_rand fun _ => keeps_bind h.setupBpfFd fun _ =>
    keeps_bind keeps_draw fun _ => h.plainIoctl hi _ _ _

theorem unsetIdIoctl {i : Int} (hi : Usable P numEvents i) (request : Int) :
    Keeps P (unsetIdIoctl e i request) E :=
  keeps_bind keeps_draw fun _ => keeps_bind keeps_draw fun _ => h.plainIoctl hi _ _ _

theorem logModify {i : Int} (hi : Usable P numEvents i) (result : Int) :
    Keeps P (logModify e i result) E :=
  keeps_bind keeps_draw fun _ => h.logIoctl hi _ _ _

theorem modifyRandom {i : Int} (hi : Usable P numEvents i) : Keeps P (modifyRandom e i) E :=
  keeps_bind keeps_rand fun _ => keeps_bind h.here fun _ => keeps_bind (h.ioctlOn hi _ _) fun _ =>
    keeps_bind h.here fun _ => h.logModify hi _

theorem modifyBreakpoint {breakpoint : Found} (hb : SureInRange breakpoint) {source : Int}
    (hsource : Usable P numEvents source) : Keeps P (modifyBreakpoint e breakpoint source) E := by
  refine keeps_bind h.here fun _ => triple_bind (h.use_usable hb) fun _ =>
    triple_of_pure_right fun hb => ?_
  exact keeps_bind (keeps_getEvent hsource) fun ev => h.ioctlOn hb _ _

theorem modifyOther (hc : Calm e) {i : Int} (hi : Usable P numEvents i) {breakpoint : Found}
    (hb : SureInRange breakpoint) : Keeps P (modifyOther e i breakpoint) E := by
  refine triple_bind ((h.findRandomSlot_sure hc slotTest_isBreakpoint).strengthen_post fun r s hs =>
    (⟨hs.1, hs.2.2⟩ : P s ∧ SureInRange r)) fun custom => triple_of_pure_right fun hsure => ?_
  refine triple_bind (h.use_usable hsure) fun _ => triple_of_pure_right fun hcustom => ?_
  refine keeps_bind (h.modifyBreakpoint hb hcustom) fun result => keeps_bind h.here fun _ => ?_
  exact keeps_ite (fun _ => h.modifyRandom hi) fun _ => h.logModify hi _

theorem modifyAttributes (hc : Calm e) {i : Int} (hi : Usable P numEvents i) {breakpoint : Found}
    (hb : SureInRange breakpoint) : Keeps P (modifyAttributes e i breakpoint) E := by
  refine keeps_bind keeps_rand fun custom => ?_
  split
  · exact keeps_bind (h.modifyBreakpoint hb hi) fun _ => keeps_bind h.here fun _ => h.logModify hi _
  · exact h.modifyOther hc hi hb
  · exact h.modifyRandom hi

theorem ioctlOfType (hc : Calm e) {any sampling : Int} (hany : InRange numEvents any)
    (hsampling : InRange numEvents sampling) {breakpoint : Found} (hb : SureInRange breakpoint)
    (type : Nat) : Keeps P (ioctlOfType e any sampling breakpoint type) E := by
  have ha : Usable P numEvents any := .inl hany
  have hs : Usable P numEvents sampling := .inl hsampling
  unfold Fuzzer.ioctlOfType
  split
  · exact keeps_bind keeps_draw fun _ => h.plainIoctl ha _ _ _
  · exact keeps_bind keeps_draw fun _ => h.plainIoctl ha _ _ _
  · exact h.refreshEvent hs
  · exact keeps_bind keeps_draw fun _ => h.plainIoctl ha _ _ _
  · exact keeps_bind keeps_draw fun _ => h.plainIoctl hs _ _ _
  · exact h.setOutput hc hs
  · exact h.setFilter ha
  · exact keeps_bind keeps_rand fun _ => keeps_bind keeps_draw fun _ => h.plainIoctl ha _ _ _
  · exact h.setBpf ha
  · exact h.unsetIdIoctl ha _
  · exact h.unsetIdIoctl ha _
  · exact h.modifyAttributes hc ha hb
  · refine keeps_bind keeps_draw fun _ => keeps_bind keeps_rand fun _ => keeps_ite (fun _ => ?_)
      fun _ => h.plainIoctl ha _ _ _
    exact keeps_bind keeps_rand fun _ => keeps_bind keeps_rand fun _ =>
      keeps_bind keeps_rand fun _ => h.plainIoctl ha _ _ _
  · exact keeps_bind keeps_draw fun _ => keeps_bind keeps_rand fun _ => h.plainIoctl ha _ _ _

theorem ioctlRandomEvent (hc : Calm e) : Keeps P (ioctlRandomEvent e) E := by
  refine triple_bind h.findRandomSlot_inRange fun any => triple_of_pure_right fun hany => ?_
  refine triple_bind h.findRandomSlot_inRange fun sampling => triple_of_pure_right fun hs => ?_
  refine triple_bind ((h.findRandomSlot_sure hc slotTest_isBreakpoint).strengthen_post fun r s hs =>
    (⟨hs.1, hs.2.2⟩ : P s ∧ SureInRange r)) fun breakpoint => triple_of_pure_right fun hb => ?_
  refine keeps_bind keeps_rand fun r => keeps_whenever fun h0 => keeps_bind keeps_rand fun type => ?_
  refine h.ioctlOfType hc (hany h0) ?_ hb _
  split
  · exact hany h0
  · exact hs (by omega)

end Ioctl

/-! ## The loop

What the operations on the tables keep is left to the caller. -/

section Loop

variable {Q : St → Prop} (h : Steady e P File E) (hc : Calm e)
include h hc

/-- Opening and closing may lead from `P` to `Q`. -/
theorem operation (hQ : ∀ s, P s → Q s) (hopen : Triple P (openRandomEvent e) (fun _ => Q) E)
    (hclose : Triple P (closeRandomEvent e) (fun _ => Q) E)
    (hmmap : Keeps P (mmapRandomEvent e) E) (r : Nat) :
    Triple P (operation e r) (fun _ => Q) E := by
  have hquiet : ∀ {c : Prop} [Decidable c] {m : Fuzz Unit}, Keeps P m E →
      Triple P (whenever c m) (fun _ => Q) E := fun hm =>
    triple_whenever (fun _ => hm.strengthen_post fun _ => hQ) fun _ => hQ
  unfold Fuzzer.operation
  split
  · exact triple_whenever (fun _ => hopen) fun _ => hQ
  · exact triple_whenever (fun _ => hclose) fun _ => hQ
  · exact hquiet (h.ioctlRandomEvent hc)
  · exact hquiet h.prctlRandomEvent
  · exact hquiet (h.transferRandomEvent (by decide) nofun)
  · exact hquiet (h.transferRandomEvent (by decide) nofun)
  · exact hquiet h.accessRandomFile
  · exact hquiet h.forkRandomEvent
  · exact hquiet (h.pollRandomEvent hc)
  · exact hquiet hmmap
  · exact hquiet h.vsyscallRandomEvent
  · exact hquiet h.cpuAffinityEvent
  · exact hquiet h.here

theorem mainLoop (hopen : Keeps P (openRandomEvent e) E) (hclose : Keeps P (closeRandomEvent e) E)
    (hmmap : Keeps P (mmapRandomEvent e) E) (n : Nat) : Keeps P (mainLoop e n) E :=
  keeps_forRange n 0 fun _ _ _ => keeps_bind keeps_rand fun _ =>
    keeps_bind (h.operation hc (fun _ => id) hopen hclose hmmap _) fun _ => keeps_bind h.here fun _ =>
      keeps_bind keeps_rand fun _ => keeps_bind keeps_draw fun _ => keeps_pure

end Loop

end Steady

end PerfEvent.Fuzzer
