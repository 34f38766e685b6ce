import PerfEventTests.Fuzzer.LogFraming
import PerfEventTests.Replay.LogLanguage

/-!
# What a run of the fuzzer records

The log of every run is a list of entries, wherever the run ends and whichever signals arrive, as
long as no logged filter shows a newline. Behind a line about a call on an event is a call that was
made, on the same descriptor, and the replay of the log is that of the entries.
-/

namespace PerfEvent.Replay

open Draws Programs Text Fuzzer

/-! ## What stands behind an entry -/

def Called (calls : List Fuzzer.Call) (fd : Int) (request : Request) : Prop :=
  ∃ k ∈ calls, k.fd = fd ∧ k.request = request

/-- The argument that is logged is the one that was passed, but for the address of a buffer and for
the requests that are logged with a variable they do not set. -/
def Shows (request : Int) (arg : IoctlArg) (shown : Int) : Prop :=
  arg = .value shown ∨ arg = .period shown ∨ arg = .validRam ∨
    request ∈ [iocId, iocSetBpf, iocPauseOutput, iocQueryBpf, iocModifyAttributes]

/-- The calls that the line of an entry is about. New attributes may have been for an event other
than the one that is logged. -/
def Backed (calls : List Fuzzer.Call) : LogEntry → Prop
  | .close fd => Called calls fd .close
  | .read fd size => Called calls fd (.read size)
  | .write fd size => Called calls fd (.write size)
  | .ioctl fd request shown => ∃ arg, Shows request arg shown ∧
      (Called calls fd (.ioctl request arg) ∨
        request = iocModifyAttributes ∧ ∃ other, Called calls other (.ioctl request arg))
  | .filter fd custom arg string =>
      Called calls fd (.ioctl iocSetFilter (if custom = 1 then .value arg else .filter string))
  | _ => True

theorem Called.mono {calls calls' : List Fuzzer.Call} {fd : Int} {request : Request}
    (h : Called calls fd request) (hsub : calls ⊆ calls') : Called calls' fd request := by
  obtain ⟨k, hk, hcall⟩ := h
  exact ⟨k, hsub hk, hcall⟩

theorem Backed.mono {calls calls' : List Fuzzer.Call} {x : LogEntry} (h : Backed calls x)
    (hsub : calls ⊆ calls') : Backed calls' x := by
  cases x with
  | close | read | write | filter => exact Called.mono h hsub
  | ioctl fd request shown =>
    obtain ⟨arg, hshows, hcalled⟩ := h
    refine ⟨arg, hshows, hcalled.imp (fun h => h.mono hsub) ?_⟩
    rintro ⟨hmodify, other, h⟩
    exact ⟨hmodify, other, h.mono hsub⟩
  | _ => trivial

/-! ## What all programs keep -/

/-- The log is the same, and no call is forgotten. -/
structure SameRecord (s s' : St) : Prop where
  log : s'.log = s.log
  logged : s'.logged = s.logged
  calls : s.calls ⊆ s'.calls

theorem SameRecord.of_rfl {s s' : St} (hlog : s'.log = s.log) (hlogged : s'.logged = s.logged)
    (hcalls : s'.calls = s.calls) : SameRecord s s' :=
  ⟨hlog, hlogged, hcalls ▸ List.Subset.refl _⟩

def SameFds (s s' : St) : Prop := ∀ i, (s'.eventData i).fd = (s.eventData i).fd

/-- `P` looks at the log, the calls and the descriptors of the slots, and allows an entry that
stands for a call. -/
structure Recordable (P : St → Prop) : Prop where
  same : ∀ s s', SameRecord s s' → SameFds s s' → P s → P s'
  entry : ∀ s (x : LogEntry), x.WellFormed → Backed s.calls x → P s → P (s.addLine x.letter x.text)

/-- What runs between two statements keeps all that, and a filter that is logged shows no
newline. -/
structure Records (e : Fuzzer.Env) : Prop where
  point : ∀ {P}, Recordable P → ∀ loc, Keeps P (e.pt loc) P
  filterLine : ∀ {P}, Recordable P → ∀ shown, Triple P (e.pt (.filterLine shown))
    (fun _ s => P s ∧ '\n' ∉ shown) P

variable {e : Fuzzer.Env} {P : St → Prop}

/-- The descriptors of the slots may be remembered. -/
def Fixed (P : St → Prop) (F : Int → Int) (s : St) : Prop := P s ∧ ∀ i, (s.eventData i).fd = F i

/-- So may what has been called. -/
def Behind (P : St → Prop) (R : List Fuzzer.Call → Prop) (s : St) : Prop := P s ∧ R s.calls

/-- More calls do no harm. -/
def Grows (R : List Fuzzer.Call → Prop) : Prop := ∀ calls calls', calls ⊆ calls' → R calls → R calls'

namespace Recordable

theorem fixed (hP : Recordable P) (F : Int → Int) : Recordable (Fixed P F) where
  same s s' hsame hfds hs := ⟨hP.same s s' hsame hfds hs.1, fun i => (hfds i).trans (hs.2 i)⟩
  entry s x hx hbacked hs := ⟨hP.entry s x hx hbacked hs.1, hs.2⟩

theorem behind (hP : Recordable P) {R : List Fuzzer.Call → Prop} (hR : Grows R) :
    Recordable (Behind P R) where
  same s s' hsame hfds hs := ⟨hP.same s s' hsame hfds hs.1, hR _ _ hsame.calls hs.2⟩
  entry s x hx hbacked hs := ⟨hP.entry s x hx hbacked hs.1, hs.2⟩

end Recordable

theorem grows_called (fd : Int) (request : Request) : Grows fun calls => Called calls fd request :=
  fun _ _ hsub h => h.mono hsub

/-- A program for which the descriptors of the slots are remembered from its start. -/
theorem keeps_of_fixed {α : Type} {m : Fuzz α} (h : ∀ F, Keeps (Fixed P F) m (Fixed P F)) :
    Keeps P m P := by
  refine triple_from fun s₀ hs₀ => (h fun i => (s₀.eventData i).fd).consequence ?_
    (fun _ _ hs => hs.1) fun _ hs => hs.1
  rintro s rfl
  exact ⟨hs₀, fun _ => rfl⟩

/-- What follows a call may be about it. -/
theorem keeps_bind_behind {α β : Type} {m : Fuzz α} {f : α → Fuzz β} {R : List Fuzzer.Call → Prop}
    (hm : Triple P m (fun _ => Behind P R) P) (hf : ∀ a, Keeps (Behind P R) (f a) (Behind P R)) :
    Keeps P (m >>= f) P :=
  triple_bind hm fun a => (hf a).consequence (fun _ hs => hs) (fun _ _ hs => hs.1) fun _ hs => hs.1

section Operations

variable (hP : Recordable P)
include hP

theorem free_index : FreeIndex P := fun s hs =>
  hP.same s _ (.of_rfl rfl rfl rfl) (fun _ => rfl) hs

theorem keeps_record {f : St → St} (hf : ∀ s, SameRecord s (f s) ∧ SameFds s (f s)) :
    Keeps P (update f) P :=
  triple_update fun s hs => hP.same s _ (hf s).1 (hf s).2 hs

/-- An update of what no line is about. -/
theorem keeps_aside {f : St → St} (hlog : ∀ s, (f s).log = s.log)
    (hlogged : ∀ s, (f s).logged = s.logged) (hcalls : ∀ s, (f s).calls = s.calls)
    (hfds : ∀ s, (f s).eventData = s.eventData) : Keeps P (update f) P :=
  keeps_record hP fun s => ⟨.of_rfl (hlog s) (hlogged s) (hcalls s), fun i => by rw [hfds s]⟩

theorem writes_getEvent (i : Int) : Keeps P (getEvent i) P := keeps_getEvent (.inr (free_index hP))

theorem writes_getMmap (i : Int) : Keeps P (getMmap i) P := keeps_getMmap (.inr (free_index hP))

theorem writes_setEvent (i : Int) {f : EventData → EventData} (hf : ∀ ev, (f ev).fd = ev.fd) :
    Keeps P (Fuzzer.setEvent i f) P := by
  refine triple_setEvent (.inr (free_index hP)) fun s hs => hP.same s _ (.of_rfl rfl rfl rfl) ?_ hs
  intro j
  change (if j = i then f (s.eventData i) else s.eventData j).fd = _
  split
  case isTrue hj => rw [hf, hj]
  case isFalse => rfl

theorem writes_setMmap (i : Int) (f : MmapEntry → MmapEntry) : Keeps P (setMmap i f) P :=
  triple_setMmap (.inr (free_index hP)) fun s hs =>
    hP.same s _ (.of_rfl rfl rfl rfl) (fun _ => rfl) hs

theorem writes_logLine {x : LogEntry} (hx : x.WellFormed)
    (hbacked : ∀ s, P s → Backed s.calls x) : Keeps P (logLine e x.letter x.text) P :=
  triple_logLine fun s hs => hP.entry s x hx (hbacked s hs) hs

/-- The line of an entry that names the descriptor of a slot. -/
theorem triple_slotLine {i : Int} {x : EventData → LogEntry} (hx : ∀ ev, (x ev).WellFormed)
    (hbacked : ∀ s, P s → Backed s.calls (x (s.eventData i))) (ev : EventData) :
    Triple (fun s => P s ∧ ev = s.eventData i) (logLine e (x ev).letter (x ev).text) (fun _ => P) P := by
  refine triple_whenever (fun _ => triple_update ?_) fun _ _ hs => hs.1
  rintro s ⟨hs, rfl⟩
  exact hP.entry s _ (hx _) (hbacked s hs) hs

theorem triple_slot (i : Int) :
    Triple P (getEvent i) (fun ev s => P s ∧ ev = s.eventData i) P :=
  triple_getEvent (.inr (free_index hP))

theorem writes_openFile : Keeps P openFile P :=
  keeps_bind keeps_answer fun _ => keeps_bind keeps_getState fun _ => keeps_bind
    (keeps_whenever fun _ => keeps_aside hP (fun _ => rfl) (fun _ => rfl) (fun _ => rfl) fun _ => rfl)
      fun _ => keeps_pure

theorem writes_openPerf : Keeps P openPerf P :=
  keeps_bind keeps_answer fun _ => keeps_bind keeps_getState fun _ => keeps_bind
    (keeps_whenever fun _ => keeps_aside hP (fun _ => rfl) (fun _ => rfl) (fun _ => rfl) fun _ => rfl)
      fun _ => keeps_pure

theorem writes_closeFd (fd : Int) : Keeps P (closeFd fd) P :=
  keeps_bind keeps_getState fun _ => keeps_bind
    (keeps_aside hP (fun _ => rfl) (fun _ => rfl) (fun _ => rfl) fun _ => rfl) fun _ => keeps_pure

theorem writes_sysMunmap (i : Int) : Keeps P (sysMunmap i) P :=
  keeps_bind (writes_getMmap hP i) fun _ => keeps_ite (fun _ => keeps_pure) fun _ =>
    keeps_bind (writes_setMmap hP i _) fun _ => keeps_pure

/-- A call is made with the descriptor of the slot. -/
theorem behind_addCall {i : Int} (request : Request) {s : St} (hs : P s) :
    Behind P (fun calls => Called calls (s.eventData i).fd request) (s.addCall i request) := by
  have hsame : SameRecord s (s.addCall i request) := ⟨rfl, rfl, List.subset_cons_self _ _⟩
  exact ⟨hP.same s _ hsame (fun _ => rfl) hs, _, List.mem_cons_self, rfl, rfl⟩

theorem triple_callOn (F : Int → Int) (i : Int) (request : Request) :
    Triple (Fixed P F) (callOn i request)
      (fun _ => Behind (Fixed P F) fun calls => Called calls (F i) request) (Fixed P F) := by
  refine triple_bind (triple_update fun s hs => ?_) fun _ => keeps_answer
  have hchecked := checkEvent_keeps (i := i) (.inr (free_index (hP.fixed F))) hs
  exact hchecked.2 i ▸ behind_addCall (hP.fixed F) request hchecked

theorem Records.attended (h : Records e) : Attended e P P where
  stops _ hs := hs
  same s s' hsame hs := hP.same s s' (.of_rfl hsame.log hsame.logged hsame.calls) hsame.fd hs
  here := h.point hP .elsewhere
  storm i := (h.point hP (.storm i)).strengthen_post fun _ _ hs =>
    ⟨hs, fun s _ hs => hP.same s _ (.of_rfl rfl rfl rfl) (fun _ => rfl) hs⟩
  stored _ _ := .inl (free_index hP)

variable (h : Records e)
include h

theorem writes_here : Keeps P (e.pt .elsewhere) P := h.point hP .elsewhere

theorem writes_findRandomSlot (p : EventData → Bool) : Keeps P (findRandomSlot e p) P :=
  (triple_findRandomSlot (fun _ hs => hs) (writes_here hP h)).strengthen_post fun _ _ hs => hs.1

/-! ## Mappings -/

theorem writes_mmapTest (p : MmapEntry → Bool) (i : Nat) : Keeps P (mmapTest e p i) P :=
  keeps_bind (writes_here hP h) fun _ => keeps_bind (writes_getMmap hP _) fun _ => keeps_pure

theorem writes_findEmptyMmap : Keeps P (findEmptyMmap e) P :=
  (triple_findRange (S := fun _ _ => True) maxMmaps 0 fun k _ _ =>
    (writes_mmapTest hP h _ k).strengthen_post fun _ _ hs => ⟨hs, fun _ => trivial⟩).strengthen_post
      fun _ _ hs => hs.1

theorem writes_findRandomActiveMmap : Keeps P (findRandomActiveMmap e) P := by
  refine keeps_bind keeps_getState fun _ => keeps_ite (fun _ => keeps_pure) fun _ => ?_
  refine keeps_bind (writes_here hP h) fun _ => keeps_bind keeps_getState fun _ => ?_
  refine keeps_bind (triple_position (Q := fun _ => P) (fun _ hs => hs) fun _ _ hs => hs)
    fun x => ?_
  exact (triple_nthRange (S := fun _ _ => True) maxMmaps 0 x fun k _ _ =>
    (writes_mmapTest hP h _ k).strengthen_post fun _ _ hs => ⟨hs, fun _ => trivial⟩).strengthen_post
      fun _ _ hs => hs.1

theorem writes_trashRandomMmap : Keeps P (trashRandomMmap e) P := by
  refine keeps_bind (writes_findRandomActiveMmap hP h) fun i => keeps_whenever fun _ => ?_
  refine keeps_bind keeps_rand fun value => keeps_bind (writes_here hP h) fun _ => ?_
  refine keeps_bind (writes_getMmap hP i) fun _ => keeps_whenever fun _ => keeps_bind ?_ fun _ => ?_
  · refine keeps_bind keeps_answer fun _ => keeps_whenever fun _ => ?_
    exact keeps_bind (writes_getMmap hP i) fun _ => keeps_bind (writes_getEvent hP _) fun _ => keeps_pure
  · refine keeps_bind (writes_here hP h) fun _ => keeps_bind (writes_getMmap hP i) fun m => ?_
    exact writes_logLine hP (x := .trash value e.pageSize m.fd) trivial fun _ _ => trivial

theorem writes_prepareMmap (i : Int) (fill : MmapEntry → MmapEntry) :
    Keeps P (prepareMmap e i fill) P :=
  keeps_bind (writes_here hP h) fun _ => keeps_bind (writes_setMmap hP i _) fun _ =>
    keeps_bind (writes_here hP h) fun _ => writes_setMmap hP i _

omit h in
theorem writes_callMmap (i which size : Int) : Keeps P (callMmap i which size) P :=
  keeps_bind (writes_getEvent hP which) fun _ => keeps_bind (keeps_bind keeps_answer fun _ => keeps_pure)
    fun _ => writes_setMmap hP i _

theorem writes_recordMmap (i which : Int) (own : MmapEntry → MmapEntry) :
    Keeps P (recordMmap e i which own) P := by
  have hmapped := h.point hP (.mapped i)
  refine keeps_bind (keeps_aside hP (fun _ => rfl) (fun _ => rfl) (fun _ => rfl) fun _ => rfl)
    fun _ => keeps_bind hmapped fun _ => ?_
  refine keeps_bind (writes_setEvent hP which fun _ => rfl) fun _ => keeps_bind hmapped fun _ => ?_
  refine keeps_bind (writes_getEvent hP which) fun _ => keeps_bind (writes_setMmap hP i _) fun _ => ?_
  refine keeps_bind hmapped fun _ => keeps_bind (writes_getMmap hP i) fun m => ?_
  refine keeps_bind (writes_getEvent hP which) fun ev => keeps_bind
    (writes_logLine hP (x := .mmap m.size ev.fd m.addr) trivial fun _ _ => trivial)
    fun _ => keeps_bind hmapped fun _ => ?_
  exact keeps_bind (writes_setMmap hP i _) fun _ => (writes_here hP h)

theorem writes_setupMmapAux (which parent : Int) : Keeps P (setupMmapAux e which parent) P := by
  refine keeps_bind (writes_findEmptyMmap hP h) fun i => keeps_whenever fun _ => ?_
  refine keeps_bind keeps_draw fun size => keeps_bind keeps_draw fun _ => keeps_bind keeps_draw
    fun _ => keeps_bind (writes_prepareMmap hP h i _) fun _ => keeps_bind (writes_here hP h) fun _ => ?_
  refine keeps_bind (writes_getMmap hP parent) fun _ => keeps_bind (writes_callMmap hP i which size)
    fun _ => keeps_bind (h.point hP _) fun _ => keeps_bind (writes_getMmap hP i) fun _ => ?_
  exact keeps_whenever fun _ => keeps_bind (h.point hP _) fun _ => writes_recordMmap hP h i which id

theorem writes_setupMmap (which : Found) : Keeps P (setupMmap e which) P := by
  refine keeps_bind (writes_findEmptyMmap hP h) fun i => keeps_whenever fun _ => ?_
  refine keeps_bind keeps_draw fun size => keeps_bind keeps_draw fun _ => keeps_bind keeps_draw
    fun _ => keeps_bind (writes_prepareMmap hP h i _) fun _ => keeps_bind keeps_draw fun _ => ?_
  refine keeps_bind (writes_here hP h) fun _ => keeps_bind (h.point hP _) fun _ => keeps_bind
    (writes_callMmap hP i which.index size) fun _ => keeps_bind (h.point hP _) fun _ => ?_
  refine keeps_bind (writes_getMmap hP i) fun _ => keeps_whenever fun _ => keeps_bind (h.point hP _)
    fun _ => keeps_bind (writes_recordMmap hP h i which.index _) fun _ => ?_
  exact keeps_bind keeps_rand fun _ => keeps_whenever fun _ => writes_setupMmapAux hP h which.index i

theorem writes_unmapMmap (i : Int) (fromSigio : Bool) : Keeps P (unmapMmap e i fromSigio) P := by
  refine keeps_bind (writes_here hP h) fun _ => keeps_bind (writes_getMmap hP i) fun _ =>
    keeps_whenever fun _ => keeps_bind (writes_here hP h) fun _ => ?_
  refine keeps_bind (writes_setMmap hP i _) fun _ => keeps_bind (writes_here hP h) fun _ =>
    keeps_bind (writes_sysMunmap hP i) fun result => keeps_bind (h.point hP _) fun _ => ?_
  refine keeps_bind (keeps_whenever fun _ => ?_) fun _ => ?_
  · refine keeps_bind (writes_getMmap hP i) fun m => keeps_bind ?_ fun _ => h.point hP _
    exact writes_logLine hP (x := .munmap m.fd m.size m.addr) trivial fun _ _ => trivial
  · refine keeps_bind (writes_setMmap hP i _) fun _ => keeps_bind (writes_here hP h) fun _ => ?_
    exact keeps_whenever fun _ => keeps_aside hP (fun _ => rfl) (fun _ => rfl) (fun _ => rfl) fun _ => rfl

theorem writes_mmapRandomEvent : Keeps P (mmapRandomEvent e) P := by
  refine keeps_bind keeps_rand fun r => ?_
  split
  · exact keeps_bind (writes_findRandomSlot hP h _) fun which => writes_setupMmap hP h which
  · exact keeps_bind (writes_findRandomActiveMmap hP h) fun i => keeps_whenever fun _ =>
      writes_unmapMmap hP h i false
  · exact keeps_bind (writes_findRandomActiveMmap hP h) fun i => keeps_whenever fun _ =>
      keeps_bind ((h.attended hP).perfMmapRead (.inr (free_index hP))) fun _ => keeps_pure
  · exact keeps_whenever fun _ => writes_trashRandomMmap hP h
  · exact keeps_pure

/-! ## Closing and opening -/

omit h in
theorem triple_closeDescriptor (F : Int → Int) (i : Int) :
    Triple (Fixed P F) (closeDescriptor i)
      (fun _ => Behind (Fixed P F) fun calls => Called calls (F i) .close) (Fixed P F) := by
  refine triple_bind (writes_getEvent (hP.fixed F) i) fun ev => triple_bind (triple_update
    (Q := fun _ => Behind (Fixed P F) fun calls => Called calls (F i) .close) fun s hs => ?_) fun _ => ?_
  · exact hs.2 i ▸ behind_addCall (hP.fixed F) .close hs
  · have hclose := writes_closeFd ((hP.fixed F).behind (grows_called (F i) .close)) ev.fd
    exact (keeps_bind hclose fun _ => keeps_pure).consequence (fun _ hs => hs) (fun _ _ hs => hs)
      fun _ hs => hs.1

theorem writes_unmapOf (i : Int) (fromSigio : Bool) : Keeps P (unmapOf e i fromSigio) P :=
  keeps_bind (writes_getEvent hP i) fun _ => writes_unmapMmap hP h _ fromSigio

/-- The line is written when the descriptor has been closed, and that is the one of the slot still. -/
theorem writes_closeEvent (i : Int) (fromSigio : Bool) :
    Keeps P (Fuzzer.closeEvent e i fromSigio) P := by
  refine keeps_whenever fun _ => keeps_of_fixed fun F => ?_
  have hF := hP.fixed F
  refine keeps_bind (h.point hF _) fun _ => keeps_bind keeps_rand fun r => ?_
  refine keeps_bind (h.point hF _) fun _ => keeps_bind (writes_setEvent hF i fun _ => rfl) fun _ =>
    keeps_bind (writes_here hF h) fun _ => keeps_bind (keeps_whenever fun _ => ?_) fun _ => ?_
  · exact writes_unmapOf hF h i fromSigio
  refine keeps_bind (writes_here hF h) fun _ => keeps_bind_behind (triple_closeDescriptor hP F i)
    fun _ => ?_
  have hC := hF.behind (grows_called (F i) .close)
  refine keeps_bind (writes_here hC h) fun _ => keeps_bind (keeps_whenever fun _ => ?_) fun _ => ?_
  · refine triple_bind (triple_slot hC i) fun ev => triple_bind
      (triple_slotLine hC (x := fun ev => .close ev.fd) (fun _ => trivial) (fun s hs => ?_) ev)
        fun _ => writes_here hC h
    exact hs.1.2 i ▸ hs.2
  · refine keeps_bind (keeps_whenever fun _ => writes_unmapOf hC h i fromSigio) fun _ =>
      keeps_bind (writes_here hC h) fun _ => ?_
    exact keeps_aside hC (fun _ => rfl) (fun _ => rfl) (fun _ => rfl) fun _ => rfl

theorem writes_closeRandomEvent : Keeps P (closeRandomEvent e) P :=
  keeps_bind (writes_findRandomSlot hP h _) fun i => writes_closeEvent hP h i.index false

theorem writes_closeIfActive (i : Int) : Keeps P (closeIfActive e i) P :=
  keeps_bind (writes_here hP h) fun _ => keeps_bind (writes_getEvent hP i) fun _ => keeps_whenever fun _ =>
    writes_closeEvent hP h i true

theorem writes_sigioHandler : Keeps P (sigioHandler e) P :=
  keeps_bind keeps_answer fun _ => keeps_whenever fun _ => keeps_bind
    (keeps_aside hP (fun _ => rfl) (fun _ => rfl) (fun _ => rfl) fun _ => rfl)
    fun _ => keeps_forRange _ _ fun i _ _ => writes_closeIfActive hP h i

theorem writes_drawGroup (i : Int) : Keeps P (drawGroup e i) P :=
  keeps_bind (writes_findRandomSlot hP h _) fun _ => keeps_bind (h.point hP _) fun _ =>
    keeps_bind (writes_getEvent hP _) fun _ => writes_setEvent hP i fun _ => rfl

theorem writes_prepareEvent (i : Int) : Keeps P (prepareEvent e i) P := by
  refine keeps_bind keeps_getState fun _ => keeps_bind keeps_draw fun _ => keeps_bind keeps_draw
    fun _ => keeps_bind (keeps_aside hP (fun _ => rfl) (fun _ => rfl) (fun _ => rfl) fun _ => rfl)
      fun _ => ?_
  refine keeps_bind (writes_here hP h) fun _ => keeps_bind (writes_setEvent hP i fun _ => rfl)
    fun _ => keeps_bind keeps_rand fun _ => keeps_bind (writes_here hP h) fun _ => ?_
  refine keeps_bind (keeps_whenever fun _ => writes_drawGroup hP h i)
    fun _ => keeps_bind (writes_here hP h) fun _ => keeps_bind (writes_getEvent hP i) fun _ => ?_
  exact keeps_bind keeps_getState fun _ => keeps_bind keeps_draw fun _ => writes_setEvent hP i fun _ => rfl

theorem writes_openAttempts (i : Int) (n : Nat) : Keeps P (openAttempts e i n) P := by
  induction n with
  | zero => exact triple_stop fun _ hs => hs
  | succ n ih =>
    refine keeps_bind (writes_prepareEvent hP h i) fun _ => keeps_bind (writes_here hP h) fun _ =>
      keeps_bind (writes_openPerf hP) fun _ => keeps_ite (fun _ => keeps_pure) fun _ => ?_
    refine keeps_ite (fun _ => triple_stop fun _ hs => hs) fun _ => keeps_bind keeps_answer
      fun _ => keeps_ite (fun _ => triple_stop fun _ hs => hs) fun _ => ?_
    exact keeps_ite (fun _ => keeps_pure) fun _ => keeps_bind (writes_here hP h) fun _ => ih

theorem writes_joinGroup (groupFd : BitVec 32) : Keeps P (joinGroup e groupFd) P := by
  refine keeps_bind ((h.attended hP).lookupEvent.strengthen_post fun _ _ hs => hs.1) fun j => ?_
  exact keeps_bind (h.point hP _) fun _ => keeps_bind (writes_setEvent hP _ fun _ => rfl) fun _ =>
    keeps_bind (writes_here hP h) fun _ => writes_setEvent hP _ fun _ => rfl

theorem writes_setupOverflow (i : Int) : Keeps P (Fuzzer.setupOverflow e i) P :=
  keeps_bind (writes_getEvent hP i) fun ev => keeps_bind
    (writes_logLine hP (x := .overflow ev.fd) trivial fun _ _ => trivial)
    fun _ => keeps_bind (writes_here hP h) fun _ => keeps_bind (writes_getEvent hP i)
      fun _ => keeps_pure

/-- A slot may get another descriptor as far as `P` is concerned. -/
def FreeSlots (P : St → Prop) : Prop :=
  ∀ s i fd serial, P s → P (s.setEvent i fun ev => { ev with fd := fd, serial := serial })

theorem writes_enterEvent (hslots : FreeSlots P) (i : Int) (r : Int × Nat) :
    Keeps P (enterEvent e i r) P := by
  refine keeps_bind (writes_getEvent hP i) fun ev => keeps_bind (writes_logLine hP (x :=
    .open (BitVec.ofInt 32 r.1) ev.pid ev.cpu ev.groupFd ev.flags ev.attr) trivial fun _ _ => trivial)
      fun _ => keeps_bind (writes_here hP h) fun _ => keeps_bind (triple_setEvent
        (.inr (free_index hP)) fun s hs => hslots s i r.1 r.2 hs) fun _ => ?_
  refine keeps_bind (writes_here hP h) fun _ => keeps_bind (writes_setEvent hP i fun _ => rfl)
    fun _ => keeps_bind (writes_here hP h) fun _ => keeps_bind
      (keeps_aside hP (fun _ => rfl) (fun _ => rfl) (fun _ => rfl) fun _ => rfl) fun _ => ?_
  refine keeps_bind (writes_here hP h) fun _ => keeps_bind (writes_getEvent hP i) fun ev =>
    keeps_bind (keeps_whenever fun _ => writes_joinGroup hP h _) fun _ => ?_
  refine keeps_bind (writes_here hP h) fun _ => keeps_bind (keeps_whenever fun _ =>
    writes_setupMmap hP h _) fun _ => keeps_bind (writes_here hP h) fun _ => ?_
  refine keeps_bind (keeps_whenever fun _ => keeps_bind keeps_rand fun _ => keeps_whenever fun _ =>
    writes_setupOverflow hP h i) fun _ => keeps_bind (writes_here hP h) fun _ => ?_
  exact keeps_bind (writes_setEvent hP i fun _ => rfl) fun _ => keeps_bind (writes_here hP h)
    fun _ => writes_setEvent hP i fun _ => rfl

theorem writes_openRandomEvent (hslots : FreeSlots P) : Keeps P (openRandomEvent e) P := by
  refine keeps_bind ((triple_findEmptyEvent (writes_here hP h)).strengthen_post fun _ _ hs => hs.1)
    fun i => keeps_whenever fun _ => keeps_bind (writes_here hP h) fun _ =>
      keeps_bind (writes_setEvent hP i fun _ => rfl) fun _ => ?_
  exact keeps_bind (writes_openAttempts hP h i _) fun r => keeps_bind (writes_here hP h) fun _ =>
    keeps_whenever fun _ => writes_enterEvent hP h hslots i r

/-! ## Reading, writing and polling -/

/-- The line is written when the call has succeeded. -/
theorem writes_transferRandomEvent {request : Int → Request} {x : Int → Int → LogEntry} {letter : Char}
    (hx : ∀ fd size, (x fd size).WellFormed) (hbacked : ∀ calls fd size,
      Called calls fd (request size) → Backed calls (x fd size))
    (hletter : ∀ fd size, (x fd size).letter = letter)
    (htext : ∀ fd size, (x fd size).text = line letter [intText fd, intText size]) :
    Keeps P (transferRandomEvent e letter request) P := by
  refine keeps_bind (writes_findRandomSlot hP h _) fun i => keeps_whenever fun _ =>
    keeps_of_fixed fun F => ?_
  have hF := hP.fixed F
  refine keeps_bind (writes_here hF h) fun _ => keeps_bind (writes_getEvent hF _) fun _ =>
    keeps_whenever fun _ => keeps_bind keeps_draw fun size => keeps_bind (writes_here hF h) fun _ => ?_
  refine keeps_bind_behind (triple_callOn hP F _ _) fun _ => ?_
  have hC := hF.behind (grows_called (F i.index) (request size))
  refine keeps_bind (writes_here hC h) fun _ => keeps_whenever fun _ => ?_
  refine triple_bind (triple_slot hC i.index) fun ev => ?_
  have hline := triple_slotLine (e := e) hC (x := fun ev => x ev.fd size) (fun _ => hx _ _)
    (fun s hs => hbacked _ _ _ (hs.1.2 i.index ▸ hs.2)) ev
  rwa [hletter, htext] at hline

theorem triple_pollFds (n : Nat) :
    Triple P (pollFds e n) (fun fds s => P s ∧ fds.length = n) P := by
  induction n with
  | zero => exact triple_pure fun s hs => ⟨hs, rfl⟩
  | succ n ih =>
    refine triple_bind (writes_findRandomSlot hP h _) fun i => triple_bind (h.point hP _) fun _ =>
      triple_bind (writes_getEvent hP _) fun ev => triple_bind ih fun fds => ?_
    exact triple_pure fun s hs => ⟨hs.1, by rw [List.length_cons, hs.2]⟩

theorem writes_pollRandomEvent : Keeps P (pollRandomEvent e) P := by
  refine keeps_bind keeps_rand fun num => triple_bind (triple_pollFds hP h _) fun fds =>
    triple_of_pure_right fun hfds => ?_
  refine keeps_bind keeps_rand fun timeout => keeps_bind (writes_here hP h) fun _ =>
    keeps_bind keeps_answer fun _ => keeps_whenever fun _ => ?_
  have hfew : fds.length < 128 := hfds ▸ Nat.mod_lt num (by decide)
  exact writes_logLine hP (x := .poll fds (timeout % 10)) hfew fun _ _ => trivial

/-! ## The process -/

theorem writes_prctlRandomEvent : Keeps P (prctlRandomEvent e) P :=
  keeps_bind keeps_rand fun _ => keeps_bind (writes_here hP h) fun _ => keeps_bind keeps_answer fun _ =>
    keeps_whenever fun _ => writes_logLine hP (x := .prctl _) trivial fun _ _ => trivial

theorem writes_forkRandomEvent : Keeps P (forkRandomEvent e) P := by
  refine keeps_bind keeps_getState fun _ => keeps_ite (fun _ => ?_) fun _ => ?_
  · refine keeps_bind (writes_logLine hP (x := .fork 0) trivial fun _ _ => trivial)
      fun _ => keeps_bind (writes_here hP h) fun _ => ?_
    exact keeps_aside hP (fun _ => rfl) (fun _ => rfl) (fun _ => rfl) fun _ => rfl
  · refine keeps_bind (writes_logLine hP (x := .fork 1) trivial fun _ _ => trivial)
      fun _ => keeps_bind (writes_here hP h) fun _ => ?_
    refine keeps_bind (keeps_bind keeps_answer fun _ => keeps_pure) fun pid => ?_
    exact keeps_aside hP (fun _ => rfl) (fun _ => rfl) (fun _ => rfl) fun _ => rfl

omit h hP in
/-- Two of the four kinds name one processor. -/
theorem affinityCpus_wellFormed (which : Nat) : Always (affinityCpus (which % 4)) fun cpus =>
    (LogEntry.affinity (which % 4) cpus).WellFormed := by
  intro answers
  have hbounds := affinityCpus_bounds (which % 4) answers
  refine ⟨Nat.mod_lt _ (by decide), fun hfew => ?_, hbounds⟩
  interval_cases hkind : which % 4
  · rfl
  · rfl

theorem writes_setAffinity : Keeps P (Fuzzer.setAffinity e) P := by
  refine keeps_bind keeps_rand fun which => triple_bind (triple_draw_always
    (affinityCpus_wellFormed which)) fun cpus => triple_of_pure_right fun hcpus => ?_
  exact keeps_bind (writes_here hP h) fun _ => keeps_bind keeps_answer fun _ => keeps_whenever fun _ =>
    writes_logLine hP hcpus fun _ _ => trivial

theorem writes_cpuAffinityEvent : Keeps P (cpuAffinityEvent e) P := by
  refine keeps_bind keeps_getState fun _ => keeps_ite (fun _ => writes_setAffinity hP h) fun _ => ?_
  exact keeps_bind keeps_answer fun _ => keeps_whenever fun _ => keeps_bind
    (keeps_aside hP (fun _ => rfl) (fun _ => rfl) (fun _ => rfl) fun _ => rfl)
    fun _ => writes_setAffinity hP h

/-! ## Files -/

theorem writes_transferFile (kind which : Nat) (size : Draw Int) :
    Keeps P (transferFile e kind which size) P := by
  refine keeps_bind (writes_openFile hP) fun fd => keeps_whenever fun _ => keeps_bind keeps_draw
    fun size => keeps_bind (writes_here hP h) fun _ => keeps_bind keeps_answer fun result => ?_
  refine keeps_bind (writes_here hP h) fun _ => keeps_bind
    (writes_logLine hP (x := .transfer kind which size result) trivial fun _ _ => trivial) fun _ => ?_
  exact keeps_bind (writes_closeFd hP fd) fun _ => keeps_pure

theorem writes_leaveOpen : Keeps P (leaveOpen e) P := by
  refine keeps_bind (writes_openFile hP) fun fd => keeps_whenever fun _ => keeps_bind keeps_getState
    fun s => keeps_bind (keeps_aside hP (fun _ => rfl) (fun _ => rfl) (fun _ => rfl) fun _ => rfl)
      fun _ => ?_
  exact keeps_bind (writes_here hP h) fun _ =>
    writes_logLine hP (x := .place 2 (freePlace s)) trivial fun _ _ => trivial

theorem writes_closeOpen (k : Nat) : Keeps P (closeOpen e k) P := by
  refine keeps_bind keeps_getState fun _ => keeps_whenever fun _ => keeps_bind ?_ fun _ =>
    keeps_bind (writes_here hP h) fun _ => writes_logLine hP (x := .place 3 k) trivial fun _ _ => trivial
  exact keeps_bind keeps_getState fun s => keeps_bind (writes_closeFd hP _) fun _ =>
    keeps_aside hP (fun _ => rfl) (fun _ => rfl) (fun _ => rfl) fun _ => rfl

theorem writes_accessRandomFile : Keeps P (accessRandomFile e) P := by
  refine keeps_bind keeps_rand fun file => keeps_bind keeps_rand fun readSize => keeps_bind
    keeps_rand fun which => keeps_bind (writes_here hP h) fun _ => ?_
  split
  · exact writes_transferFile hP h 0 _ _
  · exact writes_transferFile hP h 1 _ _
  · exact keeps_bind keeps_getState fun _ => keeps_whenever fun _ => writes_leaveOpen hP h
  · exact keeps_bind keeps_rand fun k => writes_closeOpen hP h _

/-! ## ioctl -/

omit h in
theorem writes_logIoctl {i result request shown : Int}
    (hbacked : ∀ s, P s → Backed s.calls (.ioctl (s.eventData i).fd request shown)) :
    Keeps P (logIoctl e i result request shown) P :=
  keeps_whenever fun _ => triple_bind (triple_slot hP i) fun ev =>
    triple_slotLine hP (x := fun ev => .ioctl ev.fd request shown) (fun _ => trivial) hbacked ev

omit h hP in
/-- The line is about the call that was made on the same slot. -/
theorem backed_ioctl {F : Int → Int} {i request shown : Int} {arg : IoctlArg}
    (hshows : Shows request arg shown) {s : St} (hs : Behind (Fixed P F)
      (fun calls => Called calls (F i) (.ioctl request arg)) s) :
    Backed s.calls (.ioctl (s.eventData i).fd request shown) :=
  ⟨arg, hshows, .inl (hs.1.2 i ▸ hs.2)⟩

theorem writes_plainIoctl {i request shown : Int} {arg : IoctlArg} (hshows : Shows request arg shown) :
    Keeps P (plainIoctl e i request arg shown) P := by
  refine keeps_of_fixed fun F => ?_
  have hC := (hP.fixed F).behind (grows_called (F i) (.ioctl request arg))
  refine keeps_bind (writes_here (hP.fixed F) h) fun _ => keeps_bind_behind (triple_callOn hP F i _)
    fun _ => keeps_bind (writes_here hC h) fun _ => writes_logIoctl hC fun s hs => ?_
  exact backed_ioctl hshows hs

theorem writes_refreshEvent (i : Int) : Keeps P (refreshEvent e i) P := by
  refine keeps_bind keeps_draw fun arg => keeps_of_fixed fun F => ?_
  have hC := (hP.fixed F).behind (grows_called (F i) (.ioctl perfEventIocRefresh (.value arg)))
  refine keeps_bind (writes_here (hP.fixed F) h) fun _ => keeps_bind_behind (triple_callOn hP F i _)
    fun _ => keeps_bind (writes_here hC h) fun _ => ?_
  refine keeps_bind (keeps_whenever fun _ => writes_setEvent hC i fun _ => rfl) fun _ =>
    keeps_bind (writes_here hC h) fun _ => writes_logIoctl hC fun s hs => ?_
  exact backed_ioctl (.inl rfl) hs

theorem writes_setOutput (i : Int) : Keeps P (setOutput e i) P :=
  keeps_bind (writes_findRandomSlot hP h _) fun _ => keeps_bind (h.point hP _) fun _ => keeps_bind
    (writes_getEvent hP _) fun _ => keeps_bind keeps_rand fun _ => writes_plainIoctl hP h (.inl rfl)

/-- The only line that can have a newline before its end. -/
theorem writes_setFilter (i : Int) : Keeps P (setFilter e i) P := by
  refine keeps_bind keeps_rand fun r => keeps_bind keeps_draw fun arg => keeps_of_fixed fun F => ?_
  have hF := hP.fixed F
  refine keeps_bind (writes_here hF h) fun _ => keeps_bind (writes_getEvent hF i) fun _ =>
    keeps_bind keeps_draw fun filter => keeps_bind (writes_here hF h) fun _ => ?_
  refine keeps_bind_behind (triple_callOn hP F i _) fun _ => ?_
  have hC := hF.behind (grows_called (F i) (.ioctl iocSetFilter
    (if r % 2 = 1 then .value arg else .filter filter)))
  refine keeps_bind (writes_here hC h) fun _ => keeps_whenever fun _ => triple_bind
    ((triple_slot hC i).strengthen_post fun ev s hs => (⟨hs.1, hs.2 ▸ hs.1.1.2 i⟩ : _ ∧ ev.fd = F i))
      fun ev => triple_of_pure_right fun hfd => ?_
  refine triple_bind (h.filterLine hC _) fun _ => triple_of_pure_right fun hline => ?_
  exact writes_logLine hC (x := .filter ev.fd (r % 2) _ filter) hline fun s hs => hfd ▸ hs.2

theorem writes_usingFile {use : Fuzz Unit} (huse : Keeps P use P) : Keeps P (usingFile e use) P := by
  refine keeps_bind (writes_openFile hP) fun fd => keeps_ite (fun _ => keeps_pure) fun _ => ?_
  exact keeps_bind (writes_here hP h) fun _ => keeps_bind huse fun _ => keeps_bind
    (writes_closeFd hP fd) fun _ => keeps_pure

theorem writes_setupBpfFd : Keeps P (setupBpfFd e) P := by
  have hid : Keeps P readKprobeId P := keeps_bind keeps_answer fun _ =>
    keeps_aside hP (fun _ => rfl) (fun _ => rfl) (fun _ => rfl) fun _ => rfl
  refine keeps_bind keeps_getState fun _ => keeps_ite (fun _ => keeps_pure) fun _ => keeps_bind
    (keeps_aside hP (fun _ => rfl) (fun _ => rfl) (fun _ => rfl) fun _ => rfl) fun _ => keeps_bind
      (writes_usingFile hP h keeps_pure) fun _ => keeps_ite (fun _ => keeps_pure) fun _ => ?_
  refine keeps_bind (writes_here hP h) fun _ => keeps_bind (writes_usingFile hP h hid) fun _ =>
    keeps_ite (fun _ => keeps_pure) fun _ => keeps_bind (writes_here hP h) fun _ => ?_
  exact keeps_bind (writes_openFile hP) fun _ => keeps_bind
    (keeps_aside hP (fun _ => rfl) (fun _ => rfl) (fun _ => rfl) fun _ => rfl) fun _ => keeps_pure

/-- New attributes have been passed for some event. -/
def Modified (calls : List Fuzzer.Call) : Prop :=
  ∃ fd arg, Called calls fd (.ioctl iocModifyAttributes arg)

omit h hP in
theorem grows_modified : Grows Modified := by
  rintro calls calls' hsub ⟨fd, arg, hcalled⟩
  exact ⟨fd, arg, hcalled.mono hsub⟩

omit h in
theorem triple_modify (i : Int) (arg : IoctlArg) :
    Triple P (ioctlOn i iocModifyAttributes arg) (fun _ => Behind P Modified) P := by
  refine triple_bind (triple_update (Q := fun _ => Behind P Modified) fun s hs => ?_) fun _ =>
    keeps_answer
  obtain ⟨hkept, hcalled⟩ := behind_addCall hP (i := i) (.ioctl iocModifyAttributes arg)
    (checkEvent_keeps (i := i) (.inr (free_index hP)) hs)
  exact ⟨hkept, _, arg, hcalled⟩

omit h in
/-- The line may name another event than the one that was modified. -/
theorem writes_logModify (i result : Int) :
    Keeps (Behind P Modified) (logModify e i result) (Behind P Modified) := by
  refine keeps_bind keeps_draw fun id => writes_logIoctl (hP.behind grows_modified) ?_
  rintro s ⟨-, fd, arg, hcalled⟩
  exact ⟨arg, .inr (.inr (.inr (by decide))), .inr ⟨rfl, fd, hcalled⟩⟩

theorem writes_modifyRandom (i : Int) : Keeps P (modifyRandom e i) P := by
  refine keeps_bind keeps_rand fun _ => keeps_bind (writes_here hP h) fun _ =>
    keeps_bind_behind (triple_modify hP i _) fun _ => ?_
  exact keeps_bind (writes_here (hP.behind grows_modified) h) fun _ => writes_logModify hP i _

theorem triple_modifyBreakpoint (breakpoint : Found) (source : Int) :
    Triple P (modifyBreakpoint e breakpoint source) (fun _ => Behind P Modified) P :=
  triple_bind (writes_here hP h) fun _ => triple_bind (h.point hP _) fun _ => triple_bind
    (writes_getEvent hP source) fun _ => triple_modify hP _ _

theorem writes_modifyAttributes (i : Int) (breakpoint : Found) :
    Keeps P (modifyAttributes e i breakpoint) P := by
  have hM := hP.behind grows_modified
  refine keeps_bind keeps_rand fun custom => ?_
  split
  · exact keeps_bind_behind (triple_modifyBreakpoint hP h breakpoint i) fun _ =>
      keeps_bind (writes_here hM h) fun _ => writes_logModify hP i _
  · refine keeps_bind (writes_findRandomSlot hP h _) fun custom => keeps_bind (h.point hP _) fun _ => ?_
    refine keeps_bind_behind (triple_modifyBreakpoint hP h breakpoint custom.index) fun _ => keeps_bind
      (writes_here hM h) fun _ => keeps_ite (fun _ => writes_modifyRandom hM h i) fun _ =>
        writes_logModify hP i _
  · exact writes_modifyRandom hP h i

theorem writes_ioctlOfType (any sampling : Int) (breakpoint : Found) (type : Nat) :
    Keeps P (ioctlOfType e any sampling breakpoint type) P := by
  have hvalue {i request arg : Int} : Keeps P (plainIoctl e i request (.value arg) arg) P :=
    writes_plainIoctl hP h (.inl rfl)
  unfold ioctlOfType
  split
  · exact keeps_bind keeps_draw fun _ => hvalue
  · exact keeps_bind keeps_draw fun _ => hvalue
  · exact writes_refreshEvent hP h sampling
  · exact keeps_bind keeps_draw fun _ => hvalue
  · exact keeps_bind keeps_draw fun _ => writes_plainIoctl hP h (.inr (.inl rfl))
  · exact writes_setOutput hP h sampling
  · exact writes_setFilter hP h any
  · exact keeps_bind keeps_rand fun _ => keeps_bind keeps_draw fun _ =>
      writes_plainIoctl hP h (.inr (.inr (.inr (by decide))))
  · exact keeps_bind keeps_rand fun _ => keeps_bind (writes_setupBpfFd hP h) fun _ =>
      keeps_bind keeps_draw fun _ => writes_plainIoctl hP h (.inr (.inr (.inr (by decide))))
  · exact keeps_bind keeps_draw fun _ => keeps_bind keeps_draw fun _ =>
      writes_plainIoctl hP h (.inr (.inr (.inr (by decide))))
  · exact keeps_bind keeps_draw fun _ => keeps_bind keeps_draw fun _ =>
      writes_plainIoctl hP h (.inr (.inr (.inr (by decide))))
  · exact writes_modifyAttributes hP h any breakpoint
  · refine keeps_bind keeps_draw fun _ => keeps_bind keeps_rand fun _ => keeps_ite (fun _ => ?_)
      fun _ => writes_plainIoctl hP h (.inr (.inr (.inl rfl)))
    exact keeps_bind keeps_rand fun _ => keeps_bind keeps_rand fun _ => keeps_bind keeps_rand
      fun _ => hvalue
  · exact keeps_bind keeps_draw fun _ => keeps_bind keeps_rand fun _ => hvalue

theorem writes_ioctlRandomEvent : Keeps P (ioctlRandomEvent e) P := by
  refine keeps_bind (writes_findRandomSlot hP h _) fun any => keeps_bind
    (writes_findRandomSlot hP h _) fun sampling => keeps_bind (writes_findRandomSlot hP h _)
      fun breakpoint => ?_
  exact keeps_bind keeps_rand fun _ => keeps_whenever fun _ => keeps_bind keeps_rand fun _ =>
    writes_ioctlOfType hP h _ _ breakpoint _

/-! ## The loop -/

theorem writes_operation (hslots : FreeSlots P) (r : Nat) : Keeps P (operation e r) P := by
  unfold operation
  split <;> refine keeps_whenever fun _ => ?_
  · exact writes_openRandomEvent hP h hslots
  · exact writes_closeRandomEvent hP h
  · exact writes_ioctlRandomEvent hP h
  · exact writes_prctlRandomEvent hP h
  · exact writes_transferRandomEvent hP h (x := .read) (fun _ _ => trivial)
      (fun _ _ _ hcalled => hcalled) (fun _ _ => rfl) fun _ _ => rfl
  · exact writes_transferRandomEvent hP h (x := .write) (fun _ _ => trivial)
      (fun _ _ _ hcalled => hcalled) (fun _ _ => rfl) fun _ _ => rfl
  · exact writes_accessRandomFile hP h
  · exact writes_forkRandomEvent hP h
  · exact writes_pollRandomEvent hP h
  · exact writes_mmapRandomEvent hP h
  · exact keeps_bind keeps_rand fun _ => writes_here hP h
  · exact writes_cpuAffinityEvent hP h
  · exact writes_here hP h

theorem writes_mainLoop (hslots : FreeSlots P) (n : Nat) : Keeps P (mainLoop e n) P :=
  keeps_forRange n 0 fun _ _ _ => keeps_bind keeps_rand fun _ =>
    keeps_bind (writes_operation hP h hslots _) fun _ => keeps_bind (writes_here hP h) fun _ =>
      keeps_bind keeps_rand fun _ => keeps_bind keeps_draw fun _ => keeps_pure

end Operations

/-! ## Signals -/

section Signals

variable {c : Config}

/-- What runs at a point keeps what is recorded, and a filter that passes shows no newline. -/
theorem records_of_rest {rest : Loc → Fuzz Unit}
    (hrest : ∀ {P}, Recordable P → ∀ loc, Keeps P (rest loc) P) :
    Records ⟨c, fun loc => do passPoint plainFilters loc; rest loc⟩ where
  point hP loc := triple_bind (triple_passPoint (fun _ hs => hs) loc) fun _ =>
    (hrest hP loc).weaken_pre fun _ hs => hs.1
  filterLine hP shown := triple_bind ((triple_passPoint (fun _ hs => hs) _).strengthen_post
    fun _ _ hs => (⟨hs.1, of_decide_eq_true hs.2⟩ : _ ∧ '\n' ∉ shown)) fun _ =>
      triple_of_pure_right fun hplain => (hrest hP _).strengthen_post fun _ _ hs => ⟨hs, hplain⟩

theorem writes_arrivals {P : St → Prop} : Keeps P arrivals P := keeps_arrivals fun _ hs => hs

theorem records_quietPoint : Records ⟨c, quietPoint plainFilters⟩ :=
  records_of_rest fun _ _ => keeps_bind writes_arrivals fun _ => keeps_pure

theorem records_pointInSigio : Records ⟨c, pointInSigio c plainFilters⟩ :=
  records_of_rest fun hP _ => keeps_bind writes_arrivals fun _ => keeps_forRange _ _ fun _ _ _ =>
    keeps_bind keeps_answer fun fd => (records_quietPoint.attended hP).ourHandler fd

theorem records_pointInOverflow (loc : Loc) : Records ⟨c, pointInOverflow c plainFilters loc⟩ :=
  records_of_rest fun hP _ => keeps_bind writes_arrivals fun _ => keeps_forRange _ _ fun _ _ _ =>
    keeps_deliverSigio (fun _ hs => hs) (writes_sigioHandler hP records_quietPoint)

theorem records_env (c : Config) : Records (c.env plainFilters) :=
  records_of_rest fun hP loc => keeps_bind writes_arrivals fun _ => keeps_forRange _ _ fun _ _ _ =>
    keeps_bind keeps_answer fun fd => keeps_ite
      (fun _ => keeps_deliverSigio (fun _ hs => hs) (writes_sigioHandler hP records_pointInSigio))
      fun _ => ((records_pointInOverflow loc).attended hP).ourHandler fd

end Signals

/-! ## Whole runs -/

/-- An entry as the recorder keeps account of it. -/
def LogEntry.logged (x : LogEntry) : LoggedOp := ⟨x.letter, x.text⟩

/-- The log is a list of entries, each with its call. -/
def Written (s : St) : Prop :=
  ∃ xs : List LogEntry, (∀ x ∈ xs, x.WellFormed ∧ Backed s.calls x) ∧
    s.log = xs.flatMap LogEntry.text ∧ s.logged = xs.map LogEntry.logged

theorem written_of_same {s s' : St} (hsame : SameRecord s s') (h : Written s) : Written s' := by
  obtain ⟨xs, hxs, hlog, hlogged⟩ := h
  refine ⟨xs, fun x hx => ?_, hsame.log.trans hlog, hsame.logged.trans hlogged⟩
  obtain ⟨hwell, hbacked⟩ := hxs x hx
  exact ⟨hwell, hbacked.mono hsame.calls⟩

theorem recordable_written : Recordable Written where
  same _ _ hsame _ h := written_of_same hsame h
  entry s x hx hbacked h := by
    obtain ⟨xs, hxs, hlog, hlogged⟩ := h
    refine ⟨xs ++ [x], ?_, ?_, ?_⟩
    · exact List.forall_mem_append.2 ⟨hxs, List.forall_mem_singleton.2 ⟨hx, hbacked⟩⟩
    · rw [List.flatMap_append, ← hlog, List.flatMap_singleton]
      rfl
    · rw [List.map_append, ← hlogged]
      rfl

theorem written_startState (c : Config) : Written (Fuzzer.startState c) := by
  unfold Fuzzer.startState
  cases c.logging with
  | false => exact ⟨[], List.forall_mem_nil _, rfl, rfl⟩
  | true =>
    refine ⟨[.seed c.seed, .ownPid c.ownPid, .sampleRate c.sampleRate], ?_, ?_, rfl⟩
    · simp only [List.forall_mem_cons, LogEntry.WellFormed, Backed, List.not_mem_nil, false_imp_iff,
        implies_true, and_true]
    · simp only [if_true, headerOps, List.flatMap_cons, List.flatMap_nil, LogEntry.text]

theorem written_mainLoop (c : Config) (answers : Nat → Int) (n : Nat) :
    Written (exec (mainLoop (c.env plainFilters) n) ⟨answers, Fuzzer.startState c⟩).2.state := by
  have hslots : FreeSlots Written := fun _ _ _ _ hs => written_of_same (.of_rfl rfl rfl rfl) hs
  have h := writes_mainLoop recordable_written (records_env c) hslots n
    ⟨answers, Fuzzer.startState c⟩ (written_startState c)
  revert h
  rcases exec (mainLoop (c.env plainFilters) n) ⟨answers, Fuzzer.startState c⟩ with ⟨_ | _, w⟩ <;>
    exact id

end PerfEvent.Replay
