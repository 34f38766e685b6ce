import PerfEventTests.Fuzzer.Lines

/-!
# What the quiet operations keep

Most operations choose an event, make a call on it and log a line. An assertion that does not look
at what they change (`Steady`) is kept by all of them, and by `our_handler`.
-/

namespace PerfEvent.Fuzzer

open Draws Programs Text

/-! ## What may change -/

/-- What a slot has about the group of its event. -/
def EventData.group (ev : EventData) : BitVec 32 × BitVec 64 × Int × Int :=
  (ev.groupFd, ev.flags, ev.numberInGroup, ev.readSize)

/-- The two states agree on the tables, the descriptors and the log. -/
structure SameCore (s s' : St) : Prop where
  active : ∀ i, (s'.eventData i).active = (s.eventData i).active
  fd : ∀ i, (s'.eventData i).fd = (s.eventData i).fd
  mmap : ∀ i, (s'.eventData i).mmap = (s.eventData i).mmap
  serial : ∀ i, (s'.eventData i).serial = (s.eventData i).serial
  attr : ∀ i, (s'.eventData i).attr = (s.eventData i).attr
  group : ∀ i, (s'.eventData i).group = (s.eventData i).group
  activeEvents : s'.activeEvents = s.activeEvents
  mmaps : s'.mmaps = s.mmaps
  activeMmaps : s'.activeMmaps = s.activeMmaps
  openFds : s'.openFds = s.openFds
  log : s'.log = s.log
  logged : s'.logged = s.logged
  fds : s'.fds = s.fds
  nextSerial : s'.nextSerial = s.nextSerial
  calls : s'.calls = s.calls
  storms : s'.storms = s.storms
  outside : s'.outside = s.outside

theorem SameCore.of_eventData {s s' : St} (h : s'.eventData = s.eventData)
    (h1 : s'.activeEvents = s.activeEvents) (h2 : s'.mmaps = s.mmaps)
    (h3 : s'.activeMmaps = s.activeMmaps) (h4 : s'.openFds = s.openFds) (h5 : s'.log = s.log)
    (h6 : s'.logged = s.logged) (h7 : s'.fds = s.fds) (h8 : s'.nextSerial = s.nextSerial)
    (h9 : s'.calls = s.calls) (h10 : s'.storms = s.storms) (h11 : s'.outside = s.outside) :
    SameCore s s' :=
  ⟨fun i => by rw [h], fun i => by rw [h], fun i => by rw [h], fun i => by rw [h],
    fun i => by rw [h], fun i => by rw [h], h1, h2, h3, h4, h5, h6, h7, h8, h9, h10, h11⟩

/-- An update of one slot that leaves alone what `SameCore` looks at. -/
theorem sameCore_setEvent (s : St) (i : Int) {f : EventData → EventData}
    (hf : ∀ ev, (f ev).active = ev.active ∧ (f ev).fd = ev.fd ∧ (f ev).mmap = ev.mmap ∧
      (f ev).serial = ev.serial ∧ (f ev).attr = ev.attr ∧ (f ev).group = ev.group) :
    SameCore s (s.setEvent i f) := by
  have hslot : ∀ j, ∃ ev, (s.setEvent i f).eventData j = ev ∧ (ev = f (s.eventData j) ∨
      ev = s.eventData j) := by
    intro j
    by_cases hj : j = i
    · exact ⟨_, if_pos hj, .inl (by rw [hj])⟩
    · exact ⟨_, if_neg hj, .inr rfl⟩
  refine ⟨fun j => ?_, fun j => ?_, fun j => ?_, fun j => ?_, fun j => ?_, fun j => ?_, rfl, rfl,
    rfl, rfl, rfl, rfl, rfl, rfl, rfl, rfl, rfl⟩ <;> obtain ⟨ev, hev, rfl | rfl⟩ := hslot j <;>
    rw [hev]
  exacts [(hf _).1, (hf _).2.1, (hf _).2.2.1, (hf _).2.2.2.1, (hf _).2.2.2.2.1, (hf _).2.2.2.2.2]

/-- What logging a line does to the state. -/
def St.addLine (s : St) (letter : Char) (text : Str) : St :=
  { s with log := s.log ++ text, logged := s.logged ++ [⟨letter, text⟩] }

/-- The assertion does not ask where the tables have been used. -/
def FreeIndex (P : St → Prop) : Prop := ∀ s, P s → P { s with outside := true }

/-- Every index that is stored in a table is inside the table that it is for. -/
structure StoredInRange (s : St) : Prop where
  mmap : ∀ i, InRange maxMmaps (s.eventData i).mmap
  parentMmap : ∀ i, InRange maxMmaps (s.mmaps i).parentMmap
  whichEvent : ∀ i, InRange numEvents (s.mmaps i).whichEvent

/-- `P` does not look at what `our_handler` changes. -/
structure Attended (e : Env) (P E : St → Prop) : Prop where
  stops : ∀ s, P s → E s
  same : ∀ s s', SameCore s s' → P s → P s'
  here : Keeps P (e.pt .elsewhere) E
  storm : ∀ i, Triple P (e.pt (.storm i))
    (fun _ s => P s ∧ ∀ s fd, P s → P (s.setFd fd none)) E
  stored : ∀ s, P s → FreeIndex P ∨ StoredInRange s

/-- `P` does not look at what a quiet operation changes. `File fd` says that `fd` is a file that
the operation has opened. -/
structure Steady (e : Env) (P : St → Prop) (File : Int → St → Prop) (E : St → Prop) : Prop extends
    Attended e P E where
  use : ∀ sure, Triple P (e.pt (.use sure))
    (fun _ s => P s ∧ (sure = true ∨ FreeIndex P)) E
  call : ∀ s i request, request ≠ .close → P s → P (s.addCall i request)
  line : ∀ letter text s, LineOf letter text → P s → P (s.addLine letter text)
  filterLine : ∀ fd custom arg filter, Triple P (e.pt (.filterLine (shownFilter fd custom arg filter)))
    (fun _ s => P s ∧ ∀ s, P s → P (s.addLine 'I' (setFilterLine fd custom arg filter))) E
  opened : ∀ s fd, P s → fd ≠ -1 → s.fds fd = none →
    P (s.setFd fd (some .file)) ∧ File fd (s.setFd fd (some .file))
  closed : ∀ s fd, P s → File fd s → P (s.setFd fd none)
  hereFile : ∀ fd, Keeps (fun s => P s ∧ File fd s) (e.pt .elsewhere) E
  sameFile : ∀ fd s s', SameCore s s' → File fd s → File fd s'
  lineFile : ∀ fd letter text s, File fd s → File fd (s.addLine letter text)
  place : ∀ s k fd n, P s → File fd s →
    P { s with openFds := fun j => if j = k then fd else s.openFds j, openFiles := n }
  unplace : ∀ s k n, P s → s.openFds k ≠ 0 →
    P { s.setFd (s.openFds k) none with
      openFds := fun j => if j = k then 0 else s.openFds j, openFiles := n }

/-- The two states agree on the tables. -/
structure SameTables (s s' : St) : Prop where
  active : ∀ i, (s'.eventData i).active = (s.eventData i).active
  fd : ∀ i, (s'.eventData i).fd = (s.eventData i).fd
  mmap : ∀ i, (s'.eventData i).mmap = (s.eventData i).mmap
  attr : ∀ i, (s'.eventData i).attr = (s.eventData i).attr
  activeEvents : s'.activeEvents = s.activeEvents
  mmaps : s'.mmaps = s.mmaps
  activeMmaps : s'.activeMmaps = s.activeMmaps
  storms : s'.storms = s.storms

/-- `P` looks at the tables only. -/
def OnTables (P : St → Prop) : Prop := ∀ s s', SameTables s s' → P s → P s'

theorem OnTables.of_rfl {P : St → Prop} (hP : OnTables P) {s s' : St} (hs : P s)
    (h : s'.eventData = s.eventData) (h1 : s'.activeEvents = s.activeEvents)
    (h2 : s'.mmaps = s.mmaps) (h3 : s'.activeMmaps = s.activeMmaps) (h4 : s'.storms = s.storms) :
    P s' :=
  hP s s' ⟨fun i => by rw [h], fun i => by rw [h], fun i => by rw [h], fun i => by rw [h], h1, h2,
    h3, h4⟩ hs

/-- Such an assertion is steady wherever the points of the program keep it. -/
theorem OnTables.steady {e : Env} {P E : St → Prop} (hP : OnTables P) (hstops : ∀ s, P s → E s)
    (hpt : ∀ loc, Keeps P (e.pt loc) E) : Steady e P (fun _ _ => True) E where
  stops := hstops
  same _ _ h hs :=
    hP _ _ ⟨h.active, h.fd, h.mmap, h.attr, h.activeEvents, h.mmaps, h.activeMmaps, h.storms⟩ hs
  here := hpt .elsewhere
  use sure := (hpt (.use sure)).strengthen_post fun _ _ hs =>
    ⟨hs, .inr fun _ hs => hP.of_rfl hs rfl rfl rfl rfl rfl⟩
  storm i := (hpt (.storm i)).strengthen_post fun _ _ hs =>
    ⟨hs, fun _ _ hs => hP.of_rfl hs rfl rfl rfl rfl rfl⟩
  stored _ _ := .inl fun _ hs => hP.of_rfl hs rfl rfl rfl rfl rfl
  line _ _ _ _ hs := hP.of_rfl hs rfl rfl rfl rfl rfl
  filterLine _ _ _ _ := (hpt (.filterLine _)).strengthen_post fun _ _ hs =>
    ⟨hs, fun _ hs => hP.of_rfl hs rfl rfl rfl rfl rfl⟩
  call _ _ _ _ hs := hP.of_rfl hs rfl rfl rfl rfl rfl
  opened _ _ hs _ _ := ⟨hP.of_rfl hs rfl rfl rfl rfl rfl, trivial⟩
  closed _ _ hs _ := hP.of_rfl hs rfl rfl rfl rfl rfl
  hereFile _ := (hpt .elsewhere).consequence (fun _ hs => hs.1) (fun _ _ hs => ⟨hs, trivial⟩)
    fun _ hs => hs
  sameFile _ _ _ _ _ := trivial
  lineFile _ _ _ _ _ := trivial
  place _ _ _ _ hs _ := hP.of_rfl hs rfl rfl rfl rfl rfl
  unplace _ _ _ hs _ := hP.of_rfl hs rfl rfl rfl rfl rfl

/-- An index that may be used. -/
def Usable (P : St → Prop) (size : Nat) (i : Int) : Prop := InRange size i ∨ FreeIndex P

section Primitives

variable {P E : St → Prop}

theorem checkEvent_keeps {i : Int} (hi : Usable P numEvents i) {s : St} (hs : P s) :
    P (s.checkEvent i) := by
  unfold St.checkEvent
  split
  · exact hs
  · rename_i h
    exact hi.resolve_left h s hs

theorem checkMmap_keeps {i : Int} (hi : Usable P maxMmaps i) {s : St} (hs : P s) :
    P (s.checkMmap i) := by
  unfold St.checkMmap
  split
  · exact hs
  · rename_i h
    exact hi.resolve_left h s hs

@[simp] theorem checkEvent_eventData (s : St) (i : Int) : (s.checkEvent i).eventData = s.eventData := by
  unfold St.checkEvent
  split <;> rfl

@[simp] theorem checkEvent_mmaps (s : St) (i : Int) : (s.checkEvent i).mmaps = s.mmaps := by
  unfold St.checkEvent
  split <;> rfl

@[simp] theorem checkMmap_eventData (s : St) (i : Int) : (s.checkMmap i).eventData = s.eventData := by
  unfold St.checkMmap
  split <;> rfl

@[simp] theorem checkMmap_mmaps (s : St) (i : Int) : (s.checkMmap i).mmaps = s.mmaps := by
  unfold St.checkMmap
  split <;> rfl

theorem triple_getEvent {i : Int} (hi : Usable P numEvents i) :
    Triple P (getEvent i) (fun ev s => P s ∧ ev = s.eventData i) E :=
  triple_bind (triple_update (Q := fun _ => P) fun _ hs => checkEvent_keeps hi hs) fun _ =>
    triple_bind (triple_getState (Q := fun s' s => P s ∧ s' = s) fun _ hs => ⟨hs, rfl⟩) fun s' =>
      triple_pure fun s hs => ⟨hs.1, by rw [hs.2]⟩

theorem triple_getMmap {i : Int} (hi : Usable P maxMmaps i) :
    Triple P (getMmap i) (fun m s => P s ∧ m = s.mmaps i) E :=
  triple_bind (triple_update (Q := fun _ => P) fun _ hs => checkMmap_keeps hi hs) fun _ =>
    triple_bind (triple_getState (Q := fun s' s => P s ∧ s' = s) fun _ hs => ⟨hs, rfl⟩) fun s' =>
      triple_pure fun s hs => ⟨hs.1, by rw [hs.2]⟩

theorem keeps_getEvent {i : Int} (hi : Usable P numEvents i) : Keeps P (getEvent i) E :=
  (triple_getEvent hi).strengthen_post fun _ _ h => h.1

theorem keeps_getMmap {i : Int} (hi : Usable P maxMmaps i) : Keeps P (getMmap i) E :=
  (triple_getMmap hi).strengthen_post fun _ _ h => h.1

theorem triple_setEvent {i : Int} (hi : Usable P numEvents i) {f : EventData → EventData}
    {Q : Unit → St → Prop} (h : ∀ s, P s → Q () (s.setEvent i f)) : Triple P (setEvent i f) Q E :=
  triple_update fun _ hs => h _ (checkEvent_keeps hi hs)

theorem triple_setMmap {i : Int} (hi : Usable P maxMmaps i) {f : MmapEntry → MmapEntry}
    {Q : Unit → St → Prop} (h : ∀ s, P s → Q () (s.setMmap i f)) : Triple P (setMmap i f) Q E :=
  triple_update fun _ hs => h _ (checkMmap_keeps hi hs)

theorem keeps_rand : Keeps P rand E := keeps_draw

theorem keeps_answer : Keeps P answer E := keeps_draw

theorem keeps_getState : Keeps P getState E := triple_getState fun _ h => h

theorem keeps_ite {α : Type} {c : Prop} [Decidable c] {m m' : Fuzz α} (h : c → Keeps P m E)
    (h' : ¬c → Keeps P m' E) : Keeps P (if c then m else m') E :=
  triple_ite h h'

theorem triple_logLine {e : Env} {letter : Char} {text : Str}
    (h : ∀ s, P s → P (s.addLine letter text)) : Keeps P (logLine e letter text) E :=
  triple_whenever (fun _ => triple_update h) fun _ _ hs => hs

end Primitives

/-! ## Searches -/

/-- The parts of the event table that a search looks at. -/
def SameSlots (s s' : St) : Prop :=
  ∀ i, (s'.eventData i).active = (s.eventData i).active ∧
    (s'.eventData i).attr = (s.eventData i).attr ∧ (s'.eventData i).fd = (s.eventData i).fd

/-- A handler changes what a search looks at only when it closes all events. -/
def Calm (e : Env) : Prop :=
  ∀ s₀ : St, Triple (fun s => s = s₀) (e.pt .elsewhere)
    (fun _ s => s.storms = s₀.storms ∧ SameSlots s₀ s ∨ s₀.storms < s.storms) fun _ => True

/-- A test looks at what `SameSlots` keeps. -/
def SlotTest (p : EventData → Bool) : Prop :=
  ∀ ev ev' : EventData, ev.active = ev'.active → ev.attr = ev'.attr → ev.fd = ev'.fd → p ev = p ev'

theorem slotTest_active : SlotTest EventData.active := fun _ _ h _ _ => h

theorem slotTest_isBreakpoint : SlotTest isBreakpoint := fun ev ev' h h' _ => by
  unfold isBreakpoint
  rw [h, h']

theorem slotTest_hasFd (fd : Int) : SlotTest (hasFd fd) := fun ev ev' h _ h' => by
  unfold hasFd
  rw [h, h']

section Searches

variable {e : Env} {P E : St → Prop} {p : EventData → Bool}

/-- The events at the start of a search, or a storm since. -/
def CalmSince (s₀ s : St) : Prop := s.storms = s₀.storms ∧ SameSlots s₀ s

theorem sameSlots_trans {s₀ s s' : St} (h : SameSlots s₀ s) (h' : SameSlots s s') : SameSlots s₀ s' :=
  fun i => ⟨(h' i).1.trans (h i).1, (h' i).2.1.trans (h i).2.1, (h' i).2.2.trans (h i).2.2⟩

theorem calm_here (hc : Calm e) (s₀ : St) :
    Triple (CalmSince s₀) (e.pt .elsewhere) (fun _ s => CalmSince s₀ s ∨ s₀.storms < s.storms)
      fun _ => True :=
  triple_from fun s hs => (hc s).strengthen_post fun _ s' hs' => by
    rcases hs' with hs' | hs'
    · exact .inl ⟨hs'.1.trans hs.1, sameSlots_trans hs.2 hs'.2⟩
    · exact .inr (hs.1 ▸ hs')

theorem stormed_here (hc : Calm e) (n : Nat) :
    Keeps (fun s => n < s.storms) (e.pt .elsewhere) fun _ => True :=
  triple_from fun s hs => (hc s).strengthen_post fun _ s' hs' => by
    rcases hs' with hs' | hs'
    · exact hs'.1 ▸ hs
    · exact lt_trans hs hs'

theorem slotTest_calm (hc : Calm e) (hp : SlotTest p) (s₀ : St) (i : Nat) :
    Triple (CalmSince s₀) (slotTest e p i)
      (fun b s => CalmSince s₀ s ∧ (b = true ↔ p (s₀.eventData i) = true) ∨ s₀.storms < s.storms)
      fun _ => True := by
  refine triple_bind (calm_here hc s₀) fun _ => triple_bind (triple_or
    (triple_getEvent (P := CalmSince s₀) (.inr fun _ h => h))
    (keeps_getEvent (P := fun s => s₀.storms < s.storms) (.inr fun _ h => h))) fun ev => ?_
  refine triple_pure fun s hs => hs.imp (fun hs => ⟨hs.1, ?_⟩) id
  have hslot := hs.1.2 i
  rw [hs.2, hp _ _ hslot.1 hslot.2.1 hslot.2.2]

theorem slotTest_stormed (hc : Calm e) (n i : Nat) :
    Keeps (fun s => n < s.storms) (slotTest e p i) fun _ => True :=
  keeps_bind (stormed_here hc n) fun _ =>
    keeps_bind (keeps_getEvent (.inr fun _ h => h)) fun _ => keeps_pure

/-- What is at a place below the count is found, unless there is a storm. -/
theorem nthRange_slots_calm (hc : Calm e) (hp : SlotTest p) (s₀ : St) (x : Nat) :
    Triple (CalmSince s₀) (nthRange (slotTest e p) numEvents 0 x)
      (fun r s => (r = -1 → countSlots p s₀ ≤ x) ∨ s₀.storms < s.storms) fun _ => True := by
  refine (triple_nthRange_table (slotTest_calm hc hp s₀)
    (slotTest_stormed hc s₀.storms) numEvents 0 x).strengthen_post fun r s hs => ?_
  refine hs.imp (fun hs hr => ?_) id
  have := hs.2 hr
  simpa only [countSlots, Nat.zero_add] using this

theorem findRange_slots_calm (hc : Calm e) (hp : SlotTest p) (s₀ : St) :
    Triple (CalmSince s₀) (findRange (slotTest e p) numEvents 0)
      (fun r s => (r = -1 → countSlots p s₀ = 0) ∨ s₀.storms < s.storms) fun _ => True := by
  refine (triple_findRange_table (slotTest_calm hc hp s₀)
    (slotTest_stormed hc s₀.storms) numEvents 0).strengthen_post fun r s hs => ?_
  refine hs.imp (fun hs hr => ?_) id
  exact Nat.count_iff_forall_not.2 fun k hk => hs.2 hr k (by omega) (by omega)

end Searches

section SearchResults

variable {e : Env} {P E : St → Prop} {p : EventData → Bool}

theorem inRange_natCast {size k : Nat} (h : k < size) : InRange size (k : Int) :=
  ⟨Int.natCast_nonneg k, Int.ofNat_lt.2 h⟩

/-- A slot that a search has just looked at. -/
theorem triple_slotTest (hhere : Keeps P (e.pt .elsewhere) E) {k : Nat} (hk : k < numEvents) :
    Triple P (slotTest e p k) (fun b s => P s ∧ (b = true → p (s.eventData k) = true)) E := by
  refine triple_bind hhere fun _ => triple_bind (triple_getEvent (.inl (inRange_natCast hk)))
    fun ev => triple_pure fun s hs => ⟨hs.1, fun hb => ?_⟩
  rw [← hs.2]
  exact hb

/-- The slot that a search returned passes its test at the end of the search. -/
def Selected (p : EventData → Bool) (r : Int) (s : St) : Prop :=
  r = -1 ∨ InRange numEvents r ∧ p (s.eventData r) = true

theorem selected_of_exists {r : Int} {s : St} (h : r = -1 ∨ ∃ k : Nat, r = k ∧ 0 ≤ k ∧
    k < 0 + numEvents ∧ p (s.eventData k) = true) : Selected p r s := by
  rcases h with h | ⟨k, rfl, -, hk, hp⟩
  · exact .inl h
  · exact .inr ⟨inRange_natCast (by omega), hp⟩

theorem Selected.inRange {r : Int} {s : St} (h : Selected p r s) (hr : 0 ≤ r) :
    InRange numEvents r := by
  rcases h with rfl | h
  · omega
  · exact h.1

theorem triple_position {a : Int} {Q : Nat → St → Prop} (hstop : ∀ s, P s → E s)
    (h : ∀ x s, P s → Q x s) : Triple P (position a) Q E :=
  triple_ite (fun _ => triple_stop hstop) fun _ =>
    triple_bind keeps_rand fun _ => triple_pure (h _)

theorem triple_findRandomSlot (hstop : ∀ s, P s → E s) (hhere : Keeps P (e.pt .elsewhere) E) :
    Triple P (findRandomSlot e p) (fun r s => P s ∧ Selected p r.index s) E := by
  refine triple_bind keeps_getState fun s => triple_ite (fun _ => ?_) fun _ => ?_
  · exact triple_pure fun s hs => ⟨hs, .inl rfl⟩
  · refine triple_bind hhere fun _ => triple_bind keeps_getState fun s => ?_
    refine triple_bind (triple_position (Q := fun _ => P) hstop fun _ _ => id) fun x => ?_
    refine triple_bind (triple_nthRange numEvents 0 x fun k _ hk =>
      triple_slotTest hhere (by omega)) fun r => ?_
    refine triple_bind (Q := fun _ s => P s ∧ Selected p r s)
      (triple_getState fun s hs => ⟨hs.1, selected_of_exists hs.2⟩) fun s' => ?_
    exact triple_pure fun _ hs => hs

theorem triple_lookupEvent (hhere : Keeps P (e.pt .elsewhere) E) {fd : Int} :
    Triple P (lookupEvent e fd) (fun r s => P s ∧ Selected (hasFd fd) r.index s) E := by
  refine triple_bind keeps_getState fun s => triple_ite (fun _ => ?_) fun _ => ?_
  · exact triple_pure fun s hs => ⟨hs, .inl rfl⟩
  · refine triple_bind (triple_findRange numEvents 0 fun k _ hk =>
      triple_slotTest hhere (by omega)) fun r => ?_
    refine triple_bind (Q := fun _ s => P s ∧ Selected (hasFd fd) r s)
      (triple_getState fun s hs => ⟨hs.1, selected_of_exists hs.2⟩) fun s' => ?_
    exact triple_pure fun _ hs => hs

theorem triple_findEmptyEvent (hhere : Keeps P (e.pt .elsewhere) E) :
    Triple P (findEmptyEvent e) (fun r s => P s ∧ Selected (fun ev => !ev.active) r s) E :=
  (triple_findRange numEvents 0 fun k _ hk => triple_slotTest hhere (by omega)).strengthen_post
    fun _ _ hs => ⟨hs.1, selected_of_exists hs.2⟩

/-- A result that claims to be sure is an index of the table. -/
def SureInRange (r : Found) : Prop := r.sure = true → InRange numEvents r.index

theorem findRandomSlot_sure (hc : Calm e) (hp : SlotTest p) :
    Triple (fun _ => True) (findRandomSlot e p)
      (fun r _ => r.sure = true → r.index ≠ -1) fun _ => True := by
  refine triple_bind keeps_getState fun s => triple_ite (fun _ => ?_) fun _ => ?_
  · exact triple_pure fun s _ h => absurd h Bool.false_ne_true
  · refine triple_bind (Q := fun _ _ => True) (fun w _ => by split <;> trivial) fun _ => ?_
    refine triple_bind (Q := fun s₀ s => s = s₀) (triple_getState fun _ _ => rfl) fun s₀ => ?_
    refine triple_bind (triple_position (Q := fun _ s => CalmSince s₀ s) (fun _ _ => trivial)
      fun _ s hs => by subst hs; exact ⟨rfl, fun _ => ⟨rfl, rfl, rfl⟩⟩) fun x => ?_
    refine triple_bind (nthRange_slots_calm hc hp s₀ x) fun r => ?_
    refine triple_bind (Q := fun s' _ => (r = -1 → countSlots p s₀ ≤ x) ∨ s₀.storms < s'.storms)
      (triple_getState fun _ hs => hs) fun s' => triple_pure fun s hs hsure hr => ?_
    simp only [Bool.and_eq_true, decide_eq_true_eq] at hsure
    rcases hs with hs | hs
    · have := hs hr
      omega
    · omega

theorem lookupEvent_sure (hc : Calm e) {fd : Int} :
    Triple (fun _ => True) (lookupEvent e fd)
      (fun r _ => r.sure = true → r.index ≠ -1) fun _ => True := by
  refine triple_bind (Q := fun s₀ s => s = s₀) (triple_getState fun _ _ => rfl) fun s₀ =>
    triple_ite (fun _ => ?_) fun _ => ?_
  · exact triple_pure fun s _ h => absurd h Bool.false_ne_true
  · refine triple_bind ((findRange_slots_calm hc (slotTest_hasFd fd) s₀).weaken_pre
      fun s hs => by subst hs; exact ⟨rfl, fun _ => ⟨rfl, rfl, rfl⟩⟩) fun r => ?_
    refine triple_bind (Q := fun s' _ => (r = -1 → countSlots (hasFd fd) s₀ = 0) ∨
      s₀.storms < s'.storms) (triple_getState fun _ hs => hs) fun s' =>
        triple_pure fun s hs hsure hr => ?_
    simp only [Bool.and_eq_true, decide_eq_true_eq] at hsure
    rcases hs with hs | hs
    · have := hs hr
      omega
    · omega

end SearchResults

end PerfEvent.Fuzzer
