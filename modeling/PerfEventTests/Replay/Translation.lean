import PerfEventTests.Replay.Bounds

/-!
# The descriptors of a replay

When what is passed to the kernel for a recorded descriptor is what the last open of it obtained.
The entry of the table is that number or the mark of a closed descriptor, in every run.
-/

namespace PerfEvent.Replay

open Text ByteMemory Fuzzer Runs

variable {e : Env} {s s' : State} {line : Str} {P Q : Prop}

/-- Every number that has been passed was the one obtained for the recorded descriptor. -/
def Translated (s : State) : Prop := ∀ h ∈ s.handed, h.latest = some h.passed

/-- An entry of the table is not in use or has what the last open has obtained. -/
structure Linked (s : State) : Prop where
  entry : ∀ fd, InRemap fd → (s.event fd).fdRemap = -1 ∨
    s.opened fd = some (s.event fd).fdRemap
  nonneg : ∀ fd n, s.opened fd = some n → 0 ≤ n

/-! ## The conditions -/

/-- The recorded descriptor is open; outside the table, what is found there happens to be right. -/
def Known (fd : Int) (s : State) : Prop :=
  if InRemap fd then (s.event fd).fdRemap ≠ -1 else s.opened fd = some (s.event fd).fdRemap

/-- The same behind a test for the mark. -/
def Guarded (fd : Int) (s : State) : Prop := (s.event fd).fdRemap = -1 ∨ Known fd s

/-- A line without a number is not looked at any further. -/
def CloseTranslated (line : Str) (s : State) : Prop :=
  match sscanfLine [.d] line with
  | [fd] => Guarded fd s
  | _ => True

def IoctlTranslated (fd request arg : Int) (s : State) : Prop :=
  Known fd s ∧ (request = requestInt iocSetOutput → arg = -1 ∨ Known arg s)

def ReadTranslated (fd size : Int) (s : State) : Prop := toUnsigned 64 size > readRoom ∨ Known fd s

/-- The descriptors of a poll line. -/
def pollDescriptors : Nat → List Str → List Int
  | 0, _ => []
  | _ + 1, [] => []
  | _ + 1, [fd] => [atoi fd]
  | n + 1, fd :: _ :: texts => atoi fd :: pollDescriptors n texts

/-- Each of them has been opened as the same number. -/
def PollTranslated (num : Int) (texts : List Str) (s : State) : Prop :=
  ∀ fd ∈ pollDescriptors num.toNat texts, s.opened fd = some fd

/-- The condition for one kind of line. -/
def CommandTranslated (e : Env) (line : Str) (s : State) : Command → Prop
  | .affinity => e.which .close →
    CloseTranslated (if e.which .affinity then (affinityEvent e line s).1 else line) s
  | .close => e.which .close → CloseTranslated line s
  | .ioctl => let var := scanned [.d, .d, .ld] line (e.stack s.lineNum)
    e.which .ioctl → IoctlTranslated (var 0) (var 1) (var 2) s
  | .mmap => let var := scanned [.d, .d, .lx] line (e.stack s.lineNum)
    e.which .mmap → Guarded (var 1) s
  | .open => let o := parseOpenEvent line { e.openStack s.lineNum with pe := {} }
    e.which .open → o.groupFd.toInt = -1 ∨ Known o.groupFd.toInt s
  | .overflow => e.which .overflow → Known (scanned [.d] line (e.stack s.lineNum) 0) s
  | .poll => e.which .poll →
    PollTranslated (scanned [.d] line (e.stack s.lineNum) 0) ((tokens isBlank line).drop 2) s
  | .read => let var := scanned [.d, .d] line (e.stack s.lineNum)
    e.which .read → ReadTranslated (var 0) (var 1) s
  | .access | .fork | .munmap | .pid | .prctl | .quit | .trash | .other => True

/-- The condition for one step. -/
def StepTranslated (e : Env) (h : Happening) (s : State) : Prop :=
  match h with
  | .line text => s.progress = .running → 2 < s.lineNum + 1 ∧ s.lineNum + 1 < e.skipLines ∨
      CommandTranslated e (cString text) { s with lineNum := s.lineNum + 1 }
        (command (cString text).head?)
  | .signal _ => True

/-! ## One update after the other -/

/-- What is found for `fd` is what was obtained for it. -/
def Current (fd : Int) (s : State) : Prop := s.opened fd = some (s.event fd).fdRemap

theorem current_iff_known (hs : Linked s) (fd : Int) : Current fd s ↔ Known fd s := by
  unfold Known
  split
  case isTrue hin =>
    constructor
    · intro h hclosed
      have := hs.nonneg fd _ h
      omega
    · exact (hs.entry fd hin).resolve_left
  case isFalse => exact Iff.rfl

/-- The table stays linked, and what is passed is right exactly under `P`. -/
structure Follows (s s' : State) (P : Prop) : Prop where
  linked : Linked s → Linked s'
  translated : Translated s' ↔ Translated s ∧ P

namespace Follows

theorem refl (s : State) : Follows s s True := ⟨id, (and_iff_left trivial).symm⟩

theorem congr (h : Follows s s' P) (hPQ : P ↔ Q) : Follows s s' Q :=
  ⟨h.1, h.2.trans (and_congr_right fun _ => hPQ)⟩

theorem trans {s'' : State} (h : Follows s s' P) (h' : Follows s' s'' Q) : Follows s s'' (P ∧ Q) where
  linked hs := h'.linked (h.linked hs)
  translated := by rw [h'.translated, h.translated, and_assoc]

theorem hand (h : Follows s s' P) (fd passed : Int) :
    Follows s (s'.hand fd passed) (P ∧ s'.opened fd = some passed) where
  linked hs := ⟨(h.linked hs).1, (h.linked hs).2⟩
  translated := by
    have hmem : Translated (s'.hand fd passed) ↔ Translated s' ∧ s'.opened fd = some passed := by
      simp only [Translated, State.hand, List.mem_append, List.mem_singleton, or_imp, forall_and,
        forall_eq]
    rw [hmem, h.translated, and_assoc]

theorem issue (h : Follows s s' P) (c : Call) : Follows s (s'.issue c) P :=
  ⟨fun hs => ⟨(h.linked hs).1, (h.linked hs).2⟩, h.2⟩

theorem access (h : Follows s s' P) (x : Access) : Follows s (s'.access x) P :=
  ⟨fun hs => ⟨(h.linked hs).1, (h.linked hs).2⟩, h.2⟩

theorem touch (h : Follows s s' P) (table : Table) (index : Int) :
    Follows s (s'.touch table index) P := h.access _

theorem memset (h : Follows s s' P) (m : Memset) : Follows s (s'.memset m) P :=
  ⟨fun hs => ⟨(h.linked hs).1, (h.linked hs).2⟩, h.2⟩

theorem hold (h : Follows s s' P) (x : Held) : Follows s (s'.hold x) P :=
  ⟨fun hs => ⟨(h.linked hs).1, (h.linked hs).2⟩, h.2⟩

theorem release (h : Follows s s' P) (call : Nat) : Follows s (s'.release call) P :=
  ⟨fun hs => ⟨(h.linked hs).1, (h.linked hs).2⟩, h.2⟩

theorem setOverflows (h : Follows s s' P) (fd n : Int) : Follows s (s'.setOverflows fd n) P :=
  ⟨fun hs => ⟨(h.linked hs).1, (h.linked hs).2⟩, h.2⟩

theorem setThrottles (h : Follows s s' P) (fd n : Int) : Follows s (s'.setThrottles fd n) P :=
  ⟨fun hs => ⟨(h.linked hs).1, (h.linked hs).2⟩, h.2⟩

/-- An entry keeps its descriptor or gives it up. -/
theorem setEvent (h : Follows s s' P) (fd : Int) {f : Event → Event}
    (hf : ∀ ev, (f ev).fdRemap = ev.fdRemap ∨ (f ev).fdRemap = -1) :
    Follows s (s'.setEvent fd f) P where
  linked hs := by
    refine ⟨fun k hk => ?_, (h.linked hs).nonneg⟩
    by_cases hkfd : k = fd
    · subst hkfd
      rw [State.setEvent_self]
      obtain hsame | hclosed := hf (s'.event k)
      · rw [hsame]
        exact (h.linked hs).entry k hk
      · exact .inl hclosed
    · rw [State.setEvent_other _ hkfd]
      exact (h.linked hs).entry k hk
  translated := h.2

end Follows

/-! ## The handlers -/

theorem mapFor_follows (fd length : Int) : Follows s (mapFor e fd length s) (Current fd s) := by
  have hissue := (((Follows.refl s).setEvent fd (f := fun ev =>
    { ev with mmapRemap := .failed, size := 0 }) fun _ => .inl rfl).hand fd
      (s.event fd).fdRemap).issue (mmapCall length (s.event fd).fdRemap)
  unfold mapFor
  dsimp only
  split
  · exact hissue.congr (and_iff_right trivial)
  · exact ((hissue.setEvent fd (f := fun ev => { ev with
      mmapRemap := .mapped s.calls.length length, size := length }) fun _ => .inl rfl).hold
        _).congr (and_iff_right trivial)

theorem follows_guarded {fd : Int} {t : State} (hclosed : (s.event fd).fdRemap = -1 → t = s')
    (hs' : Follows s s' True)
    (hopen : (s.event fd).fdRemap ≠ -1 → Follows s t (Current fd s)) :
    Follows s t ((s.event fd).fdRemap = -1 ∨ Current fd s) := by
  by_cases h : (s.event fd).fdRemap = -1
  · rw [hclosed h]
    exact hs'.congr (iff_of_true trivial (.inl h))
  · exact (hopen h).congr (or_iff_right h).symm

theorem mmapIfOpen_follows (fd length : Int) : Follows s (mmapIfOpen e fd length s)
    ((s.event fd).fdRemap = -1 ∨ Current fd s) := by
  have htouch := (Follows.refl s).touch .event fd
  refine follows_guarded (fun h => if_pos h) htouch fun h => ?_
  rw [show mmapIfOpen e fd length s = mapFor e fd length (s.touch .event fd) from if_neg h]
  exact (htouch.trans (mapFor_follows fd length)).congr (and_iff_right trivial)

theorem closeFor_follows (fd : Int) : Follows s (closeFor fd s)
    ((s.event fd).fdRemap = -1 ∨ Current fd s) := by
  have htouch := (Follows.refl s).touch .event fd
  refine follows_guarded (fun h => if_pos h) htouch fun h => ?_
  unfold closeFor
  dsimp only
  rw [State.event_touch, if_neg h]
  exact (((htouch.hand fd _).issue _).setEvent fd fun _ => .inr rfl).congr (and_iff_right trivial)

theorem unmap_follows (region : Region) (size : Int) : Follows s (unmap e region size s) True := by
  have hissue := (Follows.refl s).issue (.munmap region size)
  cases region with
  | failed => exact hissue
  | null => exact hissue
  | mapped call length =>
    unfold unmap
    dsimp only
    split
    · exact hissue
    · exact hissue.release call

theorem munmapIfOpen_follows (fd size : Int) : Follows s (munmapIfOpen e fd size s) True := by
  have htouch := (Follows.refl s).touch .event fd
  have hclear := htouch.setEvent fd (f := fun ev => { ev with mmapRemap := .failed })
    fun _ => .inl rfl
  unfold munmapIfOpen
  dsimp only
  split_ifs
  · exact htouch
  · exact hclear
  · exact hclear
  · exact (hclear.trans (unmap_follows _ _)).congr (and_iff_right trivial)

theorem trashIfOpen_follows (fd value size : Int) :
    Follows s (trashIfOpen fd value size s) True := by
  have htouch := (Follows.refl s).touch .event fd
  unfold trashIfOpen trashRegion
  dsimp only
  split
  · exact htouch
  · split
    · exact htouch
    · exact htouch
    · exact (htouch.access _).memset _

theorem ioctlFor_follows (fd request : Int) (arg : Argument) :
    Follows s (ioctlFor fd request arg s) (Current fd s) :=
  (((Follows.refl s).hand fd _).issue _).congr (and_iff_right trivial)

theorem ioctlAs_follows (fd request arg : Int) : Follows s (ioctlAs fd request arg s)
    (Current fd s ∧ (request = requestInt iocSetOutput → arg = -1 ∨ Current arg s)) := by
  have htouch := (Follows.refl s).touch .event fd
  have hplain : ∀ a, Follows s (ioctlFor fd request a (s.touch .event fd)) (Current fd s) :=
    fun a => (htouch.trans (ioctlFor_follows fd request a)).congr (and_iff_right trivial)
  unfold ioctlAs
  dsimp only
  split
  case isTrue hrequest =>
    split
    case isTrue harg => exact (hplain _).congr (and_iff_left fun _ => .inl harg).symm
    case isFalse harg =>
      refine (((htouch.touch .event arg).hand arg _).trans (ioctlFor_follows fd request _)).congr ?_
      rw [true_and, imp_iff_right hrequest, or_iff_right harg]
      exact and_comm
  case isFalse hrequest =>
    have hother : Current fd s ↔ Current fd s ∧
        (request = requestInt iocSetOutput → arg = -1 ∨ Current arg s) :=
      (and_iff_left fun h => absurd h hrequest).symm
    split_ifs
    · exact (hplain _).congr hother
    · exact (hplain _).congr hother
    · exact (hplain _).congr hother

theorem readFor_follows (fd size : Int) : Follows s (readFor fd size s)
    (toUnsigned 64 size > readRoom ∨ Current fd s) := by
  unfold readFor
  dsimp only
  split
  case isTrue hlarge => exact (Follows.refl s).congr (iff_of_true trivial (.inl hlarge))
  case isFalse hfits =>
    refine (((((Follows.refl s).touch _ _).hand fd _).access _).issue _).congr ?_
    rw [true_and, or_iff_right hfits]
    exact Iff.rfl

theorem fcntlFor_follows (fd : Int) (command : Nat) :
    Follows s (fcntlFor fd command s) (Current fd s) :=
  (((Follows.refl s).hand fd _).issue _).congr (and_iff_right trivial)

@[simp] theorem current_fcntlFor (fd : Int) (command : Nat) :
    Current fd (fcntlFor fd command s) ↔ Current fd s := Iff.rfl

theorem overflowFor_follows (fd : Int) : Follows s (overflowFor fd s) (Current fd s) := by
  have hstart := ((Follows.refl s).issue .sigaction).touch .event fd
  have hcurrent : Current fd ((s.issue .sigaction).touch .event fd) ↔ Current fd s := Iff.rfl
  simp only [overflowFor, overflowCommands, List.foldl_cons, List.foldl_nil]
  refine (((hstart.trans (fcntlFor_follows fd 4)).trans (fcntlFor_follows fd 10)).trans
    (fcntlFor_follows fd 8)).congr ?_
  rw [current_fcntlFor, current_fcntlFor, current_fcntlFor, hcurrent, true_and, and_self, and_self]

theorem pollEntries_follows (n : Nat) : ∀ (i : Nat) (texts : List Str) {s : State},
    Follows s (pollEntries n i texts s).2.2
      (∀ fd ∈ pollDescriptors n texts, s.opened fd = some fd) := by
  induction n with
  | zero => exact fun i texts {s} => (Follows.refl s).congr (by simp [pollDescriptors])
  | succ n ih =>
    rintro i (_ | ⟨fd, _ | ⟨events, texts⟩⟩) s
    · exact (Follows.refl s).congr (by simp [pollDescriptors])
    · refine (((Follows.refl s).touch _ _).hand _ _).congr ?_
      rw [true_and, pollDescriptors, List.forall_mem_singleton]
      exact Iff.rfl
    · refine ((((Follows.refl s).touch _ _).hand _ _).trans (ih _ _)).congr ?_
      rw [true_and, pollDescriptors, List.forall_mem_cons]
      exact Iff.rfl

theorem pollAs_follows (num : Int) (texts : List Str) :
    Follows s (pollAs num texts s) (PollTranslated num texts s) :=
  ((pollEntries_follows num.toNat 0 texts).access _).issue _

theorem remapGroup_follows (groupFd : Int) : Follows s (remapGroup groupFd s).2
    (groupFd = -1 ∨ Current groupFd s) := by
  unfold remapGroup
  split
  case isTrue hnone => exact (Follows.refl s).congr (iff_of_true trivial (.inl hnone))
  case isFalse hgroup =>
    refine (((Follows.refl s).touch .event groupFd).hand groupFd _).congr ?_
    rw [true_and, or_iff_right hgroup]
    exact Iff.rfl

/-- A new descriptor is noted and entered under the same recorded number. -/
theorem recordOpen_follows {recorded fd : Int} (hfd : 0 ≤ fd) :
    Follows s (recordOpen recorded fd (s.setOpened recorded fd)) True := by
  have hnonneg : Linked s → ∀ k n, (s.setOpened recorded fd).opened k = some n → 0 ≤ n := by
    intro hs k n hn
    by_cases hk : k = recorded
    · rw [show (s.setOpened recorded fd).opened k = some fd from if_pos hk] at hn
      cases hn
      exact hfd
    · rw [show (s.setOpened recorded fd).opened k = s.opened k from if_neg hk] at hn
      exact hs.nonneg k n hn
  unfold recordOpen
  dsimp only
  split
  case isTrue hbeyond =>
    refine ⟨fun hs => ⟨fun k hk => ?_, hnonneg hs⟩, (and_iff_left trivial).symm⟩
    have hkr : k ≠ recorded := fun h => absurd (h ▸ hk).2 (not_lt.2 hbeyond.le)
    rw [show (s.setOpened recorded fd).opened k = s.opened k from if_neg hkr]
    exact hs.entry k hk
  case isFalse =>
    have hentered : Follows s (((s.setOpened recorded fd).touch .event recorded).setEvent recorded
        fun ev => { ev with fdRemap := fd, mmapRemap := .failed }) True := by
      refine ⟨fun hs => ⟨fun k hk => ?_, hnonneg hs⟩, (and_iff_left trivial).symm⟩
      by_cases hkr : k = recorded
      · subst hkr
        rw [State.setEvent_self]
        exact .inr (if_pos rfl)
      · rw [State.setEvent_other _ hkr]
        have hopened : (s.setOpened recorded fd).opened k = s.opened k := if_neg hkr
        exact (hs.entry k hk).imp_right hopened.trans
    split
    · exact hentered
    · exact (((hentered.touch _ _).setOverflows _ _).touch _ _).setThrottles _ _

theorem openAs_follows (o : OpenVars) : Follows s (openAs e o s)
    (o.groupFd.toInt = -1 ∨ Current o.groupFd.toInt s) := by
  unfold openAs
  dsimp only
  have hgroup := (remapGroup_follows (s := s) o.groupFd.toInt).issue (.perfEventOpen o.pe
    (if o.pid.toInt = s.originalPid then e.ownPid else o.pid.toInt) o.cpu.toInt
    (remapGroup o.groupFd.toInt s).1 o.flags)
  split
  case isTrue => exact hgroup
  case isFalse hpos =>
    exact (hgroup.trans (recordOpen_follows (not_lt.1 hpos))).congr (and_iff_left trivial)

theorem accessAs_follows (type which size : Int) : Follows s (accessAs e type which size s) True := by
  have hopen := ((Follows.refl s).touch .filenames which).issue (.fopen which (type ≠ 0))
  unfold accessAs accessFile
  dsimp only
  split_ifs
  · exact ⟨fun hs => ⟨hs.1, hs.2⟩, (and_iff_left trivial).symm⟩
  · exact hopen
  · exact ((hopen.access _).issue _).issue _
  · exact (hopen.issue _).issue _

theorem forkEvent_follows : Follows s (forkEvent e line s) True := by
  unfold forkEvent
  split
  · have h := (Follows.refl s).issue .fork
    exact ⟨fun hs => ⟨(h.linked hs).1, (h.linked hs).2⟩, h.2⟩
  · exact ((Follows.refl s).issue _).issue _

theorem ourHandler_follows (fd : Int) : Follows s (ourHandler fd s) True := by
  unfold ourHandler throttleOverflow
  dsimp only
  have hcount := (((Follows.refl s).issue (.ioctl fd perfEventIocDisable (.value 0))).touch
    .fdOverflows fd).setOverflows fd (s.fdOverflows fd + 1)
  split_ifs
  · exact ((((((hcount.touch _ _).setThrottles _ _).setOverflows _ _).issue _).touch _ _).setEvent
      fd fun _ => .inr rfl)
  · exact ((hcount.touch _ _).setThrottles _ _).setOverflows _ _
  · exact hcount.issue _

/-! ## Affinity lines -/

/-- What a handler leaves alone. -/
theorem follows_of_eq (hevent : s'.event = s.event) (hopened : s'.opened = s.opened)
    (hhanded : s'.handed = s.handed) : Follows s s' True where
  linked hs := ⟨fun fd hfd => by rw [hevent, hopened]; exact hs.entry fd hfd,
    fun fd n hn => hs.nonneg fd n (hopened ▸ hn)⟩
  translated := by rw [Translated, hhanded]; exact (and_iff_left trivial).symm

theorem storeCpus_follows (texts : List Str) : ∀ (i : Nat) {s : State},
    Follows s (storeCpus i texts s) True := by
  induction texts with
  | nil => exact fun _ {s} => .refl s
  | cons t ts ih =>
    exact fun i {s} => (((Follows.refl s).touch _ _).trans (ih (i + 1))).congr (and_iff_left trivial)

theorem Follows.touchMask {P : Prop} {s' : State} (h : Follows s s' P) (cpu : Int) (setSize : Nat) :
    Follows s (touchMask cpu setSize s') P :=
  touchMask_elim (P := fun t => Follows s t P) cpu setSize h fun word => h.touch .cpuMask word

theorem readCpus_follows (cpus : Int → Int) (n : Nat) : ∀ (j : Nat) (mask : Nat → Bool) {s : State},
    Follows s (readCpus cpus n j mask s).2 True := by
  induction n with
  | zero => exact fun _ _ {s} => .refl s
  | succ n ih =>
    exact fun j mask {s} =>
      ((((Follows.refl s).touch _ _).touchMask _ _).trans (ih (j + 1) _)).congr
        (and_iff_left trivial)

theorem setAffinity_follows (which num : Int) (texts : List Str) (mask : Nat → Bool) :
    Follows s (setAffinity e which num texts mask s) True := by
  have hstore := storeCpus_follows texts 0 (s := s)
  have hmask : ∀ cpus, Follows s (affinityMask which num cpus mask (storeCpus 0 texts s)).2 True := by
    intro cpus
    unfold affinityMask
    split_ifs
    · exact (hstore.touch _ _).touchMask _ _
    · exact (hstore.trans (readCpus_follows _ _ _ _)).congr (and_iff_left trivial)
    · exact hstore
  have hissue := (hmask (cpuArray texts (e.stack (storeCpus 0 texts s).lineNum))).issue
    (.schedSetaffinity (affinityMask which num (cpuArray texts
      (e.stack (storeCpus 0 texts s).lineNum)) mask (storeCpus 0 texts s)).1)
  exact ⟨fun hs => ⟨(hissue.linked hs).1, (hissue.linked hs).2⟩, hissue.translated⟩

theorem affinityAs_follows (texts : List Str) (mask : Nat → Bool) :
    Follows s (affinityAs e texts mask s) True := by
  rcases texts with _ | ⟨letter, _ | ⟨which, _ | ⟨num, texts⟩⟩⟩
  · exact .refl s
  · exact .refl s
  · exact .refl s
  · exact setAffinity_follows _ _ _ _

theorem touchMask_frame (cpu : Int) (setSize : Nat) (s : State) :
    (touchMask cpu setSize s).event = s.event ∧ (touchMask cpu setSize s).opened = s.opened :=
  touchMask_elim (P := fun t => t.event = s.event ∧ t.opened = s.opened) cpu setSize ⟨rfl, rfl⟩
    fun _ => ⟨rfl, rfl⟩

/-- Neither the table nor what has been opened depends on the processors. -/
theorem affinityMask_frame (which num : Int) (cpus : Int → Int) (mask : Nat → Bool) :
    (affinityMask which num cpus mask s).2.event = s.event ∧
      (affinityMask which num cpus mask s).2.opened = s.opened := by
  have hread : ∀ (n j : Nat) (mask : Nat → Bool) (s : State),
      (readCpus cpus n j mask s).2.event = s.event ∧
        (readCpus cpus n j mask s).2.opened = s.opened := by
    intro n
    induction n with
    | zero => exact fun _ _ _ => ⟨rfl, rfl⟩
    | succ n ih =>
      intro j mask s
      have htouch := touchMask_frame (cpus j) maxCpus (s.touch .cpuArray j)
      exact ⟨(ih (j + 1) _ _).1.trans htouch.1, (ih (j + 1) _ _).2.trans htouch.2⟩
  unfold affinityMask
  split_ifs
  · exact touchMask_frame _ _ (s.touch .cpuArray 0)
  · exact hread _ _ _ _
  · exact ⟨rfl, rfl⟩

theorem storeCpus_frame (texts : List Str) : ∀ (i : Nat) (s : State),
    (storeCpus i texts s).event = s.event ∧ (storeCpus i texts s).opened = s.opened := by
  induction texts with
  | nil => exact fun _ _ => ⟨rfl, rfl⟩
  | cons t ts ih => exact fun i s => ih (i + 1) _

theorem affinityAs_frame (texts : List Str) (mask : Nat → Bool) :
    (affinityAs e texts mask s).event = s.event ∧
      (affinityAs e texts mask s).opened = s.opened := by
  rcases texts with _ | ⟨letter, _ | ⟨which, _ | ⟨num, texts⟩⟩⟩
  · exact ⟨rfl, rfl⟩
  · exact ⟨rfl, rfl⟩
  · exact ⟨rfl, rfl⟩
  · have hstore := storeCpus_frame texts 0 s
    have hmask := affinityMask_frame (s := storeCpus 0 texts s) (atoi which) (atoi num)
      (cpuArray texts (e.stack (storeCpus 0 texts s).lineNum)) mask
    exact ⟨hmask.1.trans hstore.1, hmask.2.trans hstore.2⟩

/-- What an affinity line does before it goes on as a close line. -/
theorem affinityFirst_follows :
    Follows s (if e.which .affinity then affinityEvent e line s else (line, s)).2 True ∧
      (if e.which .affinity then affinityEvent e line s else (line, s)).2.event = s.event ∧
      (if e.which .affinity then affinityEvent e line s else (line, s)).2.opened = s.opened := by
  split
  · unfold affinityEvent
    cases s.cpuMask <|> e.cpuAlloc with
    | none => exact ⟨.refl s, rfl, rfl⟩
    | some mask =>
      have hstart : Follows s { s with cpuMask := some mask } True := follows_of_eq rfl rfl rfl
      exact ⟨(hstart.trans (affinityAs_follows _ mask)).congr (and_iff_left trivial),
        affinityAs_frame _ mask⟩
  · exact ⟨.refl s, rfl, rfl⟩

/-! ## Steps and runs -/

theorem guarded_iff (hs : Linked s) (fd : Int) :
    ((s.event fd).fdRemap = -1 ∨ Current fd s) ↔ Guarded fd s :=
  or_congr_right (current_iff_known hs fd)

theorem closeEvent_translated (hs : Linked s) :
    Linked (closeEvent line s) ∧
      (Translated (closeEvent line s) ↔ Translated s ∧ CloseTranslated line s) := by
  unfold closeEvent CloseTranslated
  rcases sscanfLine [.d] line with _ | ⟨fd, _ | ⟨_, _⟩⟩
  · exact ⟨hs, (and_iff_left trivial).symm⟩
  · have h := (closeFor_follows fd).congr (guarded_iff hs fd)
    exact ⟨h.linked hs, h.translated⟩
  · exact ⟨hs, (and_iff_left trivial).symm⟩

/-- A handler behind the test of its kind. -/
theorem replayAs_translated {kind : Kind} {handler : State → State} (hs : Linked s)
    (h : Linked (handler s) ∧ (Translated (handler s) ↔ Translated s ∧ P)) :
    Linked (replayAs e kind handler s) ∧
      (Translated (replayAs e kind handler s) ↔ Translated s ∧ (e.which kind → P)) := by
  unfold replayAs
  split
  case isTrue hwhich =>
    rw [imp_iff_right hwhich]
    exact h
  case isFalse hwhich => exact ⟨hs, (and_iff_left fun h => absurd h hwhich).symm⟩

theorem Follows.at (h : Follows s s' P) (hs : Linked s) (hPQ : P ↔ Q) :
    Linked s' ∧ (Translated s' ↔ Translated s ∧ Q) :=
  ⟨h.linked hs, (h.congr hPQ).translated⟩

theorem closeTranslated_congr (line : Str) (hevent : s'.event = s.event)
    (hopened : s'.opened = s.opened) : CloseTranslated line s' ↔ CloseTranslated line s := by
  unfold CloseTranslated Guarded Known
  rw [hevent, hopened]

theorem affinityThenClose_translated (hs : Linked s) :
    Linked (affinityThenClose e line s) ∧ (Translated (affinityThenClose e line s) ↔
      Translated s ∧ CommandTranslated e line s .affinity) := by
  let first := if e.which .affinity then affinityEvent e line s else (line, s)
  obtain ⟨hfirst, hevent, hopened⟩ : Follows s first.2 True ∧ first.2.event = s.event ∧
    first.2.opened = s.opened := affinityFirst_follows
  have hlinked := hfirst.linked hs
  have hclose : Linked (replayAs e .close (closeEvent first.1) first.2) ∧
      (Translated (replayAs e .close (closeEvent first.1) first.2) ↔
        Translated first.2 ∧ (e.which .close → CloseTranslated first.1 first.2)) :=
    replayAs_translated hlinked (closeEvent_translated hlinked)
  refine ⟨hclose.1, hclose.2.trans ?_⟩
  rw [hfirst.translated, and_true, closeTranslated_congr _ hevent hopened]
  unfold CommandTranslated
  rw [apply_ite Prod.fst]

theorem runCommand_translated (hs : Linked s) (c : Command) :
    Linked (runCommand e line s c) ∧
      (Translated (runCommand e line s c) ↔ Translated s ∧ CommandTranslated e line s c) := by
  have hsame : ∀ {kind : Kind} {t : State},
      (Linked t ∧ (Translated t ↔ Translated s ∧ (e.which kind → True))) →
        Linked t ∧ (Translated t ↔ Translated s ∧ True) :=
    fun h => ⟨h.1, h.2.trans (and_congr_right fun _ => iff_of_true (fun _ => trivial) trivial)⟩
  cases c with
  | access =>
    exact hsame (replayAs_translated hs ((accessAs_follows _ _ _).at hs Iff.rfl))
  | affinity => exact affinityThenClose_translated hs
  | close => exact replayAs_translated hs (closeEvent_translated hs)
  | fork => exact hsame (replayAs_translated hs (forkEvent_follows.at hs Iff.rfl))
  | pid =>
    have hself : Follows s (runCommand e line s .pid) True := follows_of_eq rfl rfl rfl
    exact hself.at hs Iff.rfl
  | ioctl =>
    refine replayAs_translated hs ((ioctlAs_follows _ _ _).at hs ?_)
    rw [current_iff_known hs, current_iff_known hs]
    exact Iff.rfl
  | mmap => exact replayAs_translated hs ((mmapIfOpen_follows _ _).at hs (guarded_iff hs _))
  | «open» =>
    exact replayAs_translated hs ((openAs_follows _).at hs
      (or_congr_right (current_iff_known hs _)))
  | overflow =>
    exact replayAs_translated hs ((overflowFor_follows _).at hs (current_iff_known hs _))
  | prctl => exact hsame (replayAs_translated hs (((Follows.refl s).issue _).at hs Iff.rfl))
  | poll => exact replayAs_translated hs ((pollAs_follows _ _).at hs Iff.rfl)
  | trash => exact hsame (replayAs_translated hs ((trashIfOpen_follows _ _ _).at hs Iff.rfl))
  | quit =>
    have hself : Follows s (runCommand e line s .quit) True := follows_of_eq rfl rfl rfl
    exact hself.at hs Iff.rfl
  | read =>
    exact replayAs_translated hs ((readFor_follows _ _).at hs
      (or_congr_right (current_iff_known hs _)))
  | munmap => exact hsame (replayAs_translated hs ((munmapIfOpen_follows _ _).at hs Iff.rfl))
  | other => exact (Follows.refl s).at hs Iff.rfl

theorem countLine_follows : Follows s (countLine e s) True := by
  unfold countLine
  dsimp only
  split <;> exact follows_of_eq rfl rfl rfl

theorem step_translated (s : State) (h : Happening) (hs : Linked s) :
    Linked (step e s h) ∧
      (Translated (step e s h) ↔ Translated s ∧ StepTranslated e h s) := by
  unfold step StepTranslated
  split
  case isFalse hrunning =>
    cases h with
    | line text => exact ⟨hs, (and_iff_left fun h => absurd h hrunning).symm⟩
    | signal fd => exact ⟨hs, (and_iff_left trivial).symm⟩
  case isTrue hrunning =>
    cases h with
    | signal fd => exact (ourHandler_follows fd).at hs Iff.rfl
    | line text =>
      have hcount : Follows s { s with lineNum := s.lineNum + 1 } True := follows_of_eq rfl rfl rfl
      dsimp only
      rw [imp_iff_right hrunning]
      unfold replayLine
      dsimp only
      split
      case isTrue hskip => exact hcount.at hs (iff_of_true trivial (.inl hskip))
      case isFalse hskip =>
        rw [or_iff_right hskip]
        have hcommand : ∀ t, Linked t → Linked (runCommand e (cString text) t
            (command (cString text).head?)) ∧ (Translated (runCommand e (cString text) t
              (command (cString text).head?)) ↔ Translated t ∧
                CommandTranslated e (cString text) t (command (cString text).head?)) :=
          fun _ ht => runCommand_translated ht _
        obtain ⟨hlinked, htranslated⟩ := hcommand _ (hcount.linked hs)
        split
        · exact ⟨countLine_follows.linked hlinked, countLine_follows.translated.trans
            ((and_iff_left trivial).trans htranslated)⟩
        · exact ⟨hlinked, htranslated⟩

theorem startState_linked (e : Env) : Linked (startState e) where
  entry fd hfd := by
    rw [show (startState e).event fd = {} from if_pos hfd]
    exact .inl rfl
  nonneg _ _ hn := nomatch hn

/-- A replay has translated every descriptor exactly when each of its steps has met the
condition. -/
theorem replay_translated_iff (e : Env) (hs : List Happening) :
    Translated (replay e hs) ↔ Throughout (step e) (StepTranslated e) (startState e) hs := by
  have hkill : ∀ s, Translated (killChild s) ↔ Translated s := by
    intro s
    unfold killChild
    split <;> exact Iff.rfl
  have hstart : Translated (startState e) := fun x hx => nomatch hx
  rw [replay, hkill, replayFrom, foldl_iff_throughout_of_invariant
    (fun s a hs => (step_translated s a hs).1) (fun s a hs => (step_translated s a hs).2)
    (startState_linked e)]
  exact and_iff_right hstart

/-- A poll line passes the recorded number. -/
theorem replay_not_translated : ¬Translated (replay (zeroEnv fun _ => 3)
    [.line "O 5\n".toList, .line "p 1 5 1 0\n".toList]) := by
  intro h
  have hlatest := h ⟨5, 5, some 3⟩ (by decide +kernel)
  exact absurd hlatest (by decide)

end PerfEvent.Replay
