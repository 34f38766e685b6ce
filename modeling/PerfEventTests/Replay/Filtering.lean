import PerfEventTests.Replay.Mappings
import PerfEventTests.Replay.Translation

/-!
# Replaying some kinds of lines

A replay under a mask beside the replay, under the full mask, of the lines that the mask lets
through. The two runs agree in all but the numbers of the lines and the accesses, unless an
affinity line goes on as a close line.
-/

namespace PerfEvent.Replay

open Text ByteMemory Fuzzer Runs

variable {e : Env} {s s' t t' : State} {line : Str} {k : Command}

/-! ## The sub-log -/

/-- The bit of the mask that a line is replayed under. -/
def Command.kind : Command → Option Kind
  | .access => some .access
  | .affinity => some .affinity
  | .close => some .close
  | .fork => some .fork
  | .ioctl => some .ioctl
  | .mmap => some .mmap
  | .open => some .open
  | .overflow => some .overflow
  | .prctl => some .prctl
  | .poll => some .poll
  | .trash => some .trashMmap
  | .read => some .read
  | .munmap => some .munmap
  | .pid | .quit | .other => none

/-- The lines of a letter that is enabled, or that has no bit in the mask. The letter `S` has the
bit `seed`, with nothing to be done behind it. -/
def keepsLine (e : Env) (seed : Bool) (line : Str) : Bool :=
  match (command line.head?).kind with
  | some kind => e.which kind
  | none => line.head? ≠ some 'S' ∨ seed

def keeps (e : Env) (seed : Bool) : Happening → Bool
  | .line text => keepsLine e seed (cString text)
  | .signal _ => true

def subLog (e : Env) (seed : Bool) (hs : List Happening) : List Happening :=
  hs.filter (keeps e seed)

/-- The numbers that the lines of the sub-log have in the log, of which `n` lines have been read. -/
def lineNumbers (e : Env) (seed : Bool) : Nat → List Happening → List Nat
  | _, [] => []
  | n, .line text :: hs =>
    if keepsLine e seed (cString text) then (n + 1) :: lineNumbers e seed (n + 1) hs
    else lineNumbers e seed (n + 1) hs
  | n, .signal _ :: hs => lineNumbers e seed n hs

/-- The full mask. A line finds on the stack what it finds there in the whole log. -/
def Env.full (e : Env) (origin : Nat → Nat) : Env :=
  { e with
    which := fun _ => true
    stack := fun n => e.stack (origin n)
    openStack := fun n => e.openStack (origin n) }

/-- The number in the log of the `n`-th line of the sub-log. -/
def lineOrigin (e : Env) (seed : Bool) (hs : List Happening) (n : Nat) : Nat :=
  (lineNumbers e seed 0 hs).getD (n - 1) 0

def subEnv (e : Env) (seed : Bool) (hs : List Happening) : Env := e.full (lineOrigin e seed hs)

/-! ## The kind of a call -/

/-- The kind of line that a call belongs to. -/
def Call.command : Call → Command
  | .mmap .. => .mmap
  | .munmap .. => .munmap
  | .perfEventOpen .. => .open
  | .close _ => .close
  | .ioctl .. => .ioctl
  | .read .. => .read
  | .fopen .. | .fread _ | .fprintf _ | .fclose => .access
  | .schedSetaffinity _ => .affinity
  | .prctl _ => .prctl
  | .poll .. => .poll
  | .fork | .kill _ | .waitpid _ => .fork
  | .sigaction | .fcntl .. => .overflow

/-- From `s` to `s'` only operations of one kind have been done. -/
structure Issues (k : Command) (s s' : State) : Prop where
  calls : ∃ new, s'.calls = s.calls ++ new ∧ ∀ c ∈ new, c.command = k
  memsets : k = .trash ∨ s'.memsets = s.memsets

/-- A line only does operations of its own kind. -/
def OwnKind (e : Env) (h : Happening) (s : State) : Prop :=
  match h with
  | .line text => Issues (command (cString text).head?) s (step e s h)
  | .signal _ => True

/-- The replay under the mask and the replay of the sub-log. -/
structure Commutes (e : Env) (seed : Bool) (hs : List Happening) : Prop where
  calls : (replay e hs).calls = (replay (subEnv e seed hs) (subLog e seed hs)).calls
  event : (replay e hs).event = (replay (subEnv e seed hs) (subLog e seed hs)).event
  own : Throughout (step e) (OwnKind e) (startState e) hs
  ownSub : Throughout (step (subEnv e seed hs)) (OwnKind (subEnv e seed hs))
    (startState (subEnv e seed hs)) (subLog e seed hs)

/-! ## The condition -/

/-- The line, read as a close line, names an open event. -/
def Closes (line : Str) (s : State) : Prop :=
  ∃ fd, sscanfLine [.d] line = [fd] ∧ (s.event fd).fdRemap ≠ -1

/-- What an affinity line hands on to the close line behind it. -/
def handedOn (e : Env) (line : Str) (s : State) : Str :=
  if e.which .affinity then (affinityEvent e line s).1 else line

/-- An affinity line that goes on as a close line closes nothing. -/
def LineApart (e : Env) (line : Str) (s : State) : Prop :=
  command line.head? = .affinity → e.which .affinity ∨ e.which .close →
    ¬Closes (handedOn e line s) s

def AffinityApart (e : Env) (h : Happening) (s : State) : Prop := Handles e h s (LineApart e)

/-! ## Two runs side by side -/

/-- What the rest of a replay depends on, up to the numbers of its lines. -/
def State.core (s : State) : State := { s with lineNum := 0, totalSyscalls := 0, accesses := [] }

structure Like (s t : State) : Prop where
  core : s.core = t.core

namespace Like

theorem refl (s : State) : Like s s := ⟨rfl⟩

theorem symm (h : Like s t) : Like t s := ⟨h.core.symm⟩

theorem trans {u : State} (h : Like s t) (h' : Like t u) : Like s u := ⟨h.core.trans h'.core⟩

/-- What is left of a state in its core is the same. -/
theorem map {α : Type} (h : Like s t) (f : State → α) (hf : ∀ u, f u.core = f u) : f s = f t :=
  (hf s).symm.trans ((congrArg f h.core).trans (hf t))

theorem update (h : Like s t) (f : State → State) (hf : ∀ u, (f u.core).core = (f u).core) :
    Like (f s) (f t) := ⟨h.map (fun u => (f u).core) hf⟩

theorem event (h : Like s t) : s.event = t.event := h.map State.event fun _ => rfl

theorem next (h : Like s t) : e.next s = e.next t := h.map e.next fun _ => rfl

theorem calls (h : Like s t) : s.calls = t.calls := h.map State.calls fun _ => rfl

theorem progress (h : Like s t) : s.progress = t.progress := h.map State.progress fun _ => rfl

theorem forkedPid (h : Like s t) : s.forkedPid = t.forkedPid :=
  h.map State.forkedPid fun _ => rfl

theorem originalPid (h : Like s t) : s.originalPid = t.originalPid :=
  h.map State.originalPid fun _ => rfl

theorem cpuMask (h : Like s t) : s.cpuMask = t.cpuMask := h.map State.cpuMask fun _ => rfl

theorem fdOverflows (h : Like s t) : s.fdOverflows = t.fdOverflows :=
  h.map State.fdOverflows fun _ => rfl

theorem fdThrottles (h : Like s t) : s.fdThrottles = t.fdThrottles :=
  h.map State.fdThrottles fun _ => rfl

end Like

theorem Issues.refl (k : Command) (s : State) : Issues k s s :=
  ⟨⟨[], (List.append_nil _).symm, fun _ h => nomatch h⟩, .inr rfl⟩

theorem Issues.issue (h : Issues k s s') (c : Call) (hc : c.command = k) :
    Issues k s (s'.issue c) where
  calls := by
    obtain ⟨new, hcalls, hnew⟩ := h.calls
    refine ⟨new ++ [c], ?_, fun d hd => ?_⟩
    · rw [State.issue, hcalls, List.append_assoc]
    · obtain hd | hd := List.mem_append.1 hd
      · exact hnew d hd
      · rwa [List.mem_singleton.1 hd]
  memsets := h.memsets

theorem Issues.congr (h : Issues k s s') (hcalls : t.calls = s'.calls)
    (hmemsets : t.memsets = s'.memsets) : Issues k s t := by
  obtain ⟨hold, hset⟩ := h
  rw [← hcalls] at hold
  rw [← hmemsets] at hset
  exact ⟨hold, hset⟩

/-- From `s` and `t`, which are alike, the same has been done, all of one kind. -/
structure Both (k : Command) (s t s' t' : State) : Prop where
  like : Like s' t'
  left : Issues k s s'
  right : Issues k t t'
  numbers : s'.lineNum = s.lineNum ∧ t'.lineNum = t.lineNum

namespace Both

theorem refl (k : Command) (h : Like s t) : Both k s t s t := ⟨h, .refl k s, .refl k t, rfl, rfl⟩

theorem ite {p q : Prop} [Decidable p] [Decidable q] {u u' v v' : State} (hpq : p ↔ q)
    (hpos : p → Both k s t u v) (hneg : ¬p → Both k s t u' v') :
    Both k s t (if p then u else u') (if q then v else v') := by
  by_cases hp : p
  · rw [if_pos hp, if_pos (hpq.1 hp)]
    exact hpos hp
  · rw [if_neg hp, if_neg fun hq => hp (hpq.2 hq)]
    exact hneg hp

/-- An update that depends on the core, and does no operation. -/
theorem update (h : Both k s t s' t') (f : State → State)
    (hf : ∀ u, (f u.core).core = (f u).core)
    (hframe : ∀ u, (f u).calls = u.calls ∧ (f u).memsets = u.memsets ∧ (f u).lineNum = u.lineNum) :
    Both k s t (f s') (f t') where
  like := h.like.update f hf
  left := h.left.congr (hframe s').1 (hframe s').2.1
  right := h.right.congr (hframe t').1 (hframe t').2.1
  numbers := ⟨(hframe s').2.2.trans h.numbers.1, (hframe t').2.2.trans h.numbers.2⟩

theorem issue (h : Both k s t s' t') (c : Call) (hc : c.command = k) :
    Both k s t (s'.issue c) (t'.issue c) where
  like := h.like.update (fun u => u.issue c) fun _ => rfl
  left := h.left.issue c hc
  right := h.right.issue c hc
  numbers := h.numbers

theorem access (h : Both k s t s' t') (x : Access) : Both k s t (s'.access x) (t'.access x) :=
  h.update (fun u => u.access x) (fun _ => rfl) fun _ => ⟨rfl, rfl, rfl⟩

theorem touch (h : Both k s t s' t') (table : Table) (index : Int) :
    Both k s t (s'.touch table index) (t'.touch table index) := h.access _

theorem hand (h : Both k s t s' t') (fd passed : Int) :
    Both k s t (s'.hand fd passed) (t'.hand fd passed) :=
  h.update (fun u => u.hand fd passed) (fun _ => rfl) fun _ => ⟨rfl, rfl, rfl⟩

theorem setEvent (h : Both k s t s' t') (fd : Int) (f : Event → Event) :
    Both k s t (s'.setEvent fd f) (t'.setEvent fd f) :=
  h.update (fun u => u.setEvent fd f) (fun _ => rfl) fun _ => ⟨rfl, rfl, rfl⟩

theorem setOverflows (h : Both k s t s' t') (fd n : Int) :
    Both k s t (s'.setOverflows fd n) (t'.setOverflows fd n) :=
  h.update (fun u => u.setOverflows fd n) (fun _ => rfl) fun _ => ⟨rfl, rfl, rfl⟩

theorem setThrottles (h : Both k s t s' t') (fd n : Int) :
    Both k s t (s'.setThrottles fd n) (t'.setThrottles fd n) :=
  h.update (fun u => u.setThrottles fd n) (fun _ => rfl) fun _ => ⟨rfl, rfl, rfl⟩

theorem setOpened (h : Both k s t s' t') (fd n : Int) :
    Both k s t (s'.setOpened fd n) (t'.setOpened fd n) :=
  h.update (fun u => u.setOpened fd n) (fun _ => rfl) fun _ => ⟨rfl, rfl, rfl⟩

theorem hold (h : Both k s t s' t') (x : Held) : Both k s t (s'.hold x) (t'.hold x) :=
  h.update (fun u => u.hold x) (fun _ => rfl) fun _ => ⟨rfl, rfl, rfl⟩

theorem release (h : Both k s t s' t') (call : Nat) :
    Both k s t (s'.release call) (t'.release call) :=
  h.update (fun u => u.release call) (fun _ => rfl) fun _ => ⟨rfl, rfl, rfl⟩

theorem memset (h : Both .trash s t s' t') (m : Memset) :
    Both .trash s t (s'.memset m) (t'.memset m) where
  like := h.like.update (fun u => u.memset m) fun _ => rfl
  left := ⟨h.left.calls, .inl rfl⟩
  right := ⟨h.right.calls, .inl rfl⟩
  numbers := h.numbers

end Both

/-! ## The handlers -/

theorem closeFor_both (fd : Int) (h : Like s t) :
    Both .close s t (closeFor fd s) (closeFor fd t) := by
  have htouch := (Both.refl .close h).touch .event fd
  unfold closeFor
  simp only [State.event_touch, h.event]
  refine .ite Iff.rfl (fun _ => htouch) fun _ => ?_
  exact ((htouch.hand _ _).issue (.close _) rfl).setEvent _ _

theorem mapFor_both (fd length : Int) (h : Both .mmap s t s' t') :
    Both .mmap s t (mapFor e fd length s') (mapFor e fd length t') := by
  have hclear := h.setEvent fd fun ev => { ev with mmapRemap := .failed, size := 0 }
  have hissue := (hclear.hand fd (t'.event fd).fdRemap).issue
    (mmapCall length (t'.event fd).fdRemap) rfl
  unfold mapFor
  simp only [h.like.event, hclear.like.next, hclear.like.calls]
  exact .ite Iff.rfl (fun _ => hissue) fun _ => (hissue.setEvent _ _).hold _

theorem mmapIfOpen_both (fd length : Int) (h : Like s t) :
    Both .mmap s t (mmapIfOpen e fd length s) (mmapIfOpen e fd length t) := by
  have htouch := (Both.refl .mmap h).touch .event fd
  unfold mmapIfOpen
  simp only [State.event_touch, h.event]
  exact .ite Iff.rfl (fun _ => htouch) fun _ => mapFor_both fd length htouch

theorem trashIfOpen_both (fd value size : Int) (h : Like s t) :
    Both .trash s t (trashIfOpen fd value size s) (trashIfOpen fd value size t) := by
  have htouch := (Both.refl .trash h).touch .event fd
  unfold trashIfOpen
  simp only [State.event_touch, h.event]
  refine .ite Iff.rfl (fun _ => htouch) fun _ => ?_
  cases (t.event fd).mmapRemap with
  | failed => exact htouch
  | null => exact htouch
  | mapped call length => exact (htouch.access _).memset _

theorem unmap_both (region : Region) (size : Int) (h : Both .munmap s t s' t') :
    Both .munmap s t (unmap e region size s') (unmap e region size t') := by
  have hissue := h.issue (.munmap region size) rfl
  unfold unmap
  simp only [h.like.next]
  cases region with
  | failed => exact hissue
  | null => exact hissue
  | mapped call length => exact .ite Iff.rfl (fun _ => hissue) fun _ => hissue.release call

theorem munmapIfOpen_both (fd size : Int) (h : Like s t) :
    Both .munmap s t (munmapIfOpen e fd size s) (munmapIfOpen e fd size t) := by
  have htouch := (Both.refl .munmap h).touch .event fd
  have hclear := htouch.setEvent fd fun ev => { ev with mmapRemap := .failed }
  unfold munmapIfOpen
  simp only [State.event_touch, h.event]
  refine .ite Iff.rfl (fun _ => htouch) fun _ => ?_
  refine .ite Iff.rfl (fun _ => hclear) fun _ => ?_
  exact .ite Iff.rfl (fun _ => hclear) fun _ => unmap_both _ _ hclear

theorem recordOpen_both (recorded fd : Int) (h : Both .open s t s' t') :
    Both .open s t (recordOpen recorded fd s') (recordOpen recorded fd t') := by
  have hrecord := (h.touch .event recorded).setEvent recorded fun ev =>
    { ev with fdRemap := fd, mmapRemap := .failed }
  unfold recordOpen
  refine .ite Iff.rfl (fun _ => h) fun _ => .ite Iff.rfl (fun _ => hrecord) fun _ => ?_
  exact (((hrecord.touch _ _).setOverflows _ _).touch _ _).setThrottles _ _

theorem remapGroup_both (groupFd : Int) (h : Like s t) :
    (remapGroup groupFd s).1 = (remapGroup groupFd t).1 ∧
      Both .open s t (remapGroup groupFd s).2 (remapGroup groupFd t).2 := by
  unfold remapGroup
  simp only [State.event_touch, h.event]
  split
  · exact ⟨rfl, .refl .open h⟩
  · exact ⟨rfl, ((Both.refl .open h).touch .event groupFd).hand _ _⟩

theorem openAs_both (o : OpenVars) (h : Like s t) :
    Both .open s t (openAs e o s) (openAs e o t) := by
  obtain ⟨hgroup, hboth⟩ := remapGroup_both o.groupFd.toInt h
  unfold openAs
  simp only [h.originalPid, hgroup, hboth.like.next]
  have hissue := hboth.issue (.perfEventOpen o.pe
    (if o.pid.toInt = t.originalPid then e.ownPid else o.pid.toInt) o.cpu.toInt
    (remapGroup o.groupFd.toInt t).1 o.flags) rfl
  exact .ite Iff.rfl (fun _ => hissue) fun _ => recordOpen_both _ _ (hissue.setOpened _ _)

theorem ioctlFor_both (fd request : Int) (arg : Argument) (h : Both .ioctl s t s' t') :
    Both .ioctl s t (ioctlFor fd request arg s') (ioctlFor fd request arg t') := by
  unfold ioctlFor
  simp only [h.like.event]
  exact (h.hand _ _).issue _ rfl

theorem ioctlAs_both (fd request arg : Int) (h : Like s t) :
    Both .ioctl s t (ioctlAs fd request arg s) (ioctlAs fd request arg t) := by
  have htouch := (Both.refl .ioctl h).touch .event fd
  unfold ioctlAs
  simp only [State.event_touch, h.event]
  split_ifs
  · exact ioctlFor_both _ _ _ htouch
  · exact ioctlFor_both _ _ _ ((htouch.touch _ _).hand _ _)
  · exact ioctlFor_both _ _ _ htouch
  · exact ioctlFor_both _ _ _ htouch
  · exact ioctlFor_both _ _ _ htouch

theorem readFor_both (fd size : Int) (h : Like s t) :
    Both .read s t (readFor fd size s) (readFor fd size t) := by
  have hself := Both.refl .read h
  unfold readFor
  simp only [State.event_touch, h.event]
  split
  · exact hself
  · exact (((hself.touch _ _).hand _ _).access _).issue _ rfl

theorem overflowFor_both (fd : Int) (h : Like s t) :
    Both .overflow s t (overflowFor fd s) (overflowFor fd t) := by
  have hfor : ∀ {s' t' : State} (command : Nat), Both .overflow s t s' t' →
      Both .overflow s t (fcntlFor fd command s') (fcntlFor fd command t') := by
    intro s' t' command hboth
    unfold fcntlFor
    simp only [hboth.like.event]
    exact (hboth.hand _ _).issue _ rfl
  simp only [overflowFor, overflowCommands, List.foldl_cons, List.foldl_nil]
  exact hfor _ (hfor _ (hfor _ (((Both.refl .overflow h).issue .sigaction rfl).touch _ _)))

theorem accessAs_both (type which size : Int) (h : Like s t) :
    Both .access s t (accessAs e type which size s) (accessAs e type which size t) := by
  have hself := Both.refl .access h
  have hopen := (hself.touch .filenames which).issue (.fopen which (type ≠ 0)) rfl
  unfold accessAs accessFile
  simp only [h.next]
  split_ifs
  · exact hself.update (fun u => { u with progress := .exited }) (fun _ => rfl)
      fun _ => ⟨rfl, rfl, rfl⟩
  · exact hopen
  · exact ((hopen.access _).issue _ rfl).issue _ rfl
  · exact (hopen.issue _ rfl).issue _ rfl

theorem pollEntries_both (n : Nat) : ∀ (i : Nat) (texts : List Str) {s' t' : State},
    Both .poll s t s' t' →
      (pollEntries n i texts s').1 = (pollEntries n i texts t').1 ∧
      (pollEntries n i texts s').2.1 = (pollEntries n i texts t').2.1 ∧
      Both .poll s t (pollEntries n i texts s').2.2 (pollEntries n i texts t').2.2 := by
  induction n with
  | zero => exact fun _ _ _ _ h => ⟨rfl, rfl, h⟩
  | succ n ih =>
    rintro i (_ | ⟨fd, _ | ⟨events, texts⟩⟩) s' t' h
    · exact ⟨rfl, rfl, h⟩
    · exact ⟨rfl, rfl, (h.touch _ _).hand _ _⟩
    · obtain ⟨hentries, htexts, hboth⟩ := ih (i + 1) texts
        ((h.touch .pollfds i).hand (atoi fd) (atoi fd))
      exact ⟨congrArg (_ :: ·) hentries, htexts, hboth⟩

theorem pollAs_both (num : Int) (texts : List Str) (h : Like s t) :
    Both .poll s t (pollAs num texts s) (pollAs num texts t) := by
  obtain ⟨hentries, htexts, hboth⟩ := pollEntries_both num.toNat 0 texts (Both.refl .poll h)
  unfold pollAs
  simp only [hentries, htexts]
  exact (hboth.access _).issue _ rfl

theorem forkEvent_both (h : Like s t) :
    Both .fork s t (forkEvent e line s) (forkEvent e line t) := by
  have hself := Both.refl .fork h
  unfold forkEvent Env.forked
  simp only [h.next, h.forkedPid]
  split
  · exact (hself.issue .fork rfl).update
      (fun u => { u with forkedPid := if 0 < e.next t then e.next t else -1 }) (fun _ => rfl)
      fun _ => ⟨rfl, rfl, rfl⟩
  · exact (hself.issue _ rfl).issue _ rfl

/-! ### Affinity -/

theorem storeCpus_both (texts : List Str) : ∀ (i : Nat) {s' t' : State},
    Both .affinity s t s' t' →
      Both .affinity s t (storeCpus i texts s') (storeCpus i texts t') := by
  induction texts with
  | nil => exact fun _ _ _ h => h
  | cons text texts ih => exact fun i _ _ h => ih (i + 1) (h.touch _ _)

theorem touchMask_both (cpu : Int) (setSize : Nat) (h : Both .affinity s t s' t') :
    Both .affinity s t (touchMask cpu setSize s') (touchMask cpu setSize t') := by
  unfold touchMask
  dsimp only
  split
  · exact h.touch _ _
  · exact h

theorem readCpus_both (cpus : Int → Int) (n : Nat) : ∀ (j : Nat) (mask : Nat → Bool)
    {s' t' : State}, Both .affinity s t s' t' →
      (readCpus cpus n j mask s').1 = (readCpus cpus n j mask t').1 ∧
      Both .affinity s t (readCpus cpus n j mask s').2 (readCpus cpus n j mask t').2 := by
  induction n with
  | zero => exact fun _ _ _ _ h => ⟨rfl, h⟩
  | succ n ih => exact fun j _ _ _ h => ih (j + 1) _ (touchMask_both _ _ (h.touch _ _))

theorem affinityMask_both (which num : Int) (cpus : Int → Int) (mask : Nat → Bool)
    (h : Both .affinity s t s' t') :
    (affinityMask which num cpus mask s').1 = (affinityMask which num cpus mask t').1 ∧
      Both .affinity s t (affinityMask which num cpus mask s').2
        (affinityMask which num cpus mask t').2 := by
  unfold affinityMask
  split_ifs
  · exact ⟨rfl, touchMask_both _ _ (h.touch _ _)⟩
  · exact readCpus_both _ _ _ _ h
  · exact ⟨rfl, h⟩

variable {origin : Nat → Nat}

theorem setAffinity_both (which num : Int) (texts : List Str) (mask : Nat → Bool)
    (horigin : origin t.lineNum = s.lineNum) (h : Both .affinity s t s' t') :
    Both .affinity s t (setAffinity e which num texts mask s')
      (setAffinity (e.full origin) which num texts mask t') := by
  have hstore := storeCpus_both texts 0 h
  have hstack : (e.full origin).stack (storeCpus 0 texts t').lineNum =
      e.stack (storeCpus 0 texts s').lineNum := by
    rw [hstore.numbers.1, hstore.numbers.2]
    exact congrArg e.stack horigin
  obtain ⟨hmask, hboth⟩ := affinityMask_both which num
    (cpuArray texts (e.stack (storeCpus 0 texts s').lineNum)) mask hstore
  unfold setAffinity
  simp only [hstack, hmask]
  exact (hboth.issue (.schedSetaffinity _) rfl).update
    (fun u => { u with cpuMask := some _ }) (fun _ => rfl) fun _ => ⟨rfl, rfl, rfl⟩

theorem affinityAs_both (texts : List Str) (mask : Nat → Bool)
    (horigin : origin t.lineNum = s.lineNum) (h : Both .affinity s t s' t') :
    Both .affinity s t (affinityAs e texts mask s')
      (affinityAs (e.full origin) texts mask t') := by
  rcases texts with _ | ⟨letter, _ | ⟨which, _ | ⟨num, texts⟩⟩⟩
  · exact h
  · exact h
  · exact h
  · exact setAffinity_both _ _ _ _ horigin h

theorem affinityEvent_both (horigin : origin t.lineNum = s.lineNum) (h : Like s t) :
    (affinityEvent (e.full origin) line t).1 = (affinityEvent e line s).1 ∧
      Both .affinity s t (affinityEvent e line s).2 (affinityEvent (e.full origin) line t).2 := by
  have hself := Both.refl .affinity h
  have halloc : (t.cpuMask <|> (e.full origin).cpuAlloc) = (s.cpuMask <|> e.cpuAlloc) :=
    congrArg (· <|> e.cpuAlloc) h.cpuMask.symm
  unfold affinityEvent
  rw [halloc]
  cases s.cpuMask <|> e.cpuAlloc with
  | none => exact ⟨rfl, hself⟩
  | some mask =>
    refine ⟨rfl, affinityAs_both _ mask horigin ?_⟩
    exact hself.update (fun u => { u with cpuMask := some mask }) (fun _ => rfl)
      fun _ => ⟨rfl, rfl, rfl⟩

/-! ### Signals -/

theorem Like.ite {p q : Prop} [Decidable p] [Decidable q] {u u' v v' : State} (hpq : p ↔ q)
    (hpos : Like u v) (hneg : Like u' v') : Like (if p then u else u') (if q then v else v') := by
  by_cases hp : p
  · rwa [if_pos hp, if_pos (hpq.1 hp)]
  · rwa [if_neg hp, if_neg fun hq => hp (hpq.2 hq)]

theorem ourHandler_like (fd : Int) (h : Like s t) : Like (ourHandler fd s) (ourHandler fd t) := by
  have hcount : Like
      (((s.issue (.ioctl fd perfEventIocDisable (.value 0))).touch .fdOverflows fd).setOverflows fd
        (s.fdOverflows fd + 1))
      (((t.issue (.ioctl fd perfEventIocDisable (.value 0))).touch .fdOverflows fd).setOverflows fd
        (t.fdOverflows fd + 1)) :=
    h.update (fun u => ((u.issue (.ioctl fd perfEventIocDisable (.value 0))).touch .fdOverflows
      fd).setOverflows fd (u.fdOverflows fd + 1)) fun _ => rfl
  have hoverflows : s.fdOverflows fd + 1 > 10000 ↔ t.fdOverflows fd + 1 > 10000 := by
    rw [h.fdOverflows]
  have hthrottles : s.fdThrottles fd + 1 > replayMaxThrottles ↔
      t.fdThrottles fd + 1 > replayMaxThrottles := by
    rw [h.fdThrottles]
  have hthrottle := hcount.update (fun u => ((u.touch .fdThrottles fd).setThrottles fd
    (u.fdThrottles fd + 1)).setOverflows fd 0) fun _ => rfl
  refine .ite hoverflows (.ite hthrottles ?_ hthrottle) ?_
  · exact hthrottle.update (fun u => ((u.issue (.close fd)).touch .event fd).setEvent fd
      fun ev => { ev with fdRemap := -1 }) fun _ => rfl
  · exact hcount.update (fun u => u.issue (.ioctl fd perfEventIocRefresh (.value 1))) fun _ => rfl

theorem ourHandler_lineNum (fd : Int) : (ourHandler fd s).lineNum = s.lineNum := by
  unfold ourHandler throttleOverflow
  dsimp only
  split_ifs <;> rfl

/-! ## One line -/

theorem Both.symm (h : Both k s t s' t') : Both k t s t' s' :=
  ⟨h.like.symm, h.right, h.left, h.numbers.2, h.numbers.1⟩

/-- An access on one side only. -/
theorem Both.touchLeft (h : Both k s t s' t') (table : Table) (index : Int) :
    Both k s t (s'.touch table index) t' :=
  ⟨⟨h.like.core⟩, h.left.congr rfl rfl, h.right, h.numbers⟩

theorem replayAs_both {kind : Kind} {f g : State → State} (hkind : e.which kind = true)
    (h : Both k s t (f s) (g t)) :
    Both k s t (replayAs e kind f s) (replayAs (e.full origin) kind g t) := by
  unfold replayAs
  rw [if_pos hkind]
  exact h

/-- A line that is replayed under both masks. -/
theorem runCommand_both {c : Command} (hc : c ≠ .affinity)
    (hkind : ∀ kind, c.kind = some kind → e.which kind = true)
    (horigin : origin t.lineNum = s.lineNum) (h : Like s t) :
    Both c s t (runCommand e line s c) (runCommand (e.full origin) line t c) := by
  have hstack : (e.full origin).stack t.lineNum = e.stack s.lineNum := congrArg e.stack horigin
  have hopenStack : (e.full origin).openStack t.lineNum = e.openStack s.lineNum :=
    congrArg e.openStack horigin
  cases c with
  | access =>
    refine replayAs_both (hkind _ rfl) ?_
    unfold accessEvent
    rw [hstack]
    exact accessAs_both _ _ _ h
  | affinity => exact absurd rfl hc
  | close =>
    refine replayAs_both (hkind _ rfl) ?_
    unfold closeEvent
    split
    · exact closeFor_both _ h
    · exact .refl _ h
  | fork => exact replayAs_both (hkind _ rfl) (forkEvent_both h)
  | pid =>
    have hpid : Both .pid s t
        { s with originalPid := (sscanfLine [.d] line).getD 0 s.originalPid }
        { t with originalPid := (sscanfLine [.d] line).getD 0 t.originalPid } :=
      (Both.refl .pid h).update (fun u =>
        { u with originalPid := (sscanfLine [.d] line).getD 0 u.originalPid }) (fun _ => rfl)
        fun _ => ⟨rfl, rfl, rfl⟩
    exact hpid
  | ioctl =>
    refine replayAs_both (hkind _ rfl) ?_
    unfold ioctlEvent
    rw [hstack]
    exact ioctlAs_both _ _ _ h
  | mmap =>
    refine replayAs_both (hkind _ rfl) ?_
    unfold mmapEvent
    rw [hstack]
    exact mmapIfOpen_both _ _ h
  | «open» =>
    refine replayAs_both (hkind _ rfl) ?_
    unfold openEvent
    rw [hopenStack]
    exact openAs_both _ h
  | overflow =>
    refine replayAs_both (hkind _ rfl) ?_
    unfold setupOverflow
    rw [hstack]
    exact overflowFor_both _ h
  | prctl => exact replayAs_both (hkind _ rfl) ((Both.refl .prctl h).issue _ rfl)
  | poll =>
    refine replayAs_both (hkind _ rfl) ?_
    unfold pollEvent
    rw [hstack]
    exact pollAs_both _ _ h
  | trash =>
    refine replayAs_both (hkind _ rfl) ?_
    unfold trashMmapEvent
    rw [hstack]
    exact trashIfOpen_both _ _ _ h
  | quit =>
    exact (Both.refl .quit h).update (fun u => { u with progress := .exited }) (fun _ => rfl)
      fun _ => ⟨rfl, rfl, rfl⟩
  | read =>
    refine replayAs_both (hkind _ rfl) ?_
    unfold readEvent
    rw [hstack]
    exact readFor_both _ _ h
  | munmap =>
    refine replayAs_both (hkind _ rfl) ?_
    unfold munmapEvent
    rw [hstack]
    exact munmapIfOpen_both _ _ h
  | other => exact .refl _ h

/-- A line that is not replayed. -/
theorem runCommand_off {c : Command} (hc : c ≠ .affinity) {kind : Kind} (hkind : c.kind = some kind)
    (hoff : e.which kind = false) : runCommand e line s c = s := by
  have hself : ∀ f, replayAs e kind f s = s := fun f => if_neg (by rw [hoff]; decide)
  cases c with
  | affinity => exact absurd rfl hc
  | pid | quit | other => cases hkind
  | _ =>
    cases hkind
    exact hself _

/-! ### Affinity lines -/

/-- What happens before the line goes on as a close line. -/
def affinityFirst (e : Env) (line : Str) (s : State) : Str × State :=
  if e.which .affinity then affinityEvent e line s else (line, s)

theorem affinityThenClose_eq : affinityThenClose e line s =
    replayAs e .close (closeEvent (affinityFirst e line s).1) (affinityFirst e line s).2 := rfl

theorem handedOn_eq : handedOn e line s = (affinityFirst e line s).1 := by
  unfold handedOn affinityFirst
  split <;> rfl

theorem closes_congr (hevent : s'.event = s.event) : Closes line s' ↔ Closes line s := by
  unfold Closes
  rw [hevent]

theorem affinityFirst_closes {text : Str} :
    Closes text (affinityFirst e line s).2 ↔ Closes text s :=
  closes_congr affinityFirst_follows.2.1

theorem closeEvent_quiet (hquiet : ¬Closes line s') (h : Both k s t s' t') :
    Both k s t (closeEvent line s') t' := by
  unfold closeEvent
  split
  · next fd hscan =>
    have hclosed : (s'.event fd).fdRemap = -1 := by
      by_contra hopen
      exact hquiet ⟨fd, hscan, hopen⟩
    rw [show closeFor fd s' = s'.touch .event fd from if_pos hclosed]
    exact h.touchLeft _ _
  · exact h

theorem closeEvent_not_issues (hcloses : Closes line s') (hk : k ≠ .close)
    (h : Issues k s s') : ¬Issues k s (closeEvent line s') := by
  obtain ⟨fd, hscan, hopen⟩ := hcloses
  have hclose : (closeEvent line s').calls = s'.calls ++ [.close (s'.event fd).fdRemap] := by
    unfold closeEvent
    rw [hscan]
    exact congrArg State.calls (if_neg hopen)
  intro h'
  obtain ⟨old, hold, -⟩ := h.calls
  obtain ⟨new, hnew, hkind⟩ := h'.calls
  rw [hclose, hold, List.append_assoc, List.append_cancel_left_eq] at hnew
  have hmem : Call.close (s'.event fd).fdRemap ∈ new := by
    rw [← hnew]
    exact List.mem_append_right _ (List.mem_singleton_self _)
  exact hk (hkind _ hmem).symm

theorem affinityFirst_both (line : Str) (hkind : e.which .affinity = true)
    (horigin : origin t.lineNum = s.lineNum) (h : Like s t) :
    (affinityFirst (e.full origin) line t).1 = (affinityFirst e line s).1 ∧
      Both .affinity s t (affinityFirst e line s).2 (affinityFirst (e.full origin) line t).2 := by
  have hleft : affinityFirst e line s = affinityEvent e line s := if_pos hkind
  have hright : affinityFirst (e.full origin) line t = affinityEvent (e.full origin) line t :=
    if_pos rfl
  rw [hleft, hright]
  exact affinityEvent_both horigin h

/-- Under the full mask the line always goes on. -/
theorem affinityThenClose_full : affinityThenClose (e.full origin) line t =
    closeEvent (affinityFirst (e.full origin) line t).1
      (affinityFirst (e.full origin) line t).2 := by
  rw [affinityThenClose_eq]
  exact if_pos rfl

theorem affinityLine_kept (line : Str) (hkind : e.which .affinity = true)
    (horigin : origin t.lineNum = s.lineNum) (h : Like s t) :
    (¬Closes (handedOn e line s) s → Both .affinity s t (affinityThenClose e line s)
        (affinityThenClose (e.full origin) line t)) ∧
      (Issues .affinity t (affinityThenClose (e.full origin) line t) →
        ¬Closes (handedOn e line s) s) := by
  obtain ⟨hfst, hboth⟩ := affinityFirst_both line hkind horigin h
  have hcloses : Closes (handedOn e line s) (affinityFirst (e.full origin) line t).2 ↔
      Closes (handedOn e line s) s :=
    (closes_congr hboth.like.event.symm).trans affinityFirst_closes
  rw [affinityThenClose_full, affinityThenClose_eq, hfst, ← handedOn_eq]
  constructor
  · intro hquiet
    have hright := (closeEvent_quiet (mt hcloses.1 hquiet) hboth.symm).symm
    unfold replayAs
    split
    · exact closeEvent_quiet (mt affinityFirst_closes.1 hquiet) hright
    · exact hright
  · intro hissues hbad
    exact closeEvent_not_issues (hcloses.2 hbad) (by decide) hboth.right hissues

theorem affinityLine_dropped (line : Str) (hkind : e.which .affinity = false) (h : Like s t) :
    ((e.which .close → ¬Closes line s) → Both .affinity s t (affinityThenClose e line s) t) ∧
      (Issues .affinity s (affinityThenClose e line s) → e.which .close → ¬Closes line s) := by
  have hfirst : affinityFirst e line s = (line, s) := if_neg (by rw [hkind]; decide)
  rw [affinityThenClose_eq, hfirst]
  unfold replayAs
  constructor
  · intro hquiet
    split
    · next hclose => exact closeEvent_quiet (hquiet hclose) (.refl _ h)
    · exact .refl _ h
  · intro hissues hclose hbad
    rw [if_pos hclose] at hissues
    exact closeEvent_not_issues hbad (by decide) (.refl _ s) hissues

/-! ### The step lemmas -/

variable {seed : Bool}

theorem dispatch_kept (hkeeps : keepsLine e seed line = true)
    (horigin : origin t.lineNum = s.lineNum) (h : Like s t) :
    (LineApart e line s → Both (command line.head?) s t (dispatch e line s)
        (dispatch (e.full origin) line t)) ∧
      (Issues (command line.head?) t (dispatch (e.full origin) line t) → LineApart e line s) := by
  unfold dispatch
  by_cases hc : command line.head? = .affinity
  · have hkind : e.which .affinity = true := by
      unfold keepsLine at hkeeps
      rw [hc] at hkeeps
      exact hkeeps
    have hline := affinityLine_kept line hkind horigin h
    rw [hc]
    refine ⟨fun hapart => hline.1 (hapart hc (.inl hkind)), fun hissues _ _ => ?_⟩
    exact hline.2 hissues
  · have hkind : ∀ kind, (command line.head?).kind = some kind → e.which kind = true := by
      intro kind hkind
      unfold keepsLine at hkeeps
      rw [hkind] at hkeeps
      exact hkeeps
    exact ⟨fun _ => runCommand_both hc hkind horigin h, fun _ haffinity => absurd haffinity hc⟩

theorem dispatch_dropped (hdropped : keepsLine e seed line = false) (h : Like s t) :
    (LineApart e line s → Both (command line.head?) s t (dispatch e line s) t) ∧
      (Issues (command line.head?) s (dispatch e line s) → LineApart e line s) := by
  unfold dispatch
  by_cases hc : command line.head? = .affinity
  · have hkind : e.which .affinity = false := by
      unfold keepsLine at hdropped
      rw [hc] at hdropped
      exact hdropped
    have hoff : ¬e.which .affinity = true := by
      rw [hkind]
      decide
    have hhanded : handedOn e line s = line := if_neg hoff
    obtain ⟨hquiet, hissued⟩ := affinityLine_dropped line hkind h
    rw [hc]
    constructor
    · intro hapart
      refine hquiet fun hclose => ?_
      rw [← hhanded]
      exact hapart hc (.inr hclose)
    · intro hissues _ hwhich
      rw [hhanded]
      exact hissued hissues (hwhich.resolve_left hoff)
  · have hself : runCommand e line s (command line.head?) = s := by
      unfold keepsLine at hdropped
      split at hdropped
      · next kind hkind => exact runCommand_off hc hkind hdropped
      · have hhead : line.head? = some 'S' := by
          by_contra hhead
          simp [hhead] at hdropped
        rw [hhead]
        rfl
    rw [hself]
    exact ⟨fun _ => .refl _ h, fun _ haffinity => absurd haffinity hc⟩

/-- No line is left out, and the loop does not stop early. -/
structure Env.Whole (e : Env) : Prop where
  skip : e.skipLines = 0
  stop : e.stopLines = 0

/-- What a step does to a line that is read. -/
theorem step_line (he : e.Whole) (hs : s.progress = .running) (text : Str) :
    ∃ n, step e s (.line text) =
      { dispatch e (cString text) { s with lineNum := s.lineNum + 1 } with totalSyscalls := n } := by
  have hread : ¬(2 < s.lineNum + 1 ∧ s.lineNum + 1 < e.skipLines) := by
    rw [he.skip]
    omega
  have hstep : step e s (.line text) = replayLine e text s := if_pos hs
  rw [hstep]
  unfold replayLine countLine
  dsimp only
  rw [if_neg hread]
  split
  · rw [if_neg fun h => h.1 he.stop]
    exact ⟨_, rfl⟩
  · exact ⟨_, rfl⟩

theorem handles_iff (he : e.Whole) (hs : s.progress = .running) (text : Str)
    (P : Str → State → Prop) :
    Handles e (.line text) s P ↔ P (cString text) { s with lineNum := s.lineNum + 1 } := by
  have hread : ¬(2 < s.lineNum + 1 ∧ s.lineNum + 1 < e.skipLines) := by
    rw [he.skip]
    omega
  exact ⟨fun h => h hs hread, fun h _ _ => h⟩

theorem ownKind_iff (he : e.Whole) (hs : s.progress = .running) (text : Str) :
    OwnKind e (.line text) s ↔ Issues (command (cString text).head?)
      { s with lineNum := s.lineNum + 1 }
      (dispatch e (cString text) { s with lineNum := s.lineNum + 1 }) := by
  obtain ⟨n, hn⟩ := step_line he hs text
  unfold OwnKind
  dsimp only
  rw [hn]
  exact ⟨fun h => ⟨h.calls, h.memsets⟩, fun h => ⟨h.calls, h.memsets⟩⟩

theorem like_step (he : e.Whole) (hs : s.progress = .running) (text : Str) :
    Like (step e s (.line text))
      (dispatch e (cString text) { s with lineNum := s.lineNum + 1 }) ∧
    (step e s (.line text)).lineNum =
      (dispatch e (cString text) { s with lineNum := s.lineNum + 1 }).lineNum := by
  obtain ⟨n, hn⟩ := step_line he hs text
  rw [hn]
  exact ⟨⟨rfl⟩, rfl⟩

theorem full_whole (he : e.Whole) : (e.full origin).Whole := ⟨he.skip, he.stop⟩

theorem step_kept (he : e.Whole) (hs : s.progress = .running) (h : Like s t) {text : Str}
    (hkeeps : keepsLine e seed (cString text) = true)
    (horigin : origin (t.lineNum + 1) = s.lineNum + 1) :
    (AffinityApart e (.line text) s ↔
      OwnKind e (.line text) s ∧ OwnKind (e.full origin) (.line text) t) ∧
    (AffinityApart e (.line text) s →
      Like (step e s (.line text)) (step (e.full origin) t (.line text)) ∧
      (step e s (.line text)).lineNum = s.lineNum + 1 ∧
      (step (e.full origin) t (.line text)).lineNum = t.lineNum + 1) := by
  have ht : t.progress = .running := h.progress.symm.trans hs
  have hnext : Like { s with lineNum := s.lineNum + 1 } { t with lineNum := t.lineNum + 1 } :=
    ⟨h.core⟩
  obtain ⟨hboth, hback⟩ := dispatch_kept hkeeps horigin hnext
  obtain ⟨hlike, hnum⟩ := like_step he hs text
  obtain ⟨hlike', hnum'⟩ := like_step (full_whole he) ht text
  rw [AffinityApart, handles_iff he hs, ownKind_iff he hs, ownKind_iff (full_whole he) ht]
  constructor
  · exact ⟨fun hapart => ⟨(hboth hapart).left, (hboth hapart).right⟩, fun hown => hback hown.2⟩
  · intro hapart
    have hdone := hboth hapart
    exact ⟨(hlike.trans hdone.like).trans hlike'.symm, hnum.trans hdone.numbers.1,
      hnum'.trans hdone.numbers.2⟩

theorem step_dropped (he : e.Whole) (hs : s.progress = .running) (h : Like s t) {text : Str}
    (hdropped : keepsLine e seed (cString text) = false) :
    (AffinityApart e (.line text) s ↔ OwnKind e (.line text) s) ∧
    (AffinityApart e (.line text) s →
      Like (step e s (.line text)) t ∧ (step e s (.line text)).lineNum = s.lineNum + 1) := by
  have hnext : Like { s with lineNum := s.lineNum + 1 } t := ⟨h.core⟩
  obtain ⟨hboth, hback⟩ := dispatch_dropped hdropped hnext
  obtain ⟨hlike, hnum⟩ := like_step he hs text
  rw [AffinityApart, handles_iff he hs, ownKind_iff he hs]
  refine ⟨⟨fun hapart => (hboth hapart).left, hback⟩, fun hapart => ?_⟩
  exact ⟨hlike.trans (hboth hapart).like, hnum.trans (hboth hapart).numbers.1⟩

/-! ## Runs -/

theorem step_stuck (hs : s.progress ≠ .running) (h : Happening) : step e s h = s := if_neg hs

theorem foldl_stuck (hs : s.progress ≠ .running) (as : List Happening) :
    as.foldl (step e) s = s := by
  induction as with
  | nil => rfl
  | cons a as ih => rw [List.foldl_cons, step_stuck hs, ih]

theorem throughout_stuck {C : Happening → State → Prop} (hs : s.progress ≠ .running)
    (hC : ∀ h, C h s) (as : List Happening) : Throughout (step e) C s as := by
  induction as with
  | nil => exact trivial
  | cons a as ih =>
    refine ⟨hC a, ?_⟩
    rw [step_stuck hs]
    exact ih

theorem ownKind_stuck (hs : s.progress ≠ .running) (h : Happening) : OwnKind e h s := by
  cases h with
  | line text =>
    unfold OwnKind
    dsimp only
    rw [step_stuck hs]
    exact .refl _ s
  | signal fd => exact trivial

theorem affinityApart_stuck (hs : s.progress ≠ .running) (h : Happening) :
    AffinityApart e h s := by
  cases h with
  | line text => exact fun hrunning => absurd hrunning hs
  | signal fd => exact trivial

/-- The run of a log from `s`, and the run of its sub-log from `t`. -/
structure SideBySide (e : Env) (origin : Nat → Nat) (seed : Bool) (as : List Happening)
    (s t : State) : Prop where
  own : Throughout (step e) (AffinityApart e) s as ↔
    Throughout (step e) (OwnKind e) s as ∧
      Throughout (step (e.full origin)) (OwnKind (e.full origin)) t (subLog e seed as)
  like : Throughout (step e) (AffinityApart e) s as →
    Like (as.foldl (step e) s) ((subLog e seed as).foldl (step (e.full origin)) t)

namespace SideBySide

variable {as : List Happening} {text : Str}

theorem stuck (hs : s.progress ≠ .running) (h : Like s t) : SideBySide e origin seed as s t := by
  have ht : t.progress ≠ .running := fun ht => hs (h.progress.trans ht)
  constructor
  · refine iff_of_true (throughout_stuck hs (affinityApart_stuck hs) _) ⟨?_, ?_⟩
    · exact throughout_stuck hs (ownKind_stuck hs) _
    · exact throughout_stuck ht (ownKind_stuck ht) _
  · intro _
    rwa [foldl_stuck hs, foldl_stuck ht]

theorem signal {fd : Int} (h : SideBySide e origin seed as (step e s (.signal fd))
    (step (e.full origin) t (.signal fd))) : SideBySide e origin seed (.signal fd :: as) s t := by
  refine ⟨⟨fun hapart => ?_, fun hown => ?_⟩, fun hapart => h.like hapart.2⟩
  · have hafter := h.own.1 hapart.2
    exact ⟨⟨trivial, hafter.1⟩, trivial, hafter.2⟩
  · exact ⟨trivial, h.own.2 ⟨hown.1.2, hown.2.2⟩⟩

theorem kept (hkeeps : keepsLine e seed (cString text) = true)
    (hown : AffinityApart e (.line text) s ↔
      OwnKind e (.line text) s ∧ OwnKind (e.full origin) (.line text) t)
    (h : AffinityApart e (.line text) s → SideBySide e origin seed as (step e s (.line text))
      (step (e.full origin) t (.line text))) : SideBySide e origin seed (.line text :: as) s t := by
  have hsub : subLog e seed (.line text :: as) = .line text :: subLog e seed as :=
    List.filter_cons_of_pos hkeeps
  constructor
  · rw [hsub]
    constructor
    · intro hapart
      have hstep := hown.1 hapart.1
      have hafter := (h hapart.1).own.1 hapart.2
      exact ⟨⟨hstep.1, hafter.1⟩, hstep.2, hafter.2⟩
    · intro hboth
      have hapart := hown.2 ⟨hboth.1.1, hboth.2.1⟩
      exact ⟨hapart, (h hapart).own.2 ⟨hboth.1.2, hboth.2.2⟩⟩
  · intro hapart
    rw [hsub]
    exact (h hapart.1).like hapart.2

theorem dropped (hdropped : keepsLine e seed (cString text) = false)
    (hown : AffinityApart e (.line text) s ↔ OwnKind e (.line text) s)
    (h : AffinityApart e (.line text) s → SideBySide e origin seed as (step e s (.line text)) t) :
    SideBySide e origin seed (.line text :: as) s t := by
  have hsub : subLog e seed (.line text :: as) = subLog e seed as :=
    List.filter_cons_of_neg (by simp [keeps, hdropped])
  constructor
  · rw [hsub]
    constructor
    · intro hapart
      have hafter := (h hapart.1).own.1 hapart.2
      exact ⟨⟨hown.1 hapart.1, hafter.1⟩, hafter.2⟩
    · intro hboth
      have hapart := hown.2 hboth.1.1
      exact ⟨hapart, (h hapart).own.2 ⟨hboth.1.2, hboth.2⟩⟩
  · intro hapart
    rw [hsub]
    exact (h hapart.1).like hapart.2

end SideBySide

/-- By induction on the log. -/
theorem run_filtered (he : e.Whole) (seed : Bool) (as : List Happening) : ∀ {s t : State},
    Like s t → (∀ i, origin (t.lineNum + 1 + i) = (lineNumbers e seed s.lineNum as).getD i 0) →
      SideBySide e origin seed as s t := by
  induction as with
  | nil => exact fun h _ => ⟨iff_of_true trivial ⟨trivial, trivial⟩, fun _ => h⟩
  | cons a as ih =>
    intro s t h horigin
    by_cases hs : s.progress = .running
    · have ht : t.progress = .running := h.progress.symm.trans hs
      cases a with
      | signal fd =>
        have hstep : step e s (.signal fd) = ourHandler fd s := if_pos hs
        have hstep' : step (e.full origin) t (.signal fd) = ourHandler fd t := if_pos ht
        refine .signal ?_
        rw [hstep, hstep']
        refine ih (ourHandler_like fd h) ?_
        rw [ourHandler_lineNum, ourHandler_lineNum]
        exact horigin
      | line text =>
        cases hkeeps : keepsLine e seed (cString text) with
        | true =>
          have hnumbers : lineNumbers e seed s.lineNum (.line text :: as) =
              (s.lineNum + 1) :: lineNumbers e seed (s.lineNum + 1) as := if_pos hkeeps
          rw [hnumbers] at horigin
          obtain ⟨hown, hnext⟩ := step_kept he hs h hkeeps (horigin 0)
          refine .kept hkeeps hown fun hapart => ?_
          obtain ⟨hlike, hnum, hnum'⟩ := hnext hapart
          refine ih hlike fun i => ?_
          rw [hnum, hnum', Nat.add_right_comm]
          exact horigin (i + 1)
        | false =>
          have hnumbers : lineNumbers e seed s.lineNum (.line text :: as) =
              lineNumbers e seed (s.lineNum + 1) as := if_neg (by simp [hkeeps])
          rw [hnumbers] at horigin
          obtain ⟨hown, hnext⟩ := step_dropped he hs h hkeeps
          refine .dropped hkeeps hown fun hapart => ?_
          obtain ⟨hlike, hnum⟩ := hnext hapart
          refine ih hlike ?_
          rw [hnum]
          exact horigin
    · exact .stuck hs h

theorem killChild_like (h : Like s t) : Like (killChild s) (killChild t) := by
  unfold killChild
  refine .ite ?_ (h.update (fun u => u.issue (.kill u.forkedPid)) fun _ => rfl) h
  rw [h.progress, h.forkedPid]

/-- The replay under the mask is the replay of the sub-log, and each line only does operations of
its own kind, exactly when no affinity line goes on to close an event. -/
theorem replay_commutes_iff (e : Env) (seed : Bool) (hs : List Happening) (hskip : e.skipLines = 0)
    (hstop : e.stopLines = 0) :
    Commutes e seed hs ↔ Throughout (step e) (AffinityApart e) (startState e) hs := by
  have horigin : ∀ i, lineOrigin e seed hs ((startState (subEnv e seed hs)).lineNum + 1 + i) =
      (lineNumbers e seed (startState e).lineNum hs).getD i 0 := by
    intro i
    change (lineNumbers e seed 0 hs).getD (0 + 1 + i - 1) 0 = (lineNumbers e seed 0 hs).getD i 0
    rw [Nat.zero_add, Nat.add_sub_cancel_left]
  have hstart : Like (startState e) (startState (subEnv e seed hs)) := ⟨rfl⟩
  obtain ⟨hiff, hrun⟩ := run_filtered ⟨hskip, hstop⟩ seed hs hstart horigin
  constructor
  · exact fun h => hiff.2 ⟨h.own, h.ownSub⟩
  · intro hapart
    have hlike := killChild_like (hrun hapart)
    exact ⟨hlike.calls, hlike.event, (hiff.1 hapart).1, (hiff.1 hapart).2⟩

/-- Affinity lines are left out, and everything else is replayed. -/
def noAffinity : Env := { zeroEnv fun _ => 7 with which := fun kind => kind ≠ .affinity }

def openThenAffinity (line : String) : List Happening :=
  [.line "O 3\n".toList, .line line.toList]

theorem replay_commutes_one : Commutes noAffinity true (openThenAffinity "a 0 1 2\n") := by
  refine (replay_commutes_iff noAffinity true _ rfl rfl).2 ⟨?_, ?_, trivial⟩
  · exact fun _ _ ha => absurd ha (by decide +kernel)
  · rintro - - - - ⟨fd, hscan, hopen⟩
    have hfd : fd = 0 := by
      have hscan' : sscanfLine [.d] (cString "a 0 1 2\n".toList) = [0] := by decide +kernel
      exact (List.singleton_inj.1 (hscan'.symm.trans hscan)).symm
    subst hfd
    exact hopen (by decide +kernel)

/-- The affinity line closes event 3, although affinity lines are left out. -/
theorem replay_not_commutes : ¬∀ (e : Env) (seed : Bool) (hs : List Happening),
    e.skipLines = 0 → e.stopLines = 0 → Commutes e seed hs := by
  intro h
  have hcalls := (h noAffinity true (openThenAffinity "a 3 1 2\n") rfl rfl).calls
  exact absurd (congrArg List.length hcalls) (by decide +kernel)

end PerfEvent.Replay
