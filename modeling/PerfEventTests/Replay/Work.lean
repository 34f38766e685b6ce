import PerfEventTests.Replay.Filtering
import PerfEventTests.Replay.Forks

/-!
# The work of a line

What a line of the log makes the replay do, as a function of what its table has at that moment: the
calls and the `memset`s, in their order.
-/

namespace PerfEvent.Replay

open Text ByteMemory Fuzzer

variable {e : Env} {s s' : State} {w : Work} {line : Str}

/-- What is done at one step. -/
@[ext] structure Work where
  calls : List Call := []
  memsets : List Memset := []

/-- What has been done between two moments. -/
def workBetween (calls : List Call) (memsets : List Memset) (calls' : List Call)
    (memsets' : List Memset) : Work :=
  ⟨calls'.drop calls.length, memsets'.drop memsets.length⟩

def workOf (s s' : State) : Work := workBetween s.calls s.memsets s'.calls s'.memsets

def Work.append (w w' : Work) : Work := ⟨w.calls ++ w'.calls, w.memsets ++ w'.memsets⟩

/-- The replay has done `w`. It goes on as before, with the processes that it knows of. -/
structure Does (s s' : State) (w : Work) : Prop where
  calls : s'.calls = s.calls ++ w.calls
  memsets : s'.memsets = s.memsets ++ w.memsets
  progress : s'.progress = s.progress
  forkedPid : s'.forkedPid = s.forkedPid
  originalPid : s'.originalPid = s.originalPid

namespace Does

theorem refl (s : State) : Does s s {} :=
  ⟨(List.append_nil _).symm, (List.append_nil _).symm, rfl, rfl, rfl⟩

theorem workOf (h : Does s s' w) : workOf s s' = w := by
  ext1
  · exact (congrArg (List.drop s.calls.length) h.calls).trans List.drop_left
  · exact (congrArg (List.drop s.memsets.length) h.memsets).trans List.drop_left

theorem issue (h : Does s s' w) (c : Call) : Does s (s'.issue c) { w with calls := w.calls ++ [c] } where
  calls := by
    rw [← List.append_assoc, ← h.calls]
    rfl
  memsets := h.memsets
  progress := h.progress
  forkedPid := h.forkedPid
  originalPid := h.originalPid

theorem memset (h : Does s s' w) (m : Memset) :
    Does s (s'.memset m) { w with memsets := w.memsets ++ [m] } where
  calls := h.calls
  memsets := by
    rw [← List.append_assoc, ← h.memsets]
    rfl
  progress := h.progress
  forkedPid := h.forkedPid
  originalPid := h.originalPid

/-- An update of the tables. -/
theorem update {t : State} (h : Does s s' w) (hcalls : t.calls = s'.calls)
    (hmemsets : t.memsets = s'.memsets) (hprogress : t.progress = s'.progress)
    (hforked : t.forkedPid = s'.forkedPid) (horiginal : t.originalPid = s'.originalPid) :
    Does s t w :=
  ⟨hcalls.trans h.calls, hmemsets.trans h.memsets, hprogress.trans h.progress,
    hforked.trans h.forkedPid, horiginal.trans h.originalPid⟩

theorem ite {p q : Prop} [Decidable p] [Decidable q] {t t' : State} {v : Work} (hpq : p ↔ q)
    (hpos : p → Does s t w) (hneg : ¬p → Does s t' v) :
    Does s (if p then t else t') (if q then w else v) := by
  by_cases hp : p
  · rw [if_pos hp, if_pos (hpq.1 hp)]
    exact hpos hp
  · rw [if_neg hp, if_neg fun hq => hp (hpq.2 hq)]
    exact hneg hp

theorem trans {t : State} {v : Work} (h : Does s s' w) (h' : Does s' t v) :
    Does s t (w.append v) where
  calls := by rw [h'.calls, h.calls, List.append_assoc, Work.append]
  memsets := by rw [h'.memsets, h.memsets, List.append_assoc, Work.append]
  progress := h'.progress.trans h.progress
  forkedPid := h'.forkedPid.trans h.forkedPid
  originalPid := h'.originalPid.trans h.originalPid

theorem access (h : Does s s' w) (x : Access) : Does s (s'.access x) w := h.update rfl rfl rfl rfl rfl

theorem touch (h : Does s s' w) (table : Table) (index : Int) : Does s (s'.touch table index) w :=
  h.access _

theorem hand (h : Does s s' w) (fd passed : Int) : Does s (s'.hand fd passed) w :=
  h.update rfl rfl rfl rfl rfl

theorem setEvent (h : Does s s' w) (fd : Int) (f : Event → Event) : Does s (s'.setEvent fd f) w :=
  h.update rfl rfl rfl rfl rfl

theorem setOpened (h : Does s s' w) (fd n : Int) : Does s (s'.setOpened fd n) w :=
  h.update rfl rfl rfl rfl rfl

theorem setOverflows (h : Does s s' w) (fd n : Int) : Does s (s'.setOverflows fd n) w :=
  h.update rfl rfl rfl rfl rfl

theorem setThrottles (h : Does s s' w) (fd n : Int) : Does s (s'.setThrottles fd n) w :=
  h.update rfl rfl rfl rfl rfl

theorem hold (h : Does s s' w) (x : Held) : Does s (s'.hold x) w := h.update rfl rfl rfl rfl rfl

theorem release (h : Does s s' w) (call : Nat) : Does s (s'.release call) w :=
  h.update rfl rfl rfl rfl rfl

end Does

/-! ## What each kind of line does -/

def mmapWork (fd length : Int) (s : State) : Work :=
  if (s.event fd).fdRemap = -1 then {} else ⟨[mmapCall length (s.event fd).fdRemap], []⟩

def trashWork (fd value size : Int) (s : State) : Work :=
  if (s.event fd).fdRemap = -1 then {}
  else match (s.event fd).mmapRemap with
    | .failed => {}
    | .null => {}
    | .mapped call length => ⟨[], [⟨.mapped call length, value, size⟩]⟩

def munmapWork (fd size : Int) (s : State) : Work :=
  if (s.event fd).fdRemap = -1 then {}
  else if (s.event fd).size ≠ size then {}
  else if (s.event fd).mmapRemap = .failed then {}
  else ⟨[.munmap (s.event fd).mmapRemap size], []⟩

def openedPid (e : Env) (pid : BitVec 32) (s : State) : Int :=
  if pid.toInt = s.originalPid then e.ownPid else pid.toInt

def openedGroup (groupFd : BitVec 32) (s : State) : Int :=
  if groupFd.toInt = -1 then -1 else (s.event groupFd.toInt).fdRemap

def openWork (e : Env) (o : OpenVars) (s : State) : Work :=
  ⟨[.perfEventOpen o.pe (openedPid e o.pid s) o.cpu.toInt (openedGroup o.groupFd s) o.flags], []⟩

def closeWork (fd : Int) (s : State) : Work :=
  if (s.event fd).fdRemap = -1 then {} else ⟨[.close (s.event fd).fdRemap], []⟩

def ioctlArgument (request arg : Int) (s : State) : Argument :=
  if request = requestInt iocSetOutput then
    if arg = -1 then .value arg else .value (s.event arg).fdRemap
  else if request = requestInt iocId then .idOut
  else if request = requestInt iocPeriod then .period arg
  else .value arg

def ioctlWork (fd request arg : Int) (s : State) : Work :=
  ⟨[.ioctl (s.event fd).fdRemap request (ioctlArgument request arg s)], []⟩

def readWork (fd size : Int) (s : State) : Work :=
  if toUnsigned 64 size > readRoom then {} else ⟨[.read (s.event fd).fdRemap size], []⟩

def overflowWork (fd : Int) (s : State) : Work :=
  ⟨.sigaction :: overflowCommands.map (.fcntl (s.event fd).fdRemap), []⟩

def accessWork (e : Env) (type file size : Int) (s : State) : Work :=
  if file > maxFilenames then {}
  else if e.next s = 0 then ⟨[.fopen file (type ≠ 0)], []⟩
  else if type = 0 then ⟨[.fopen file (type ≠ 0), .fread size, .fclose], []⟩
  else ⟨[.fopen file (type ≠ 0), .fprintf (decimal size ++ ['\n']), .fclose], []⟩

/-- The entries of a poll line, with the numbers that it has. -/
def pollWork (num : Int) (texts : List Str) (s : State) : Work :=
  let r := pollEntries num.toNat 0 texts s
  ⟨[.poll r.1 num ((r.2.1.head?.map atoi).getD 0)], []⟩

def affinityWork (e : Env) (texts : List Str) (mask : Nat → Bool) (s : State) : Work :=
  match texts with
  | _ :: which :: num :: texts => ⟨[.schedSetaffinity
      (affinityMask (atoi which) (atoi num) (cpuArray texts (e.stack s.lineNum)) mask s).1], []⟩
  | _ => {}

/-- What is done for a line that is read as a close line. -/
def closingWork (line : Str) (s : State) : Work :=
  match sscanfLine [.d] line with
  | [fd] => closeWork fd s
  | _ => {}

theorem mapFor_does (h : Does s s' {}) (fd length : Int) :
    Does s (mapFor e fd length s') ⟨[mmapCall length (s'.event fd).fdRemap], []⟩ := by
  have hissue := ((h.setEvent fd fun ev => { ev with mmapRemap := .failed, size := 0 }).hand fd
    (s'.event fd).fdRemap).issue (mmapCall length (s'.event fd).fdRemap)
  unfold mapFor
  dsimp only
  split
  · exact hissue
  · exact (hissue.setEvent _ _).hold _

theorem mmapIfOpen_does (fd length : Int) :
    Does s (mmapIfOpen e fd length s) (mmapWork fd length s) := by
  have htouch := (Does.refl s).touch .event fd
  exact .ite Iff.rfl (fun _ => htouch) fun _ => mapFor_does htouch fd length

theorem trashIfOpen_does (fd value size : Int) :
    Does s (trashIfOpen fd value size s) (trashWork fd value size s) := by
  have htouch := (Does.refl s).touch .event fd
  refine .ite Iff.rfl (fun _ => htouch) fun _ => ?_
  rw [State.event_touch]
  cases (s.event fd).mmapRemap with
  | failed => exact htouch
  | null => exact htouch
  | mapped call length => exact (htouch.access _).memset _

theorem unmap_does (h : Does s s' {}) (region : Region) (size : Int) :
    Does s (unmap e region size s') ⟨[.munmap region size], []⟩ := by
  have hissue := h.issue (.munmap region size)
  unfold unmap
  dsimp only
  cases region with
  | failed => exact hissue
  | null => exact hissue
  | mapped call length =>
    dsimp only
    split
    · exact hissue
    · exact hissue.release call

theorem munmapIfOpen_does (fd size : Int) :
    Does s (munmapIfOpen e fd size s) (munmapWork fd size s) := by
  have htouch := (Does.refl s).touch .event fd
  have hclear := htouch.setEvent fd fun ev => { ev with mmapRemap := .failed }
  refine .ite Iff.rfl (fun _ => htouch) fun _ => .ite Iff.rfl (fun _ => hclear) fun _ => ?_
  exact .ite Iff.rfl (fun _ => hclear) fun _ => unmap_does hclear _ _

theorem recordOpen_does (h : Does s s' w) (recorded fd : Int) : Does s (recordOpen recorded fd s') w := by
  unfold recordOpen
  dsimp only
  split
  · exact h
  · have hentered := (h.touch .event recorded).setEvent recorded fun ev =>
      { ev with fdRemap := fd, mmapRemap := .failed }
    split
    · exact hentered
    · exact (((hentered.touch _ _).setOverflows _ _).touch _ _).setThrottles _ _

theorem remapGroup_does (groupFd : BitVec 32) : Does s (remapGroup groupFd.toInt s).2 {} ∧
    (remapGroup groupFd.toInt s).1 = openedGroup groupFd s := by
  unfold remapGroup openedGroup
  split
  · exact ⟨.refl s, rfl⟩
  · exact ⟨((Does.refl s).touch _ _).hand _ _, rfl⟩

theorem openAs_does (o : OpenVars) : Does s (openAs e o s) (openWork e o s) := by
  obtain ⟨hgroup, hfst⟩ := remapGroup_does o.groupFd (s := s)
  have hissue := hgroup.issue (.perfEventOpen o.pe (openedPid e o.pid s) o.cpu.toInt
    (openedGroup o.groupFd s) o.flags)
  rw [← hfst] at hissue
  unfold openAs
  dsimp only
  split
  · rw [openWork, ← hfst]
    exact hissue
  · rw [openWork, ← hfst]
    exact recordOpen_does (hissue.setOpened _ _) _ _

theorem closeFor_does (fd : Int) : Does s (closeFor fd s) (closeWork fd s) := by
  have htouch := (Does.refl s).touch .event fd
  exact .ite Iff.rfl (fun _ => htouch) fun _ => ((htouch.hand _ _).issue _).setEvent _ _

theorem ioctlFor_does (h : Does s s' {}) (fd request : Int) (arg : Argument) :
    Does s (ioctlFor fd request arg s') ⟨[.ioctl (s'.event fd).fdRemap request arg], []⟩ :=
  (h.hand fd _).issue _

theorem ioctlAs_does (fd request arg : Int) :
    Does s (ioctlAs fd request arg s) (ioctlWork fd request arg s) := by
  have htouch := (Does.refl s).touch .event fd
  unfold ioctlAs ioctlWork ioctlArgument
  dsimp only
  split_ifs
  · exact ioctlFor_does htouch _ _ _
  · exact ioctlFor_does ((htouch.touch _ _).hand _ _) _ _ _
  · exact ioctlFor_does htouch _ _ _
  · exact ioctlFor_does htouch _ _ _
  · exact ioctlFor_does htouch _ _ _

theorem readFor_does (fd size : Int) : Does s (readFor fd size s) (readWork fd size s) := by
  unfold readFor readWork
  dsimp only
  split
  · exact .refl s
  · exact ((((Does.refl s).touch _ _).hand _ _).access _).issue _

theorem overflowFor_does (fd : Int) : Does s (overflowFor fd s) (overflowWork fd s) := by
  have hstart := ((Does.refl s).issue .sigaction).touch .event fd
  simp only [overflowFor, overflowCommands, List.foldl_cons, List.foldl_nil]
  exact ((((hstart.hand fd _).issue _).hand fd _).issue _).hand fd _ |>.issue _

theorem accessFile_does (type file size : Int) : Does s (accessFile e type file size s)
    (if e.next s = 0 then ⟨[.fopen file (type ≠ 0)], []⟩
      else if type = 0 then ⟨[.fopen file (type ≠ 0), .fread size, .fclose], []⟩
      else ⟨[.fopen file (type ≠ 0), .fprintf (decimal size ++ ['\n']), .fclose], []⟩) := by
  have hopen := ((Does.refl s).touch .filenames file).issue (.fopen file (type ≠ 0))
  unfold accessFile
  dsimp only
  split_ifs
  · exact hopen
  · exact ((hopen.access _).issue _).issue _
  · exact (hopen.issue _).issue _

theorem pollEntries_does (n : Nat) : ∀ (i : Nat) (texts : List Str) {s' : State}, Does s s' {} →
    Does s (pollEntries n i texts s').2.2 {} := by
  induction n with
  | zero => exact fun _ _ _ h => h
  | succ n ih =>
    rintro i (_ | ⟨fd, _ | ⟨events, texts⟩⟩) s' h
    · exact h
    · exact (h.touch _ _).hand _ _
    · exact ih (i + 1) texts ((h.touch _ _).hand _ _)

theorem pollAs_does (num : Int) (texts : List Str) :
    Does s (pollAs num texts s) (pollWork num texts s) :=
  ((pollEntries_does num.toNat 0 texts (.refl s)).access _).issue _

theorem storeCpus_does (texts : List Str) : ∀ (i : Nat) {s' : State}, Does s s' w →
    Does s (storeCpus i texts s') w := by
  induction texts with
  | nil => exact fun _ _ h => h
  | cons text texts ih => exact fun i _ h => ih (i + 1) (h.touch _ _)

theorem touchMask_does (cpu : Int) (setSize : Nat) (h : Does s s' w) :
    Does s (touchMask cpu setSize s') w :=
  touchMask_elim (P := fun t => Does s t w) cpu setSize h fun word => h.touch .cpuMask word

theorem readCpus_does (cpus : Int → Int) (n : Nat) : ∀ (j : Nat) (mask : Nat → Bool) {s' : State},
    Does s s' w → Does s (readCpus cpus n j mask s').2 w := by
  induction n with
  | zero => exact fun _ _ _ h => h
  | succ n ih => exact fun j _ _ h => ih (j + 1) _ (touchMask_does _ _ (h.touch _ _))

theorem affinityMask_does (which num : Int) (cpus : Int → Int) (mask : Nat → Bool)
    (h : Does s s' w) : Does s (affinityMask which num cpus mask s').2 w := by
  unfold affinityMask
  split_ifs
  · exact touchMask_does _ _ (h.touch _ _)
  · exact readCpus_does _ _ _ _ h
  · exact h

theorem readCpus_fst (cpus : Int → Int) (n : Nat) : ∀ (j : Nat) (mask : Nat → Bool) (s t : State),
    (readCpus cpus n j mask s).1 = (readCpus cpus n j mask t).1 := by
  induction n with
  | zero => exact fun _ _ _ _ => rfl
  | succ n ih => exact fun j _ _ _ => ih (j + 1) _ _ _

/-- The mask depends on the line alone. -/
theorem affinityMask_fst (which num : Int) (cpus : Int → Int) (mask : Nat → Bool) (s t : State) :
    (affinityMask which num cpus mask s).1 = (affinityMask which num cpus mask t).1 := by
  unfold affinityMask
  split_ifs
  · rfl
  · exact readCpus_fst _ _ _ _ _ _
  · rfl

theorem setAffinity_does (which num : Int) (texts : List Str) (mask : Nat → Bool) :
    Does s (setAffinity e which num texts mask s) ⟨[.schedSetaffinity
      (affinityMask which num (cpuArray texts (e.stack s.lineNum)) mask s).1], []⟩ := by
  have hmask := affinityMask_does which num (cpuArray texts (e.stack s.lineNum)) mask
    (storeCpus_does texts 0 (.refl s))
  rw [affinityMask_fst (t := storeCpus 0 texts s), setAffinity, storeCpus_lineNum]
  exact (hmask.issue _).update rfl rfl rfl rfl rfl

theorem affinityAs_does (texts : List Str) (mask : Nat → Bool) :
    Does s (affinityAs e texts mask s) (affinityWork e texts mask s) := by
  rcases texts with _ | ⟨letter, _ | ⟨which, _ | ⟨num, texts⟩⟩⟩
  · exact .refl s
  · exact .refl s
  · exact .refl s
  · exact setAffinity_does _ _ _ _

theorem closeEvent_does : Does s (closeEvent line s) (closingWork line s) := by
  unfold closeEvent closingWork
  rcases sscanfLine [.d] line with _ | ⟨fd, _ | ⟨_, _⟩⟩
  · exact .refl s
  · exact closeFor_does fd
  · exact .refl s

/-- One event is closed, or none. -/
theorem closingWork_cases : closingWork line s = {} ∨ ∃ c, closingWork line s = ⟨[c], []⟩ := by
  unfold closingWork
  rcases sscanfLine [.d] line with _ | ⟨fd, _ | ⟨_, _⟩⟩
  · exact .inl rfl
  · by_cases h : (s.event fd).fdRemap = -1
    · exact .inl (if_pos h)
    · exact .inr ⟨_, if_neg h⟩
  · exact .inl rfl

/-- A close line closes something exactly when there is something to be done. -/
theorem closingWork_eq_iff : closingWork line s = {} ↔ ¬Closes line s := by
  unfold closingWork Closes
  rcases sscanfLine [.d] line with _ | ⟨fd, _ | ⟨_, _⟩⟩
  · simp
  · by_cases h : (s.event fd).fdRemap = -1 <;> simp [closeWork, h]
  · simp

end PerfEvent.Replay
