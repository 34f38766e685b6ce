import PerfEventTests.Replay.Machine

/-!
# The accesses of a replay

When a line, or a signal, stays inside the tables and the buffers. Every access is kept in the
state, so a run has stayed inside exactly when each of its steps has.
-/

namespace PerfEvent.Replay

open Text ByteMemory Fuzzer Runs

variable {e : Env} {s : State} {line : Str}

/-- Every access has been inside. -/
def Tidy (s : State) : Prop := ∀ x ∈ s.accesses, x.Inside

/-! ## The updates -/

@[simp] theorem tidy_access (x : Access) : Tidy (s.access x) ↔ Tidy s ∧ x.Inside := by
  simp only [Tidy, State.access, List.mem_append, List.mem_singleton, or_imp, forall_and,
    forall_eq]

@[simp] theorem tidy_touch (table : Table) (index : Int) :
    Tidy (s.touch table index) ↔ Tidy s ∧ InRange table.size index :=
  tidy_access _

@[simp] theorem tidy_setEvent (fd : Int) (f : Event → Event) : Tidy (s.setEvent fd f) ↔ Tidy s :=
  Iff.rfl

@[simp] theorem tidy_setOverflows (fd n : Int) : Tidy (s.setOverflows fd n) ↔ Tidy s := Iff.rfl

@[simp] theorem tidy_setThrottles (fd n : Int) : Tidy (s.setThrottles fd n) ↔ Tidy s := Iff.rfl

@[simp] theorem tidy_issue (c : Call) : Tidy (s.issue c) ↔ Tidy s := Iff.rfl

@[simp] theorem tidy_hand (fd n : Int) : Tidy (s.hand fd n) ↔ Tidy s := Iff.rfl

@[simp] theorem tidy_setOpened (fd n : Int) : Tidy (s.setOpened fd n) ↔ Tidy s := Iff.rfl

@[simp] theorem tidy_hold (h : Held) : Tidy (s.hold h) ↔ Tidy s := Iff.rfl

@[simp] theorem tidy_release (call : Nat) : Tidy (s.release call) ↔ Tidy s := Iff.rfl

@[simp] theorem tidy_memset (m : Memset) : Tidy (s.memset m) ↔ Tidy s := Iff.rfl

/-! ## The conditions -/

/-- An index of one of the three tables of descriptors. -/
abbrev InRemap (fd : Int) : Prop := InRange fdRemapSize fd

/-- The bytes of a `memset` are in the mapping. -/
def FitsRegion (size : Int) : Region → Prop
  | .mapped _ length => toUnsigned 64 size ≤ length
  | _ => True

def TrashBounded (fd size : Int) (s : State) : Prop :=
  InRemap fd ∧ ((s.event fd).fdRemap ≠ -1 → FitsRegion size (s.event fd).mmapRemap)

/-- A new descriptor and its recorded number are below the size of the tables, or above it. -/
def RecordBounded (recorded fd : Int) : Prop :=
  recorded > fdRemapSize ∨ InRemap recorded ∧ (fd > fdRemapSize ∨ InRemap fd)

/-- The group leader, and the new descriptor when there is one. -/
def OpenBounded (o : OpenVars) (result : Int) : Prop :=
  (o.groupFd.toInt = -1 ∨ InRemap o.groupFd.toInt) ∧
    (result < 0 ∨ RecordBounded o.fd.toInt result)

/-- A line without a number is not looked at any further. -/
def CloseBounded (line : Str) : Prop :=
  match sscanfLine [.d] line with
  | [fd] => InRemap fd
  | _ => True

def IoctlBounded (fd request arg : Int) : Prop :=
  InRemap fd ∧ (request = requestInt iocSetOutput → arg = -1 ∨ InRemap arg)

/-- A size beyond the buffer is refused before anything is used. -/
def ReadBounded (fd size : Int) : Prop := toUnsigned 64 size > readRoom ∨ InRemap fd

/-- The file is one of the six, and what is read of it fits into the buffer. -/
def AccessBounded (type which size opened : Int) : Prop :=
  which > maxFilenames ∨ InRange maxFilenames which ∧
    (opened = 0 ∨ type ≠ 0 ∨ toUnsigned 64 size ≤ accessRoom)

/-- A mask has so many processors. Where its size is given as their number, those that are beyond the
mask and below eight times that number are set as well. -/
def MaskBounded (cpu : Int) : Prop :=
  (toUnsigned 64 cpu).toNat < maxCpus ∨ 8 * maxCpus ≤ (toUnsigned 64 cpu).toNat

/-- There are no more numbers than the array has elements, and where the count on the line is used it
is no larger, and every processor that it reaches is one of the mask or is not set at all. -/
def AffinityBounded (stack : Nat → Int) : List Str → Prop
  | _ :: which :: num :: texts => texts.length ≤ maxCpus ∧
      (atoi which = 2 ∨ atoi which = 3 → atoi num ≤ maxCpus ∧
        ∀ j : Nat, (j : Int) < atoi num → MaskBounded (cpuArray texts stack j))
  | _ => True

/-- Two texts fill an entry, and the call gets the count as it is. -/
def PollBounded (num : Int) (texts : List Str) : Prop :=
  (num ≤ maxPollFds ∨ texts.length ≤ 2 * maxPollFds) ∧ toUnsigned 64 num ≤ maxPollFds

/-- The condition for one kind of line. -/
def CommandBounded (e : Env) (line : Str) (s : State) : Command → Prop
  | .access => let var := scanned [.d, .d, .ld, .d] line (e.stack s.lineNum)
    e.which .access → AccessBounded (var 0) (var 1) (var 2) (e.next s)
  | .affinity =>
    (e.which .affinity → (s.cpuMask <|> e.cpuAlloc) = none ∨
      AffinityBounded (e.stack s.lineNum) (tokens isBlankOrNewline line)) ∧
    (e.which .close → CloseBounded (if e.which .affinity then (affinityEvent e line s).1 else line))
  | .close => e.which .close → CloseBounded line
  | .ioctl => let var := scanned [.d, .d, .ld] line (e.stack s.lineNum)
    e.which .ioctl → IoctlBounded (var 0) (var 1) (var 2)
  | .mmap => let var := scanned [.d, .d, .lx] line (e.stack s.lineNum)
    e.which .mmap → InRemap (var 1)
  | .open => e.which .open →
    OpenBounded (parseOpenEvent line { e.openStack s.lineNum with pe := {} }) (e.next s)
  | .overflow => e.which .overflow → InRemap (scanned [.d] line (e.stack s.lineNum) 0)
  | .poll => e.which .poll →
    PollBounded (scanned [.d] line (e.stack s.lineNum) 0) ((tokens isBlank line).drop 2)
  | .trash => let var := scanned [.d, .d, .d] line (e.stack s.lineNum)
    e.which .trashMmap → TrashBounded (var 2) (var 1) s
  | .read => let var := scanned [.d, .d] line (e.stack s.lineNum)
    e.which .read → ReadBounded (var 0) (var 1)
  | .munmap => let var := scanned [.d, .d] line (e.stack s.lineNum)
    e.which .munmap → InRemap (var 0)
  | .fork | .pid | .prctl | .quit | .other => True

def Bounded (e : Env) (line : Str) (s : State) : Prop :=
  CommandBounded e line s (command line.head?)

/-- The condition for one step. -/
def StepBounded (e : Env) (h : Happening) (s : State) : Prop :=
  s.progress = .running →
    match h with
    | .line text =>
      2 < s.lineNum + 1 ∧ s.lineNum + 1 < e.skipLines ∨
        Bounded e (cString text) { s with lineNum := s.lineNum + 1 }
    | .signal fd => InRemap fd

/-! ## The handlers -/

theorem mapFor_tidy (fd length : Int) : Tidy (mapFor e fd length s) ↔ Tidy s := by
  unfold mapFor
  dsimp only
  split <;> simp

theorem mmapIfOpen_tidy (fd length : Int) :
    Tidy (mmapIfOpen e fd length s) ↔ Tidy s ∧ InRemap fd := by
  unfold mmapIfOpen
  dsimp only
  split
  · exact tidy_touch ..
  · rw [mapFor_tidy]
    exact tidy_touch ..

theorem trashRegion_tidy (region : Region) (value size : Int) :
    Tidy (trashRegion region value size s) ↔ Tidy s ∧ FitsRegion size region := by
  cases region with
  | failed => exact (and_iff_left trivial).symm
  | null => exact (and_iff_left trivial).symm
  | mapped call length => exact tidy_access _

theorem trashIfOpen_tidy (fd value size : Int) :
    Tidy (trashIfOpen fd value size s) ↔ Tidy s ∧ TrashBounded fd size s := by
  by_cases hfd : (s.event fd).fdRemap = -1
  · rw [show trashIfOpen fd value size s = s.touch .event fd from if_pos hfd, tidy_touch]
    exact and_congr_right fun _ => (and_iff_left fun h => absurd hfd h).symm
  · rw [show trashIfOpen fd value size s = trashRegion (s.event fd).mmapRemap value size
      (s.touch .event fd) from if_neg hfd, trashRegion_tidy, tidy_touch, and_assoc]
    exact and_congr_right fun _ => and_congr_right fun _ => (imp_iff_right hfd).symm

theorem unmap_tidy (region : Region) (size : Int) : Tidy (unmap e region size s) ↔ Tidy s := by
  unfold unmap
  dsimp only
  cases region with
  | failed => exact Iff.rfl
  | null => exact Iff.rfl
  | mapped call length =>
    dsimp only
    split <;> exact Iff.rfl

theorem munmapIfOpen_tidy (fd size : Int) :
    Tidy (munmapIfOpen e fd size s) ↔ Tidy s ∧ InRemap fd := by
  unfold munmapIfOpen
  dsimp only
  split_ifs
  · exact tidy_touch ..
  · exact tidy_touch ..
  · exact tidy_touch ..
  · rw [unmap_tidy]
    exact tidy_touch ..

theorem recordOpen_tidy (recorded fd : Int) :
    Tidy (recordOpen recorded fd s) ↔ Tidy s ∧ RecordBounded recorded fd := by
  unfold recordOpen RecordBounded
  dsimp only
  by_cases hrecorded : recorded > fdRemapSize
  · simp [hrecorded]
  · rw [if_neg hrecorded]
    by_cases hfd : fd > fdRemapSize
    · simp [hrecorded, hfd, Table.size]
    · simp [hrecorded, hfd, Table.size, and_assoc]

theorem remapGroup_tidy (groupFd : Int) :
    Tidy (remapGroup groupFd s).2 ↔ Tidy s ∧ (groupFd = -1 ∨ InRemap groupFd) := by
  unfold remapGroup
  dsimp only
  by_cases hgroup : groupFd = -1
  · simp [hgroup]
  · simp [hgroup, Table.size]

theorem remapGroup_next (groupFd : Int) : e.next (remapGroup groupFd s).2 = e.next s := by
  unfold remapGroup
  dsimp only
  split <;> rfl

theorem openAs_tidy (o : OpenVars) :
    Tidy (openAs e o s) ↔ Tidy s ∧ OpenBounded o (e.next s) := by
  unfold openAs OpenBounded
  dsimp only
  rw [remapGroup_next]
  by_cases hfd : e.next s < 0
  · rw [if_pos hfd, tidy_issue, remapGroup_tidy]
    simp [hfd]
  · rw [if_neg hfd, recordOpen_tidy, tidy_setOpened, tidy_issue, remapGroup_tidy]
    simp [hfd, and_assoc]

theorem closeFor_tidy (fd : Int) : Tidy (closeFor fd s) ↔ Tidy s ∧ InRemap fd := by
  unfold closeFor
  dsimp only
  split
  · exact tidy_touch ..
  · rw [tidy_setEvent, tidy_issue, tidy_hand]
    exact tidy_touch ..

theorem closeEvent_tidy : Tidy (closeEvent line s) ↔ Tidy s ∧ CloseBounded line := by
  unfold closeEvent CloseBounded
  rcases sscanfLine [.d] line with _ | ⟨fd, _ | ⟨v, vs⟩⟩
  · exact (and_iff_left trivial).symm
  · exact closeFor_tidy fd
  · exact (and_iff_left trivial).symm

theorem ioctlAs_tidy (fd request arg : Int) :
    Tidy (ioctlAs fd request arg s) ↔ Tidy s ∧ IoctlBounded fd request arg := by
  have hfor : ∀ arg' s', Tidy (ioctlFor fd request arg' s') ↔ Tidy s' := fun _ _ => Iff.rfl
  have hevent : Table.event.size = fdRemapSize := rfl
  unfold ioctlAs IoctlBounded
  dsimp only
  split_ifs with hset harg hid hperiod <;>
    simp only [hfor, tidy_hand, tidy_touch, hevent, and_assoc]
  · exact and_congr_right fun _ => (and_iff_left fun _ => .inl harg).symm
  · exact and_congr_right fun _ => and_congr_right fun _ =>
      ⟨fun h _ => .inr h, fun h => (h hset).resolve_left harg⟩
  · exact and_congr_right fun _ => (and_iff_left fun h => absurd h hset).symm
  · exact and_congr_right fun _ => (and_iff_left fun h => absurd h hset).symm
  · exact and_congr_right fun _ => (and_iff_left fun h => absurd h hset).symm

theorem readFor_tidy (fd size : Int) : Tidy (readFor fd size s) ↔ Tidy s ∧ ReadBounded fd size := by
  unfold readFor ReadBounded
  dsimp only
  by_cases hsize : toUnsigned 64 size > readRoom
  · simp [hsize]
  · have hinside : toUnsigned 64 size ≤ readRoom := not_lt.1 hsize
    simp [hsize, Table.size, Access.Inside, hinside]

theorem overflowFor_tidy (fd : Int) : Tidy (overflowFor fd s) ↔ Tidy s ∧ InRemap fd := by
  have hfor : ∀ command s', Tidy (fcntlFor fd command s') ↔ Tidy s' := fun _ _ => Iff.rfl
  simp only [overflowFor, overflowCommands, List.foldl_cons, List.foldl_nil, hfor]
  exact tidy_touch ..

theorem accessFile_tidy (type file size : Int) : Tidy (accessFile e type file size s) ↔
    Tidy s ∧ InRange maxFilenames file ∧
      (e.next s = 0 ∨ type ≠ 0 ∨ toUnsigned 64 size ≤ accessRoom) := by
  unfold accessFile
  dsimp only
  split_ifs with hopened htype
  · simp [hopened, Table.size]
  · simp [hopened, htype, Table.size, Access.Inside, and_assoc]
  · simp [htype, Table.size]

theorem accessAs_tidy (type which size : Int) : Tidy (accessAs e type which size s) ↔
    Tidy s ∧ AccessBounded type which size (e.next s) := by
  unfold accessAs AccessBounded
  by_cases hwhich : which > maxFilenames
  · rw [if_pos hwhich]
    exact (and_iff_left (.inl hwhich)).symm
  · rw [if_neg hwhich, accessFile_tidy, or_iff_right hwhich]

/-! ### Affinity -/

theorem storeCpus_tidy (texts : List Str) (i : Nat) :
    Tidy (storeCpus i texts s) ↔ Tidy s ∧ (texts = [] ∨ i + texts.length ≤ maxCpus) := by
  induction texts generalizing i s with
  | nil => simp [storeCpus]
  | cons t ts ih =>
    rw [storeCpus, ih, tidy_touch, and_assoc]
    have hsize : Table.cpuArray.size = maxCpus := rfl
    have hiff : InRange Table.cpuArray.size (i : Int) ∧ (ts = [] ∨ i + 1 + ts.length ≤ maxCpus) ↔
        i + (ts.length + 1) ≤ maxCpus := by
      unfold InRange
      rw [hsize]
      cases ts with
      | nil =>
        simp only [true_or, and_true, List.length_nil]
        omega
      | cons t' ts =>
        simp only [reduceCtorEq, false_or, List.length_cons]
        omega
    rw [hiff]
    simp

theorem touchMask_tidy (cpu : Int) (setSize : Nat) : Tidy (touchMask cpu setSize s) ↔
    Tidy s ∧ ((toUnsigned 64 cpu).toNat / 8 < setSize → (toUnsigned 64 cpu).toNat < maxCpus) := by
  unfold touchMask
  dsimp only
  generalize (toUnsigned 64 cpu).toNat = n
  have hword : InRange Table.cpuMask.size ((n / 64 : Nat) : Int) ↔ n < maxCpus := by
    have hsize : Table.cpuMask.size = 16 := rfl
    have hcpus : maxCpus = 1024 := rfl
    unfold InRange
    omega
  split
  case isTrue h => rw [tidy_touch, hword, imp_iff_right h]
  case isFalse h => exact (and_iff_left fun hlt => absurd hlt h).symm

/-- With the right size no processor is set outside the mask. -/
theorem touchMask_tidy_setSize (cpu : Int) : Tidy (touchMask cpu cpuSetSize s) ↔ Tidy s := by
  rw [touchMask_tidy]
  refine and_iff_left fun h => ?_
  have hsize : 8 * cpuSetSize = maxCpus := rfl
  omega

theorem touchMask_tidy_maxCpus (cpu : Int) :
    Tidy (touchMask cpu maxCpus s) ↔ Tidy s ∧ MaskBounded cpu := by
  rw [touchMask_tidy]
  refine and_congr_right fun _ => ?_
  unfold MaskBounded
  omega

/-- The induction is on the rounds that are left: each reads an element and sets its processor. -/
theorem readCpus_tidy (cpus : Int → Int) (n j : Nat) (mask : Nat → Bool) :
    Tidy (readCpus cpus n j mask s).2 ↔
      Tidy s ∧ (n = 0 ∨ j + n ≤ maxCpus) ∧ ∀ k < n, MaskBounded (cpus ((j + k : Nat) : Int)) := by
  induction n generalizing j mask s with
  | zero => simp [readCpus]
  | succ n ih =>
    rw [readCpus, ih, touchMask_tidy_maxCpus, tidy_touch, and_assoc, and_assoc]
    have hsize : Table.cpuArray.size = maxCpus := rfl
    have hcount : InRange Table.cpuArray.size (j : Int) ∧ (n = 0 ∨ j + 1 + n ≤ maxCpus) ↔
        j + (n + 1) ≤ maxCpus := by
      unfold InRange
      rw [hsize]
      omega
    have hnext (k : Nat) : j + 1 + k = j + (k + 1) := by omega
    have hmask : (MaskBounded (cpus j) ∧ ∀ k < n, MaskBounded (cpus ((j + 1 + k : Nat) : Int))) ↔
        ∀ k < n + 1, MaskBounded (cpus ((j + k : Nat) : Int)) := by
      constructor
      · rintro ⟨hfirst, hrest⟩ (_ | k) hk
        · exact hfirst
        · exact hnext k ▸ hrest k (Nat.lt_of_succ_lt_succ hk)
      · intro hall
        exact ⟨hall 0 (Nat.succ_pos n), fun k hk => (hnext k).symm ▸ hall (k + 1) (Nat.succ_lt_succ hk)⟩
    rw [← hmask, ← hcount]
    simp only [Nat.succ_ne_zero, false_or]
    tauto

theorem affinityMask_tidy (which num : Int) (cpus : Int → Int) (mask : Nat → Bool) :
    Tidy (affinityMask which num cpus mask s).2 ↔ Tidy s ∧ (which = 2 ∨ which = 3 →
      num ≤ maxCpus ∧ ∀ j : Nat, (j : Int) < num → MaskBounded (cpus j)) := by
  have hzero : InRange Table.cpuArray.size 0 := by decide
  unfold affinityMask
  split_ifs with hone hlots
  · have hno : ¬(which = 2 ∨ which = 3) := by omega
    rw [touchMask_tidy_setSize, tidy_touch]
    simp [hno, hzero]
  · rw [readCpus_tidy, imp_iff_right hlots]
    have hnum : (num.toNat = 0 ∨ 0 + num.toNat ≤ maxCpus) ↔ num ≤ maxCpus := by omega
    have hcpus : (∀ k < num.toNat, MaskBounded (cpus ((0 + k : Nat) : Int))) ↔
        ∀ j : Nat, (j : Int) < num → MaskBounded (cpus j) := by
      apply forall_congr'
      intro k
      rw [Int.lt_toNat, Nat.zero_add]
    rw [hnum, hcpus]
  · simp [hlots]

theorem affinityAs_tidy (texts : List Str) (mask : Nat → Bool) :
    Tidy (affinityAs e texts mask s) ↔ Tidy s ∧ AffinityBounded (e.stack s.lineNum) texts := by
  rcases texts with _ | ⟨letter, _ | ⟨which, _ | ⟨num, texts⟩⟩⟩
  · exact (and_iff_left trivial).symm
  · exact (and_iff_left trivial).symm
  · exact (and_iff_left trivial).symm
  · have hstore : (texts = [] ∨ 0 + texts.length ≤ maxCpus) ↔ texts.length ≤ maxCpus := by
      rw [Nat.zero_add]
      exact or_iff_right_of_imp fun h => h ▸ Nat.zero_le _
    change Tidy (affinityMask (atoi which) (atoi num)
      (cpuArray texts (e.stack (storeCpus 0 texts s).lineNum)) mask (storeCpus 0 texts s)).2 ↔ _
    rw [affinityMask_tidy, storeCpus_tidy, hstore, and_assoc, storeCpus_lineNum]
    rfl

theorem affinityEvent_tidy : Tidy (affinityEvent e line s).2 ↔ Tidy s ∧
    ((s.cpuMask <|> e.cpuAlloc) = none ∨
      AffinityBounded (e.stack s.lineNum) (tokens isBlankOrNewline line)) := by
  unfold affinityEvent
  cases s.cpuMask <|> e.cpuAlloc with
  | none => exact (and_iff_left (.inl rfl)).symm
  | some mask =>
    rw [or_iff_right (Option.some_ne_none mask)]
    exact affinityAs_tidy _ mask

/-! ### Polling -/

theorem tidy_of_pollEntries (n : Nat) : ∀ (i : Nat) (texts : List Str) (s : State),
    Tidy (pollEntries n i texts s).2.2 → Tidy s := by
  induction n with
  | zero => exact fun _ _ _ h => h
  | succ n ih =>
    rintro i (_ | ⟨fd, _ | ⟨events, texts⟩⟩) s h
    · exact h
    · exact ((tidy_touch ..).1 h).1
    · exact ((tidy_touch ..).1 ((tidy_hand ..).1 (ih _ _ _ h))).1

theorem pollEntries_tidy (n : Nat) : ∀ (i : Nat) (texts : List Str) (s : State), i ≤ maxPollFds →
    (Tidy (pollEntries n i texts s).2.2 ↔
      Tidy s ∧ (i + n ≤ maxPollFds ∨ texts.length ≤ 2 * (maxPollFds - i))) := by
  have hsize : Table.pollfds.size = maxPollFds := rfl
  induction n with
  | zero => exact fun i texts s hi => (and_iff_left (.inl hi)).symm
  | succ n ih =>
    intro i texts s hi
    rcases texts with _ | ⟨fd, _ | ⟨events, texts⟩⟩
    · exact (and_iff_left (.inr (Nat.zero_le _))).symm
    · change Tidy ((s.touch .pollfds i).hand (atoi fd) (atoi fd)) ↔ _
      rw [tidy_hand, tidy_touch, hsize]
      refine and_congr_right fun _ => ?_
      unfold InRange
      rw [List.length_singleton]
      omega
    · change Tidy (pollEntries n (i + 1) texts
        ((s.touch .pollfds i).hand (atoi fd) (atoi fd))).2.2 ↔ _
      by_cases hlast : i = maxPollFds
      · refine iff_of_false (fun h => ?_) fun h => ?_
        · have hin : (i : Int) < Table.pollfds.size := ((tidy_touch ..).1
            ((tidy_hand ..).1 (tidy_of_pollEntries _ _ _ _ h))).2.2
          rw [hsize] at hin
          omega
        · have := h.2
          rw [List.length_cons, List.length_cons] at this
          omega
      · rw [ih _ _ _ (by omega), tidy_hand, tidy_touch, hsize, and_assoc]
        refine and_congr_right fun _ => ?_
        unfold InRange
        rw [List.length_cons, List.length_cons]
        omega

theorem pollAs_tidy (num : Int) (texts : List Str) :
    Tidy (pollAs num texts s) ↔ Tidy s ∧ PollBounded num texts := by
  change Tidy ((pollEntries num.toNat 0 texts s).2.2.access (.passed num maxPollFds)) ↔ _
  rw [tidy_access, pollEntries_tidy _ _ _ _ (Nat.zero_le _), and_assoc]
  refine and_congr_right fun _ => and_congr_left fun _ => ?_
  omega

/-! ### Signals -/

theorem ourHandler_tidy (fd : Int) : Tidy (ourHandler fd s) ↔ Tidy s ∧ InRemap fd := by
  have hsizes : Table.event.size = fdRemapSize ∧ Table.fdOverflows.size = fdRemapSize ∧
    Table.fdThrottles.size = fdRemapSize := ⟨rfl, rfl, rfl⟩
  unfold ourHandler throttleOverflow
  dsimp only
  split_ifs <;> simp only [tidy_issue, tidy_touch, tidy_setOverflows, tidy_setThrottles,
    tidy_setEvent, hsizes, and_assoc, and_self]

/-! ## Whole runs -/

theorem replayAs_tidy {kind : Kind} {handler : State → State} {P : Prop}
    (h : Tidy (handler s) ↔ Tidy s ∧ P) :
    Tidy (replayAs e kind handler s) ↔ Tidy s ∧ (e.which kind → P) := by
  unfold replayAs
  by_cases hkind : e.which kind = true
  · rw [if_pos hkind, h]
    exact and_congr_right fun _ => (imp_iff_right hkind).symm
  · rw [if_neg hkind]
    exact (and_iff_left fun h => absurd h hkind).symm

theorem affinityThenClose_tidy : Tidy (affinityThenClose e line s) ↔
    Tidy s ∧ CommandBounded e line s .affinity := by
  unfold affinityThenClose
  dsimp only [CommandBounded]
  rw [replayAs_tidy closeEvent_tidy]
  by_cases haffinity : e.which .affinity = true
  · rw [if_pos haffinity, if_pos haffinity, affinityEvent_tidy, and_assoc,
      imp_iff_right haffinity]
  · rw [if_neg haffinity, if_neg haffinity]
    exact and_congr_right fun _ => (and_iff_right fun h => absurd h haffinity).symm

theorem runCommand_tidy (c : Command) :
    Tidy (runCommand e line s c) ↔ Tidy s ∧ CommandBounded e line s c := by
  have hnone : Tidy s ↔ Tidy s ∧ True := (and_iff_left trivial).symm
  have hfree : ∀ {kind handler}, (Tidy (handler s) ↔ Tidy s) →
      (Tidy (replayAs e kind handler s) ↔ Tidy s ∧ True) := fun h =>
    (replayAs_tidy (h.trans hnone)).trans (by rw [imp_true_iff])
  cases c with
  | access => exact replayAs_tidy (accessAs_tidy ..)
  | affinity => exact affinityThenClose_tidy
  | close => exact replayAs_tidy closeEvent_tidy
  | fork =>
    apply hfree
    unfold forkEvent
    split <;> exact Iff.rfl
  | pid => exact hnone
  | ioctl => exact replayAs_tidy (ioctlAs_tidy ..)
  | mmap => exact replayAs_tidy (mmapIfOpen_tidy ..)
  | «open» => exact replayAs_tidy (openAs_tidy _)
  | overflow => exact replayAs_tidy (overflowFor_tidy _)
  | prctl => exact hfree Iff.rfl
  | poll => exact replayAs_tidy (pollAs_tidy ..)
  | trash => exact replayAs_tidy (trashIfOpen_tidy ..)
  | quit => exact hnone
  | read => exact replayAs_tidy (readFor_tidy ..)
  | munmap => exact replayAs_tidy (munmapIfOpen_tidy ..)
  | other => exact hnone

theorem countLine_tidy : Tidy (countLine e s) ↔ Tidy s := by
  unfold countLine
  dsimp only
  split <;> exact Iff.rfl

theorem replayLine_tidy : Tidy (replayLine e line s) ↔
    Tidy s ∧ (2 < s.lineNum + 1 ∧ s.lineNum + 1 < e.skipLines ∨
      Bounded e (cString line) { s with lineNum := s.lineNum + 1 }) := by
  by_cases hskip : 2 < s.lineNum + 1 ∧ s.lineNum + 1 < e.skipLines
  · rw [show replayLine e line s = { s with lineNum := s.lineNum + 1 } from if_pos hskip]
    exact (and_iff_left (.inl hskip)).symm
  · have hcount : Tidy (replayLine e line s) ↔
        Tidy (dispatch e (cString line) { s with lineNum := s.lineNum + 1 }) := by
      apply Iff.trans (iff_of_eq (congrArg Tidy (if_neg hskip)))
      split
      · exact countLine_tidy
      · exact Iff.rfl
    rw [hcount, or_iff_right hskip]
    exact runCommand_tidy _

theorem step_tidy (s : State) (h : Happening) : Tidy (step e s h) ↔ Tidy s ∧ StepBounded e h s := by
  unfold step StepBounded
  by_cases hrunning : s.progress = .running
  · rw [if_pos hrunning, imp_iff_right hrunning]
    cases h with
    | line text => exact replayLine_tidy
    | signal fd => exact ourHandler_tidy fd
  · rw [if_neg hrunning]
    exact (and_iff_left fun h => absurd h hrunning).symm

/-- A replay has made no access outside exactly when each of its steps has met the condition. -/
theorem replay_tidy_iff (e : Env) (hs : List Happening) :
    Tidy (replay e hs) ↔ Throughout (step e) (StepBounded e) (startState e) hs := by
  have hkill : ∀ s, Tidy (killChild s) ↔ Tidy s := by
    intro s
    unfold killChild
    split <;> exact Iff.rfl
  have hstart : Tidy (startState e) := fun x hx => nomatch hx
  rw [replay, hkill, replayFrom, foldl_iff_throughout step_tidy]
  exact and_iff_right hstart

/-- The number of the files is let through as a number of a file. -/
theorem replay_not_tidy :
    ¬Tidy (replay (zeroEnv fun _ => 3) [.line "A 1 6 5 0\n".toList]) := by
  intro h
  have hin : (Access.element .filenames 6).Inside := h _ (by decide +kernel)
  exact absurd hin (by decide)

end PerfEvent.Replay
