import PerfEventTests.Replay.CutLines
import PerfEventTests.Replay.Work

/-!
# The work of a complete line

A line that has all the numbers that its readers look for does what its numbers and the table say,
whatever is on the stack.
-/

namespace PerfEvent.Replay

open Text ByteMemory Fuzzer

variable {e : Env} {s : State} {line : Str}

/-! ## Complete lines -/

/-- The line names a processor, or has not even its counts. -/
def NamesCpu (texts : List Str) : Prop := ∀ letter which num, texts ≠ [letter, which, num]

/-- The line has all the numbers that its readers look for. A quit line has only one reader. -/
def CompleteAs (line : Str) : Command → Prop
  | .close | .overflow | .poll => 1 ≤ (sscanfLine [.d] line).length
  | .read | .munmap | .mmap => 2 ≤ (sscanfLine [.d, .d] line).length
  | .trash => 3 ≤ (sscanfLine [.d, .d, .d] line).length
  | .ioctl => 3 ≤ (sscanfLine [.d, .d, .ld] line).length
  | .access => 3 ≤ (sscanfLine [.d, .d, .ld, .d] line).length
  | .open => 60 ≤ (openValues line).length
  | .affinity => NamesCpu (tokens isBlankOrNewline line)
  | .quit => False
  | .fork | .prctl | .pid | .other => True

def Complete : Happening → Prop
  | .line text => CompleteAs (cString text) (command (cString text).head?)
  | .signal _ => True

/-- The `k`-th number of a line. -/
def number (convs : List Conv) (line : Str) (k : Nat) : Int := scanned convs line (fun _ => 0) k

theorem scanned_eq_number {convs : List Conv} {line : Str} {k : Nat}
    (h : k < (sscanfLine convs line).length) (stack : Nat → Int) :
    scanned convs line stack k = number convs line k := by
  simp only [scanned, number, List.getD_eq_getElem?_getD, List.getElem?_eq_getElem h,
    Option.getD_some]

theorem sscanf_take (k : Nat) : ∀ (cs : List Conv) (s : Str),
    sscanf (cs.take k) s = (sscanf cs s).take k := by
  induction k with
  | zero => exact fun _ _ => rfl
  | succ k ih =>
    rintro (_ | ⟨c, cs⟩) s
    · rfl
    · rw [List.take_succ_cons, sscanf, sscanf]
      cases scanNumber c s with
      | none => rfl
      | some r => exact congrArg (r.1 :: ·) (ih cs r.2)

/-- The replay looks for an address behind the two numbers of a line. -/
theorem scanned_mmap {line : Str} {k : Nat} (hk : k < 2)
    (h : 2 ≤ (sscanfLine [.d, .d] line).length) (stack : Nat → Int) :
    scanned [.d, .d, .lx] line stack k = number [.d, .d] line k := by
  have htake : sscanfLine [.d, .d] line = (sscanfLine [.d, .d, .lx] line).take 2 :=
    sscanf_take 2 [.d, .d, .lx] _
  rw [← scanned_eq_number (hk.trans_le h) stack, scanned, scanned, htake]
  simp only [List.getD_eq_getElem?_getD, List.getElem?_take, hk, if_true]

/-! ## What a line does -/

/-- What an affinity line is cut to. -/
def firstText (line : Str) : Str := line.takeWhile fun c => !isBlankOrNewline c

/-- What the replay does for a line. -/
def lineWork (e : Env) (line : Str) (s : State) : Command → Work
  | .access => let var := number [.d, .d, .ld, .d] line
    accessWork e (var 0) (var 1) (var 2) s
  | .affinity => (affinityWork e (tokens isBlankOrNewline line)
      ((s.cpuMask <|> e.cpuAlloc).getD fun _ => false) s).append (closingWork (firstText line) s)
  | .close => closeWork (number [.d] line 0) s
  | .fork => workOf s (forkEvent e line s)
  | .ioctl => let var := number [.d, .d, .ld] line
    ioctlWork (var 0) (var 1) (var 2) s
  | .mmap => let var := number [.d, .d] line
    mmapWork (var 1) (var 0) s
  | .open => openWork e (parseOpenEvent line { e.openStack s.lineNum with pe := {} }) s
  | .overflow => overflowWork (number [.d] line 0) s
  | .prctl => ⟨[.prctl (flagOf line ≠ 0)], []⟩
  | .poll => pollWork (number [.d] line 0) ((tokens isBlank line).drop 2) s
  | .trash => let var := number [.d, .d, .d] line
    trashWork (var 2) (var 0) (var 1) s
  | .read => let var := number [.d, .d] line
    readWork (var 0) (var 1) s
  | .munmap => let var := number [.d, .d] line
    munmapWork (var 0) (var 1) s
  | .pid | .quit | .other => {}

/-- The replay without options. -/
theorem replayAs_plainEnv (e : Env) (kind : Kind) (f : State → State) (s : State) :
    replayAs (plainEnv e) kind f s = f s := if_pos rfl

theorem does_access (hcomplete : CompleteAs line .access)
    (hin : number [.d, .d, .ld, .d] line 1 ≤ maxFilenames) :
    Does s (runCommand (plainEnv e) line s .access) (lineWork e line s .access) := by
  have hvar : ∀ k < 3, scanned [.d, .d, .ld, .d] line (e.stack s.lineNum) k =
      number [.d, .d, .ld, .d] line k := fun k hk => scanned_eq_number (hk.trans_le hcomplete) _
  rw [runCommand, replayAs_plainEnv]
  change Does s (accessAs e (scanned [.d, .d, .ld, .d] line (e.stack s.lineNum) 0)
    (scanned [.d, .d, .ld, .d] line (e.stack s.lineNum) 1)
    (scanned [.d, .d, .ld, .d] line (e.stack s.lineNum) 2) s) _
  rw [hvar 0 (by decide), hvar 1 (by decide), hvar 2 (by decide), accessAs, if_neg (not_lt.2 hin),
    lineWork, accessWork, if_neg (not_lt.2 hin)]
  exact accessFile_does _ _ _

/-- The line is cut, and goes on as a close line. -/
theorem does_affinity (hmask : e.cpuAlloc.isSome) :
    Does s (runCommand (plainEnv e) line s .affinity) (lineWork e line s .affinity) := by
  obtain ⟨mask, halloc⟩ : ∃ mask, (s.cpuMask <|> e.cpuAlloc) = some mask := by
    obtain ⟨mask, hmask⟩ := Option.isSome_iff_exists.1 hmask
    cases hheld : s.cpuMask with
    | none => exact ⟨mask, hmask⟩
    | some held => exact ⟨held, rfl⟩
  have hevent : affinityEvent (plainEnv e) line s = (firstText line,
      affinityAs e (tokens isBlankOrNewline line) mask { s with cpuMask := some mask }) := by
    have halloc' : (s.cpuMask <|> (plainEnv e).cpuAlloc) = some mask := halloc
    rw [affinityEvent, halloc']
    rfl
  have hline : runCommand (plainEnv e) line s .affinity = closeEvent (firstText line)
      (affinityAs e (tokens isBlankOrNewline line) mask { s with cpuMask := some mask }) := by
    change replayAs (plainEnv e) .close (closeEvent (affinityEvent (plainEnv e) line s).1)
      (affinityEvent (plainEnv e) line s).2 = _
    rw [replayAs_plainEnv, hevent]
  have hframe := affinityAs_frame (e := e) (s := { s with cpuMask := some mask })
    (tokens isBlankOrNewline line) mask
  have hclosing : closingWork (firstText line) (affinityAs e (tokens isBlankOrNewline line) mask
      { s with cpuMask := some mask }) = closingWork (firstText line) s := by
    unfold closingWork closeWork
    rw [hframe.1]
  have hfirst : Does s (affinityAs e (tokens isBlankOrNewline line) mask
      { s with cpuMask := some mask }) (affinityWork e (tokens isBlankOrNewline line) mask s) := by
    have hdoes := affinityAs_does (e := e) (s := { s with cpuMask := some mask })
      (tokens isBlankOrNewline line) mask
    have hwork : affinityWork e (tokens isBlankOrNewline line) mask
        { s with cpuMask := some mask } = affinityWork e (tokens isBlankOrNewline line) mask s := by
      unfold affinityWork
      split
      · rw [affinityMask_fst (t := s)]
      · rfl
    rw [← hwork]
    exact ⟨hdoes.1, hdoes.2, hdoes.3, hdoes.4, hdoes.5⟩
  rw [hline, lineWork, halloc, Option.getD_some, ← hclosing]
  exact hfirst.trans closeEvent_does

theorem sscanfLine_one (h : 1 ≤ (sscanfLine [.d] line).length) :
    sscanfLine [.d] line = [number [.d] line 0] := by
  have hle : (sscanfLine [.d] line).length ≤ 1 := length_sscanf_le _ _
  obtain ⟨v, hv⟩ := List.length_eq_one_iff.1 (Nat.le_antisymm hle h)
  rw [number, scanned, hv]
  rfl

/-- Every other kind of line but the three that change the processes or end the replay. -/
theorem does_other {c : Command} (hc : c ≠ .fork ∧ c ≠ .pid ∧ c ≠ .quit ∧ c ≠ .access ∧ c ≠ .affinity)
    (hcomplete : CompleteAs line c) :
    Does s (runCommand (plainEnv e) line s c) (lineWork e line s c) := by
  have hone (convs : List Conv) (h : 1 ≤ (sscanfLine convs line).length) :
      scanned convs line (e.stack s.lineNum) 0 = number convs line 0 := scanned_eq_number h _
  have htwo (convs : List Conv) (h : 2 ≤ (sscanfLine convs line).length) :
      scanned convs line (e.stack s.lineNum) 0 = number convs line 0 ∧
        scanned convs line (e.stack s.lineNum) 1 = number convs line 1 :=
    ⟨scanned_eq_number (by omega) _, scanned_eq_number (by omega) _⟩
  cases c with
  | access => exact absurd rfl hc.2.2.2.1
  | affinity => exact absurd rfl hc.2.2.2.2
  | fork => exact absurd rfl hc.1
  | pid => exact absurd rfl hc.2.1
  | quit => exact absurd rfl hc.2.2.1
  | close =>
    rw [runCommand, replayAs_plainEnv, closeEvent, sscanfLine_one hcomplete]
    exact closeFor_does _
  | ioctl =>
    rw [runCommand, replayAs_plainEnv]
    change Does s (ioctlAs (scanned [.d, .d, .ld] line (e.stack s.lineNum) 0)
      (scanned [.d, .d, .ld] line (e.stack s.lineNum) 1)
      (scanned [.d, .d, .ld] line (e.stack s.lineNum) 2) s) _
    rw [scanned_eq_number (Nat.lt_of_lt_of_le (by decide) hcomplete),
      scanned_eq_number (Nat.lt_of_lt_of_le (by decide) hcomplete),
      scanned_eq_number (Nat.lt_of_lt_of_le (by decide) hcomplete)]
    exact ioctlAs_does _ _ _
  | mmap =>
    rw [runCommand, replayAs_plainEnv]
    change Does s (mmapIfOpen (plainEnv e) (scanned [.d, .d, .lx] line (e.stack s.lineNum) 1)
      (scanned [.d, .d, .lx] line (e.stack s.lineNum) 0) s) _
    rw [scanned_mmap (by decide) hcomplete, scanned_mmap (by decide) hcomplete]
    exact mmapIfOpen_does _ _
  | «open» =>
    rw [runCommand, replayAs_plainEnv]
    exact openAs_does _
  | overflow =>
    rw [runCommand, replayAs_plainEnv]
    change Does s (overflowFor (scanned [.d] line (e.stack s.lineNum) 0) s) _
    rw [hone _ hcomplete]
    exact overflowFor_does _
  | prctl =>
    rw [runCommand, replayAs_plainEnv]
    exact (Does.refl s).issue _
  | poll =>
    rw [runCommand, replayAs_plainEnv]
    change Does s (pollAs (scanned [.d] line (e.stack s.lineNum) 0)
      ((tokens isBlank line).drop 2) s) _
    rw [hone _ hcomplete]
    exact pollAs_does _ _
  | trash =>
    rw [runCommand, replayAs_plainEnv]
    change Does s (trashIfOpen (scanned [.d, .d, .d] line (e.stack s.lineNum) 2)
      (scanned [.d, .d, .d] line (e.stack s.lineNum) 0)
      (scanned [.d, .d, .d] line (e.stack s.lineNum) 1) s) _
    rw [scanned_eq_number (Nat.lt_of_lt_of_le (by decide) hcomplete),
      scanned_eq_number (Nat.lt_of_lt_of_le (by decide) hcomplete),
      scanned_eq_number (Nat.lt_of_lt_of_le (by decide) hcomplete)]
    exact trashIfOpen_does _ _ _
  | read =>
    rw [runCommand, replayAs_plainEnv]
    change Does s (readFor (scanned [.d, .d] line (e.stack s.lineNum) 0)
      (scanned [.d, .d] line (e.stack s.lineNum) 1) s) _
    rw [(htwo _ hcomplete).1, (htwo _ hcomplete).2]
    exact readFor_does _ _
  | munmap =>
    rw [runCommand, replayAs_plainEnv]
    change Does s (munmapIfOpen (plainEnv e) (scanned [.d, .d] line (e.stack s.lineNum) 0)
      (scanned [.d, .d] line (e.stack s.lineNum) 1) s) _
    rw [(htwo _ hcomplete).1, (htwo _ hcomplete).2]
    exact munmapIfOpen_does _ _
  | other => exact .refl s

/-! ## Signals -/

/-- An event with too many overflows is not refreshed, and closed in the end. -/
def signalWork (fd : Int) (s : State) : Work :=
  if s.fdOverflows fd + 1 > 10000 then
    if s.fdThrottles fd + 1 > replayMaxThrottles then
      ⟨[.ioctl fd perfEventIocDisable (.value 0), .close fd], []⟩
    else ⟨[.ioctl fd perfEventIocDisable (.value 0)], []⟩
  else ⟨[.ioctl fd perfEventIocDisable (.value 0), .ioctl fd perfEventIocRefresh (.value 1)], []⟩

theorem ourHandler_does (fd : Int) : Does s (ourHandler fd s) (signalWork fd s) := by
  have hcount := (((Does.refl s).issue (.ioctl fd perfEventIocDisable (.value 0))).touch
    .fdOverflows fd).setOverflows fd (s.fdOverflows fd + 1)
  have hthrottle := ((hcount.touch .fdThrottles fd).setThrottles fd (s.fdThrottles fd + 1)
    ).setOverflows fd 0
  refine .ite Iff.rfl (fun _ => .ite Iff.rfl (fun _ => ?_) fun _ => hthrottle) fun _ => ?_
  · exact ((hthrottle.issue (.close fd)).touch .event fd).setEvent fd _
  · exact hcount.issue _

end PerfEvent.Replay
