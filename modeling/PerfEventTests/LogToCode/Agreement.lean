import PerfEventTests.Lib.Lockstep
import PerfEventTests.LogToCode.Opening
import PerfEventTests.Replay.LogLanguage

/-!
# The printed program beside the replay

A log is replayed by `replay_log`, and the program that `log_to_code` prints for it is run, with
the same results of the system calls and the same signals between the lines. The two do the same at
every line exactly when each line meets a condition on the two tables of descriptors.
-/

namespace PerfEvent.LogToCode

open Text ByteMemory Replay Lockstep
open Fuzzer (InRange closeLine)

/-- A full open line leaves no variable to chance, and the attribute of the replay is zero where the
line has nothing for it. -/
theorem sameLine_of_full {line : Str} (h : 60 ≤ (openValues line).length) (o o' : OpenVars) :
    SameLine (parseOpenEvent line o) (parseOpenEvent line { o' with pe := {} }) := by
  obtain ⟨f, rest, hrest, hassign⟩ := exists_assign_eq (Nat.le_refl 60) h
  obtain rfl := List.length_eq_zero_iff.1 (Nat.le_zero.1 hrest)
  rw [parseOpenEvent_assign, parseOpenEvent_assign, hassign, hassign]
  exact ⟨rfl, rfl, rfl, rfl, rfl, rfl⟩

/-- The condition for a line: what it is about is open, and is the same in both tables; and the
printer has a statement for it. -/
def CommandAlike (e : Env) (line : Str) (s : State) (p : Process) : Command → Prop
  | .access => let var := number [.d, .d, .ld, .d] line
    InRange maxFilenames (var 1) ∧ (var 0 = 0 ∨ e.next s = 0)
  | .affinity => ¬Closes (firstText line) s ∧ MaskPrinted (tokens isBlankOrNewline line)
  | .close => Named (number [.d] line 0) s p ∧ (s.event (number [.d] line 0)).fdRemap ≠ -1
  | .ioctl => let var := number [.d, .d, .ld] line
    IoctlAlike (var 0) (var 1) (var 2) s p
  | .mmap => let fd := number [.d, .d] line 1
    Named fd s p ∧ (s.event fd).fdRemap ≠ -1
  | .open => OpenAlike (parseOpenEvent line noVars) s p
  | .overflow => Named (number [.d] line 0) s p
  | .poll => PollAlike (number [.d] line 0) ((tokens isBlank line).drop 2) p
  | .trash => let fd := number [.d, .d, .d] line 2
    InRange numValues fd ∧ p.mmapResult fd = written fd s
  | .read => let var := number [.d, .d] line
    Named (var 0) s p ∧ toUnsigned 64 (var 1) ≤ readRoom
  | .munmap => let var := number [.d, .d] line
    InRange numValues (var 0) ∧ (s.event (var 0)).fdRemap ≠ -1 ∧
      (s.event (var 0)).size = var 1 ∧ (s.event (var 0)).mmapRemap ≠ .failed ∧
      p.mmapResult (var 0) = (s.event (var 0)).mmapRemap
  | .fork | .prctl | .pid | .quit | .other => True

/-- The condition for one step. A signal is thrown away by the replay when there were too many. -/
def Alike (e : Env) (h : Happening) (s : State) (t : Printer × Process) : Prop :=
  match h with
  | .line text => CommandAlike e (cString text) s t.2 (command (cString text).head?)
  | .signal fd => s.fdOverflows fd + 1 ≤ 10000

theorem alike_iff_of_command {e : Env} {text : Str} {s : State} {t : Printer × Process} {c : Command}
    (h : command (cString text).head? = c) :
    Alike e (.line text) s t ↔ CommandAlike e (cString text) s t.2 c := by
  subst h
  exact Iff.rfl

/-! ## The two machines -/

/-- The replay, with the work of each step. -/
def replayStep (e : Env) (s : State) (h : Happening) : State × Work :=
  (step (plainEnv e) s h, workOf s (step (plainEnv e) s h))

/-- A line is printed, and what has been printed for it is run. -/
def codeStep (e : Env) (stack : Stack) (t : Printer × Process) :
    Happening → Option ((Printer × Process) × Work)
  | .line text => (printLine stack text t.1).bind fun r => (execute e r.2 t.2).map fun p =>
      ((r.1, p), workBetween t.2.calls t.2.memsets p.calls p.memsets)
  | .signal fd => some ((t.1, ourHandler fd t.2), workBetween t.2.calls t.2.memsets
      (ourHandler fd t.2).calls (ourHandler fd t.2).memsets)

/-- What has been done so far is the same. -/
structure Related (s : State) (t : Printer × Process) : Prop where
  calls : t.2.calls = s.calls
  memsets : t.2.memsets = s.memsets
  forkedPid : t.2.forkedPid = s.forkedPid
  originalPid : t.1.originalPid.toInt = s.originalPid
  mask : t.2.cpuMask.isSome
  running : s.progress = .running

variable {e : Env} {stack : Stack} {s : State} {t : Printer × Process} {p p' : Process}
  {line text : Str} {w : Work} {as : List Statement} {c : Command}

/-- What `CPU_ALLOC` and `getpid` give. -/
structure Started (e : Env) : Prop where
  ownPid : (BitVec.ofInt 32 e.ownPid).toInt = e.ownPid
  mask : e.cpuAlloc.isSome

/-- The replay of a line, up to the counters of lines. -/
def afterLine (e : Env) (text : Str) (s : State) : State :=
  runCommand (plainEnv e) (cString text) { s with lineNum := s.lineNum + 1 }
    (command (cString text).head?)

theorem step_line_eq (e : Env) (text : Str) (hrunning : s.progress = .running) :
    step (plainEnv e) s (.line text) = if (afterLine e text s).progress = .running then
      countLine (plainEnv e) (afterLine e text s) else afterLine e text s := by
  unfold step replayLine
  dsimp only
  rw [if_pos hrunning, if_neg (by exact fun h => absurd h.2 (Nat.not_lt_zero _))]
  rfl

theorem step_line (e : Env) (text : Str) (hrunning : s.progress = .running) :
    let s' := step (plainEnv e) s (.line text)
    s'.calls = (afterLine e text s).calls ∧ s'.memsets = (afterLine e text s).memsets ∧
      s'.forkedPid = (afterLine e text s).forkedPid ∧
      s'.originalPid = (afterLine e text s).originalPid ∧
      s'.progress = (afterLine e text s).progress ∧ s'.event = (afterLine e text s).event := by
  rw [step_line_eq e text hrunning]
  dsimp only
  split
  · rw [countLine_plainEnv]
    exact ⟨rfl, rfl, rfl, rfl, rfl, rfl⟩
  · exact ⟨rfl, rfl, rfl, rfl, rfl, rfl⟩

theorem workOf_step_line (hrunning : s.progress = .running) :
    workOf s (step (plainEnv e) s (.line text)) =
      workOf { s with lineNum := s.lineNum + 1 } (afterLine e text s) := by
  obtain ⟨hcalls, hmemsets, -⟩ := step_line e text hrunning
  rw [workOf, hcalls, hmemsets]
  rfl

/-- The state of the printer at a line. -/
def Printer.next (c : Printer) : Printer := { c with lineNum := c.lineNum + 1 }

theorem codeStep_line_iff : (∃ u, codeStep e stack t (.line text) = some (u, w)) ↔
    ∃ as, printCommand stack (cString text) t.1.next (command (cString text).head?) = some as ∧
      Performs e as t.2 w := by
  constructor
  · rintro ⟨u, hu⟩
    obtain ⟨r, hr, hmap⟩ := Option.bind_eq_some_iff.1 hu
    obtain ⟨as, has, rfl⟩ := Option.map_eq_some_iff.1 hr
    obtain ⟨p, hp, hpair⟩ := Option.map_eq_some_iff.1 hmap
    exact ⟨as, has, p, hp, (Prod.mk.inj hpair).2⟩
  · rintro ⟨as, has, p, hp, hw⟩
    refine ⟨(scanPid (cString text) t.1.next (command (cString text).head?), p), ?_⟩
    refine Option.bind_eq_some_iff.2 ⟨_, Option.map_eq_some_iff.2 ⟨as, has, rfl⟩, ?_⟩
    exact Option.map_eq_some_iff.2 ⟨p, hp, congrArg (Prod.mk _) hw⟩

/-! ## One line -/

theorem exists_some_iff {as : List Statement} {P : List Statement → Prop} :
    (∃ bs, some as = some bs ∧ P bs) ↔ P as := by
  simp

/-- A line whose numbers are all there is done in the same way exactly under its condition. -/
theorem printed_iff (stack : Stack) (vars : Printer) (hstarted : Started e)
    (hcomplete : CompleteAs line c)
    (hcalls : p.calls = s.calls) (hmemsets : p.memsets = s.memsets)
    (hpid : p.forkedPid = s.forkedPid) (horiginal : vars.originalPid.toInt = s.originalPid)
    (hmask : p.cpuMask.isSome) :
    (∃ as, printCommand stack line vars c = some as ∧ Performs e as p (lineWork e line s c)) ↔
      CommandAlike e line s p c := by
  have hnumber {convs : List Conv} {k : Nat} (h : k < (sscanfLine convs line).length) :
      scanned convs line (stack.vars vars.lineNum) k = number convs line k :=
    scanned_eq_number h _
  cases c with
  | access =>
    rw [printCommand, accessEvent, hnumber (Nat.lt_of_lt_of_le (by decide) hcomplete),
      hnumber (Nat.lt_of_lt_of_le (by decide) hcomplete),
      hnumber (Nat.lt_of_lt_of_le (by decide) hcomplete)]
    exact performs_access hcalls
  | affinity => exact performs_affinity hcomplete hmask
  | close =>
    rw [printCommand, exists_some_iff, closeEvent, hnumber hcomplete]
    exact performs_close
  | fork =>
    obtain ⟨p', hrun, hcalls', hmemsets', -⟩ := execute_fork line hcalls hmemsets hpid (e := e)
    rw [printCommand, exists_some_iff]
    refine iff_of_true ⟨p', hrun, ?_⟩ trivial
    rw [hcalls, hmemsets, hcalls', hmemsets']
    rfl
  | ioctl =>
    rw [printCommand, exists_some_iff, ioctlEvent,
      hnumber (Nat.lt_of_lt_of_le (by decide) hcomplete),
      hnumber (Nat.lt_of_lt_of_le (by decide) hcomplete),
      hnumber (Nat.lt_of_lt_of_le (by decide) hcomplete)]
    exact performs_ioctl
  | mmap =>
    rw [printCommand, exists_some_iff, mmapEvent,
      hnumber (Nat.lt_of_lt_of_le (by decide) hcomplete),
      hnumber (Nat.lt_of_lt_of_le (by decide) hcomplete)]
    exact performs_mmap
  | «open» =>
    have hsame := sameLine_of_full hcomplete (stack.openVars vars.lineNum)
    have hvars := sameLine_of_full hcomplete noVars noVars
    rw [printCommand, exists_some_iff, openEvent]
    refine (performs_open (hsame _) hstarted.ownPid horiginal).trans ?_
    have hfd := (hsame noVars).fd.symm.trans hvars.fd
    have hgroup := (hsame noVars).groupFd.symm.trans hvars.groupFd
    rw [CommandAlike, OpenAlike, OpenAlike, hfd, hgroup]
  | overflow =>
    rw [printCommand, exists_some_iff, setupOverflow, hnumber hcomplete]
    exact performs_overflow
  | prctl =>
    rw [printCommand, exists_some_iff]
    exact iff_of_true performs_prctl trivial
  | poll =>
    rw [printCommand, exists_some_iff, pollEvent, hnumber hcomplete]
    exact performs_poll
  | trash =>
    rw [printCommand, exists_some_iff, trashMmapEvent,
      hnumber (Nat.lt_of_lt_of_le (by decide) hcomplete),
      hnumber (Nat.lt_of_lt_of_le (by decide) hcomplete),
      hnumber (Nat.lt_of_lt_of_le (by decide) hcomplete)]
    exact performs_memset
  | read =>
    rw [printCommand, exists_some_iff, readEvent,
      hnumber (Nat.lt_of_lt_of_le (by decide) hcomplete),
      hnumber (Nat.lt_of_lt_of_le (by decide) hcomplete)]
    exact performs_read
  | munmap =>
    rw [printCommand, exists_some_iff, munmapEvent,
      hnumber (Nat.lt_of_lt_of_le (by decide) hcomplete),
      hnumber (Nat.lt_of_lt_of_le (by decide) hcomplete)]
    exact performs_munmap
  | quit => exact absurd hcomplete id
  | pid =>
    rw [printCommand, exists_some_iff]
    exact iff_of_true ⟨p, rfl, (Did.refl p).work⟩ trivial
  | other =>
    rw [printCommand, exists_some_iff]
    exact iff_of_true ⟨p, rfl, (Did.refl p).work⟩ trivial

/-! ## What stays -/

/-- More has been done, and there still is a mask, and the same child. -/
structure Adds (p p' : Process) : Prop where
  work : ∃ w, Did p p' w
  mask : p.cpuMask.isSome → p'.cpuMask.isSome
  forkedPid : p'.forkedPid = p.forkedPid

/-- The two tables are the same as well. -/
structure Keeps (p p' : Process) : Prop extends Adds p p' where
  fd : p'.fd = p.fd
  mmapResult : p'.mmapResult = p.mmapResult

namespace Keeps

variable {q : Process}

theorem refl (p : Process) : Keeps p p := ⟨⟨⟨{}, .refl p⟩, id, rfl⟩, rfl, rfl⟩

theorem issue (p : Process) (c : Call) : Keeps p (p.issue c) :=
  ⟨⟨⟨_, (Did.refl p).issue c⟩, id, rfl⟩, rfl, rfl⟩

theorem trans (h : Keeps p p') (h' : Keeps p' q) : Keeps p q := by
  obtain ⟨⟨⟨w, hw⟩, hmask, hpid⟩, hfd, hmmap⟩ := h
  obtain ⟨⟨⟨v, hv⟩, hmask', hpid'⟩, hfd', hmmap'⟩ := h'
  refine ⟨⟨⟨w.append v, ?_, ?_⟩, hmask' ∘ hmask, hpid'.trans hpid⟩, hfd'.trans hfd,
    hmmap'.trans hmmap⟩
  · rw [hv.calls, hw.calls, List.append_assoc, Work.append]
  · rw [hv.memsets, hw.memsets, List.append_assoc, Work.append]

/-- An update of the other variables. -/
theorem update (h : Keeps p p') (hcalls : q.calls = p'.calls)
    (hmemsets : q.memsets = p'.memsets) (hpid : q.forkedPid = p'.forkedPid)
    (hmask : p'.cpuMask.isSome → q.cpuMask.isSome) (hfd : q.fd = p'.fd)
    (hmmap : q.mmapResult = p'.mmapResult) : Keeps p q :=
  h.trans ⟨⟨⟨{}, (Did.refl p').update hcalls hmemsets⟩, hmask, hpid⟩, hfd, hmmap⟩

theorem fileStatements (body : List FileStatement) (p : Process) :
    Keeps p (body.foldl FileStatement.run p) := by
  induction body generalizing p with
  | nil => exact .refl p
  | cons a body ih => cases a <;> exact (Keeps.issue p _).trans (ih _)

end Keeps

/-- Neither the tables nor the child depend on the statement. -/
def Statement.Plain : Statement → Prop
  | .openEvent .. | .mmap .. | .fork => False
  | _ => True

theorem run_keeps {a : Statement} (ha : a.Plain) (h : a.run e p = some p') : Keeps p p' := by
  have hdescriptor {n : Int} {f : Int → Process} (hrun : (p.descriptor n).map f = some p')
      (hf : ∀ fd, Keeps p (f fd)) : Keeps p p' := by
    obtain ⟨fd, -, rfl⟩ := Option.map_eq_some_iff.1 hrun
    exact hf fd
  have hheld {f : (Nat → Bool) → Process} (hrun : p.cpuMask.map f = some p')
      (hf : ∀ mask, Keeps p (f mask)) : Keeps p p' := by
    obtain ⟨mask, -, rfl⟩ := Option.map_eq_some_iff.1 hrun
    exact hf mask
  cases a with
  | openEvent n groupFd text => exact absurd ha id
  | mmap n length => exact absurd ha id
  | fork => exact absurd ha id
  | memset n value count =>
    obtain ⟨region, -, hregion⟩ := Option.bind_eq_some_iff.1 h
    cases region with
    | failed => cases hregion
    | null =>
      obtain rfl := Option.some.inj hregion
      exact .refl _
    | mapped call length =>
      obtain rfl := Option.some.inj hregion
      exact ⟨⟨⟨⟨[], [_]⟩, (List.append_nil _).symm, rfl⟩, id, rfl⟩, rfl, rfl⟩
  | munmap n length =>
    obtain ⟨region, -, rfl⟩ := Option.map_eq_some_iff.1 h
    exact .issue p _
  | close n => exact hdescriptor h fun _ => .issue p _
  | setPeriod v =>
    obtain rfl := Option.some.inj h
    exact (Keeps.refl p).update rfl rfl rfl id rfl rfl
  | ioctl n request arg =>
    obtain ⟨fd, -, hv⟩ := Option.bind_eq_some_iff.1 h
    obtain ⟨v, -, rfl⟩ := Option.map_eq_some_iff.1 hv
    exact .issue p _
  | read n count => exact hdescriptor h fun _ => .issue p _
  | prctl enable =>
    obtain rfl := Option.some.inj h
    exact .issue p _
  | setPollfd i n events =>
    rw [Statement.run] at h
    split at h
    · exact hdescriptor h fun _ => (Keeps.refl p).update rfl rfl rfl id rfl rfl
    · cases h
  | poll count timeout =>
    rw [Statement.run] at h
    split at h
    · obtain rfl := Option.some.inj h
      exact .issue p _
    · cases h
  | fopen file writing =>
    obtain rfl := Option.some.inj h
    exact (Keeps.issue p _).update rfl rfl rfl id rfl rfl
  | ifOpened body =>
    obtain rfl := Option.some.inj h
    split
    · exact .fileStatements body p
    · exact .refl p
  | setSize =>
    obtain rfl := Option.some.inj h
    exact (Keeps.refl p).update rfl rfl rfl id rfl rfl
  | cpuZero => exact hheld h fun _ => (Keeps.refl p).update rfl rfl rfl (fun _ => rfl) rfl rfl
  | cpuSet cpu => exact hheld h fun _ => (Keeps.refl p).update rfl rfl rfl (fun _ => rfl) rfl rfl
  | schedSetaffinity => exact hheld h fun _ => .issue p _
  | kill =>
    obtain rfl := Option.some.inj h
    exact .issue p _
  | waitpid =>
    obtain rfl := Option.some.inj h
    exact .issue p _
  | sigaction =>
    obtain rfl := Option.some.inj h
    exact .issue p _
  | fcntl n command => exact hdescriptor h fun _ => .issue p _

theorem execute_keeps (has : ∀ a ∈ as, a.Plain) (h : execute e as p = some p') : Keeps p p' := by
  induction as generalizing p with
  | nil =>
    obtain rfl := Option.some.inj h
    exact .refl p
  | cons a as ih =>
    obtain ⟨ha, has⟩ := List.forall_mem_cons.1 has
    obtain ⟨q, hq, hrest⟩ := Option.bind_eq_some_iff.1 h
    exact (run_keeps ha hq).trans (ih has hrest)

theorem ioctlStatements_plain (fd arg arg2 : Int) :
    ∀ a ∈ ioctlStatements fd arg arg2, a.Plain := by
  unfold ioctlStatements
  split_ifs <;> simp [Statement.Plain]

theorem pollStatements_plain (num : Int) (texts : List Str) :
    ∀ a ∈ pollStatements num texts, a.Plain := by
  have hentries : ∀ a ∈ (pollEntries num.toNat 0 texts).1, a.Plain := by
    intro a ha
    obtain ⟨k, m, events, rfl⟩ := pollEntries_stores _ _ _ a ha
    exact trivial
  unfold pollStatements
  dsimp only
  split
  · exact hentries
  · intro a ha
    obtain ha | ha := List.mem_append.1 ha
    · exact hentries a ha
    · rw [List.mem_singleton.1 ha]
      exact trivial

/-- Only three kinds of lines have other statements. -/
theorem printCommand_plain {vars : Printer} (hc : c ≠ .fork ∧ c ≠ .open ∧ c ≠ .mmap)
    (h : printCommand stack line vars c = some as) : ∀ a ∈ as, a.Plain := by
  cases c with
  | fork => exact absurd rfl hc.1
  | «open» => exact absurd rfl hc.2.1
  | mmap => exact absurd rfl hc.2.2
  | access =>
    rw [printCommand, accessEvent, accessStatements] at h
    split_ifs at h <;> obtain rfl := Option.some.inj h <;> simp [Statement.Plain]
  | affinity =>
    rw [printCommand, affinityEvent] at h
    unfold affinityStatements at h
    split at h
    · split_ifs at h <;> obtain rfl := Option.some.inj h <;> simp [Statement.Plain]
    · obtain rfl := Option.some.inj h
      simp
  | ioctl =>
    obtain rfl := Option.some.inj h
    exact ioctlStatements_plain _ _ _
  | poll =>
    obtain rfl := Option.some.inj h
    exact pollStatements_plain _ _
  | overflow =>
    obtain rfl := Option.some.inj h
    simp [setupOverflow, overflowStatements, overflowCommands, Statement.Plain]
  | _ =>
    obtain rfl := Option.some.inj h
    simp [closeEvent, prctlEvent, trashMmapEvent, readEvent, munmapEvent, Statement.Plain]

/-- An open line that has a meaning has opened its event. -/
theorem execute_open {vars : Printer} (h : printCommand stack line vars .open = some as)
    (hrun : execute e as p = some p') :
    p' = opened e vars.originalPid (parseOpenEvent line (stack.openVars vars.lineNum)) p := by
  obtain rfl := Option.some.inj h
  rw [openEvent, execute_singleton, Statement.run] at hrun
  split at hrun
  · exact Option.some.inj (hrun.symm.trans (runText_event _ _))
  · cases hrun

theorem execute_mmap {vars : Printer} (hcomplete : CompleteAs line .mmap)
    (h : printCommand stack line vars .mmap = some as) (hrun : execute e as p = some p') :
    p' = (p.issue (mmapCall (number [.d, .d] line 0) (p.fd (number [.d, .d] line 1)).toInt)
      ).setMapping (number [.d, .d] line 1) (mapped e (number [.d, .d] line 0) p) := by
  obtain rfl := Option.some.inj h
  rw [mmapEvent, scanned_eq_number (Nat.lt_of_lt_of_le (by decide) hcomplete),
    scanned_eq_number (Nat.lt_of_lt_of_le (by decide) hcomplete), execute_singleton,
    Statement.run] at hrun
  obtain ⟨fd, hfd, rfl⟩ := Option.map_eq_some_iff.1 hrun
  unfold Process.descriptor at hfd
  split at hfd
  · obtain rfl := Option.some.inj hfd
    rfl
  · cases hfd

/-- Only a fork line changes the child. -/
theorem printed_adds {vars : Printer} (hcomplete : CompleteAs line c) (hc : c ≠ .fork)
    (h : printCommand stack line vars c = some as) (hrun : execute e as p = some p') :
    Adds p p' := by
  by_cases hopen : c = .open
  · subst hopen
    rw [execute_open h hrun]
    exact ⟨⟨⟨[_], []⟩, rfl, (List.append_nil _).symm⟩, id, rfl⟩
  by_cases hmmap : c = .mmap
  · subst hmmap
    rw [execute_mmap hcomplete h hrun]
    exact ⟨⟨⟨[_], []⟩, rfl, (List.append_nil _).symm⟩, id, rfl⟩
  · exact (execute_keeps (printCommand_plain ⟨hc, hopen, hmmap⟩ h) hrun).toAdds

/-! ## The simulation -/

theorem toInt_scanned {v : Int} (h : v ∈ sscanfLine [.d] line) : (BitVec.ofInt 32 v).toInt = v := by
  obtain ⟨neg, m, rfl⟩ : ∃ neg m, v = Conv.value neg m .d := by
    unfold sscanfLine sscanf scanNumber at h
    cases hread : readMagnitude Conv.d.base (readSign ((line.drop 1).dropWhile isSpace)).2 with
    | none => simp only [hread, Option.map_none, List.not_mem_nil] at h
    | some r =>
      simp only [hread, Option.map_some, sscanf, List.mem_singleton] at h
      exact ⟨_, _, h⟩
  rw [BitVec.toInt_ofInt]
  exact Int.bmod_bmod

/-- What has been done is the same again when the work is. -/
theorem eq_of_work {s s' : State} {w w' : Work} (hcalls : p.calls = s.calls)
    (hmemsets : p.memsets = s.memsets) (hs : Does s s' w) (hp : Did p p' w')
    (hw : w' = w) : p'.calls = s'.calls ∧ p'.memsets = s'.memsets :=
  ⟨by rw [hs.calls, hp.calls, hw, hcalls], by rw [hs.memsets, hp.memsets, hw, hmemsets]⟩

/-- The line says which process was recorded. -/
theorem scanPid_originalPid {vars : Printer} (h : vars.originalPid.toInt = s.originalPid) :
    (scanPid line vars .pid).originalPid.toInt = (sscanfLine [.d] line).getD 0 s.originalPid := by
  unfold scanPid
  cases hline : sscanfLine [.d] line with
  | nil => exact h
  | cons v vs => exact toInt_scanned (by rw [hline]; exact List.mem_cons_self)

/-- What a line that can be printed does, unless it is about processes. -/
theorem does_printed {vars : Printer} (hstarted : Started e) (hcomplete : CompleteAs line c)
    (hfork : c ≠ .fork) (hpid : c ≠ .pid) (has : printCommand stack line vars c = some as) :
    Does s (runCommand (plainEnv e) line s c) (lineWork e line s c) := by
  by_cases haffinity : c = .affinity
  · subst haffinity
    exact does_affinity hstarted.mask
  by_cases haccess : c = .access
  · subst haccess
    refine does_access hcomplete ?_
    rw [printCommand, accessEvent, accessStatements] at has
    split at has
    case isTrue hin =>
      rw [scanned_eq_number (Nat.lt_of_lt_of_le (by decide) hcomplete)] at hin
      exact hin.2.le
    case isFalse => cases has
  · have hquit : c ≠ .quit := fun h => by
      subst h
      exact hcomplete
    exact does_other ⟨hfork, hpid, hquit, haccess, haffinity⟩ hcomplete

/-- A command that has been done in the same way leaves the two related. -/
theorem related_command {vars : Printer} (hstarted : Started e) (hcomplete : CompleteAs line c)
    (h : Related s (vars, p)) (has : printCommand stack line vars c = some as)
    (hrun : execute e as p = some p')
    (hw : workBetween p.calls p.memsets p'.calls p'.memsets =
      workOf s (runCommand (plainEnv e) line s c)) :
    Related (runCommand (plainEnv e) line s c) (scanPid line vars c, p') := by
  by_cases hfork : c = .fork
  · subst hfork
    obtain rfl := Option.some.inj has
    obtain ⟨q, hq, hcalls, hmemsets, hpid, hmask⟩ :=
      execute_fork line h.calls h.memsets h.forkedPid (e := e)
    obtain rfl := Option.some.inj (hrun.symm.trans hq)
    have horiginal : (Replay.forkEvent e line s).originalPid = s.originalPid ∧
        (Replay.forkEvent e line s).progress = s.progress := by
      unfold Replay.forkEvent
      split <;> exact ⟨rfl, rfl⟩
    rw [runCommand, replayAs_plainEnv]
    refine ⟨hcalls, hmemsets, hpid, h.originalPid.trans horiginal.1.symm, ?_,
      horiginal.2.trans h.running⟩
    rw [hmask]
    exact h.mask
  by_cases hpid : c = .pid
  · subst hpid
    obtain rfl := Option.some.inj has
    obtain rfl := Option.some.inj hrun
    exact ⟨h.calls, h.memsets, h.forkedPid, scanPid_originalPid h.originalPid, h.mask, h.running⟩
  · have hadds := printed_adds hcomplete hfork has hrun
    have hdoes := does_printed (s := s) hstarted hcomplete hfork hpid has
    obtain ⟨w', hdid⟩ := hadds.work
    rw [hdid.work, hdoes.workOf] at hw
    obtain ⟨hcalls, hmemsets⟩ := eq_of_work h.calls h.memsets hdoes hdid hw
    have hscan : scanPid line vars c = vars := by
      cases c with
      | pid => exact absurd rfl hpid
      | _ => rfl
    rw [hscan]
    exact ⟨hcalls, hmemsets, hadds.forkedPid.trans (h.forkedPid.trans hdoes.forkedPid.symm),
      h.originalPid.trans hdoes.originalPid.symm, hadds.mask h.mask,
      hdoes.progress.trans h.running⟩

/-- The work of a command that can be printed. -/
theorem workOf_printed {vars : Printer} (hstarted : Started e) (hcomplete : CompleteAs line c)
    (has : printCommand stack line vars c = some as) :
    workOf s (runCommand (plainEnv e) line s c) = lineWork e line s c := by
  by_cases hfork : c = .fork
  · subst hfork
    rfl
  by_cases hpid : c = .pid
  · subst hpid
    exact (Does.refl s).workOf
  · exact (does_printed hstarted hcomplete hfork hpid has).workOf

/-- A line is printed with the work that the replay does for it exactly under its condition. -/
theorem copied_line (hstarted : Started e) (hcomplete : Complete (.line text))
    (h : Related s t) : (∃ u, codeStep e stack t (.line text) =
        some (u, workOf s (step (plainEnv e) s (.line text)))) ↔ Alike e (.line text) s t := by
  rw [workOf_step_line h.running, codeStep_line_iff]
  refine Iff.trans ?_ (printed_iff stack t.1.next hstarted hcomplete h.calls h.memsets h.forkedPid
    h.originalPid h.mask (s := { s with lineNum := s.lineNum + 1 }))
  refine exists_congr fun as => and_congr_right fun has => ?_
  rw [afterLine, workOf_printed hstarted hcomplete has]

theorem related_line (hstarted : Started e) (hcomplete : Complete (.line text))
    (h : Related s t) {u : Printer × Process} (hstep : codeStep e stack t (.line text) =
      some (u, workOf s (step (plainEnv e) s (.line text)))) :
    Related (step (plainEnv e) s (.line text)) u := by
  obtain ⟨r, hr, hmap⟩ := Option.bind_eq_some_iff.1 hstep
  obtain ⟨as, has, rfl⟩ := Option.map_eq_some_iff.1 hr
  obtain ⟨p, hp, hpair⟩ := Option.map_eq_some_iff.1 hmap
  obtain ⟨rfl, hw⟩ := Prod.mk.inj hpair
  rw [workOf_step_line h.running] at hw
  obtain ⟨hcalls, hmemsets, hforked, horiginal, hprogress, -⟩ := step_line e text h.running
  have hnext : Related { s with lineNum := s.lineNum + 1 } (t.1.next, t.2) :=
    ⟨h.calls, h.memsets, h.forkedPid, h.originalPid, h.mask, h.running⟩
  have hafter := related_command hstarted hcomplete hnext has hp hw
  exact ⟨hafter.calls.trans hcalls.symm, hafter.memsets.trans hmemsets.symm,
    hafter.forkedPid.trans hforked.symm, hafter.originalPid.trans horiginal.symm, hafter.mask,
    hprogress.trans hafter.running⟩

/-! ### Signals -/

theorem did_signal (fd : Int) : Did p (ourHandler fd p)
    ⟨[.ioctl fd Fuzzer.perfEventIocDisable (.value 0),
      .ioctl fd Fuzzer.perfEventIocRefresh (.value 1)], []⟩ :=
  ((Did.refl p).issue _).issue _

theorem step_signal (e : Env) (fd : Int) (hrunning : s.progress = .running) :
    step (plainEnv e) s (.signal fd) = Replay.ourHandler fd s := if_pos hrunning

/-- The program always refreshes the event. -/
theorem signal_iff (fd : Int) :
    (⟨[.ioctl fd Fuzzer.perfEventIocDisable (.value 0),
      .ioctl fd Fuzzer.perfEventIocRefresh (.value 1)], []⟩ : Work) = signalWork fd s ↔
        s.fdOverflows fd + 1 ≤ 10000 := by
  unfold signalWork
  split_ifs with hmany hclosed
  · simp [not_le.2 hmany]
  · simp [not_le.2 hmany]
  · simp [not_lt.1 hmany]

theorem codeStep_signal (fd : Int) : codeStep e stack t (.signal fd) =
    some ((t.1, ourHandler fd t.2), ⟨[.ioctl fd Fuzzer.perfEventIocDisable (.value 0),
      .ioctl fd Fuzzer.perfEventIocRefresh (.value 1)], []⟩) := by
  rw [codeStep, (did_signal fd).work]

theorem simulates (hstarted : Started e) (stack : Stack) :
    Simulates (replayStep e) (codeStep e stack) Complete Related (Alike e) where
  copied s t h hcomplete hrelated := by
    cases h with
    | line text => exact copied_line hstarted hcomplete hrelated
    | signal fd =>
      rw [replayStep, step_signal e fd hrelated.running, (ourHandler_does fd).workOf,
        codeStep_signal, Alike, ← signal_iff fd]
      simp
  keeps s t h u hcomplete hrelated hstep := by
    cases h with
    | line text => exact related_line hstarted hcomplete hrelated hstep
    | signal fd =>
      have hdoes := ourHandler_does (s := s) fd
      rw [replayStep, step_signal e fd hrelated.running, hdoes.workOf, codeStep_signal] at hstep
      obtain ⟨rfl, hw⟩ := Prod.mk.inj (Option.some.inj hstep)
      obtain ⟨hcalls, hmemsets⟩ :=
        eq_of_work hrelated.calls hrelated.memsets hdoes (did_signal fd) hw
      rw [replayStep, step_signal e fd hrelated.running]
      exact ⟨hcalls, hmemsets, hrelated.forkedPid.trans hdoes.forkedPid.symm,
        hrelated.originalPid.trans hdoes.originalPid.symm, hrelated.mask,
        hdoes.progress.trans hrelated.running⟩

/-! ## Whole logs -/

/-- The program and the printer before the first line. -/
def start (e : Env) : Printer × Process := ({}, startProcess e)

theorem start_related (hstarted : Started e) : Related (startState e) (start e) :=
  ⟨rfl, rfl, rfl, rfl, hstarted.mask, rfl⟩

/-- The printed program does at every line of the log what the replay does there. -/
def SameWork (e : Env) (stack : Stack) (hs : List Happening) : Prop :=
  Copies (replayStep e) (codeStep e stack) (startState e) (start e) hs

/-- Each line of the log, and each signal, meets its condition. -/
def AlikeThroughout (e : Env) (stack : Stack) (hs : List Happening) : Prop :=
  Along (replayStep e) (codeStep e stack) (Alike e) (startState e) (start e) hs

end PerfEvent.LogToCode
