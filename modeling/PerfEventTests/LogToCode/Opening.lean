import PerfEventTests.LogToCode.Steps

/-!
# Opening, files, processors and processes

The rest of the kinds of lines. A printed event is opened with the attribute, the process and the
leader that the replay uses when the two tables agree on the leader.
-/

namespace PerfEvent.LogToCode

open Text ByteMemory Replay
open Fuzzer (InRange)

variable {e : Env} {p : Process} {s : State} {w : Work}

/-! ## Opening -/

section Open

open AttrPrint CExpressions

variable {m : AttrPrint.Machine}

/-- The recorded process of the log becomes the one that runs the program. -/
def printedPid (getpid originalPid pid : BitVec 32) : BitVec 32 :=
  if pid = originalPid then getpid else pid

theorem givesInt_printedPid (r : Program) (originalPid pid : BitVec 32) :
    GivesInt m r (pidArgument originalPid pid) (printedPid m.getpid originalPid pid) := by
  unfold pidArgument printedPid
  split
  case isTrue => exact ⟨_, (operand_name rfl).evaluate, setWidth_signExtend (by decide) _⟩
  case isFalse => exact givesInt_d r pid

/-- The call, whatever the printer takes for the recorded process. -/
theorem execute_openCall (n : Int) (r : Program) (originalPid pid cpu groupFd : BitVec 32)
    (flags : BitVec 64) :
    AttrPrint.execute m (.openCall n :: ((pidArgument originalPid pid).map .expr ++
      .comma :: ((d cpu).map .expr ++
        .comma :: ((groupFdArgument groupFd).map .expr ++
          .comma :: ((perfPrettyPrintFlags flags).map .expr ++ [.endCall, .semi]))))) [] r =
      some { r with
        fd := Function.update r.fd n (m.perfEventOpen r.calls)
        calls := r.calls ++ [⟨r.pe n, printedPid m.getpid originalPid pid, cpu, leader r groupFd,
          flags⟩] } := by
  obtain ⟨v1, hpid, hpidBits⟩ := givesInt_printedPid r originalPid pid (m := m)
  obtain ⟨v2, hcpu, hcpuBits⟩ := givesInt_d r cpu (m := m)
  obtain ⟨v3, hgroup, hgroupBits⟩ := givesInt_groupFd r groupFd (m := m)
  obtain ⟨v4, hflags, hflagsBits⟩ := (bars_openFlags flags (g := m.getpid) (t := r.fd)).evaluate
  have hcollect := execute_collect (m := m)
    (.openCall n :: ((pidArgument originalPid pid).map .expr ++
      .comma :: ((d cpu).map .expr ++ .comma :: ((groupFdArgument groupFd).map .expr ++
        .comma :: ((perfPrettyPrintFlags flags).map .expr ++ [.endCall]))))) (by simp) [] [] r
  simp only [List.cons_append, List.append_assoc, List.nil_append] at hcollect
  rw [hcollect]
  simp only [statement, arguments_four, hpid, hcpu, hgroup, hflags, hpidBits, hcpuBits,
    hgroupBits, hflagsBits, Option.bind_eq_bind, Option.bind_some]
  rfl

theorem execute_event (attr : PerfEventAttr) (n : Int) (r : Program)
    (originalPid pid cpu groupFd : BitVec 32) (flags : BitVec 64) :
    AttrPrint.execute m
      (perfPrettyPrintEvent attr .stdout n originalPid pid cpu groupFd flags) [] r =
      some ⟨Function.update r.pe n (reread attr {}),
        Function.update r.fd n (m.perfEventOpen r.calls),
        r.calls ++ [⟨reread attr {}, printedPid m.getpid originalPid pid, cpu, leader r groupFd,
          flags⟩]⟩ := by
  rw [perfPrettyPrintEvent, execute_attr (.inl rfl), execute_openCall]
  simp [Program.setPe, leader]

end Open

/-- The program after an event has been opened. -/
def opened (e : Env) (originalPid : BitVec 32) (o : OpenVars) (p : Process) : Process :=
  { p with
    pe := Function.update p.pe o.fd.toInt (reread o.pe {})
    fd := Function.update p.fd o.fd.toInt (.ofInt 32 (nextResult e p))
    calls := p.calls ++ [.perfEventOpen (reread o.pe {})
      (printedPid (.ofInt 32 e.ownPid) originalPid o.pid).toInt o.cpu.toInt
      (if o.groupFd = -1 then -1 else p.fd o.groupFd.toInt).toInt o.flags] }

theorem runText_event (originalPid : BitVec 32) (o : OpenVars) :
    runText e (AttrPrint.perfPrettyPrintEvent o.pe .stdout o.fd.toInt originalPid o.pid o.cpu
      o.groupFd o.flags) p = some (opened e originalPid o p) := by
  rw [runText, execute_event]
  rfl

/-- What is asked of an open line. -/
def OpenAlike (o : OpenVars) (s : State) (p : Process) : Prop :=
  InRange numValues o.fd.toInt ∧ (o.groupFd.toInt = -1 ∨ Named o.groupFd.toInt s p)

theorem toInt_eq_neg_one {v : BitVec 32} : v.toInt = -1 ↔ v = -1 :=
  ⟨fun h => BitVec.eq_of_toInt_eq (h.trans (by decide)), fun h => by rw [h]; decide⟩

/-- The variables of the two readers of one line differ in what the line does not have. -/
structure SameLine (o o' : OpenVars) : Prop where
  fd : o'.fd = o.fd
  pid : o'.pid = o.pid
  cpu : o'.cpu = o.cpu
  groupFd : o'.groupFd = o.groupFd
  flags : o'.flags = o.flags
  pe : o'.pe = reread o.pe {}

theorem performs_open {o o' : OpenVars} {originalPid : BitVec 32} (ho : SameLine o o')
    (hown : (BitVec.ofInt 32 e.ownPid).toInt = e.ownPid)
    (horiginal : originalPid.toInt = s.originalPid) :
    Performs e [.openEvent o.fd.toInt o.groupFd.toInt
      (AttrPrint.perfPrettyPrintEvent o.pe .stdout o.fd.toInt originalPid o.pid o.cpu o.groupFd
        o.flags)] p (openWork e o' s) ↔ OpenAlike o s p := by
  have hperforms : Performs e [.openEvent o.fd.toInt o.groupFd.toInt
      (AttrPrint.perfPrettyPrintEvent o.pe .stdout o.fd.toInt originalPid o.pid o.cpu o.groupFd
        o.flags)] p (openWork e o' s) ↔
      (InRange numValues o.fd.toInt ∧ (o.groupFd.toInt = -1 ∨ InRange numValues o.groupFd.toInt)) ∧
        (⟨[.perfEventOpen (reread o.pe {})
          (printedPid (.ofInt 32 e.ownPid) originalPid o.pid).toInt o.cpu.toInt
          (if o.groupFd = -1 then -1 else p.fd o.groupFd.toInt).toInt o.flags], []⟩ : Work) =
            openWork e o' s := by
    refine performs_iff (opened e originalPid o p) (fun hc => ⟨?_, ?_⟩) fun hc => ?_
    · rw [execute_singleton, Statement.run, if_pos hc, runText_event]
    · exact ⟨rfl, (List.append_nil _).symm⟩
    · rw [execute_singleton, Statement.run, if_neg hc]
  have hpid : (printedPid (.ofInt 32 e.ownPid) originalPid o.pid).toInt = openedPid e o.pid s := by
    unfold printedPid openedPid
    rw [apply_ite BitVec.toInt, hown, ← horiginal]
    exact if_congr BitVec.toInt_inj.symm rfl rfl
  rw [hperforms, openWork, ho.pe, ho.pid, ho.cpu, ho.groupFd, ho.flags, hpid, singleton_eq_iff,
    Call.perfEventOpen.injEq, OpenAlike, openedGroup, and_assoc]
  refine and_congr_right fun _ => ?_
  by_cases hgroup : o.groupFd.toInt = -1
  · rw [if_pos hgroup, if_pos (toInt_eq_neg_one.1 hgroup)]
    simp [hgroup]
  · rw [if_neg hgroup, if_neg (mt toInt_eq_neg_one.2 hgroup)]
    simp [hgroup, Named]

/-! ## Files -/

/-- A file that is opened, and what is done with it then. -/
def usedFile (e : Env) (file : Int) (writing : Bool) (body : List FileStatement) (p : Process) :
    Process :=
  let r := { p.issue (.fopen file writing) with fff := nextResult e p ≠ 0 }
  if r.fff then body.foldl FileStatement.run r else r

theorem execute_file (file : Int) (writing : Bool) (body : List FileStatement) :
    execute e [.fopen file writing, .ifOpened body] p = some (usedFile e file writing body p) := rfl

theorem usedFile_did (file : Int) (writing : Bool) (a : FileStatement) (c : Call)
    (ha : ∀ q, a.run q = q.issue c) : Did p (usedFile e file writing [a, .fclose] p)
      (if nextResult e p = 0 then ⟨[.fopen file writing], []⟩
        else ⟨[.fopen file writing, c, .fclose], []⟩) := by
  have hopen : Did p { p.issue (.fopen file writing) with fff := nextResult e p ≠ 0 }
      ⟨[.fopen file writing], []⟩ := ((Did.refl p).issue (.fopen file writing)).update rfl rfl
  unfold usedFile
  dsimp only
  by_cases hresult : nextResult e p = 0
  · rw [if_pos hresult, if_neg (by simp [hresult])]
    exact hopen
  · rw [if_neg hresult, if_pos (by simp [hresult])]
    rw [List.foldl_cons, ha, List.foldl_cons, List.foldl_nil]
    exact (hopen.issue c).issue .fclose

theorem newline_not_mem_decimal {v : Int} : '\n' ∉ decimal v := by
  intro h
  obtain h | ⟨d, hd, h⟩ := mem_decimal h
  · exact absurd h (by decide)
  · interval_cases d <;> exact absurd h (by decide)

/-- A file that is written gets no newline from the program. -/
theorem performs_access {type which size : Int} (hcalls : p.calls = s.calls) :
    (∃ as, accessStatements type which size = some as ∧
      Performs e as p (accessWork e type which size s)) ↔
        InRange maxFilenames which ∧ (type = 0 ∨ e.next s = 0) := by
  by_cases hwhich : InRange maxFilenames which
  · have hnext : nextResult e p = e.next s := by rw [nextResult, hcalls, Env.next]
    have hlarge : ¬which > maxFilenames := not_lt.2 hwhich.2.le
    rw [and_iff_right hwhich, accessStatements, if_pos hwhich, accessWork, if_neg hlarge]
    by_cases htype : type = 0
    · have hdid := usedFile_did (e := e) (p := p) which false (.fread size) (.fread size)
        fun _ => rfl
      rw [hnext] at hdid
      rw [if_pos htype, if_pos htype]
      refine iff_of_true ⟨_, rfl, (performs_of_some (execute_file _ _ _) hdid).2 ?_⟩ (.inl htype)
      simp [htype]
    · have hdid := usedFile_did (e := e) (p := p) which true (.fprintf size) _ fun _ => rfl
      rw [hnext] at hdid
      rw [if_neg htype, if_neg htype, or_iff_right htype]
      simp only [Option.some.injEq, exists_eq_left']
      rw [performs_of_some (execute_file _ _ _) hdid]
      split
      case isTrue hfails => simp [htype, hfails]
      case isFalse hopens =>
        refine iff_of_false (fun h => ?_) hopens
        have htexts := congrArg Work.calls h
        simp only [List.cons.injEq, Call.fprintf.injEq] at htexts
        exact newline_not_mem_decimal (htexts.2.1 ▸ List.mem_append_right _ List.mem_cons_self)
  · rw [accessStatements, if_neg hwhich]
    refine iff_of_false (fun h => ?_) fun h => hwhich h.1
    obtain ⟨_, h, -⟩ := h
    cases h

/-! ## Processors -/

/-- What is asked of the texts of an affinity line: too few of them, or the one kind that is
printed, with no more numbers than the array of the printer holds. -/
def MaskPrinted : List Str → Prop
  | _ :: which :: _ :: cpus => cpus.length ≤ maxCpus ∧ atoi which = 0
  | _ => True

theorem cpuArray_zero {t : Str} {ts : List Str} (stack : Nat → Int) :
    cpuArray (t :: ts) stack 0 = atoi t := rfl

theorem append_eq_singleton_iff {c d : Call} {v : Work} (hv : v ≠ {} → ∃ x, v = ⟨[x], []⟩) :
    (⟨[c], []⟩ : Work) = Work.append ⟨[d], []⟩ v ↔ c = d ∧ v = {} := by
  by_cases h : v = {}
  · rw [h]
    simp [Work.append]
  · obtain ⟨x, rfl⟩ := hv h
    simp [Work.append]

theorem execute_affinity {mask : Nat → Bool} (hmask : p.cpuMask = some mask) (cpu : Int) :
    ∃ p', execute e [.setSize, .cpuZero, .cpuSet cpu, .schedSetaffinity] p = some p' ∧
      Did p p' ⟨[.schedSetaffinity (cpuSet cpu cpuSetSize fun _ => false)], []⟩ := by
  refine ⟨{ p with
    setSize := cpuSetSize
    cpuMask := some (cpuSet cpu cpuSetSize fun _ => false)
    calls := p.calls ++ [.schedSetaffinity (cpuSet cpu cpuSetSize fun _ => false)] }, ?_, ?_⟩
  · simp [Statement.run, hmask, Process.issue]
  · exact ⟨rfl, (List.append_nil _).symm⟩

theorem performs_affinity {texts : List Str} {line : Str} {mask : Nat → Bool}
    {stack : Nat → Int} (hnames : NamesCpu texts) (hmask : p.cpuMask.isSome) :
    (∃ as, affinityStatements texts stack = some as ∧
      Performs e as p ((affinityWork e texts mask s).append (closingWork line s))) ↔
        ¬Closes line s ∧ MaskPrinted texts := by
  have hclosing : closingWork line s = {} ↔ ¬Closes line s := closingWork_eq_iff
  -- nothing is printed, and nothing is done but to close
  have hnothing {as : List Statement} (hrun : ∃ p', execute e as p = some p' ∧ Did p p' {}) :
      Performs e as p (Work.append {} (closingWork line s)) ↔ ¬Closes line s := by
    obtain ⟨p', hrun, hdid⟩ := hrun
    rw [performs_of_some hrun hdid, ← hclosing]
    exact ⟨fun h => h.symm, fun h => h.symm⟩
  rcases texts with _ | ⟨letter, _ | ⟨which, _ | ⟨num, _ | ⟨cpu, cpus⟩⟩⟩⟩
  · simpa [affinityStatements, affinityWork, MaskPrinted] using hnothing ⟨p, rfl, .refl p⟩
  · simpa [affinityStatements, affinityWork, MaskPrinted] using hnothing ⟨p, rfl, .refl p⟩
  · simpa [affinityStatements, affinityWork, MaskPrinted] using hnothing ⟨p, rfl, .refl p⟩
  · exact absurd rfl (hnames _ _ _)
  · obtain ⟨held, hheld⟩ := Option.isSome_iff_exists.1 hmask
    rw [affinityStatements, MaskPrinted]
    by_cases hlen : (cpu :: cpus).length ≤ maxCpus
    · rw [if_pos hlen, and_iff_right hlen]
      by_cases hwhich : atoi which = 0
      · obtain ⟨p', hrun, hdid⟩ := execute_affinity (e := e) hheld (cpuArray (cpu :: cpus) stack 0)
        rw [if_pos hwhich, and_iff_left hwhich]
        simp only [Option.some.injEq, exists_eq_left']
        have hzero : (affinityMask (atoi which) (atoi num) (cpuArray (cpu :: cpus)
            (e.stack s.lineNum)) mask s).1 = cpuSet (atoi cpu) cpuSetSize fun _ => false := by
          rw [affinityMask, if_pos (.inl hwhich)]
          rfl
        rw [performs_of_some hrun hdid, affinityWork, hzero, cpuArray_zero,
          append_eq_singleton_iff closingWork_cases.resolve_left, and_iff_right rfl, hclosing]
      · rw [if_neg hwhich]
        simp only [Option.some.injEq, exists_eq_left']
        have hrun : execute e [.setSize] p = some { p with setSize := cpuSetSize } := rfl
        rw [performs_of_some hrun ((Did.refl p).update rfl rfl)]
        refine iff_of_false (fun h => ?_) fun h => hwhich h.2
        have hcalls := congrArg Work.calls h
        simp [affinityWork, Work.append] at hcalls
    · rw [if_neg hlen]
      refine iff_of_false (fun h => ?_) fun h => hlen h.2.1
      obtain ⟨_, h, -⟩ := h
      cases h

/-! ## Processes -/

theorem execute_fork (line : Str) (hcalls : p.calls = s.calls) (hmemsets : p.memsets = s.memsets)
    (hpid : p.forkedPid = s.forkedPid) :
    ∃ p', execute e (forkEvent line) p = some p' ∧
      p'.calls = (Replay.forkEvent e line s).calls ∧
      p'.memsets = (Replay.forkEvent e line s).memsets ∧
      p'.forkedPid = (Replay.forkEvent e line s).forkedPid ∧ p'.cpuMask = p.cpuMask := by
  unfold forkEvent Replay.forkEvent
  split
  · refine ⟨{ p.issue .fork with forkedPid := forked e p }, rfl, ?_, hmemsets, ?_, rfl⟩
    · exact congrArg (· ++ [.fork]) hcalls
    · change forked e p = e.forked s
      rw [forked, nextResult, hcalls]
      rfl
  · refine ⟨(p.issue (.kill p.forkedPid)).issue (.waitpid p.forkedPid), rfl, ?_, hmemsets, hpid, rfl⟩
    change p.calls ++ _ ++ _ = s.calls ++ _ ++ _
    rw [hcalls, hpid]

theorem performs_prctl {line : Str} :
    Performs e (prctlEvent line) p ⟨[.prctl (flagOf line ≠ 0)], []⟩ :=
  ⟨_, rfl, ((Did.refl p).issue _).work⟩

end PerfEvent.LogToCode
