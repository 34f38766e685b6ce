import PerfEventTests.ActiveEvents.Meaning
import PerfEventTests.Replay.AttrPrint
import PerfEventTests.Replay.OpenRoundTrip

/-!
# Open lines that are cut short

A line with fewer numbers than `parse_open_event` has arguments leaves the rest of them as they were,
and nobody looks at what `sscanf` returns. Each of the three programs that read such a line needs a
part of the numbers: the variables of `replay_log` are unset but for its attribute, the table of
`active_events` keeps some of the fields, and `log_to_code` prints what it finds in all of them.
-/

namespace PerfEvent.Replay

open Text AttrPrint Fuzzer

/-- The numbers that are found in a line. -/
def openValues (line : Str) : List Int := sscanfLine (openFields.map ScanField.conv) line

/-- `open_event` of `fuzzer/log_to_code.c`: the attribute is unset as well. -/
def logToCodeOpenEvent (originalPid : BitVec 32) (line : Str) (stack : OpenVars) : List CToken :=
  let o := parseOpenEvent line stack
  perfPrettyPrintEvent o.pe .stdout o.fd.toInt originalPid o.pid o.cpu o.groupFd o.flags

/-! ## Two runs -/

variable {line : Str}

def ReplayDetermined (line : Str) : Prop :=
  ∀ (e : Env) (s : State) (stack : Nat → OpenVars),
    openEvent { e with openStack := stack } line s = openEvent e line s

def CodeDetermined (line : Str) : Prop :=
  ∀ originalPid stack stack',
    logToCodeOpenEvent originalPid line stack = logToCodeOpenEvent originalPid line stack'

def ActiveDetermined (line : Str) : Prop :=
  ∀ (e : ActiveEvents.Env) (s : ActiveEvents.State) (stack : Nat → OpenVars),
    ActiveEvents.openEvent { e with openStack := stack } line s = ActiveEvents.openEvent e line s

/-- What the three programs do with a line does not depend on what was on the stack. -/
def Determined (line : Str) : Prop :=
  ReplayDetermined line ∧ CodeDetermined line ∧ ActiveDetermined line

/-! ## The assignments -/

/-- What comes behind the scan. -/
def finish (o : OpenVars) : OpenVars := { o with pe := repopulate o.bits o.pe }

theorem parseOpenEvent_assign (line : Str) (o : OpenVars) :
    parseOpenEvent line o = finish (assign openFields (openValues line) o) := rfl

theorem length_sscanf_le (cs : List Conv) (s : Str) : (sscanf cs s).length ≤ cs.length := by
  induction cs generalizing s with
  | nil => exact Nat.le_refl 0
  | cons c cs ih =>
    rw [sscanf]
    split
    · exact Nat.zero_le _
    · exact Nat.succ_le_succ (ih _)

theorem length_openValues_le (line : Str) : (openValues line).length ≤ 60 :=
  length_sscanf_le _ _

theorem assign_append {fs : List ScanField} {vs : List Int} (h : vs.length = fs.length)
    (gs : List ScanField) (ws : List Int) (o : OpenVars) :
    assign (fs ++ gs) (vs ++ ws) o = assign gs ws (assign fs vs o) := by
  induction fs generalizing vs o with
  | nil =>
    obtain rfl := List.length_eq_zero_iff.1 h
    rfl
  | cons f fs ih =>
    cases vs with
    | nil => cases h
    | cons v vs => exact ih (Nat.succ.inj h) (f.store v o)

theorem exists_ofFn {n : Nat} {vs : List Int} (h : vs.length = n) :
    ∃ f : Fin n → Int, vs = List.ofFn f := by
  subst h
  exact ⟨vs.get, (List.ofFn_get vs).symm⟩

/-- The first `k` numbers and the others are assigned one after the other. -/
theorem exists_assign_eq {k : Nat} (hk : k ≤ 60) (h : k ≤ (openValues line).length) :
    ∃ (f : Fin k → Int) (rest : List Int), rest.length ≤ 60 - k ∧
      ∀ o, assign openFields (openValues line) o =
        assign (openFields.drop k) rest (assign (openFields.take k) (List.ofFn f) o) := by
  have htake : ((openValues line).take k).length = k := by
    rw [List.length_take, Nat.min_eq_left h]
  obtain ⟨f, hf⟩ := exists_ofFn htake
  refine ⟨f, (openValues line).drop k, ?_, fun o => ?_⟩
  · rw [List.length_drop]
    exact Nat.sub_le_sub_right (length_openValues_le line) k
  · have hfields : (openFields.take k).length = k := by
      rw [List.length_take]
      exact Nat.min_eq_left hk
    rw [← hf, ← assign_append (htake.trans hfields.symm), List.take_append_drop,
      List.take_append_drop]

/-- An update of the variables that none of the assigned fields has to do with. -/
theorem assign_update {k : Nat} (g : OpenVars → OpenVars) (h : (openValues line).length ≤ k)
    (hg : ∀ f ∈ openFields.take k, ∀ v o, f.store v (g o) = g (f.store v o)) (o : OpenVars) :
    assign openFields (openValues line) (g o) = g (assign openFields (openValues line) o) := by
  generalize openFields = fs at hg ⊢
  generalize openValues line = vs at h ⊢
  induction fs generalizing vs k o with
  | nil => rfl
  | cons f fs ih =>
    cases vs with
    | nil => rfl
    | cons v vs =>
      cases k with
      | zero => exact absurd h (Nat.not_succ_le_zero _)
      | succ k =>
        rw [List.take_succ_cons, List.forall_mem_cons] at hg
        rw [assign, assign, hg.1]
        exact ih _ hg.2 vs (Nat.le_of_succ_le_succ h)

/-! ## `replay_log` -/

/-- The first 48 numbers are those of all variables but the attribute. -/
theorem parseOpenEvent_eq {o o' : OpenVars} (h : 48 ≤ (openValues line).length)
    (hpe : o.pe = o'.pe) : parseOpenEvent line o = parseOpenEvent line o' := by
  obtain ⟨f, rest, -, hassign⟩ := exists_assign_eq (by decide) h
  have hvars : assign (openFields.take 48) (List.ofFn f) o =
      assign (openFields.take 48) (List.ofFn f) o' := by
    obtain ⟨fd, pid, cpu, groupFd, flags, pe, bits⟩ := o
    obtain ⟨fd', pid', cpu', groupFd', flags', pe', bits'⟩ := o'
    obtain rfl : pe = pe' := hpe
    rfl
  rw [parseOpenEvent_assign, parseOpenEvent_assign, hassign, hassign, hvars]

def withSigtrap (v : Int) (o : OpenVars) : OpenVars :=
  { o with bits := { o.bits with sigtrap := v } }

/-- The bit-fields come before the wakeup events. -/
theorem parseOpenEvent_sigtrap (h : (openValues line).length ≤ 47) (v : Int) (o : OpenVars) :
    (parseOpenEvent line (withSigtrap v o)).pe.sigtrap = BitVec.ofInt 1 v := by
  have hg : ∀ f ∈ openFields.take 47, ∀ w o,
      f.store w (withSigtrap v o) = withSigtrap v (f.store w o) := by
    simp only [openFields, List.take_succ_cons, List.take_zero, List.forall_mem_cons,
      List.not_mem_nil, false_implies, implies_true, withSigtrap, and_self]
  rw [parseOpenEvent_assign, assign_update (withSigtrap v) h hg]
  rfl

/-- The attribute is among zeros. -/
def zeroed (o : OpenVars) : OpenVars := { o with pe := {} }

theorem replayDetermined_iff_openAs : ReplayDetermined line ↔ ∀ (e : Env) (s : State) o o',
    openAs e (parseOpenEvent line (zeroed o)) s = openAs e (parseOpenEvent line (zeroed o')) s :=
  ⟨fun h e s o o' => h { e with openStack := fun _ => o' } s fun _ => o,
    fun h e s stack => h e s (stack s.lineNum) (e.openStack s.lineNum)⟩

/-- The attribute goes to the kernel. -/
theorem openAs_calls (e : Env) (o : OpenVars) (s : State) : ∃ pid groupFd : Int,
    (openAs e o s).calls = s.calls ++ [.perfEventOpen o.pe pid o.cpu.toInt groupFd o.flags] := by
  have hgroup : (remapGroup o.groupFd.toInt s).2.calls = s.calls := by
    unfold remapGroup
    split <;> rfl
  have hrecord (recorded fd : Int) (s : State) : (recordOpen recorded fd s).calls = s.calls := by
    unfold recordOpen
    split
    · rfl
    · dsimp only
      split <;> rfl
  refine ⟨if o.pid.toInt = s.originalPid then e.ownPid else o.pid.toInt,
    (remapGroup o.groupFd.toInt s).1, ?_⟩
  unfold openAs
  rw [← hgroup]
  dsimp only
  split
  · rfl
  · rw [hrecord]
    rfl

/-- A replay in which every call fails. -/
def failingEnv : Env where
  result _ := -1
  stack _ _ := 0
  openStack _ := noVars
  outsideEvent _ := {}
  outsideCount _ := 0
  cpuAlloc := none
  ownPid := 0

theorem replayDetermined_iff : ReplayDetermined line ↔ 48 ≤ (openValues line).length := by
  rw [replayDetermined_iff_openAs]
  constructor
  · intro h
    by_contra hshort
    have hle : (openValues line).length ≤ 47 := by omega
    have hcalls := congrArg State.calls (h failingEnv (startState failingEnv)
      (withSigtrap 1 noVars) (withSigtrap 0 noVars))
    obtain ⟨pid, groupFd, hone⟩ := openAs_calls failingEnv
      (parseOpenEvent line (zeroed (withSigtrap 1 noVars))) (startState failingEnv)
    obtain ⟨pid', groupFd', hzero⟩ := openAs_calls failingEnv
      (parseOpenEvent line (zeroed (withSigtrap 0 noVars))) (startState failingEnv)
    rw [hone, hzero, List.append_cancel_left_eq, List.singleton_inj] at hcalls
    injection hcalls with hpe
    have hbit := congrArg PerfEventAttr.sigtrap hpe
    change (parseOpenEvent line (withSigtrap 1 (zeroed noVars))).pe.sigtrap =
      (parseOpenEvent line (withSigtrap 0 (zeroed noVars))).pe.sigtrap at hbit
    rw [parseOpenEvent_sigtrap hle, parseOpenEvent_sigtrap hle] at hbit
    exact absurd hbit (by decide)
  · intro h e s o o'
    have hsame : parseOpenEvent line (zeroed o) = parseOpenEvent line (zeroed o') :=
      parseOpenEvent_eq h rfl
    rw [hsame]

/-! ## `active_events` -/

/-- The variables without the fields of the attribute that are not entered into the table. -/
def entered (o : OpenVars) : OpenVars :=
  { o with bits := noVars.bits, pe := { o.pe with
    commExec := 0, useClockid := 0, contextSwitch := 0, writeBackward := 0, namespaces := 0
    ksymbol := 0, bpfEvent := 0, auxOutput := 0, cgroup := 0, textPoke := 0, buildId := 0
    inheritThread := 0, removeOnExec := 0, sigtrap := 0, deferCallchain := 0, deferOutput := 0
    reserved1 := 0, clockid := 0, sampleRegsIntr := 0, auxWatermark := 0, sampleMaxStack := 0
    reserved2 := 0, auxSampleSize := 0, auxAction := 0, sigData := 0, config3 := 0, config4 := 0 } }

theorem openEntry_entered (o : OpenVars) :
    ActiveEvents.openEntry (entered o) = ActiveEvents.openEntry o := rfl

/-- None of them comes behind `sample_stack_user`. -/
theorem entered_assign_late (rest : List Int) (o : OpenVars) :
    entered (finish (assign (openFields.drop 55) rest o)) = entered (finish o) := by
  have hlate : ∀ f ∈ openFields.drop 55, ∀ v o,
      entered (finish (f.store v o)) = entered (finish o) := by
    simp only [openFields, List.drop_succ_cons, List.drop_zero, List.forall_mem_cons,
      List.not_mem_nil, false_implies, implies_true, entered, finish, repopulate, and_self]
  generalize openFields.drop 55 = fs at hlate ⊢
  induction fs generalizing rest o with
  | nil => rfl
  | cons f fs ih =>
    cases rest with
    | nil => rfl
    | cons v rest =>
      rw [List.forall_mem_cons] at hlate
      rw [assign, ih _ _ hlate.2, hlate.1]

theorem entered_eq (h : 55 ≤ (openValues line).length) (o o' : OpenVars) :
    entered (parseOpenEvent line o) = entered (parseOpenEvent line o') := by
  obtain ⟨f, rest, -, hassign⟩ := exists_assign_eq (by decide) h
  let first (o : OpenVars) := finish (assign (openFields.take 55) (List.ofFn f) o)
  -- `reread` keeps the two sides from being compared store by store
  have hpe : (entered (first o)).pe = reread (entered (first o')).pe {} := by
    apply PerfEventAttr.ext
    all_goals rfl
  rw [parseOpenEvent_assign, parseOpenEvent_assign, hassign, hassign, entered_assign_late,
    entered_assign_late]
  calc entered (first o)
      = { entered (first o') with pe := (entered (first o)).pe } := rfl
    _ = { entered (first o') with pe := reread (entered (first o')).pe {} } := by rw [hpe]
    _ = entered (first o') := rfl

theorem activeDetermined_iff_openFor : ActiveDetermined line ↔ ∀ (s : ActiveEvents.State) o o',
    ActiveEvents.openFor (parseOpenEvent line o) s = ActiveEvents.openFor (parseOpenEvent line o') s :=
  ⟨fun h s o o' => h { ActiveEvents.zeroEnv with openStack := fun _ => o' } s fun _ => o,
    fun h e s stack => h s (stack s.lineNum) (e.openStack s.lineNum)⟩

/-- The descriptor of a line that has one. -/
def lineFd (line : Str) : Int := (parseOpenEvent line noVars).fd.toInt

def withStackUser (v : BitVec 32) (o : OpenVars) : OpenVars :=
  { o with pe := { o.pe with sampleStackUser := v } }

theorem parseOpenEvent_withStackUser (h : (openValues line).length ≤ 54) (v : BitVec 32)
    (o : OpenVars) :
    parseOpenEvent line (withStackUser v o) = withStackUser v (parseOpenEvent line o) := by
  have hg : ∀ f ∈ openFields.take 54, ∀ w o,
      f.store w (withStackUser v o) = withStackUser v (f.store w o) := by
    simp only [openFields, List.take_succ_cons, List.take_zero, List.forall_mem_cons,
      List.not_mem_nil, false_implies, implies_true, withStackUser, and_self]
  rw [parseOpenEvent_assign, assign_update (withStackUser v) h hg]
  rfl

theorem openFor_stackUser {o : OpenVars} (h : InRange ActiveEvents.maxEvents o.fd.toInt)
    (s : ActiveEvents.State) :
    ((ActiveEvents.openFor o s).eventInfo o.fd.toInt).attr.sampleStackUser =
      o.pe.sampleStackUser := by
  unfold ActiveEvents.openFor
  rw [if_pos h]
  simp [ActiveEvents.State.setEvent, ActiveEvents.openEntry, ActiveEvents.copyAttr]

theorem activeDetermined_iff : ActiveDetermined line ↔ 55 ≤ (openValues line).length ∨
    openValues line ≠ [] ∧ ¬ InRange ActiveEvents.maxEvents (lineFd line) := by
  rw [activeDetermined_iff_openFor]
  constructor
  · intro h
    by_contra hnot
    push Not at hnot
    obtain ⟨hshort, hrange⟩ := hnot
    have hle : (openValues line).length ≤ 54 := by omega
    have hfd : InRange ActiveEvents.maxEvents (lineFd line) := by
      by_cases hnil : openValues line = []
      · rw [lineFd, parseOpenEvent_assign, hnil]
        decide
      · exact hrange hnil
    have hentry := h (ActiveEvents.startState ActiveEvents.zeroEnv) (withStackUser 1 noVars)
      (withStackUser 0 noVars)
    rw [parseOpenEvent_withStackUser hle, parseOpenEvent_withStackUser hle] at hentry
    have hone := openFor_stackUser (o := withStackUser 1 (parseOpenEvent line noVars)) hfd
      (ActiveEvents.startState ActiveEvents.zeroEnv)
    have hzero := openFor_stackUser (o := withStackUser 0 (parseOpenEvent line noVars)) hfd
      (ActiveEvents.startState ActiveEvents.zeroEnv)
    rw [hentry] at hone
    exact absurd (hone.symm.trans hzero) (by decide : ¬ (1 : BitVec 32) = 0)
  · rintro (h | ⟨hne, hrange⟩) s o o'
    · have hentered := entered_eq h o o'
      have hfd : (entered (parseOpenEvent line o)).fd = (entered (parseOpenEvent line o')).fd :=
        congrArg OpenVars.fd hentered
      change (parseOpenEvent line o).fd = (parseOpenEvent line o').fd at hfd
      have hentry : ActiveEvents.openEntry (parseOpenEvent line o) =
          ActiveEvents.openEntry (parseOpenEvent line o') := by
        rw [← openEntry_entered, hentered, openEntry_entered]
      rw [ActiveEvents.openFor, ActiveEvents.openFor, hfd, hentry]
    · have hfd (o : OpenVars) : (parseOpenEvent line o).fd.toInt = lineFd line := by
        rw [lineFd, ActiveEvents.parseOpenEvent_fd hne o noVars]
      rw [ActiveEvents.openFor, ActiveEvents.openFor, hfd, hfd, if_neg hrange, if_neg hrange]

/-! ## `log_to_code` -/

/-- All numbers of the line together are those of all the fields that are printed. -/
theorem parseOpenEvent_full (h : (openValues line).length = 60) (o : OpenVars) :
    parseOpenEvent line o = { parseOpenEvent line noVars with
      pe := reread (parseOpenEvent line noVars).pe o.pe } := by
  obtain ⟨f, hf⟩ := exists_ofFn h
  rw [parseOpenEvent_assign, parseOpenEvent_assign, hf]
  have hpe : (finish (assign openFields (List.ofFn f) o)).pe =
      reread (finish (assign openFields (List.ofFn f) noVars)).pe o.pe := by
    apply PerfEventAttr.ext
    all_goals rfl
  rw [← hpe]
  rfl

/-- The fields that are not in a line are not printed either. -/
theorem perfPrettyPrintEvent_reread (attr pe : PerfEventAttr) (fff : Stream) (fd : Int)
    (originalPid pid cpu groupFd : BitVec 32) (flags : BitVec 64) :
    perfPrettyPrintEvent (reread attr pe) fff fd originalPid pid cpu groupFd flags =
      perfPrettyPrintEvent attr fff fd originalPid pid cpu groupFd flags := rfl

def withAuxSampleSize (v : BitVec 32) (o : OpenVars) : OpenVars :=
  { o with pe := { o.pe with auxSampleSize := v } }

theorem parseOpenEvent_withAuxSampleSize (h : (openValues line).length ≤ 59) (v : BitVec 32)
    (o : OpenVars) :
    parseOpenEvent line (withAuxSampleSize v o) = withAuxSampleSize v (parseOpenEvent line o) := by
  have hg : ∀ f ∈ openFields.take 59, ∀ w o,
      f.store w (withAuxSampleSize v o) = withAuxSampleSize v (f.store w o) := by
    simp only [openFields, List.take_succ_cons, List.take_zero, List.forall_mem_cons,
      List.not_mem_nil, false_implies, implies_true, withAuxSampleSize, and_self]
  rw [parseOpenEvent_assign, assign_update (withAuxSampleSize v) h hg]
  rfl

theorem length_perfPrettyPrintEvent (o : OpenVars) (originalPid : BitVec 32) (v : BitVec 32) :
    (perfPrettyPrintEvent (withAuxSampleSize v o).pe .stdout o.fd.toInt originalPid o.pid o.cpu
        o.groupFd o.flags).length =
      (perfPrettyPrintEvent (withAuxSampleSize 0 o).pe .stdout o.fd.toInt originalPid o.pid o.cpu
        o.groupFd o.flags).length +
      ((unlessZero .auxSampleSize v (d v)).tokens o.fd.toInt).length := by
  have hlater (v : BitVec 32) : laterLines (withAuxSampleSize v o).pe =
      (laterLines o.pe).dropLast ++ [unlessZero .auxSampleSize v (d v)] := by
    have hne : tailLines o.pe ≠ [] := List.cons_ne_nil _ _
    rw [laterLines, laterLines, List.dropLast_append_of_ne_nil hne, List.append_assoc _ _ [_]]
    rfl
  have hzero : (unlessZero .auxSampleSize (0 : BitVec 32) (d (0 : BitVec 32))).tokens o.fd.toInt = [] := rfl
  unfold perfPrettyPrintEvent perfPrettyPrintAttr
  rw [hlater, hlater, List.flatMap_append, List.flatMap_append, List.flatMap_singleton,
    List.flatMap_singleton, hzero]
  simp only [List.length_append, List.length_cons, List.length_nil, withAuxSampleSize, headLines]
  omega

theorem codeDetermined_iff : CodeDetermined line ↔ (openValues line).length = 60 := by
  constructor
  · intro h
    by_contra hne
    have hle : (openValues line).length ≤ 59 := by
      have := length_openValues_le line
      omega
    have htext := congrArg List.length (h 0 (withAuxSampleSize 1 noVars) (withAuxSampleSize 0 noVars))
    unfold logToCodeOpenEvent at htext
    rw [parseOpenEvent_withAuxSampleSize hle, parseOpenEvent_withAuxSampleSize hle] at htext
    have hlength := length_perfPrettyPrintEvent (parseOpenEvent line noVars) 0 1
    have hline : 0 < ((unlessZero .auxSampleSize (1 : BitVec 32) (d (1 : BitVec 32))).tokens
        (parseOpenEvent line noVars).fd.toInt).length := Nat.zero_lt_succ _
    change _ = (perfPrettyPrintEvent (withAuxSampleSize 0 (parseOpenEvent line noVars)).pe .stdout
      (parseOpenEvent line noVars).fd.toInt 0 (parseOpenEvent line noVars).pid
      (parseOpenEvent line noVars).cpu (parseOpenEvent line noVars).groupFd
      (parseOpenEvent line noVars).flags).length at htext
    have hsame := hlength.symm.trans htext
    omega
  · intro h originalPid stack stack'
    unfold logToCodeOpenEvent
    rw [parseOpenEvent_full h stack, parseOpenEvent_full h stack']
    dsimp only
    rw [perfPrettyPrintEvent_reread, perfPrettyPrintEvent_reread]

/-! ## All three -/

/-- A line with all numbers is needed for the last of them. -/
theorem openEvent_determined_iff (line : Str) :
    (ReplayDetermined line ↔ 48 ≤ (openValues line).length) ∧
      (ActiveDetermined line ↔ 55 ≤ (openValues line).length ∨
        openValues line ≠ [] ∧ ¬ InRange ActiveEvents.maxEvents (lineFd line)) ∧
      (CodeDetermined line ↔ (openValues line).length = 60) ∧
      (Determined line ↔ (openValues line).length = 60) := by
  refine ⟨replayDetermined_iff, activeDetermined_iff, codeDetermined_iff, ?_⟩
  constructor
  · rintro ⟨-, hcode, -⟩
    exact codeDetermined_iff.1 hcode
  · intro h
    exact ⟨replayDetermined_iff.2 (by omega), codeDetermined_iff.2 h,
      activeDetermined_iff.2 (.inl (by omega))⟩

/-- A line that ends behind the flags. -/
def cutLine : Str := "O 5 100 -1 -1 0\n".toList

theorem length_openValues_cutLine : (openValues cutLine).length = 5 := by decide +kernel

theorem cutLine_not_determined : ¬ ∀ line, Determined line := by
  intro h
  have hlength := replayDetermined_iff.1 (h cutLine).1
  rw [length_openValues_cutLine] at hlength
  exact absurd hlength (by decide)

end PerfEvent.Replay
