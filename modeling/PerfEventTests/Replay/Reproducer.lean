import Mathlib.Logic.Function.Basic
import PerfEventTests.Replay.OpenRoundTrip
import PerfEventTests.Replay.PrintedValues

/-!
# The printed program rebuilds the event

The printed text is run: statements end at `;`, an assignment stores the value of its expression
into a member, and the call of `perf_event_open` gets its arguments. Each line of the printer says
what its member holds, and a line that is left out is one whose member is zero, as it is after the
`memset`.
-/

namespace PerfEvent.AttrPrint

open CExpressions

/-! ## Running the text -/

/-- Where a member is kept. -/
structure Member where
  width : Nat
  get : PerfEventAttr → BitVec width
  set : BitVec width → PerfEventAttr → PerfEventAttr

def Field.member : Field → Member
  | .type => ⟨_, PerfEventAttr.type, fun v pe => { pe with type := v }⟩
  | .size => ⟨_, PerfEventAttr.size, fun v pe => { pe with size := v }⟩
  | .config => ⟨_, PerfEventAttr.config, fun v pe => { pe with config := v }⟩
  | .sampleFreq => ⟨_, PerfEventAttr.samplePeriod, fun v pe => { pe with samplePeriod := v }⟩
  | .samplePeriod => ⟨_, PerfEventAttr.samplePeriod, fun v pe => { pe with samplePeriod := v }⟩
  | .sampleType => ⟨_, PerfEventAttr.sampleType, fun v pe => { pe with sampleType := v }⟩
  | .readFormat => ⟨_, PerfEventAttr.readFormat, fun v pe => { pe with readFormat := v }⟩
  | .disabled => ⟨_, PerfEventAttr.disabled, fun v pe => { pe with disabled := v }⟩
  | .inherit => ⟨_, PerfEventAttr.inherit, fun v pe => { pe with inherit := v }⟩
  | .pinned => ⟨_, PerfEventAttr.pinned, fun v pe => { pe with pinned := v }⟩
  | .exclusive => ⟨_, PerfEventAttr.exclusive, fun v pe => { pe with exclusive := v }⟩
  | .excludeUser => ⟨_, PerfEventAttr.excludeUser, fun v pe => { pe with excludeUser := v }⟩
  | .excludeKernel => ⟨_, PerfEventAttr.excludeKernel, fun v pe => { pe with excludeKernel := v }⟩
  | .excludeHv => ⟨_, PerfEventAttr.excludeHv, fun v pe => { pe with excludeHv := v }⟩
  | .excludeIdle => ⟨_, PerfEventAttr.excludeIdle, fun v pe => { pe with excludeIdle := v }⟩
  | .mmap => ⟨_, PerfEventAttr.mmap, fun v pe => { pe with mmap := v }⟩
  | .comm => ⟨_, PerfEventAttr.comm, fun v pe => { pe with comm := v }⟩
  | .freq => ⟨_, PerfEventAttr.freq, fun v pe => { pe with freq := v }⟩
  | .inheritStat => ⟨_, PerfEventAttr.inheritStat, fun v pe => { pe with inheritStat := v }⟩
  | .enableOnExec => ⟨_, PerfEventAttr.enableOnExec, fun v pe => { pe with enableOnExec := v }⟩
  | .task => ⟨_, PerfEventAttr.task, fun v pe => { pe with task := v }⟩
  | .watermark => ⟨_, PerfEventAttr.watermark, fun v pe => { pe with watermark := v }⟩
  | .preciseIp => ⟨_, PerfEventAttr.preciseIp, fun v pe => { pe with preciseIp := v }⟩
  | .mmapData => ⟨_, PerfEventAttr.mmapData, fun v pe => { pe with mmapData := v }⟩
  | .sampleIdAll => ⟨_, PerfEventAttr.sampleIdAll, fun v pe => { pe with sampleIdAll := v }⟩
  | .excludeHost => ⟨_, PerfEventAttr.excludeHost, fun v pe => { pe with excludeHost := v }⟩
  | .excludeGuest => ⟨_, PerfEventAttr.excludeGuest, fun v pe => { pe with excludeGuest := v }⟩
  | .excludeCallchainKernel => ⟨_, PerfEventAttr.excludeCallchainKernel,
      fun v pe => { pe with excludeCallchainKernel := v }⟩
  | .excludeCallchainUser => ⟨_, PerfEventAttr.excludeCallchainUser,
      fun v pe => { pe with excludeCallchainUser := v }⟩
  | .mmap2 => ⟨_, PerfEventAttr.mmap2, fun v pe => { pe with mmap2 := v }⟩
  | .commExec => ⟨_, PerfEventAttr.commExec, fun v pe => { pe with commExec := v }⟩
  | .useClockid => ⟨_, PerfEventAttr.useClockid, fun v pe => { pe with useClockid := v }⟩
  | .contextSwitch => ⟨_, PerfEventAttr.contextSwitch, fun v pe => { pe with contextSwitch := v }⟩
  | .writeBackward => ⟨_, PerfEventAttr.writeBackward, fun v pe => { pe with writeBackward := v }⟩
  | .namespaces => ⟨_, PerfEventAttr.namespaces, fun v pe => { pe with namespaces := v }⟩
  | .ksymbol => ⟨_, PerfEventAttr.ksymbol, fun v pe => { pe with ksymbol := v }⟩
  | .bpfEvent => ⟨_, PerfEventAttr.bpfEvent, fun v pe => { pe with bpfEvent := v }⟩
  | .auxOutput => ⟨_, PerfEventAttr.auxOutput, fun v pe => { pe with auxOutput := v }⟩
  | .cgroup => ⟨_, PerfEventAttr.cgroup, fun v pe => { pe with cgroup := v }⟩
  | .textPoke => ⟨_, PerfEventAttr.textPoke, fun v pe => { pe with textPoke := v }⟩
  | .buildId => ⟨_, PerfEventAttr.buildId, fun v pe => { pe with buildId := v }⟩
  | .inheritThread => ⟨_, PerfEventAttr.inheritThread, fun v pe => { pe with inheritThread := v }⟩
  | .removeOnExec => ⟨_, PerfEventAttr.removeOnExec, fun v pe => { pe with removeOnExec := v }⟩
  | .sigtrap => ⟨_, PerfEventAttr.sigtrap, fun v pe => { pe with sigtrap := v }⟩
  | .wakeupWatermark => ⟨_, PerfEventAttr.wakeupEvents, fun v pe => { pe with wakeupEvents := v }⟩
  | .wakeupEvents => ⟨_, PerfEventAttr.wakeupEvents, fun v pe => { pe with wakeupEvents := v }⟩
  | .bpType => ⟨_, PerfEventAttr.bpType, fun v pe => { pe with bpType := v }⟩
  | .bpAddr => ⟨_, PerfEventAttr.config1, fun v pe => { pe with config1 := v }⟩
  | .bpLen => ⟨_, PerfEventAttr.config2, fun v pe => { pe with config2 := v }⟩
  | .config1 => ⟨_, PerfEventAttr.config1, fun v pe => { pe with config1 := v }⟩
  | .config2 => ⟨_, PerfEventAttr.config2, fun v pe => { pe with config2 := v }⟩
  | .branchSampleType => ⟨_, PerfEventAttr.branchSampleType,
      fun v pe => { pe with branchSampleType := v }⟩
  | .sampleRegsUser => ⟨_, PerfEventAttr.sampleRegsUser,
      fun v pe => { pe with sampleRegsUser := v }⟩
  | .sampleStackUser => ⟨_, PerfEventAttr.sampleStackUser,
      fun v pe => { pe with sampleStackUser := v }⟩
  | .clockid => ⟨_, PerfEventAttr.clockid, fun v pe => { pe with clockid := v }⟩
  | .sampleRegsIntr => ⟨_, PerfEventAttr.sampleRegsIntr,
      fun v pe => { pe with sampleRegsIntr := v }⟩
  | .auxWatermark => ⟨_, PerfEventAttr.auxWatermark, fun v pe => { pe with auxWatermark := v }⟩
  | .sampleMaxStack => ⟨_, PerfEventAttr.sampleMaxStack,
      fun v pe => { pe with sampleMaxStack := v }⟩
  | .auxSampleSize => ⟨_, PerfEventAttr.auxSampleSize, fun v pe => { pe with auxSampleSize := v }⟩

structure OpenCall where
  attr : PerfEventAttr
  pid : BitVec 32
  cpu : BitVec 32
  groupFd : BitVec 32
  flags : BitVec 64

/-- The process that runs the text, and what `perf_event_open` returns after the calls before. -/
structure Machine where
  getpid : BitVec 32
  perfEventOpen : List OpenCall → BitVec 32

/-- The variables `pe` and `fd`, and the calls that were made. -/
structure Program where
  pe : Int → PerfEventAttr
  fd : Int → BitVec 32
  calls : List OpenCall

def exprToken : CToken → Option (Token Name)
  | .expr t => some t
  | _ => none

/-- The arguments of a call, up to its end. -/
def arguments : List CToken → Expr → Option (List Expr)
  | [.endCall], e => some [e]
  | .comma :: ts, e => (arguments ts []).map (e :: ·)
  | .expr t :: ts, e => arguments ts (e ++ [t])
  | _, _ => none

/-- One statement, without its semicolon. What is not a statement does not compile. -/
def statement (m : Machine) : List CToken → Program → Option Program
  | [], p => some p
  | [.memset n], p => some { p with pe := Function.update p.pe n {} }
  | .member n f :: ts, p => do
    let e ← ts.mapM exprToken
    let v ← evaluate (names m.getpid p.fd) e
    return { p with pe := Function.update p.pe n (f.member.set (v.bits.setWidth _) (p.pe n)) }
  | .openCall n :: ts, p => do
    match ← arguments ts [] with
    | [pid, cpu, groupFd, flags] =>
      let pid ← evaluate (names m.getpid p.fd) pid
      let cpu ← evaluate (names m.getpid p.fd) cpu
      let groupFd ← evaluate (names m.getpid p.fd) groupFd
      let flags ← evaluate (names m.getpid p.fd) flags
      let call : OpenCall :=
        ⟨p.pe n, pid.bits.setWidth 32, cpu.bits.setWidth 32, groupFd.bits.setWidth 32, flags.bits⟩
      return { p with
        fd := Function.update p.fd n (m.perfEventOpen p.calls), calls := p.calls ++ [call] }
    | _ => none
  | _, _ => none

def Program.setPe (p : Program) (n : Int) (b : PerfEventAttr) : Program :=
  { p with pe := Function.update p.pe n b }

/-- The text is run statement by statement; `s` is the part of a statement that has been read. -/
def execute (m : Machine) : List CToken → List CToken → Program → Option Program
  | [], [], p => some p
  | [], _ :: _, _ => none
  | .semi :: ts, s, p => (statement m s p).bind (execute m ts [])
  | t :: ts, s, p => execute m ts (s ++ [t]) p

variable {m : Machine}

/-- Tokens other than semicolons are collected. -/
theorem execute_collect (us : List CToken) (hus : .semi ∉ us) (ts s : List CToken) (p : Program) :
    execute m (us ++ .semi :: ts) s p = (statement m (s ++ us) p).bind (execute m ts []) := by
  induction us generalizing s with
  | nil => simp [execute]
  | cons u us ih =>
    obtain ⟨hu, hus⟩ := not_or.1 (mt List.mem_cons.2 hus)
    have hstep : execute m (u :: (us ++ .semi :: ts)) s p =
        execute m (us ++ .semi :: ts) (s ++ [u]) p := by
      cases u with
      | semi => exact absurd rfl hu
      | _ => rfl
    rw [List.cons_append, hstep, ih hus, List.append_assoc]
    rfl

theorem mapM_exprToken (e : Expr) : (e.map CToken.expr).mapM exprToken = some e := by
  induction e with
  | nil => rfl
  | cons t e ih => simp [exprToken, ih]

/-- An assignment. -/
theorem execute_assign {e : Expr} {v : Value} {p : Program}
    (h : evaluate (names m.getpid p.fd) e = some v) (n : Int) (f : Field) (ts : List CToken) :
    execute m (.member n f :: (e.map .expr ++ .semi :: ts)) [] p = execute m ts []
      (p.setPe n (f.member.set (v.bits.setWidth _) (p.pe n))) := by
  have hcollect := execute_collect (m := m) (.member n f :: e.map .expr) (by simp) ts [] p
  rw [List.cons_append] at hcollect
  rw [hcollect]
  simp only [List.nil_append, statement, mapM_exprToken, Option.bind_eq_bind, Option.bind_some, h]
  rfl

@[simp] theorem Program.setPe_pe (p : Program) (n : Int) (b : PerfEventAttr) :
    (p.setPe n b).pe n = b :=
  Function.update_self ..

@[simp] theorem Program.setPe_fd (p : Program) (n : Int) (b : PerfEventAttr) :
    (p.setPe n b).fd = p.fd :=
  rfl

@[simp] theorem Program.setPe_calls (p : Program) (n : Int) (b : PerfEventAttr) :
    (p.setPe n b).calls = p.calls :=
  rfl

@[simp] theorem Program.setPe_setPe (p : Program) (n : Int) (b c : PerfEventAttr) :
    (p.setPe n b).setPe n c = p.setPe n c := by
  simp [setPe]

@[simp] theorem Program.setPe_same (p : Program) (n : Int) : p.setPe n (p.pe n) = p := by
  simp [setPe]

/-! ## The lines -/

variable {attr : PerfEventAttr}

/-- The expression has the value that the member has in the attribute. -/
def Gives (m : Machine) (attr : PerfEventAttr) (f : Field) (e : Expr) : Prop :=
  ∀ p : Program, ∃ v, evaluate (names m.getpid p.fd) e = some v ∧
    v.bits.setWidth _ = f.member.get attr

/-- The line gives its member what the attribute has there; where it is left out, that is zero. -/
structure Says (m : Machine) (attr : PerfEventAttr) (l : Line) : Prop where
  value : Gives m attr l.field l.value
  hidden : l.shown = false → l.field.member.get attr = 0

def copy (attr b : PerfEventAttr) (f : Field) : PerfEventAttr :=
  f.member.set (f.member.get attr) b

/-- The lines copy their members into `b`, each of which is zero before, and this makes `c`. -/
def Fills (attr : PerfEventAttr) : List Line → PerfEventAttr → PerfEventAttr → Prop
  | [], b, c => b = c
  | l :: ls, b, c => l.field.member.get b = 0 ∧ Fills attr ls (copy attr b l.field) c

theorem Fills.append {ls ks : List Line} {b c e : PerfEventAttr} (h : Fills attr ls b c)
    (hrest : Fills attr ks c e) : Fills attr (ls ++ ks) b e := by
  induction ls generalizing b with
  | nil =>
    have hb : b = c := h
    rwa [hb]
  | cons l ls ih => exact ⟨h.1, ih h.2⟩

theorem member_set_get (f : Field) (b : PerfEventAttr) : f.member.set (f.member.get b) b = b := by
  cases f <;> rfl

/-- One line copies its member, also when it is left out. -/
theorem execute_line {l : Line} (h : Says m attr l) {n : Int} {p : Program}
    (hclear : l.field.member.get (p.pe n) = 0) (ts : List CToken) :
    execute m (l.tokens n ++ ts) [] p = execute m ts [] (p.setPe n (copy attr (p.pe n) l.field)) := by
  unfold Line.tokens copy
  split
  case isTrue =>
    obtain ⟨v, hvalue, hbits⟩ := h.value p
    rw [← hbits, ← execute_assign hvalue]
    simp
  case isFalse hshown =>
    have hzero := h.hidden (by simpa using hshown)
    rw [hzero, ← hclear, member_set_get, Program.setPe_same]
    rfl

theorem execute_lines {ls : List Line} (h : ∀ l ∈ ls, Says m attr l) {n : Int} {p : Program}
    {b : PerfEventAttr} (hfills : Fills attr ls (p.pe n) b) (ts : List CToken) :
    execute m (ls.flatMap (Line.tokens n) ++ ts) [] p = execute m ts [] (p.setPe n b) := by
  induction ls generalizing p with
  | nil =>
    have hb : p.pe n = b := hfills
    rw [← hb, Program.setPe_same]
    rfl
  | cons l ls ih =>
    obtain ⟨hzero, hrest⟩ := hfills
    have hline := h l List.mem_cons_self
    have hlines := ih (fun k hk => h k (List.mem_cons_of_mem l hk))
      (p := p.setPe n (copy attr (p.pe n) l.field)) (by simpa using hrest)
    rw [List.flatMap_cons, List.append_assoc, execute_line hline hzero, hlines,
      Program.setPe_setPe]

/-! ## What each line says -/

theorem says_always {f : Field} {e : Expr} (h : Gives m attr f e) : Says m attr (always f e) :=
  ⟨h, by simp [always]⟩

theorem says_unlessZero {f : Field} {e : Expr} (h : Gives m attr f e) :
    Says m attr (unlessZero f (f.member.get attr) e) :=
  ⟨h, by simp [unlessZero]⟩

theorem gives_bars {f : Field} {e : Expr} {x : BitVec 64}
    (h : ∀ fds, Bars (names m.getpid fds) e x) (hx : x.setWidth _ = f.member.get attr) :
    Gives m attr f e := by
  intro p
  obtain ⟨v, hvalue, rfl⟩ := (h p.fd).evaluate
  exact ⟨v, hvalue, hx⟩

theorem gives_hexUll {f : Field} {x : BitVec 64} (hx : x.setWidth _ = f.member.get attr) :
    Gives m attr f (hexUll x) :=
  gives_bars (fun _ => bars_hexUll x) hx

theorem gives_d (f : Field) (hw : f.member.width ≤ 32) : Gives m attr f (d (f.member.get attr)) := by
  intro p
  obtain ⟨v, hoperand, hbits⟩ := operand_d hw (f.member.get attr) (g := m.getpid) (t := p.fd)
  refine ⟨v, hoperand.evaluate, ?_⟩
  rw [hbits, setWidth_signExtend (by omega)]

theorem gives_bitD (f : Field) (hw : f.member.width < 32) :
    Gives m attr f (bitD (f.member.get attr)) := by
  intro p
  obtain ⟨v, hoperand, hbits⟩ := operand_bitD hw (f.member.get attr) (g := m.getpid)
    (t := p.fd)
  refine ⟨v, hoperand.evaluate, ?_⟩
  rw [hbits, BitVec.setWidth_setWidth_of_le _ (by omega), BitVec.setWidth_eq]

theorem gives_lldUll {f : Field} {x : BitVec 64} (hx : x.setWidth _ = f.member.get attr) :
    Gives m attr f (lldUll x) := by
  intro p
  obtain ⟨v, hoperand, rfl⟩ := operand_lldUll x (g := m.getpid) (t := p.fd)
  exact ⟨v, hoperand.evaluate, hx⟩

theorem says_d (f : Field) (hw : f.member.width ≤ 32) :
    Says m attr (unlessZero f (f.member.get attr) (d (f.member.get attr))) :=
  says_unlessZero (gives_d f hw)

theorem says_bit (f : Field) (hw : f.member.width < 32) :
    Says m attr (bitLine f (f.member.get attr)) :=
  says_unlessZero (gives_bitD f hw)

theorem says_headLines : ∀ l ∈ headLines attr, Says m attr l := by
  simp only [headLines, List.forall_mem_cons, List.not_mem_nil, false_imp_iff, implies_true,
    and_true]
  refine ⟨says_always fun p => ?_, says_d .size (by decide)⟩
  obtain ⟨v, hoperand, hbits⟩ := operand_type attr.type (g := m.getpid) (t := p.fd)
  exact ⟨v, hoperand.evaluate, hbits⟩

theorem says_periodLines : ∀ l ∈ periodLines attr, Says m attr l := by
  have hperiod := BitVec.setWidth_eq attr.samplePeriod
  unfold periodLines
  split
  · intro l hl
    rw [List.mem_singleton.1 hl]
    exact says_unlessZero (f := .sampleFreq) (gives_hexUll hperiod)
  · intro l hl
    rw [List.mem_singleton.1 hl]
    exact says_unlessZero (f := .samplePeriod) (gives_hexUll hperiod)

theorem says_layoutLines : ∀ l ∈ layoutLines attr, Says m attr l := by
  simp only [layoutLines, List.forall_mem_cons, List.not_mem_nil, false_imp_iff, implies_true,
    and_true]
  exact ⟨says_always (gives_bars (fun _ => bars_sampleType _) (BitVec.setWidth_eq _)),
    says_always (gives_bars (fun _ => bars_readFormat _) (BitVec.setWidth_eq _))⟩

theorem says_bitLines : ∀ l ∈ bitLines attr, Says m attr l := by
  have says_precise : Says m attr (always .preciseIp (bitD attr.preciseIp)) :=
    says_always (gives_bitD .preciseIp (by decide))
  simp only [bitLines, List.forall_mem_cons, List.not_mem_nil, false_imp_iff, implies_true,
    and_true]
  exact ⟨
    says_bit .disabled (by decide), says_bit .inherit (by decide), says_bit .pinned (by decide),
    says_bit .exclusive (by decide), says_bit .excludeUser (by decide), says_bit .excludeKernel
    (by decide), says_bit .excludeHv (by decide), says_bit .excludeIdle (by decide), says_bit
    .mmap (by decide), says_bit .comm (by decide), says_bit .freq (by decide), says_bit
    .inheritStat (by decide), says_bit .enableOnExec (by decide), says_bit .task (by decide),
    says_bit .watermark (by decide), says_precise, says_bit .mmapData (by decide), says_bit
    .sampleIdAll (by decide), says_bit .excludeHost (by decide), says_bit .excludeGuest (by
    decide), says_bit .excludeCallchainKernel (by decide), says_bit .excludeCallchainUser (by
    decide), says_bit .mmap2 (by decide), says_bit .commExec (by decide), says_bit .useClockid
    (by decide), says_bit .contextSwitch (by decide), says_bit .writeBackward (by decide),
    says_bit .namespaces (by decide), says_bit .ksymbol (by decide), says_bit .bpfEvent (by
    decide), says_bit .auxOutput (by decide), says_bit .cgroup (by decide), says_bit .textPoke
    (by decide), says_bit .buildId (by decide), says_bit .inheritThread (by decide), says_bit
    .removeOnExec (by decide), says_bit .sigtrap (by decide)⟩

theorem says_wakeupLines : ∀ l ∈ wakeupLines attr, Says m attr l := by
  unfold wakeupLines
  split
  · intro l hl
    rw [List.mem_singleton.1 hl]
    exact says_always (gives_d .wakeupWatermark (by decide))
  · intro l hl
    rw [List.mem_singleton.1 hl]
    exact says_always (gives_d .wakeupEvents (by decide))

theorem says_breakpointLines : ∀ l ∈ breakpointLines attr, Says m attr l := by
  have hconfig1 := BitVec.setWidth_eq attr.config1
  have hconfig2 := BitVec.setWidth_eq attr.config2
  unfold breakpointLines
  split
  case isTrue h =>
    have hempty : attr.bpType = 0 := BitVec.eq_of_toNat_eq h
    have hprinted (fds) := bars_breakpointType attr.bpType (g := m.getpid) (t := fds)
    simp only [perfPrettyPrintBreakpointType, if_pos h] at hprinted
    simp only [List.forall_mem_cons, List.not_mem_nil, false_imp_iff, implies_true, and_true]
    refine ⟨says_always (gives_bars hprinted ?_),
      says_unlessZero (f := .config1) (gives_hexUll hconfig1),
      says_unlessZero (f := .config2) (gives_hexUll hconfig2)⟩
    rw [hempty]
    exact hempty.symm
  case isFalse h =>
    simp only [List.forall_mem_cons, List.not_mem_nil, false_imp_iff, implies_true, and_true]
    refine ⟨says_always (gives_bars (fun _ => bars_breakpointType attr.bpType) ?_),
      says_always (gives_hexUll hconfig1), says_always (gives_hexUll hconfig2)⟩
    exact (BitVec.setWidth_setWidth_of_le _ (by decide)).trans (BitVec.setWidth_eq _)

theorem says_tailLines : ∀ l ∈ tailLines attr, Says m attr l := by
  simp only [tailLines, List.forall_mem_cons, List.not_mem_nil, false_imp_iff, implies_true,
    and_true]
  refine ⟨
    says_unlessZero (f := .branchSampleType)
      (gives_bars (fun _ => bars_branchSampleType _) (BitVec.setWidth_eq _)),
    says_unlessZero (f := .sampleRegsUser) (gives_lldUll (BitVec.setWidth_eq _)),
    says_unlessZero (f := .sampleStackUser) (gives_bars (fun _ => bars_hex _) ?_),
    says_d .clockid (by decide),
    says_unlessZero (f := .sampleRegsIntr) (gives_lldUll (BitVec.setWidth_eq _)),
    says_d .auxWatermark (by decide), says_d .sampleMaxStack (by decide),
    says_d .auxSampleSize (by decide)⟩
  exact (BitVec.setWidth_setWidth_of_le _ (by decide)).trans (BitVec.setWidth_eq _)

/-! ## The whole attribute -/

def configLine (attr : PerfEventAttr) : Line := always .config (configValue attr.type attr.config)

def allLines (attr : PerfEventAttr) : List Line :=
  headLines attr ++ configLine attr :: laterLines attr

theorem says_allLines : ∀ l ∈ allLines attr, Says m attr l := by
  have hconfig : Says m attr (configLine attr) :=
    says_always (gives_bars (fun _ => bars_config _ _) (BitVec.setWidth_eq _))
  simp only [allLines, laterLines, List.forall_mem_append, List.forall_mem_cons]
  exact ⟨says_headLines, hconfig, ⟨⟨⟨⟨⟨says_periodLines, says_layoutLines⟩, says_bitLines⟩,
    says_wakeupLines⟩, says_breakpointLines⟩, says_tailLines⟩⟩

/-- What has been set before the bit-field, -/
def beforeBits (attr : PerfEventAttr) : PerfEventAttr where
  type := attr.type
  size := attr.size
  config := attr.config
  samplePeriod := attr.samplePeriod
  sampleType := attr.sampleType
  readFormat := attr.readFormat

/-- with the bit-field, -/
def withBits (attr : PerfEventAttr) : PerfEventAttr :=
  { beforeBits attr with
    disabled := attr.disabled, inherit := attr.inherit, pinned := attr.pinned, exclusive :=
    attr.exclusive, excludeUser := attr.excludeUser, excludeKernel := attr.excludeKernel,
    excludeHv := attr.excludeHv, excludeIdle := attr.excludeIdle, mmap := attr.mmap, comm :=
    attr.comm, freq := attr.freq, inheritStat := attr.inheritStat, enableOnExec :=
    attr.enableOnExec, task := attr.task, watermark := attr.watermark, preciseIp :=
    attr.preciseIp, mmapData := attr.mmapData, sampleIdAll := attr.sampleIdAll, excludeHost :=
    attr.excludeHost, excludeGuest := attr.excludeGuest, excludeCallchainKernel :=
    attr.excludeCallchainKernel, excludeCallchainUser := attr.excludeCallchainUser, mmap2 :=
    attr.mmap2, commExec := attr.commExec, useClockid := attr.useClockid, contextSwitch :=
    attr.contextSwitch, writeBackward := attr.writeBackward, namespaces := attr.namespaces,
    ksymbol := attr.ksymbol, bpfEvent := attr.bpfEvent, auxOutput := attr.auxOutput, cgroup :=
    attr.cgroup, textPoke := attr.textPoke, buildId := attr.buildId, inheritThread :=
    attr.inheritThread, removeOnExec := attr.removeOnExec, sigtrap := attr.sigtrap }

/-- and with the two unions behind it. -/
def withUnions (attr : PerfEventAttr) : PerfEventAttr :=
  { withBits attr with
    wakeupEvents := attr.wakeupEvents, bpType := attr.bpType, config1 := attr.config1,
    config2 := attr.config2 }

-- the four parts of the attribute are computed member by member
attribute [local simp] Field.member Fills copy always unlessZero

theorem fills_beforeBits : Fills attr
    (headLines attr ++ configLine attr :: (periodLines attr ++ layoutLines attr)) {}
    (beforeBits attr) := by
  unfold periodLines
  split <;>
    simp only [headLines, layoutLines, configLine, Fills, copy, always, unlessZero, Field.member,
      List.cons_append, List.nil_append, beforeBits] <;>
    exact ⟨rfl, rfl, rfl, rfl, rfl, rfl, trivial⟩

theorem fills_bitLines : Fills attr (bitLines attr) (beforeBits attr) (withBits attr) := by
  simp only [bitLines, bitLine, Fills, copy, always, unlessZero, Field.member, beforeBits, withBits]
  repeat refine ⟨rfl, ?_⟩
  trivial

theorem fills_unions :
    Fills attr (wakeupLines attr ++ breakpointLines attr) (withBits attr) (withUnions attr) := by
  unfold wakeupLines breakpointLines
  split <;> split <;>
    simp only [Fills, copy, always, unlessZero, Field.member, List.cons_append, List.nil_append,
      beforeBits, withBits, withUnions] <;>
    exact ⟨rfl, rfl, rfl, rfl, trivial⟩

theorem fills_tailLines :
    Fills attr (tailLines attr) (withUnions attr) (Replay.reread attr {}) := by
  simp only [tailLines, Fills, copy, unlessZero, Field.member, beforeBits, withBits, withUnions,
    Replay.reread]
  exact ⟨rfl, rfl, rfl, rfl, rfl, rfl, rfl, rfl, trivial⟩

/-- Each member that the log has is set once, from zero. -/
theorem fills_allLines : Fills attr (allLines attr) {} (Replay.reread attr {}) := by
  have htail : Fills attr (tailLines attr) (withUnions attr) _ := fills_tailLines
  have h := ((fills_beforeBits.append fills_bitLines).append fills_unions).append htail
  simpa [allLines, laterLines] using h

theorem perfPrettyPrintAttr_lines {fff : Stream} (h : fff = .stdout ∨ ¬ EndsOnStdout attr.type)
    (n : Int) : perfPrettyPrintAttr attr fff n =
      .memset n :: .semi :: (allLines attr).flatMap (Line.tokens n) := by
  have hconfig : perfPrettyPrintConfig fff attr.type attr.config =
      (configValue attr.type attr.config).map .expr ++ [.semi] := by
    rw [perfPrettyPrintConfig_eq]
    obtain rfl | hends := h
    · simp [printfSemi]
    · rw [if_neg hends]
  simp [perfPrettyPrintAttr, allLines, configLine, Line.tokens, always, hconfig]

/-- The attribute is cleared and then filled. -/
theorem execute_attr {fff : Stream} (h : fff = .stdout ∨ ¬ EndsOnStdout attr.type) (n : Int)
    (p : Program) (ts : List CToken) : execute m (perfPrettyPrintAttr attr fff n ++ ts) [] p =
      execute m ts [] (p.setPe n (Replay.reread attr {})) := by
  rw [perfPrettyPrintAttr_lines h]
  change execute m ((allLines attr).flatMap (Line.tokens n) ++ ts) [] (p.setPe n {}) = _
  rw [execute_lines says_allLines (b := Replay.reread attr {}), Program.setPe_setPe]
  rw [Program.setPe_pe]
  exact fills_allLines

/-! ## The call -/

theorem arguments_expr (e : Expr) (ts : List CToken) (s : Expr) :
    arguments (e.map .expr ++ ts) s = arguments ts (s ++ e) := by
  induction e generalizing s with
  | nil => simp
  | cons t e ih =>
    change arguments (e.map .expr ++ ts) (s ++ [t]) = _
    rw [ih, List.append_assoc]
    rfl

theorem arguments_four (e1 e2 e3 e4 : Expr) :
    arguments (e1.map .expr ++ .comma :: (e2.map .expr ++ .comma :: (e3.map .expr ++
      .comma :: (e4.map .expr ++ [.endCall])))) [] = some [e1, e2, e3, e4] := by
  simp [arguments_expr, arguments]

/-- The expression has this value as an `int`. -/
def GivesInt (m : Machine) (p : Program) (e : Expr) (x : BitVec 32) : Prop :=
  ∃ v, evaluate (names m.getpid p.fd) e = some v ∧ v.bits.setWidth 32 = x

theorem givesInt_d (p : Program) (x : BitVec 32) : GivesInt m p (d x) x := by
  obtain ⟨v, hoperand, hbits⟩ := operand_d (Nat.le_refl 32) x (g := m.getpid) (t := p.fd)
  refine ⟨v, hoperand.evaluate, ?_⟩
  rw [hbits, setWidth_signExtend (by decide)]

theorem givesInt_pid (p : Program) (pid : BitVec 32) :
    GivesInt m p (pidArgument m.getpid pid) pid := by
  unfold pidArgument
  split
  case isTrue h =>
    rw [h]
    exact ⟨_, (operand_name rfl).evaluate, setWidth_signExtend (by decide) _⟩
  case isFalse => exact givesInt_d p pid

/-- The leader is looked up in the table of descriptors. -/
def leader (p : Program) (groupFd : BitVec 32) : BitVec 32 :=
  if groupFd = -1 then -1 else p.fd groupFd.toInt

theorem givesInt_groupFd (p : Program) (groupFd : BitVec 32) :
    GivesInt m p (groupFdArgument groupFd) (leader p groupFd) := by
  unfold groupFdArgument leader
  split
  case isTrue => exact givesInt_d p (-1)
  case isFalse => exact ⟨_, (operand_name rfl).evaluate, setWidth_signExtend (by decide) _⟩

theorem execute_call (n : Int) (p : Program) (pid cpu groupFd : BitVec 32) (flags : BitVec 64) :
    execute m (.openCall n :: ((pidArgument m.getpid pid).map .expr ++
      .comma :: ((d cpu).map .expr ++
        .comma :: ((groupFdArgument groupFd).map .expr ++
          .comma :: ((perfPrettyPrintFlags flags).map .expr ++ [.endCall, .semi]))))) [] p =
      some { p with
        fd := Function.update p.fd n (m.perfEventOpen p.calls)
        calls := p.calls ++ [⟨p.pe n, pid, cpu, leader p groupFd, flags⟩] } := by
  obtain ⟨v1, hpid, hpidBits⟩ := givesInt_pid p pid (m := m)
  obtain ⟨v2, hcpu, hcpuBits⟩ := givesInt_d p cpu (m := m)
  obtain ⟨v3, hgroup, hgroupBits⟩ := givesInt_groupFd p groupFd (m := m)
  obtain ⟨v4, hflags, hflagsBits⟩ := (bars_openFlags flags (g := m.getpid) (t := p.fd)).evaluate
  have hcollect := execute_collect (m := m)
    (.openCall n :: ((pidArgument m.getpid pid).map .expr ++
      .comma :: ((d cpu).map .expr ++ .comma :: ((groupFdArgument groupFd).map .expr ++
        .comma :: ((perfPrettyPrintFlags flags).map .expr ++ [.endCall]))))) (by simp) [] [] p
  simp only [List.cons_append, List.append_assoc, List.nil_append] at hcollect
  rw [hcollect]
  simp only [statement, arguments_four, hpid, hcpu, hgroup, hflags, hpidBits, hcpuBits,
    hgroupBits, hflagsBits, Option.bind_eq_bind, Option.bind_some]
  rfl

/-! ## Without its semicolon -/

theorem mapM_exprToken_none {ts : List CToken} (h : ∃ t ∈ ts, exprToken t = none) :
    ts.mapM exprToken = none := by
  induction ts with
  | nil => simp at h
  | cons t ts ih =>
    obtain ⟨u, hu, hnone⟩ := h
    obtain rfl | hu := List.mem_cons.1 hu
    · simp [hnone]
    · simp [ih ⟨u, hu, hnone⟩]

/-- An assignment with a second one inside does not compile, wherever it ends. -/
theorem execute_stuck {n k : Int} {f g : Field} (ts : List CToken) {s : List CToken}
    (h : .member k g ∈ s) (p : Program) : execute m ts (.member n f :: s) p = none := by
  induction ts generalizing s with
  | nil => rfl
  | cons t ts ih =>
    have hmore : execute m ts (.member n f :: (s ++ [t])) p = none :=
      ih (List.mem_append_left _ h)
    cases t with
    | semi => simp [execute, statement, mapM_exprToken_none ⟨_, h, rfl⟩]
    | _ => exact hmore

theorem execute_exprs (e : Expr) (ts s : List CToken) (p : Program) :
    execute m (e.map .expr ++ ts) s p = execute m ts (s ++ e.map .expr) p := by
  induction e generalizing s with
  | nil => simp
  | cons t e ih =>
    change execute m (e.map .expr ++ ts) (s ++ [.expr t]) p = _
    rw [ih, List.append_assoc]
    rfl

theorem fills_headLines : Fills attr (headLines attr) {} { type := attr.type, size := attr.size } := by
  simp only [headLines, Fills, copy, always, unlessZero, Field.member]
  exact ⟨rfl, rfl, trivial⟩

/-- Where a line is printed, the text begins with an assignment. -/
theorem tokens_of_shown {ls : List Line} (h : ∃ l ∈ ls, l.shown = true) (n : Int) :
    ∃ f ts, ls.flatMap (Line.tokens n) = .member n f :: ts := by
  induction ls with
  | nil => simp at h
  | cons l ls ih =>
    rw [List.flatMap_cons]
    unfold Line.tokens
    split
    case isTrue => exact ⟨l.field, _, rfl⟩
    case isFalse hhidden =>
      obtain ⟨k, hk, hshown⟩ := h
      obtain rfl | hk := List.mem_cons.1 hk
      · exact absurd hshown hhidden
      · exact ih ⟨k, hk, hshown⟩

/-- Another assignment comes behind that of `config`. -/
theorem laterLines_tokens (attr : PerfEventAttr) (n : Int) : ∃ f ts,
    (laterLines attr).flatMap (Line.tokens n) = .member n f :: ts := by
  apply tokens_of_shown
  refine ⟨always .sampleType (perfPrettyPrintSampleType attr.sampleType), ?_, rfl⟩
  simp [laterLines, layoutLines]

theorem execute_unended (hends : EndsOnStdout attr.type) (n : Int) (p : Program)
    (ts : List CToken) : execute m (perfPrettyPrintAttr attr .other n ++ ts) [] p = none := by
  obtain ⟨f, us, hlater⟩ := laterLines_tokens attr n
  have htext : perfPrettyPrintAttr attr .other n ++ ts =
      .memset n :: .semi :: ((headLines attr).flatMap (Line.tokens n) ++ .member n .config ::
        ((configValue attr.type attr.config).map .expr ++ .member n f :: (us ++ ts))) := by
    simp [perfPrettyPrintAttr, perfPrettyPrintConfig_eq, if_pos hends, printfSemi, hlater]
  rw [htext]
  change execute m ((headLines attr).flatMap (Line.tokens n) ++ _) [] (p.setPe n {}) = _
  rw [execute_lines says_headLines (b := { type := attr.type, size := attr.size })]
  · change execute m (_ ++ _) [.member n .config] _ = _
    rw [execute_exprs]
    exact execute_stuck _ (List.mem_append_right _ (List.mem_singleton.2 rfl)) _
  · rw [Program.setPe_pe]
    exact fills_headLines

/-! ## The program that the replay prints -/

/-- The text compiles, its assignments rebuild the attribute in the members that the log has, and
the event is opened with this attribute and the arguments that were given. -/
def Rebuilds (m : Machine) (p : Program) (attr : PerfEventAttr) (n : Int)
    (pid cpu groupFd : BitVec 32) (flags : BitVec 64) (text : List CToken) : Prop :=
  ∃ p', execute m text [] p = some p' ∧ Replay.reread attr (p'.pe n) = p'.pe n ∧
    p'.calls = p.calls ++ [⟨p'.pe n, pid, cpu, leader p groupFd, flags⟩]

theorem perfPrettyPrintEvent_rebuilds_iff (m : Machine) (p : Program) (fff : Stream)
    (line : List Char) (vars : Replay.OpenVars) (n : Int) (pid cpu groupFd : BitVec 32)
    (flags : BitVec 64) :
    let attr := (Replay.parseOpenEvent line vars).pe
    Rebuilds m p attr n pid cpu groupFd flags
      (perfPrettyPrintEvent attr fff n m.getpid pid cpu groupFd flags) ↔
        fff = .stdout ∨ ¬ EndsOnStdout attr.type := by
  intro attr
  constructor
  · rintro ⟨p', hrun, -⟩
    cases fff with
    | stdout => exact .inl rfl
    | other =>
      refine .inr fun hends => ?_
      have hstuck := hrun.symm.trans (execute_unended hends n p _)
      cases hstuck
  · intro h
    refine ⟨_, (execute_attr h n p _).trans (execute_call ..), ?_, ?_⟩
    · simp
      rfl
    · simp [leader]

/-- The line of an event with every field zero: it counts cycles. -/
def cyclesLine : List Char := Fuzzer.openLine 5 0 0 (-1) 0 {}

/-- The replay prints to `stderr`. -/
theorem hardwareEvent_not_rebuilt :
    let m : Machine := ⟨100, fun _ => 5⟩
    let attr := (Replay.parseOpenEvent cyclesLine Replay.noVars).pe
    ¬ Rebuilds m ⟨fun _ => {}, fun _ => 0, []⟩ attr 5 0 0 (-1) 0
      (perfPrettyPrintEvent attr .other 5 m.getpid 0 0 (-1) 0) := by
  rintro m attr ⟨p', hrun, -⟩
  have hattr : attr = Replay.reread {} Replay.noVars.pe :=
    (Replay.parseOpenEvent_openLine 5 0 0 (-1) 0 {} Replay.noVars).2.2.2.2.2
  have hends : EndsOnStdout attr.type := by
    rw [hattr]
    exact .inl rfl
  have hstuck := hrun.symm.trans (execute_unended hends 5 _ _)
  cases hstuck

end PerfEvent.AttrPrint
