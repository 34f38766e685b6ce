import PerfEventTests.Abi.Attr
import PerfEventTests.Lib.Expressions

/-!
# The attribute as a program

`fuzzer/perf_attr_print.c`: an event is printed as the statements that build its attribute and open
it. A text is kept as its tokens, without the white space and the comments, and it is what has been
written to the file that the caller gives: what goes to `stdout` is part of it only when that is the
file.
-/

namespace PerfEvent.AttrPrint

open CExpressions

/-! ## Tokens -/

/-- The names in expressions: constants of the headers, `getpid()`, and `fd[%d]`. -/
inductive Name where
  | const (s : String)
  | getpid
  | fd (n : Int)
  deriving DecidableEq

abbrev Expr := List (Token Name)

/-- The members that are assigned; those of a union are told apart. -/
inductive Field where
  | type
  | size
  | config
  | sampleFreq
  | samplePeriod
  | sampleType
  | readFormat
  | disabled
  | inherit
  | pinned
  | exclusive
  | excludeUser
  | excludeKernel
  | excludeHv
  | excludeIdle
  | mmap
  | comm
  | freq
  | inheritStat
  | enableOnExec
  | task
  | watermark
  | preciseIp
  | mmapData
  | sampleIdAll
  | excludeHost
  | excludeGuest
  | excludeCallchainKernel
  | excludeCallchainUser
  | mmap2
  | commExec
  | useClockid
  | contextSwitch
  | writeBackward
  | namespaces
  | ksymbol
  | bpfEvent
  | auxOutput
  | cgroup
  | textPoke
  | buildId
  | inheritThread
  | removeOnExec
  | sigtrap
  | wakeupWatermark
  | wakeupEvents
  | bpType
  | bpAddr
  | bpLen
  | config1
  | config2
  | branchSampleType
  | sampleRegsUser
  | sampleStackUser
  | clockid
  | sampleRegsIntr
  | auxWatermark
  | sampleMaxStack
  | auxSampleSize
  deriving DecidableEq

inductive CToken where
  | expr (t : Token Name)
  /-- `memset(&pe[%d],0,sizeof(struct perf_event_attr))` -/
  | memset (fd : Int)
  /-- `pe[%d].member=` -/
  | member (fd : Int) (f : Field)
  /-- `fd[%d]=perf_event_open(&pe[%d],` -/
  | openCall (fd : Int)
  | comma
  | endCall
  | semi
  deriving DecidableEq

/-- The file that is printed to. -/
inductive Stream where
  | stdout
  | other
  deriving DecidableEq

/-- `printf(";")`, as far as it comes to the file. -/
def printfSemi : Stream → List CToken
  | .stdout => [.semi]
  | .other => []

/-! ## Numbers -/

/-- A signed number in decimal, with the suffix `ULL` or without. -/
def signed (ull : Bool) (v : Int) : Expr :=
  if v < 0 then [.minus, .constant .decimal ull v.natAbs] else [.constant .decimal ull v.natAbs]

/-- `%d` and `%hd` -/
def d {w : Nat} (v : BitVec w) : Expr := signed false v.toInt

/-- `%lldULL` -/
def lldUll (v : BitVec 64) : Expr := signed true v.toInt

/-- `%d`, for a bit-field. -/
def bitD {w : Nat} (v : BitVec w) : Expr := [.constant .decimal false v.toNat]

/-- `0x%x` -/
def hex {w : Nat} (v : BitVec w) : Expr := [.constant .hexadecimal false v.toNat]

/-- `0x%llxULL` and `0x%lxULL` -/
def hexUll (v : BitVec 64) : Expr := [.constant .hexadecimal true v.toNat]

/-! ## Constants -/

def typeNames : List (String × Nat) := [
  ("PERF_TYPE_HARDWARE", 0), ("PERF_TYPE_SOFTWARE", 1), ("PERF_TYPE_TRACEPOINT", 2),
  ("PERF_TYPE_HW_CACHE", 3), ("PERF_TYPE_RAW", 4), ("PERF_TYPE_BREAKPOINT", 5)]

def cacheNames : List (String × Nat) := [
  ("PERF_COUNT_HW_CACHE_L1D", 0), ("PERF_COUNT_HW_CACHE_L1I", 1), ("PERF_COUNT_HW_CACHE_LL", 2),
  ("PERF_COUNT_HW_CACHE_DTLB", 3), ("PERF_COUNT_HW_CACHE_ITLB", 4),
  ("PERF_COUNT_HW_CACHE_BPU", 5), ("PERF_COUNT_HW_CACHE_NODE", 6)]

def cacheOpNames : List (String × Nat) := [
  ("PERF_COUNT_HW_CACHE_OP_READ", 0), ("PERF_COUNT_HW_CACHE_OP_WRITE", 1),
  ("PERF_COUNT_HW_CACHE_OP_PREFETCH", 2)]

def cacheResultNames : List (String × Nat) := [
  ("PERF_COUNT_HW_CACHE_RESULT_ACCESS", 0), ("PERF_COUNT_HW_CACHE_RESULT_MISS", 1)]

def hardwareNames : List (String × Nat) := [
  ("PERF_COUNT_HW_CPU_CYCLES", 0), ("PERF_COUNT_HW_INSTRUCTIONS", 1),
  ("PERF_COUNT_HW_CACHE_REFERENCES", 2), ("PERF_COUNT_HW_CACHE_MISSES", 3),
  ("PERF_COUNT_HW_BRANCH_INSTRUCTIONS", 4), ("PERF_COUNT_HW_BRANCH_MISSES", 5),
  ("PERF_COUNT_HW_BUS_CYCLES", 6), ("PERF_COUNT_HW_STALLED_CYCLES_FRONTEND", 7),
  ("PERF_COUNT_HW_STALLED_CYCLES_BACKEND", 8), ("PERF_COUNT_HW_REF_CPU_CYCLES", 9)]

def softwareNames : List (String × Nat) := [
  ("PERF_COUNT_SW_CPU_CLOCK", 0), ("PERF_COUNT_SW_TASK_CLOCK", 1),
  ("PERF_COUNT_SW_PAGE_FAULTS", 2), ("PERF_COUNT_SW_CONTEXT_SWITCHES", 3),
  ("PERF_COUNT_SW_CPU_MIGRATIONS", 4), ("PERF_COUNT_SW_PAGE_FAULTS_MIN", 5),
  ("PERF_COUNT_SW_PAGE_FAULTS_MAJ", 6), ("PERF_COUNT_SW_ALIGNMENT_FAULTS", 7),
  ("PERF_COUNT_SW_EMULATION_FAULTS", 8), ("PERF_COUNT_SW_DUMMY", 9)]

/-- The flags are in the order in which they are tested. -/
def sampleTypeNames : List (String × Nat) := [
  ("PERF_SAMPLE_IP", perfSampleIp), ("PERF_SAMPLE_TID", perfSampleTid),
  ("PERF_SAMPLE_TIME", perfSampleTime), ("PERF_SAMPLE_ADDR", perfSampleAddr),
  ("PERF_SAMPLE_READ", perfSampleRead), ("PERF_SAMPLE_CALLCHAIN", perfSampleCallchain),
  ("PERF_SAMPLE_ID", perfSampleId), ("PERF_SAMPLE_CPU", perfSampleCpu),
  ("PERF_SAMPLE_PERIOD", perfSamplePeriod), ("PERF_SAMPLE_STREAM_ID", perfSampleStreamId),
  ("PERF_SAMPLE_RAW", perfSampleRaw), ("PERF_SAMPLE_BRANCH_STACK", perfSampleBranchStack),
  ("PERF_SAMPLE_REGS_USER", perfSampleRegsUser), ("PERF_SAMPLE_STACK_USER", perfSampleStackUser),
  ("PERF_SAMPLE_WEIGHT", perfSampleWeight), ("PERF_SAMPLE_DATA_SRC", perfSampleDataSrc),
  ("PERF_SAMPLE_IDENTIFIER", perfSampleIdentifier),
  ("PERF_SAMPLE_TRANSACTION", perfSampleTransaction)]

def branchSampleTypeNames : List (String × Nat) := [
  ("PERF_SAMPLE_BRANCH_USER", 1 <<< 0), ("PERF_SAMPLE_BRANCH_KERNEL", 1 <<< 1),
  ("PERF_SAMPLE_BRANCH_HV", 1 <<< 2), ("PERF_SAMPLE_BRANCH_ANY", 1 <<< 3),
  ("PERF_SAMPLE_BRANCH_ANY_CALL", 1 <<< 4), ("PERF_SAMPLE_BRANCH_ANY_RETURN", 1 <<< 5),
  ("PERF_SAMPLE_BRANCH_IND_CALL", 1 <<< 6), ("PERF_SAMPLE_BRANCH_IND_JUMP", 1 <<< 12),
  ("PERF_SAMPLE_BRANCH_ABORT_TX", 1 <<< 7), ("PERF_SAMPLE_BRANCH_IN_TX", 1 <<< 8),
  ("PERF_SAMPLE_BRANCH_NO_TX", 1 <<< 9), ("PERF_SAMPLE_BRANCH_COND", 1 <<< 10)]

def readFormatNames : List (String × Nat) := [
  ("PERF_FORMAT_TOTAL_TIME_ENABLED", perfFormatTotalTimeEnabled),
  ("PERF_FORMAT_TOTAL_TIME_RUNNING", perfFormatTotalTimeRunning),
  ("PERF_FORMAT_ID", perfFormatId), ("PERF_FORMAT_GROUP", perfFormatGroup),
  ("PERF_FORMAT_LOST", perfFormatLost)]

def hwBreakpointEmpty : Nat := 0

def breakpointTypeNames : List (String × Nat) := [
  ("HW_BREAKPOINT_R", 1), ("HW_BREAKPOINT_W", 2), ("HW_BREAKPOINT_X", 4)]

/-- These are of type `unsigned long`, all others are enumerators. -/
def flagNames : List (String × Nat) := [
  ("PERF_FLAG_FD_NO_GROUP", 1 <<< 0), ("PERF_FLAG_FD_OUTPUT", 1 <<< 1),
  ("PERF_FLAG_PID_CGROUP", 1 <<< 2), ("PERF_FLAG_FD_CLOEXEC", 1 <<< 3)]

/-! ## The printers of values -/

def const (s : String) : Token Name := .name (.const s)

/-- `switch(v)`, with the name of each of the constants. -/
def prettySwitch {w : Nat} (names : List (String × Nat)) (default : Expr) (v : BitVec w) : Expr :=
  match names.find? fun n => n.2 = v.toNat with
  | some n => [const n.1]
  | none => default

/-- `if (tested&m) { print s; v&=~m; if (!v) return; print "|"; }`, and then `k`. -/
def prettyFlag {w : Nat} (s : String) (m tested v : BitVec w) (k : BitVec w → Expr) : Expr :=
  if tested &&& m ≠ 0 then
    if v &&& ~~~m = 0 then [const s] else const s :: .bar :: k (v &&& ~~~m)
  else k v

/-- One flag after the other, and what remains at the end. -/
def prettyFlags {w : Nat} (rest : BitVec w → Expr) : List (String × Nat) → BitVec w → Expr
  | [], v => rest v
  | n :: names, v => prettyFlag n.1 (BitVec.ofNat w n.2) v v (prettyFlags rest names)

/-- The last two tests look at all flags, not only at those that remain. -/
def perfPrettyPrintFlags (flags : BitVec 64) : Expr :=
  if flags = 0 then d (0 : BitVec 32)
  else
    prettyFlag "PERF_FLAG_FD_NO_GROUP" (1 <<< 0) flags flags fun ours =>
    prettyFlag "PERF_FLAG_FD_OUTPUT" (1 <<< 1) ours ours fun ours =>
    prettyFlag "PERF_FLAG_PID_CGROUP" (1 <<< 2) flags ours fun ours =>
    prettyFlag "PERF_FLAG_FD_CLOEXEC" (1 <<< 3) flags ours hexUll

def perfPrettyPrintType (type : BitVec 32) : Expr := prettySwitch typeNames (d type) type

/-- The last part is shifted as a signed number. -/
def perfPrettyPrintCache (config : BitVec 64) : Expr :=
  let cacheId := config &&& 0xff
  let opId := config.sshiftRight 8 &&& 0xff
  let resultId := config.sshiftRight 16
  prettySwitch cacheNames (hexUll cacheId) cacheId ++
    .bar :: .lpar :: (prettySwitch cacheOpNames (hexUll opId) opId ++
      [.shl, .constant .decimal false 8] ++ [.rpar]) ++
    .bar :: .lpar :: (prettySwitch cacheResultNames (hexUll resultId) resultId ++
      [.shl, .constant .decimal false 16] ++ [.rpar])

/-- Three of the arms end their statement with `printf`. -/
def perfPrettyPrintConfig (fff : Stream) (type : BitVec 32) (config : BitVec 64) : List CToken :=
  match type.toNat with
  | 0 => (prettySwitch hardwareNames (hexUll config) config).map .expr ++ printfSemi fff
  | 1 => (prettySwitch softwareNames (hexUll config) config).map .expr ++ printfSemi fff
  | 3 => (perfPrettyPrintCache config).map .expr ++ printfSemi fff
  | _ => (hexUll config).map .expr ++ [.semi]

def perfPrettyPrintSampleType (sampleType : BitVec 64) : Expr :=
  if sampleType = 0 then d (0 : BitVec 32) else prettyFlags hexUll sampleTypeNames sampleType

def perfPrettyPrintBranchSampleType (branchSampleType : BitVec 64) : Expr :=
  if branchSampleType = 0 then d (0 : BitVec 32)
  else prettyFlags hexUll branchSampleTypeNames branchSampleType

/-- Zero is printed as what remains. -/
def perfPrettyPrintReadFormat (readFormat : BitVec 64) : Expr :=
  prettyFlags hexUll readFormatNames readFormat

def perfPrettyPrintBreakpointType (bpType : BitVec 32) : Expr :=
  if bpType.toNat = hwBreakpointEmpty then [const "HW_BREAKPOINT_EMPTY"]
  else prettyFlags hex breakpointTypeNames bpType

/-! ## The statements -/

/-- An assignment that is printed when its condition holds. -/
structure Line where
  field : Field
  shown : Bool
  value : Expr

def Line.tokens (fd : Int) (l : Line) : List CToken :=
  if l.shown then .member fd l.field :: (l.value.map .expr ++ [.semi]) else []

/-- `fprintf(fff,"\tpe[%d].member=...;\n",...)` -/
def always (f : Field) (e : Expr) : Line := ⟨f, true, e⟩

/-- The same behind `if (pe->member)`. -/
def unlessZero {w : Nat} (f : Field) (v : BitVec w) (e : Expr) : Line := ⟨f, v ≠ 0, e⟩

/-- `if (pe->member) fprintf(fff,"\tpe[%d].member=%d;\n",fd,pe->member);` for a bit-field. -/
def bitLine {w : Nat} (f : Field) (v : BitVec w) : Line := unlessZero f v (bitD v)

variable (pe : PerfEventAttr)

def headLines : List Line := [
  always .type (perfPrettyPrintType pe.type),
  unlessZero .size pe.size (d pe.size)]

def periodLines : List Line :=
  if pe.freq ≠ 0 then [unlessZero .sampleFreq pe.samplePeriod (hexUll pe.samplePeriod)]
  else [unlessZero .samplePeriod pe.samplePeriod (hexUll pe.samplePeriod)]

def layoutLines : List Line := [
  always .sampleType (perfPrettyPrintSampleType pe.sampleType),
  always .readFormat (perfPrettyPrintReadFormat pe.readFormat)]

def bitLines : List Line := [
  bitLine .disabled pe.disabled, bitLine .inherit pe.inherit, bitLine .pinned pe.pinned,
  bitLine .exclusive pe.exclusive, bitLine .excludeUser pe.excludeUser,
  bitLine .excludeKernel pe.excludeKernel, bitLine .excludeHv pe.excludeHv,
  bitLine .excludeIdle pe.excludeIdle, bitLine .mmap pe.mmap, bitLine .comm pe.comm,
  bitLine .freq pe.freq, bitLine .inheritStat pe.inheritStat,
  bitLine .enableOnExec pe.enableOnExec, bitLine .task pe.task, bitLine .watermark pe.watermark,
  always .preciseIp (bitD pe.preciseIp), bitLine .mmapData pe.mmapData,
  bitLine .sampleIdAll pe.sampleIdAll, bitLine .excludeHost pe.excludeHost,
  bitLine .excludeGuest pe.excludeGuest,
  bitLine .excludeCallchainKernel pe.excludeCallchainKernel,
  bitLine .excludeCallchainUser pe.excludeCallchainUser, bitLine .mmap2 pe.mmap2,
  bitLine .commExec pe.commExec, bitLine .useClockid pe.useClockid,
  bitLine .contextSwitch pe.contextSwitch, bitLine .writeBackward pe.writeBackward,
  bitLine .namespaces pe.namespaces, bitLine .ksymbol pe.ksymbol, bitLine .bpfEvent pe.bpfEvent,
  bitLine .auxOutput pe.auxOutput, bitLine .cgroup pe.cgroup, bitLine .textPoke pe.textPoke,
  bitLine .buildId pe.buildId, bitLine .inheritThread pe.inheritThread,
  bitLine .removeOnExec pe.removeOnExec, bitLine .sigtrap pe.sigtrap]

def wakeupLines : List Line :=
  if pe.watermark ≠ 0 then [always .wakeupWatermark (d pe.wakeupEvents)]
  else [always .wakeupEvents (d pe.wakeupEvents)]

def breakpointLines : List Line :=
  if pe.bpType.toNat = hwBreakpointEmpty then [
    always .bpType [const "HW_BREAKPOINT_EMPTY"],
    unlessZero .config1 pe.config1 (hexUll pe.config1),
    unlessZero .config2 pe.config2 (hexUll pe.config2)]
  else [
    always .bpType (perfPrettyPrintBreakpointType pe.bpType),
    always .bpAddr (hexUll pe.config1),
    always .bpLen (hexUll pe.config2)]

def tailLines : List Line := [
  unlessZero .branchSampleType pe.branchSampleType
    (perfPrettyPrintBranchSampleType pe.branchSampleType),
  unlessZero .sampleRegsUser pe.sampleRegsUser (lldUll pe.sampleRegsUser),
  unlessZero .sampleStackUser pe.sampleStackUser (hex pe.sampleStackUser),
  unlessZero .clockid pe.clockid (d pe.clockid),
  unlessZero .sampleRegsIntr pe.sampleRegsIntr (lldUll pe.sampleRegsIntr),
  unlessZero .auxWatermark pe.auxWatermark (d pe.auxWatermark),
  unlessZero .sampleMaxStack pe.sampleMaxStack (d pe.sampleMaxStack),
  unlessZero .auxSampleSize pe.auxSampleSize (d pe.auxSampleSize)]

/-- What comes behind the assignment of `config`. -/
def laterLines : List Line :=
  periodLines pe ++ layoutLines pe ++ bitLines pe ++ wakeupLines pe ++ breakpointLines pe ++
    tailLines pe

def perfPrettyPrintAttr (fff : Stream) (fd : Int) : List CToken :=
  [.memset fd, .semi] ++ (headLines pe).flatMap (Line.tokens fd) ++
    .member fd .config :: (perfPrettyPrintConfig fff pe.type pe.config ++
      (laterLines pe).flatMap (Line.tokens fd))

/-- The arguments of the call. -/
def pidArgument (originalPid pid : BitVec 32) : Expr :=
  if pid = originalPid then [.name .getpid] else d pid

def groupFdArgument (groupFd : BitVec 32) : Expr :=
  if groupFd = -1 then d (-1 : BitVec 32) else [.name (.fd groupFd.toInt)]

def perfPrettyPrintEvent (fff : Stream) (fd : Int) (originalPid pid cpu groupFd : BitVec 32)
    (flags : BitVec 64) : List CToken :=
  perfPrettyPrintAttr pe fff fd ++
    .openCall fd :: ((pidArgument originalPid pid).map .expr ++
      .comma :: ((d cpu).map .expr ++
        .comma :: ((groupFdArgument groupFd).map .expr ++
          .comma :: ((perfPrettyPrintFlags flags).map .expr ++ [.endCall, .semi]))))

end PerfEvent.AttrPrint
