import PerfEventTests.Abi.Attr
import PerfEventTests.Lib.Draws

/-!
# Generating event attributes

`fuzzer/trinity_files/perf_event_open.c`: `sanitise_perf_event_open` and what it calls to fill the
attribute. The number generators `rand32`, `rand64`, `get_len`, `get_address`, `get_random_fd` and
`get_pid` return an arbitrary value of their type. The table of PMUs, which `init_pmus` reads from
sysfs, is a parameter.
-/

namespace PerfEvent.Fuzzer

open Draws

def randBool : Draw (BitVec 1) := do return BitVec.ofNat 1 (← rand)

/-- `RAND_BOOL()` as a condition. -/
def randCond : Draw Bool := do return (← rand) % 2 = 1

def randByte : Draw Nat := do return (← rand) % 256

def rand32 : Draw (BitVec 32) := word 32
def rand64 : Draw (BitVec 64) := word 64
def getLen : Draw (BitVec 32) := word 32
def getAddress : Draw (BitVec 64) := word 64
def getRandomFd : Draw (BitVec 32) := word 32
def getPid : Draw (BitVec 32) := word 32

/-! ## Types -/

def perfTypeHardware : BitVec 32 := 0
def perfTypeSoftware : BitVec 32 := 1
def perfTypeTracepoint : BitVec 32 := 2
def perfTypeHwCache : BitVec 32 := 3
def perfTypeRaw : BitVec 32 := 4
def perfTypeBreakpoint : BitVec 32 := 5
def perfTypeReadFromSysfs : BitVec 32 := 1027

def randomEventType : Draw (BitVec 32) := do
  match (← rand) % 8 with
  | 0 => return perfTypeHardware
  | 1 => return perfTypeSoftware
  | 2 => return perfTypeTracepoint
  | 3 => return perfTypeHwCache
  | 4 => return perfTypeRaw
  | 5 => return perfTypeBreakpoint
  | 6 => return perfTypeReadFromSysfs
  | _ => rand32

/-! ## Configs -/

inductive FormatField where
  | unknown
  | config
  | config1
  | config2
  deriving DecidableEq

structure Format where
  field : FormatField
  mask : BitVec 64

structure GenericEvent where
  config : BitVec 64
  config1 : BitVec 64
  config2 : BitVec 64

/-- `struct pmu_type`. -/
structure Pmu where
  type : BitVec 32
  formats : List Format
  genericEvents : List GenericEvent

/-- What `random_event_config` returns and writes through its pointers. -/
structure EventConfig where
  type : BitVec 32
  config : BitVec 64 := 0
  config1 : BitVec 64 := 0
  config2 : BitVec 64 := 0

/-- Half of the fields of the formats, with random bits under their masks. -/
def randomFormats : List Format → EventConfig → Draw EventConfig
  | [], e => return e
  | f :: fs, e => do
    if (← rand) % 2 = 1 then
      let bits := (← rand64) &&& f.mask
      match f.field with
      | .config => randomFormats fs { e with config := e.config ||| bits }
      | .config1 => randomFormats fs { e with config1 := e.config1 ||| bits }
      | .config2 | .unknown => randomFormats fs { e with config2 := e.config2 ||| bits }
    else randomFormats fs e

/-- The label `out` of `random_sysfs_config`. -/
def sysfsOut (type : BitVec 32) : Draw EventConfig := do
  let config1 := BitVec.ofNat 64 ((← rand) % 64)
  return { type, config1, config := BitVec.ofNat 64 ((← rand) % 64) }

def randomSysfsConfig (pmus : List Pmu) : Draw EventConfig := do
  if pmus = [] then
    let type ← rand32
    let config1 ← rand64
    return { type, config1, config := ← rand64 }
  else
    match pmus[(← rand) % pmus.length]? with
    | none => return { type := 0 }
    | some pmu =>
      match (← rand) % 3 with
      | 0 =>
        if pmu.formats.length = 0 then sysfsOut pmu.type
        else randomFormats pmu.formats { type := pmu.type }
      | 1 =>
        if pmu.genericEvents.length = 0 then sysfsOut pmu.type
        else
          match pmu.genericEvents[(← rand) % pmu.genericEvents.length]? with
          | none => return { type := pmu.type }
          | some g => return ⟨pmu.type, g.config, g.config1, g.config2⟩
      | _ => sysfsOut pmu.type

def randomCacheConfig : Draw (BitVec 64) := do
  let cacheId ← match (← rand) % 8 with
    | 0 => pure 0
    | 1 => pure 1
    | 2 => pure 2
    | 3 => pure 3
    | 4 => pure 4
    | 5 => pure 5
    | 6 => pure 6
    | _ => randByte
  let hwCacheOpId ← match (← rand) % 4 with
    | 0 => pure 0
    | 1 => pure 1
    | 2 => pure 2
    | _ => randByte
  let hwCacheOpResultId ← match (← rand) % 3 with
    | 0 => pure 0
    | 1 => pure 1
    | _ => randByte
  return BitVec.ofNat 64 (cacheId ||| hwCacheOpId <<< 8 ||| hwCacheOpResultId <<< 16)

def randomEventConfig (pmus : List Pmu) (type : BitVec 32) : Draw EventConfig := do
  if type = perfTypeHardware then
    -- PERF_COUNT_HW_CPU_CYCLES to PERF_COUNT_HW_REF_CPU_CYCLES
    let n := (← rand) % 11
    let config ← if n = 10 then rand64 else pure (BitVec.ofNat 64 n)
    return { type, config }
  else if type = perfTypeSoftware then
    -- PERF_COUNT_SW_CPU_CLOCK to PERF_COUNT_SW_CGROUP_SWITCHES
    let n := (← rand) % 13
    let config ← if n = 12 then rand64 else pure (BitVec.ofNat 64 n)
    return { type, config }
  else if type = perfTypeTracepoint then
    if (← rand) % 2 = 0 then return { type, config := BitVec.ofNat 64 ((← rand) % 4096) }
    else return { type, config := ← rand64 }
  else if type = perfTypeHwCache then return { type, config := ← randomCacheConfig }
  else if type = perfTypeRaw then return { type, config := ← rand64 }
  else if type = perfTypeBreakpoint then
    let config ← if ← randCond then rand64 else pure 0
    return { type, config }
  else if type = perfTypeReadFromSysfs then randomSysfsConfig pmus
  else
    let config ← rand64
    let config1 ← rand64
    return { type, config, config1, config2 := ← rand64 }

/-! ## The other words -/

/-- A word of which each of the `bits` is set half of the time, or any word at all. -/
def randomMask (bits : List Nat) : Draw (BitVec 64) := do
  if ← randCond then rand64
  else bits.foldlM (fun m b => do return if ← randCond then m ||| BitVec.ofNat 64 b else m) 0

def randomSampleType : Draw (BitVec 64) :=
  randomMask [perfSampleIp, perfSampleTid, perfSampleTime, perfSampleAddr, perfSampleRead,
    perfSampleCallchain, perfSampleId, perfSampleCpu, perfSamplePeriod, perfSampleStreamId,
    perfSampleRaw, perfSampleBranchStack, perfSampleRegsUser, perfSampleStackUser,
    perfSampleWeight, perfSampleDataSrc, perfSampleIdentifier, perfSampleTransaction,
    perfSampleRegsIntr, perfSamplePhysAddr, perfSampleAux, perfSampleCgroup,
    perfSampleDataPageSize, perfSampleCodePageSize, perfSampleWeightStruct]

def randomReadFormat : Draw (BitVec 64) :=
  randomMask [perfFormatLost, perfFormatGroup, perfFormatId, perfFormatTotalTimeEnabled,
    perfFormatTotalTimeRunning]

/-- The bits of `enum perf_branch_sample_type` in the order of the source. -/
def randomBranchSampleType : Draw (BitVec 64) :=
  randomMask ([0, 1, 2, 3, 4, 5, 6, 7, 8, 9, 10, 11, 12, 13, 14, 15, 16, 17].map (1 <<< ·))

def randomAttrSize : Draw (BitVec 32) := do
  match (← rand) % 14 with
  | 0 => return 64
  | 1 => return 72
  | 2 => return 80
  | 3 => return 96
  | 4 => return 104
  | 5 => return 112
  | 6 => return 120
  | 7 => return 128
  | 8 => return 136
  | 9 => return 144
  | 10 => return 144
  | 11 => rand32
  | 12 => getLen
  | _ => return 0

/-- `HW_BREAKPOINT_EMPTY`, `_R`, `_W`, `_RW`, `_X` or any number. -/
def randomBpType : Draw (BitVec 32) := do
  match (← rand) % 6 with
  | 0 => return 0
  | 1 => return 1
  | 2 => return 2
  | 3 => return 3
  | 4 => return 4
  | _ => rand32

def randomBpLen : Draw (BitVec 64) := do
  match (← rand) % 5 with
  | 0 => return 1
  | 1 => return 2
  | 2 => return 4
  | 3 => return 8
  | _ => rand64

def setupBreakpoints (attr : PerfEventAttr) : Draw PerfEventAttr := do
  let bpType ← randomBpType
  let bpAddr ← getAddress
  let bpLen ← randomBpLen
  return { attr with bpType, config1 := bpAddr, config2 := bpLen }

/-! ## The four kinds of event -/

/-- The first assignments of every kind. -/
def startAttr (pmus : List Pmu) : Draw PerfEventAttr := do
  let type ← randomEventType
  let size ← randomAttrSize
  let e ← randomEventConfig pmus type
  return { type := e.type, size, config := e.config, config1 := e.config1, config2 := e.config2 }

def randPinned (drawn : Bool) : Draw (BitVec 1) := if drawn then randBool else return 0

/-- The bits from `disabled` to `bpf_event`, which three of the kinds draw in the same order.
`pinned` is only drawn for some. -/
def drawFlags (drawPinned : Bool) (attr : PerfEventAttr) : Draw PerfEventAttr := do
  let disabled ← randBool
  let inherit ← randBool
  let pinned ← randPinned drawPinned
  let exclusive ← randBool
  let excludeUser ← randBool
  let excludeKernel ← randBool
  let excludeHv ← randBool
  let excludeIdle ← randBool
  let mmap ← randBool
  let comm ← randBool
  let freq ← randBool
  let inheritStat ← randBool
  let enableOnExec ← randBool
  let task ← randBool
  let watermark ← randBool
  let preciseIp := BitVec.ofNat 2 (← rand)
  let mmapData ← randBool
  let sampleIdAll ← randBool
  let excludeHost ← randBool
  let excludeGuest ← randBool
  let excludeCallchainKernel ← randBool
  let excludeCallchainUser ← randBool
  let mmap2 ← randBool
  let commExec ← randBool
  let useClockid ← randBool
  let contextSwitch ← randBool
  let writeBackward ← randBool
  let namespaces ← randBool
  let ksymbol ← randBool
  let bpfEvent ← randBool
  return { attr with
    disabled, inherit, pinned, exclusive, excludeUser, excludeKernel, excludeHv, excludeIdle, mmap
    comm, freq, inheritStat, enableOnExec, task, watermark, preciseIp, mmapData, sampleIdAll
    excludeHost, excludeGuest, excludeCallchainKernel, excludeCallchainUser, mmap2, commExec
    useClockid, contextSwitch, writeBackward, namespaces, ksymbol, bpfEvent }

/-- The bits behind `bpf_event`, which only a counting event draws. -/
def drawLastFlags (attr : PerfEventAttr) : Draw PerfEventAttr := do
  let auxOutput ← randBool
  let cgroup ← randBool
  let textPoke ← randBool
  let buildId ← randBool
  let inheritThread ← randBool
  let removeOnExec ← randBool
  let sigtrap ← randBool
  let deferCallchain ← randBool
  let deferOutput ← randBool
  return { attr with
    auxOutput, cgroup, textPoke, buildId, inheritThread, removeOnExec, sigtrap, deferCallchain
    deferOutput }

def drawReadFormat (attr : PerfEventAttr) : Draw PerfEventAttr := do
  return { attr with readFormat := ← randomReadFormat }

/-- The breakpoint fields of an event of type `PERF_TYPE_BREAKPOINT`. -/
def breakpointFields (attr : PerfEventAttr) : Draw PerfEventAttr :=
  if attr.type = perfTypeBreakpoint then setupBreakpoints attr else return attr

def createMostlyValidCountingEvent (pmus : List Pmu) (groupLeader : Bool) :
    Draw PerfEventAttr := do
  let attr ← startAttr pmus
  let attr ← drawReadFormat attr
  let attr ← drawFlags groupLeader attr
  let attr ← drawLastFlags attr
  breakpointFields attr

/-- The period and the formats of the two kinds that sample. -/
def drawSample (attr : PerfEventAttr) : Draw PerfEventAttr := do
  let samplePeriod ← rand64
  let sampleType ← randomSampleType
  let readFormat ← randomReadFormat
  return { attr with samplePeriod, sampleType, readFormat }

def drawWakeup (attr : PerfEventAttr) : Draw PerfEventAttr := do
  return { attr with wakeupEvents := ← rand32 }

/-- The user registers of a sampling event. -/
def randomSampleRegsUser : Draw (BitVec 64) := do
  match (← rand) % 3 with
  | 0 => return BitVec.ofNat 64 ((← rand) % 16)
  | 1 => return BitVec.ofNat 64 ((← rand) % 64)
  | _ => rand64

def drawBranchAndStack (attr : PerfEventAttr) : Draw PerfEventAttr := do
  let branchSampleType ← randomBranchSampleType
  let sampleRegsUser ← randomSampleRegsUser
  let sampleStackUser ← rand32
  return { attr with branchSampleType, sampleRegsUser, sampleStackUser }

/-- `CLOCK_MONOTONIC`, `_RAW`, `CLOCK_REALTIME`, `CLOCK_BOOTTIME` or a number. -/
def randomClockid : Draw (BitVec 32) := do
  match (← rand) % 6 with
  | 0 => return 1
  | 1 => return 4
  | 2 => return 0
  | 3 => return 7
  | 4 => return BitVec.ofNat 32 (← randByte)
  | _ => return BitVec.ofNat 32 (← rand)

def drawClockid (attr : PerfEventAttr) : Draw PerfEventAttr := do
  if attr.useClockid = 1 then return { attr with clockid := ← randomClockid } else return attr

/-- The last assignments of the two kinds that sample. -/
def drawAux (attr : PerfEventAttr) : Draw PerfEventAttr := do
  let auxWatermark ← rand32
  let sampleMaxStack := (← rand32).setWidth 16
  let auxSampleSize ← rand32
  let sigData ← rand64
  let config3 ← rand64
  let config4 ← rand64
  return { attr with auxWatermark, sampleMaxStack, auxSampleSize, sigData, config3, config4 }

def createMostlyValidSamplingEvent (pmus : List Pmu) (groupLeader : Bool) :
    Draw PerfEventAttr := do
  let attr ← startAttr pmus
  let attr ← drawSample attr
  let attr ← drawFlags groupLeader attr
  let attr ← drawWakeup attr
  let attr ← breakpointFields attr
  let attr ← drawBranchAndStack attr
  let attr ← drawClockid attr
  drawAux attr

def drawGlobalFlags (groupLeader : Bool) (attr : PerfEventAttr) : Draw PerfEventAttr := do
  let disabled ← randBool
  let inherit ← randBool
  let pinned ← randPinned groupLeader
  return { attr with disabled, inherit, pinned }

def createMostlyValidGlobalEvent (pmus : List Pmu) (groupLeader : Bool) : Draw PerfEventAttr := do
  let attr ← startAttr pmus
  let attr ← drawReadFormat attr
  drawGlobalFlags groupLeader attr

def randomBreakpoints (attr : PerfEventAttr) : Draw PerfEventAttr := do
  if ← randCond then setupBreakpoints attr else return { attr with config2 := ← rand64 }

def drawRandomBranchAndStack (attr : PerfEventAttr) : Draw PerfEventAttr := do
  let branchSampleType ← rand64
  let sampleRegsUser ← rand64
  let sampleStackUser ← rand32
  return { attr with branchSampleType, sampleRegsUser, sampleStackUser }

def createRandomEvent (pmus : List Pmu) : Draw PerfEventAttr := do
  let attr ← startAttr pmus
  let attr ← drawSample attr
  let attr ← drawFlags true attr
  let attr ← drawWakeup attr
  let attr ← randomBreakpoints attr
  let attr ← drawRandomBranchAndStack attr
  drawAux attr

/-! ## `sanitise_perf_event_open` -/

/-- The arguments of the generated call. `group_fd` keeps the value of the call before when no
new one is drawn, and `cpu` is not used by the caller. -/
structure SyscallRecord where
  attr : PerfEventAttr := {}
  pid : BitVec 32 := 0
  groupFd : BitVec 32 := 0
  flags : BitVec 64 := 0

def perfFlagFdNoGroup : BitVec 64 := 1
def perfFlagFdOutput : BitVec 64 := 2
def perfFlagPidCgroup : BitVec 64 := 4
def perfFlagFdCloexec : BitVec 64 := 8

def randomFlags : Draw (BitVec 64) := do
  if ← randCond then rand64
  else
    [perfFlagFdNoGroup, perfFlagFdOutput, perfFlagPidCgroup, perfFlagFdCloexec].foldlM
      (fun m b => do return if ← randCond then m ||| b else m) 0

def randomPid (ownPid : BitVec 32) (flags : BitVec 64) : Draw (BitVec 32) := do
  if flags &&& perfFlagPidCgroup ≠ 0 then getRandomFd
  else
    match (← rand) % 4 with
    | 0 => return 0
    | 1 => getPid
    | 2 => return -1
    | _ => return ownPid

/-- The group of the event, and whether it is asked to be a leader. -/
def randomGroupFd (old : BitVec 32) : Draw (BitVec 32 × Bool) := do
  match (← rand) % 3 with
  | 0 => return (-1, true)
  | 1 => return (BitVec.ofNat 32 ((← rand) % 1024), false)
  | _ => return (old, false)

def createEvent (pmus : List Pmu) (groupLeader : Bool) : Nat → Draw PerfEventAttr
  | 0 => createMostlyValidCountingEvent pmus groupLeader
  | 1 => createMostlyValidSamplingEvent pmus groupLeader
  | 2 => createMostlyValidGlobalEvent pmus groupLeader
  | _ => createRandomEvent pmus

/-- The new record, and the kind of event that was made. -/
def sanitisePerfEventOpen (pmus : List Pmu) (ownPid : BitVec 32) (rec : SyscallRecord) :
    Draw (SyscallRecord × Nat) := do
  -- the cpu
  let _ ← rand
  let group ← randomGroupFd rec.groupFd
  let flags ← randomFlags
  let pid ← randomPid ownPid flags
  let type := (← rand) % 4
  let attr ← createEvent pmus group.2 type
  return ({ attr, pid, groupFd := group.1, flags }, type)

/-! ## What no kind of event sets -/

/-- The fields that stay as `zmalloc` made them. -/
structure ReservedZero (attr : PerfEventAttr) : Prop where
  reserved1 : attr.reserved1 = 0
  reserved2 : attr.reserved2 = 0
  auxAction : attr.auxAction = 0

/-- A step of the generator does not touch them. -/
def KeepsReserved (f : PerfEventAttr → Draw PerfEventAttr) : Prop :=
  ∀ attr, ReservedZero attr → Always (f attr) ReservedZero

section

variable {pmus : List Pmu} {groupLeader : Bool}

theorem startAttr_reservedZero : Always (startAttr pmus) ReservedZero := by
  unfold startAttr
  repeat refine always_bind_any fun _ => ?_
  exact always_pure ⟨rfl, rfl, rfl⟩

theorem drawFlags_keeps : KeepsReserved (drawFlags groupLeader) := by
  intro attr h
  unfold drawFlags
  repeat refine always_bind_any fun _ => ?_
  exact always_pure ⟨h.reserved1, h.reserved2, h.auxAction⟩

theorem drawLastFlags_keeps : KeepsReserved drawLastFlags := by
  intro attr h
  unfold drawLastFlags
  repeat refine always_bind_any fun _ => ?_
  exact always_pure ⟨h.reserved1, h.reserved2, h.auxAction⟩

theorem drawGlobalFlags_keeps : KeepsReserved (drawGlobalFlags groupLeader) := by
  intro attr h
  unfold drawGlobalFlags
  repeat refine always_bind_any fun _ => ?_
  exact always_pure ⟨h.reserved1, h.reserved2, h.auxAction⟩

theorem drawReadFormat_keeps : KeepsReserved drawReadFormat := by
  intro attr h
  unfold drawReadFormat
  repeat refine always_bind_any fun _ => ?_
  exact always_pure ⟨h.reserved1, h.reserved2, h.auxAction⟩

theorem drawSample_keeps : KeepsReserved drawSample := by
  intro attr h
  unfold drawSample
  repeat refine always_bind_any fun _ => ?_
  exact always_pure ⟨h.reserved1, h.reserved2, h.auxAction⟩

theorem drawWakeup_keeps : KeepsReserved drawWakeup := by
  intro attr h
  unfold drawWakeup
  repeat refine always_bind_any fun _ => ?_
  exact always_pure ⟨h.reserved1, h.reserved2, h.auxAction⟩

theorem drawBranchAndStack_keeps : KeepsReserved drawBranchAndStack := by
  intro attr h
  unfold drawBranchAndStack
  repeat refine always_bind_any fun _ => ?_
  exact always_pure ⟨h.reserved1, h.reserved2, h.auxAction⟩

theorem drawRandomBranchAndStack_keeps : KeepsReserved drawRandomBranchAndStack := by
  intro attr h
  unfold drawRandomBranchAndStack
  repeat refine always_bind_any fun _ => ?_
  exact always_pure ⟨h.reserved1, h.reserved2, h.auxAction⟩

theorem drawAux_keeps : KeepsReserved drawAux := by
  intro attr h
  unfold drawAux
  repeat refine always_bind_any fun _ => ?_
  exact always_pure ⟨h.reserved1, h.reserved2, h.auxAction⟩

theorem setupBreakpoints_keeps : KeepsReserved setupBreakpoints := by
  intro attr h
  unfold setupBreakpoints
  repeat refine always_bind_any fun _ => ?_
  exact always_pure ⟨h.reserved1, h.reserved2, h.auxAction⟩

theorem breakpointFields_keeps : KeepsReserved breakpointFields := fun attr h =>
  always_ite (fun _ => setupBreakpoints_keeps attr h) fun _ => always_pure h

theorem randomBreakpoints_keeps : KeepsReserved randomBreakpoints := by
  intro attr h
  refine always_bind_any fun _ => always_ite (fun _ => setupBreakpoints_keeps attr h) fun _ => ?_
  exact always_bind_any fun _ => always_pure ⟨h.reserved1, h.reserved2, h.auxAction⟩

theorem drawClockid_keeps : KeepsReserved drawClockid := by
  intro attr h
  refine always_ite (fun _ => ?_) fun _ => always_pure h
  exact always_bind_any fun _ => always_pure ⟨h.reserved1, h.reserved2, h.auxAction⟩

theorem createEvent_reservedZero (type : Nat) :
    Always (createEvent pmus groupLeader type) ReservedZero := by
  unfold createEvent
  split
  · refine always_bind startAttr_reservedZero fun attr h => ?_
    refine always_bind (drawReadFormat_keeps attr h) fun attr h => ?_
    refine always_bind (drawFlags_keeps attr h) fun attr h => ?_
    exact always_bind (drawLastFlags_keeps attr h) breakpointFields_keeps
  · refine always_bind startAttr_reservedZero fun attr h => ?_
    refine always_bind (drawSample_keeps attr h) fun attr h => ?_
    refine always_bind (drawFlags_keeps attr h) fun attr h => ?_
    refine always_bind (drawWakeup_keeps attr h) fun attr h => ?_
    refine always_bind (breakpointFields_keeps attr h) fun attr h => ?_
    refine always_bind (drawBranchAndStack_keeps attr h) fun attr h => ?_
    exact always_bind (drawClockid_keeps attr h) drawAux_keeps
  · refine always_bind startAttr_reservedZero fun attr h => ?_
    exact always_bind (drawReadFormat_keeps attr h) drawGlobalFlags_keeps
  · refine always_bind startAttr_reservedZero fun attr h => ?_
    refine always_bind (drawSample_keeps attr h) fun attr h => ?_
    refine always_bind (drawFlags_keeps attr h) fun attr h => ?_
    refine always_bind (drawWakeup_keeps attr h) fun attr h => ?_
    refine always_bind (randomBreakpoints_keeps attr h) fun attr h => ?_
    exact always_bind (drawRandomBranchAndStack_keeps attr h) drawAux_keeps

theorem sanitisePerfEventOpen_reservedZero {ownPid : BitVec 32} {rec : SyscallRecord} :
    Always (sanitisePerfEventOpen pmus ownPid rec) fun r => ReservedZero r.1.attr := by
  refine always_bind_any fun _ => always_bind_any fun _ => always_bind_any fun _ => ?_
  refine always_bind_any fun _ => always_bind_any fun _ => ?_
  exact always_bind (createEvent_reservedZero _) fun _ h => always_pure h

end

end PerfEvent.Fuzzer
