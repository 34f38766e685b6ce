import Mathlib.Data.Nat.Bits

/-!
# `struct perf_event_attr`

The attribute structure of `include/perf_event.h`, field for field. Where the header has a union
the structure has one field, named after the member that the fuzzer and the log reader use. The
bit-field is kept as separate fields of its declared widths.
-/

namespace PerfEvent

/-- `struct perf_event_attr`. -/
@[ext]
structure PerfEventAttr where
  type : BitVec 32 := 0
  size : BitVec 32 := 0
  config : BitVec 64 := 0
  /-- union of `sample_period` and `sample_freq` -/
  samplePeriod : BitVec 64 := 0
  sampleType : BitVec 64 := 0
  readFormat : BitVec 64 := 0
  disabled : BitVec 1 := 0
  inherit : BitVec 1 := 0
  pinned : BitVec 1 := 0
  exclusive : BitVec 1 := 0
  excludeUser : BitVec 1 := 0
  excludeKernel : BitVec 1 := 0
  excludeHv : BitVec 1 := 0
  excludeIdle : BitVec 1 := 0
  mmap : BitVec 1 := 0
  comm : BitVec 1 := 0
  freq : BitVec 1 := 0
  inheritStat : BitVec 1 := 0
  enableOnExec : BitVec 1 := 0
  task : BitVec 1 := 0
  watermark : BitVec 1 := 0
  preciseIp : BitVec 2 := 0
  mmapData : BitVec 1 := 0
  sampleIdAll : BitVec 1 := 0
  excludeHost : BitVec 1 := 0
  excludeGuest : BitVec 1 := 0
  excludeCallchainKernel : BitVec 1 := 0
  excludeCallchainUser : BitVec 1 := 0
  mmap2 : BitVec 1 := 0
  commExec : BitVec 1 := 0
  useClockid : BitVec 1 := 0
  contextSwitch : BitVec 1 := 0
  writeBackward : BitVec 1 := 0
  namespaces : BitVec 1 := 0
  ksymbol : BitVec 1 := 0
  bpfEvent : BitVec 1 := 0
  auxOutput : BitVec 1 := 0
  cgroup : BitVec 1 := 0
  textPoke : BitVec 1 := 0
  buildId : BitVec 1 := 0
  inheritThread : BitVec 1 := 0
  removeOnExec : BitVec 1 := 0
  sigtrap : BitVec 1 := 0
  deferCallchain : BitVec 1 := 0
  deferOutput : BitVec 1 := 0
  reserved1 : BitVec 24 := 0
  /-- union of `wakeup_events` and `wakeup_watermark` -/
  wakeupEvents : BitVec 32 := 0
  bpType : BitVec 32 := 0
  /-- union of `bp_addr`, `kprobe_func`, `uprobe_path` and `config1` -/
  config1 : BitVec 64 := 0
  /-- union of `bp_len`, `kprobe_addr`, `probe_offset` and `config2` -/
  config2 : BitVec 64 := 0
  branchSampleType : BitVec 64 := 0
  sampleRegsUser : BitVec 64 := 0
  sampleStackUser : BitVec 32 := 0
  clockid : BitVec 32 := 0
  sampleRegsIntr : BitVec 64 := 0
  auxWatermark : BitVec 32 := 0
  sampleMaxStack : BitVec 16 := 0
  reserved2 : BitVec 16 := 0
  auxSampleSize : BitVec 32 := 0
  /-- union of `aux_action` and its bit-field -/
  auxAction : BitVec 32 := 0
  sigData : BitVec 64 := 0
  config3 : BitVec 64 := 0
  config4 : BitVec 64 := 0

/-- The test `flags & mask` of C. -/
def bitAnd (flags mask : Nat) : Bool := flags &&& mask != 0

/-! ## `enum perf_event_sample_format` -/

def perfSampleIp : Nat := 1 <<< 0
def perfSampleTid : Nat := 1 <<< 1
def perfSampleTime : Nat := 1 <<< 2
def perfSampleAddr : Nat := 1 <<< 3
def perfSampleRead : Nat := 1 <<< 4
def perfSampleCallchain : Nat := 1 <<< 5
def perfSampleId : Nat := 1 <<< 6
def perfSampleCpu : Nat := 1 <<< 7
def perfSamplePeriod : Nat := 1 <<< 8
def perfSampleStreamId : Nat := 1 <<< 9
def perfSampleRaw : Nat := 1 <<< 10
def perfSampleBranchStack : Nat := 1 <<< 11
def perfSampleRegsUser : Nat := 1 <<< 12
def perfSampleStackUser : Nat := 1 <<< 13
def perfSampleWeight : Nat := 1 <<< 14
def perfSampleDataSrc : Nat := 1 <<< 15
def perfSampleIdentifier : Nat := 1 <<< 16
def perfSampleTransaction : Nat := 1 <<< 17
def perfSampleRegsIntr : Nat := 1 <<< 18
def perfSamplePhysAddr : Nat := 1 <<< 19
def perfSampleAux : Nat := 1 <<< 20
def perfSampleCgroup : Nat := 1 <<< 21
def perfSampleDataPageSize : Nat := 1 <<< 22
def perfSampleCodePageSize : Nat := 1 <<< 23
def perfSampleWeightStruct : Nat := 1 <<< 24

/-! ## `enum perf_event_read_format`, branch format and register ABI -/

def perfFormatTotalTimeEnabled : Nat := 1 <<< 0
def perfFormatTotalTimeRunning : Nat := 1 <<< 1
def perfFormatId : Nat := 1 <<< 2
def perfFormatGroup : Nat := 1 <<< 3
def perfFormatLost : Nat := 1 <<< 4

def perfSampleBranchHwIndex : Nat := 1 <<< 17
def perfSampleBranchCounters : Nat := 1 <<< 19

def perfSampleRegsAbiNone : Nat := 0
def perfSampleRegsAbi32 : Nat := 1
def perfSampleRegsAbi64 : Nat := 2

end PerfEvent
