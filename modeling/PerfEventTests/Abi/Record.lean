import PerfEventTests.Lib.Words
import PerfEventTests.Abi.Attr

/-!
# Ring-buffer records

The records the kernel writes, with the layouts documented at `enum perf_event_type` of
`include/perf_event.h`. A `Record a` is a record of an event opened with the attributes `a`: its
type carries the facts that make it well formed, and `Record.encode` is its bytes.
-/

namespace PerfEvent

open ByteMemory

abbrev Bytes := List UInt8

def u16 (v : UInt16) : Bytes := le 2 v.toNat
def u32 (v : UInt32) : Bytes := le 4 v.toNat
def u64 (v : UInt64) : Bytes := le 8 v.toNat
def u64s (vs : List UInt64) : Bytes := vs.flatMap u64

/-- A field that is present only when its bit is set: the `{ ... } && BIT` of the header. -/
def opt (present : Bool) (bs : Bytes) : Bytes := if present then bs else []

@[simp] theorem length_u16 (v : UInt16) : (u16 v).length = 2 := length_le 2 _
@[simp] theorem length_u32 (v : UInt32) : (u32 v).length = 4 := length_le 4 _
@[simp] theorem length_u64 (v : UInt64) : (u64 v).length = 8 := length_le 8 _

@[simp] theorem length_u64s (vs : List UInt64) : (u64s vs).length = 8 * vs.length := by
  induction vs with
  | nil => rfl
  | cons v vs ih =>
    simp only [u64s, List.flatMap_cons, List.length_append, length_u64, List.length_cons] at ih ⊢
    omega

@[simp] theorem length_opt (p : Bool) (bs : Bytes) :
    (opt p bs).length = if p then bs.length else 0 := by
  cases p <;> rfl

/-- The number of registers selected by a mask: `weight(mask)` of the header. -/
def weight (mask : BitVec 64) : Nat :=
  (List.range 64).countP fun i => mask.getLsbD i

/-! ## The `sample_id` trailer -/

structure SampleId where
  pid : UInt32 := 0
  tid : UInt32 := 0
  time : UInt64 := 0
  id : UInt64 := 0
  streamId : UInt64 := 0
  cpu : UInt32 := 0
  res : UInt32 := 0
  identifier : UInt64 := 0

/-- `struct sample_id`: nothing unless `sample_id_all` is set, and then the selected fields. -/
def SampleId.encode (a : PerfEventAttr) (s : SampleId) : Bytes :=
  let has := bitAnd a.sampleType.toNat
  if a.sampleIdAll = 1 then
    opt (has perfSampleTid) (u32 s.pid ++ u32 s.tid) ++
    opt (has perfSampleTime) (u64 s.time) ++
    opt (has perfSampleId) (u64 s.id) ++
    opt (has perfSampleStreamId) (u64 s.streamId) ++
    opt (has perfSampleCpu) (u32 s.cpu ++ u32 s.res) ++
    opt (has perfSampleIdentifier) (u64 s.identifier)
  else []

/-- The number of bytes of the trailer; it depends on the attributes only. -/
def sampleIdSize (a : PerfEventAttr) : Nat := (SampleId.encode a {}).length

theorem SampleId.length_encode (a : PerfEventAttr) (s : SampleId) :
    (s.encode a).length = sampleIdSize a := by
  unfold sampleIdSize SampleId.encode
  split <;> simp

/-! ## `struct read_format` -/

structure ReadMember where
  value : UInt64
  id : UInt64
  lost : UInt64

structure ReadValues where
  timeEnabled : UInt64 := 0
  timeRunning : UInt64 := 0
  /-- the event itself, read without `PERF_FORMAT_GROUP` -/
  own : ReadMember := ⟨0, 0, 0⟩
  /-- `cntr[nr]`, read with `PERF_FORMAT_GROUP` -/
  cntr : List ReadMember := []

def ReadMember.encode (a : PerfEventAttr) (m : ReadMember) : Bytes :=
  let has := bitAnd a.readFormat.toNat
  u64 m.value ++ opt (has perfFormatId) (u64 m.id) ++ opt (has perfFormatLost) (u64 m.lost)

/-- `struct read_format`, in its two shapes. -/
def ReadValues.encode (a : PerfEventAttr) (r : ReadValues) : Bytes :=
  let has := bitAnd a.readFormat.toNat
  if has perfFormatGroup then
    le 8 r.cntr.length ++
    opt (has perfFormatTotalTimeEnabled) (u64 r.timeEnabled) ++
    opt (has perfFormatTotalTimeRunning) (u64 r.timeRunning) ++
    r.cntr.flatMap (ReadMember.encode a)
  else
    u64 r.own.value ++
    opt (has perfFormatTotalTimeEnabled) (u64 r.timeEnabled) ++
    opt (has perfFormatTotalTimeRunning) (u64 r.timeRunning) ++
    opt (has perfFormatId) (u64 r.own.id) ++
    opt (has perfFormatLost) (u64 r.own.lost)

/-! ## `PERF_RECORD_SAMPLE` -/

structure BranchEntry where
  from_ : UInt64
  to_ : UInt64
  flags : UInt64

def BranchEntry.encode (b : BranchEntry) : Bytes := u64 b.from_ ++ u64 b.to_ ++ u64 b.flags

structure Sample where
  identifier : UInt64 := 0
  ip : UInt64 := 0
  pid : UInt32 := 0
  tid : UInt32 := 0
  time : UInt64 := 0
  addr : UInt64 := 0
  id : UInt64 := 0
  streamId : UInt64 := 0
  cpu : UInt32 := 0
  res : UInt32 := 0
  period : UInt64 := 0
  values : ReadValues := {}
  ips : List UInt64 := []
  raw : Bytes := []
  hwIdx : UInt64 := 0
  lbr : List BranchEntry := []
  counters : List UInt64 := []
  userAbi : UInt64 := 0
  userRegs : List UInt64 := []
  stack : Bytes := []
  dynSize : UInt64 := 0
  weight : UInt64 := 0
  dataSrc : UInt64 := 0
  transaction : UInt64 := 0
  intrAbi : UInt64 := 0
  intrRegs : List UInt64 := []
  physAddr : UInt64 := 0
  cgroup : UInt64 := 0
  dataPageSize : UInt64 := 0
  codePageSize : UInt64 := 0
  aux : Bytes := []

/-- A register dump: the registers of the mask, or none at all when the ABI is `NONE`. -/
def RegsWellFormed (abi : UInt64) (regs : List UInt64) (mask : BitVec 64) : Prop :=
  regs.length = if abi.toNat = perfSampleRegsAbiNone then 0 else weight mask

structure Sample.WellFormed (a : PerfEventAttr) (s : Sample) : Prop where
  userRegs : RegsWellFormed s.userAbi s.userRegs a.sampleRegsUser
  intrRegs : RegsWellFormed s.intrAbi s.intrRegs a.sampleRegsIntr
  counters : s.counters.length = s.lbr.length
  dynSize : s.dynSize.toNat ≤ s.stack.length

namespace Sample

variable (a : PerfEventAttr) (s : Sample)

/-- From the instruction pointer to the period. -/
def headBytes : Bytes :=
  let has := bitAnd a.sampleType.toNat
  opt (has perfSampleIp) (u64 s.ip) ++
  opt (has perfSampleTid) (u32 s.pid ++ u32 s.tid) ++
  opt (has perfSampleTime) (u64 s.time) ++
  opt (has perfSampleAddr) (u64 s.addr) ++
  opt (has perfSampleId) (u64 s.id) ++
  opt (has perfSampleStreamId) (u64 s.streamId) ++
  opt (has perfSampleCpu) (u32 s.cpu ++ u32 s.res) ++
  opt (has perfSamplePeriod) (u64 s.period)

/-- `nr`, the branch entries, and the optional parts around them. -/
def branchBytes : Bytes :=
  let branch := bitAnd a.branchSampleType.toNat
  le 8 s.lbr.length ++ opt (branch perfSampleBranchHwIndex) (u64 s.hwIdx) ++
  s.lbr.flatMap BranchEntry.encode ++ opt (branch perfSampleBranchCounters) (u64s s.counters)

/-- From the read values to the user registers. -/
def bodyBytes : Bytes :=
  let has := bitAnd a.sampleType.toNat
  opt (has perfSampleRead) (s.values.encode a) ++
  opt (has perfSampleCallchain) (le 8 s.ips.length ++ u64s s.ips) ++
  opt (has perfSampleRaw) (le 4 s.raw.length ++ s.raw) ++
  opt (has perfSampleBranchStack) (s.branchBytes a) ++
  opt (has perfSampleRegsUser) (u64 s.userAbi ++ u64s s.userRegs)

/-- The user stack. A dump of size 0 is its size alone, without the dynamic size. -/
def stackBytes : Bytes :=
  opt (bitAnd a.sampleType.toNat perfSampleStackUser)
    (le 8 s.stack.length ++ s.stack ++ opt (s.stack.length != 0) (u64 s.dynSize))

/-- From the weight to the interrupt registers. -/
def tailBytes : Bytes :=
  let has := bitAnd a.sampleType.toNat
  opt (has perfSampleWeight || has perfSampleWeightStruct) (u64 s.weight) ++
  opt (has perfSampleDataSrc) (u64 s.dataSrc) ++
  opt (has perfSampleTransaction) (u64 s.transaction) ++
  opt (has perfSampleRegsIntr) (u64 s.intrAbi ++ u64s s.intrRegs)

/-- The physical address and the fields that follow it. -/
def extraBytes : Bytes :=
  let has := bitAnd a.sampleType.toNat
  opt (has perfSamplePhysAddr) (u64 s.physAddr) ++
  opt (has perfSampleCgroup) (u64 s.cgroup) ++
  opt (has perfSampleDataPageSize) (u64 s.dataPageSize) ++
  opt (has perfSampleCodePageSize) (u64 s.codePageSize) ++
  opt (has perfSampleAux) (le 8 s.aux.length ++ s.aux)

/-- The payload of a sample, in the order of the header. -/
def encode : Bytes :=
  opt (bitAnd a.sampleType.toNat perfSampleIdentifier) (u64 s.identifier) ++
  (s.headBytes a ++ (s.bodyBytes a ++ (s.stackBytes a ++ (s.tailBytes a ++ s.extraBytes a))))

end Sample

/-! ## Records -/

/-- `enum perf_event_type`. -/
inductive RecordType where
  | mmap | lost | comm | exit | throttle | unthrottle | fork | read | sample | mmap2 | aux
  | itraceStart | lostSamples | switch | switchCpuWide | namespaces | ksymbol | bpfEvent | cgroup
  | textPoke | auxOutputHwId | callchainDeferred
  deriving DecidableEq, Repr

/-- The number of a record type: `PERF_RECORD_MMAP` is 1, the others follow. -/
def RecordType.toNat : RecordType → Nat
  | .mmap => 1 | .lost => 2 | .comm => 3 | .exit => 4 | .throttle => 5 | .unthrottle => 6
  | .fork => 7 | .read => 8 | .sample => 9 | .mmap2 => 10 | .aux => 11 | .itraceStart => 12
  | .lostSamples => 13 | .switch => 14 | .switchCpuWide => 15 | .namespaces => 16
  | .ksymbol => 17 | .bpfEvent => 18 | .cgroup => 19 | .textPoke => 20
  | .auxOutputHwId => 21 | .callchainDeferred => 22

/-- The type-specific part of a record. -/
inductive Body where
  | mmap (pid tid : UInt32) (addr len pgoff : UInt64) (filename : Bytes)
  | lost (id lost : UInt64)
  | comm (pid tid : UInt32) (comm : Bytes)
  | exit (pid ppid tid ptid : UInt32) (time : UInt64)
  | throttle (time id streamId : UInt64)
  | unthrottle (time id streamId : UInt64)
  | fork (pid ppid tid ptid : UInt32) (time : UInt64)
  | read (pid tid : UInt32) (values : ReadValues)
  | sample (s : Sample)
  /-- `inode` is the 24-byte union of `maj, min, ino, ino_generation` with the build id -/
  | mmap2 (pid tid : UInt32) (addr len pgoff : UInt64) (inode : Bytes) (prot flags : UInt32)
      (filename : Bytes)
  | aux (auxOffset auxSize flags : UInt64)
  | itraceStart (pid tid : UInt32)
  | lostSamples (lost : UInt64)
  | switch
  | switchCpuWide (nextPrevPid nextPrevTid : UInt32)
  | namespaces (pid tid : UInt32) (links : List (UInt64 × UInt64))
  | ksymbol (addr : UInt64) (len : UInt32) (ksymType flags : UInt16) (name : Bytes)
  | bpfEvent (type flags : UInt16) (id : UInt32) (tag : Bytes)
  | cgroup (id : UInt64) (path : Bytes)
  | textPoke (addr : UInt64) (oldLen newLen : UInt16) (bytes : Bytes)
  | auxOutputHwId (hwId : UInt64)
  | callchainDeferred (cookie : UInt64) (ips : List UInt64)

def Body.type : Body → RecordType
  | .mmap .. => .mmap | .lost .. => .lost | .comm .. => .comm | .exit .. => .exit
  | .throttle .. => .throttle | .unthrottle .. => .unthrottle | .fork .. => .fork
  | .read .. => .read | .sample .. => .sample | .mmap2 .. => .mmap2 | .aux .. => .aux
  | .itraceStart .. => .itraceStart | .lostSamples .. => .lostSamples | .switch => .switch
  | .switchCpuWide .. => .switchCpuWide | .namespaces .. => .namespaces
  | .ksymbol .. => .ksymbol | .bpfEvent .. => .bpfEvent | .cgroup .. => .cgroup
  | .textPoke .. => .textPoke | .auxOutputHwId .. => .auxOutputHwId
  | .callchainDeferred .. => .callchainDeferred

def Body.WellFormed (a : PerfEventAttr) : Body → Prop
  | .sample s => s.WellFormed a
  | .mmap2 _ _ _ _ _ inode _ _ _ => inode.length = 24
  | .bpfEvent _ _ _ tag => tag.length = 8
  | .textPoke _ oldLen newLen bytes => bytes.length = oldLen.toNat + newLen.toNat
  | _ => True

/-- The bytes between the header and the `sample_id` trailer. -/
def Body.encode (a : PerfEventAttr) : Body → Bytes
  | .mmap pid tid addr len pgoff filename =>
    u32 pid ++ u32 tid ++ u64 addr ++ u64 len ++ u64 pgoff ++ filename
  | .lost id n => u64 id ++ u64 n
  | .comm pid tid name => u32 pid ++ u32 tid ++ name
  | .exit pid ppid tid ptid time | .fork pid ppid tid ptid time =>
    u32 pid ++ u32 ppid ++ u32 tid ++ u32 ptid ++ u64 time
  | .throttle time id streamId | .unthrottle time id streamId =>
    u64 time ++ u64 id ++ u64 streamId
  | .read pid tid values => u32 pid ++ u32 tid ++ values.encode a
  | .sample s => s.encode a
  | .mmap2 pid tid addr len pgoff inode prot flags filename =>
    u32 pid ++ u32 tid ++ u64 addr ++ u64 len ++ u64 pgoff ++ inode ++ u32 prot ++ u32 flags ++
      filename
  | .aux auxOffset auxSize flags => u64 auxOffset ++ u64 auxSize ++ u64 flags
  | .itraceStart pid tid => u32 pid ++ u32 tid
  | .lostSamples n => u64 n
  | .switch => []
  | .switchCpuWide pid tid => u32 pid ++ u32 tid
  | .namespaces pid tid links =>
    u32 pid ++ u32 tid ++ le 8 links.length ++ links.flatMap fun l => u64 l.1 ++ u64 l.2
  | .ksymbol addr len ksymType flags name =>
    u64 addr ++ u32 len ++ u16 ksymType ++ u16 flags ++ name
  | .bpfEvent type flags id tag => u16 type ++ u16 flags ++ u32 id ++ tag
  | .cgroup id path => u64 id ++ path
  | .textPoke addr oldLen newLen bytes => u64 addr ++ u16 oldLen ++ u16 newLen ++ bytes
  | .auxOutputHwId hwId => u64 hwId
  | .callchainDeferred cookie ips => u64 cookie ++ le 8 ips.length ++ u64s ips

/-- Every record but a sample ends with the `sample_id` trailer. -/
def Body.trailer (a : PerfEventAttr) (sampleId : SampleId) : Body → Bytes
  | .sample _ => []
  | _ => sampleId.encode a

/-- A record of an event with the attributes `a`, whose size fits the 16-bit `header.size`. -/
structure Record (a : PerfEventAttr) where
  misc : UInt16 := 0
  body : Body
  sampleId : SampleId := {}
  wellFormed : body.WellFormed a
  size_lt : 8 + (body.encode a ++ body.trailer a sampleId).length < 65536

namespace Record

variable {a : PerfEventAttr}

def payload (r : Record a) : Bytes := r.body.encode a ++ r.body.trailer a r.sampleId

/-- `header.size`. -/
def size (r : Record a) : Nat := 8 + r.payload.length

/-- `struct perf_event_header`. -/
def header (r : Record a) : Bytes := le 4 r.body.type.toNat ++ (u16 r.misc ++ le 2 r.size)

def encode (r : Record a) : Bytes := r.header ++ r.payload

@[simp] theorem length_header (r : Record a) : r.header.length = 8 := by
  simp [header]

@[simp] theorem length_encode (r : Record a) : r.encode.length = r.size := by
  simp [encode, size]

theorem size_le (r : Record a) : r.size < 65536 := r.size_lt

end Record

/-- A concatenation of records. -/
def encodeAll {a : PerfEventAttr} (rs : List (Record a)) : Bytes := rs.flatMap Record.encode

end PerfEvent
