import PerfEventTests.Abi.Record

/-!
# The format of `perf.data`

`perf_data_fuzzer/perf_data.h`: the header, the table entries behind the data section, and the
sections of the features, with the layouts documented beside their decoders. `Section.encode` is
what a section looks like in the file.
-/

namespace PerfEvent.PerfData

open ByteMemory

/-- `struct perf_file_section` -/
structure FileSection where
  offset : UInt64
  size : UInt64
  deriving DecidableEq, Repr

def FileSection.encode (s : FileSection) : Bytes := u64 s.offset ++ u64 s.size

/-- The size of an entry of the table. -/
def sectionSize : Nat := 16

@[simp] theorem FileSection.length_encode (s : FileSection) : s.encode.length = sectionSize := by
  simp [FileSection.encode, sectionSize]

/-- `struct perf_header` -/
structure PerfHeader where
  magic : Bytes
  size : UInt64
  attrSize : UInt64
  attrs : FileSection
  data : FileSection
  eventTypes : FileSection
  flags : BitVec 64
  flags1 : List UInt64

/-! ## The features -/

def headerBuildId : Nat := 2
def headerHostname : Nat := 3
def headerOsrelease : Nat := 4
def headerVersion : Nat := 5
def headerArch : Nat := 6
def headerNrcpus : Nat := 7
def headerCpudesc : Nat := 8
def headerCpuid : Nat := 9
def headerTotalMem : Nat := 10
def headerCmdline : Nat := 11
def headerEventDesc : Nat := 12
def headerCpuTopology : Nat := 13
def headerNumaTopology : Nat := 14
def headerPmuMappings : Nat := 16
def headerCache : Nat := 20
def headerSampleTime : Nat := 21
def headerSampleTopology : Nat := 22

/-! ## The sections -/

/-- `struct perf_header_string` -/
def headerString (s : Bytes) : Bytes := le 4 s.length ++ s

/-- `struct perf_header_string_list` -/
def headerStringList (ss : List Bytes) : Bytes := le 4 ss.length ++ ss.flatMap headerString

/-- `struct build_id_event` -/
structure BuildIdEvent where
  type : UInt32
  misc : UInt16
  size : UInt16
  pid : UInt32
  buildId : Bytes
  filename : Bytes

def buildIdSize : Nat := 24

/-- The file name ends with a zero byte. -/
def BuildIdEvent.encode (e : BuildIdEvent) : Bytes :=
  u32 e.type ++ (u16 e.misc ++ (u16 e.size ++ (u32 e.pid ++ (e.buildId ++ (e.filename ++ [0])))))

/-- `struct perf_header_event_desc_events` -/
structure DescribedEvent where
  attr : Bytes
  name : Bytes
  ids : List UInt64

def DescribedEvent.encode (e : DescribedEvent) : Bytes :=
  e.attr ++ (le 4 e.ids.length ++ (headerString e.name ++ u64s e.ids))

/-- `struct perf_header_numa_topology_nodes` -/
structure NumaNode where
  nodenr : UInt32
  memTotal : UInt64
  memFree : UInt64
  cpus : Bytes

def NumaNode.encode (n : NumaNode) : Bytes :=
  u32 n.nodenr ++ (u64 n.memTotal ++ (u64 n.memFree ++ headerString n.cpus))

/-- `struct perf_header_pmu` -/
structure Pmu where
  type : UInt32
  name : Bytes

def Pmu.encode (p : Pmu) : Bytes := u32 p.type ++ headerString p.name

structure CacheLevel where
  level : UInt32
  lineSize : UInt32
  sets : UInt32
  ways : UInt32
  type : Bytes
  size : Bytes
  map : Bytes

def CacheLevel.encode (l : CacheLevel) : Bytes :=
  u32 l.level ++ (u32 l.lineSize ++ (u32 l.sets ++ (u32 l.ways ++
    (headerString l.type ++ (headerString l.size ++ headerString l.map)))))

/-- `struct memory_node` -/
structure MemoryNode where
  nodeId : UInt64
  size : UInt64
  bitmapSize : UInt64
  entries : List UInt64

def MemoryNode.encode (n : MemoryNode) : Bytes :=
  u64 n.nodeId ++ (u64 n.size ++ (u64 n.bitmapSize ++ u64s n.entries))

/-- `struct perf_header_cpu_topology_cpus` -/
structure CpuPlace where
  coreId : UInt32
  socketId : UInt32

def CpuPlace.encode (p : CpuPlace) : Bytes := u32 p.coreId ++ u32 p.socketId

/-- A section, by its format. The revisions of the cpu topology have a constructor each. -/
inductive Section where
  | buildId (e : BuildIdEvent)
  | nrcpus (available online : UInt32)
  | string (s : Bytes)
  | stringList (ss : List Bytes)
  | u64 (v : UInt64)
  | eventDesc (attrSize : UInt32) (events : List DescribedEvent)
  | cpuTopology (cores threads : List Bytes)
  | cpuTopology2 (cores threads : List Bytes) (cpus : List CpuPlace)
  | cpuTopology3 (cores threads : List Bytes) (cpus : List CpuPlace) (dies : List Bytes)
      (dieIds : List UInt32)
  | numaTopology (nodes : List NumaNode)
  | pmuMappings (pmus : List Pmu)
  | cache (version : UInt32) (levels : List CacheLevel)
  | sampleTime (begin end_ : UInt64)
  | sampleTopology (version blockSize : UInt64) (nodes : List MemoryNode)

def Section.encode : Section → Bytes
  | .buildId e => e.encode
  | .nrcpus available online => u32 available ++ u32 online
  | .string s => headerString s
  | .stringList ss => headerStringList ss
  | .u64 v => PerfEvent.u64 v
  | .eventDesc attrSize events =>
    le 4 events.length ++ (u32 attrSize ++ events.flatMap DescribedEvent.encode)
  | .cpuTopology cores threads => headerStringList cores ++ headerStringList threads
  | .cpuTopology2 cores threads cpus =>
    headerStringList cores ++ (headerStringList threads ++ cpus.flatMap CpuPlace.encode)
  | .cpuTopology3 cores threads cpus dies dieIds =>
    headerStringList cores ++ (headerStringList threads ++ (cpus.flatMap CpuPlace.encode ++
      (headerStringList dies ++ dieIds.flatMap u32)))
  | .numaTopology nodes => le 4 nodes.length ++ nodes.flatMap NumaNode.encode
  | .pmuMappings pmus => le 4 pmus.length ++ pmus.flatMap Pmu.encode
  | .cache version levels =>
    u32 version ++ (le 4 levels.length ++ levels.flatMap CacheLevel.encode)
  | .sampleTime begin end_ => PerfEvent.u64 begin ++ PerfEvent.u64 end_
  | .sampleTopology version blockSize nodes =>
    PerfEvent.u64 version ++ (PerfEvent.u64 blockSize ++
      (le 8 nodes.length ++ nodes.flatMap MemoryNode.encode))

/-- The sizes that a section repeats agree. The lists of a cpu topology have an element for each
available cpu. -/
def Section.WellFormed (nrCpusAvail : UInt32) : Section → Prop
  | .buildId e => e.buildId.length = buildIdSize ∧ 0 ∉ e.filename
  | .eventDesc attrSize events => ∀ e ∈ events, e.attr.length = attrSize.toNat
  | .cpuTopology2 _ _ cpus => cpus.length = nrCpusAvail.toNat
  | .cpuTopology3 _ _ cpus _ dieIds =>
    cpus.length = nrCpusAvail.toNat ∧ dieIds.length = nrCpusAvail.toNat
  | .sampleTopology _ _ nodes => ∀ n ∈ nodes, n.entries.length = n.bitmapSize.toNat / 64 + 1
  | _ => True

end PerfEvent.PerfData
