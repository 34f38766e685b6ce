import PerfEventTests.Lib.Files
import PerfEventTests.Lib.Reading
import PerfEventTests.PerfData.Format

/-!
# The section decoders

`perf_data_fuzzer/data_read.c` and the `read_section_*` functions of
`perf_data_fuzzer/perf_data_dump.c`. A decoder returns what it prints.
-/

namespace PerfEvent.PerfData

open ByteMemory Files Reading

/-! ## `data_read.c` -/

def getUint32 : Reader UInt32 := do return UInt32.ofNat (← wordAt 4 0)

def getUint64 : Reader UInt64 := do return UInt64.ofNat (← wordAt 8 0)

/-- The string, and the number of bytes that it takes with its length. The destination is a
buffer of `BUFFER_SIZE` bytes. -/
def getString : Reader (Bytes × UInt32) := do
  let len ← getUint32
  let string ← copyAt len.toNat 4
  return (string, 4 + len)

/-- `v=get_uint32(data,offset); offset+=4;` -/
def nextUint32 : Reader UInt32 := do
  let v ← getUint32
  advance 4
  return v

def nextUint64 : Reader UInt64 := do
  let v ← getUint64
  advance 8
  return v

/-- `length=get_string(data,offset,string); offset+=length;` -/
def nextString : Reader Bytes := do
  let (string, length) ← getString
  advance length.toNat
  return string

/-! ## What all decoders do first -/

def bufferSize : Nat := 4096

/-- A buffer that a read has filled from its start. -/
def buffer (bs : Bytes) (stale : Mem) : Mem := fun i =>
  if 0 ≤ i ∧ i < bs.length then bs.getD i.toNat 0 else stale i

/-- What a decoder has done: its result, the accesses to its buffer, the counts that were passed
to `read`, and the file as it leaves it. -/
structure Outcome where
  result : Except String Section
  cursor : Cursor := {}
  counts : List Nat := []
  file : File

/-- `result!=len`, and then the buffer is decoded. -/
def decodeRead (unread : String) (decode : Reader Section) (stale : Mem) (len : Int) (count : Nat) :
    Option Bytes × File → Outcome
  | (bs, f) =>
    if File.readResult bs ≠ len then { result := .error unread, counts := [count], file := f }
    else
      match decode (buffer (bs.getD []) stale) {} with
      | (s, c) => { result := .ok s, cursor := c, counts := [count], file := f }

/-- The count of `read` is a `size_t`. -/
def readCount (len : Int) : Nat := (toUnsigned 64 len).toNat

/-- The length, an `int`, is checked, the section is read into the buffer and decoded. -/
def readSection (refuses : Int → Bool) (wrongSize unread : String) (decode : Reader Section)
    (stale : Mem) (len : Int) (f : File) : Outcome :=
  if refuses len then { result := .error wrongSize, file := f }
  else decodeRead unread decode stale len (readCount len) (f.read (readCount len))

/-- `len>BUFFER_SIZE` -/
def tooBig (len : Int) : Bool := bufferSize < len

/-! ## The decoders -/

/-- The structure is laid over the buffer. -/
def buildId : Reader Section := do
  let type ← wordAt 4 0
  let misc ← wordAt 2 4
  let size ← wordAt 2 6
  let pid ← wordAt 4 8
  let id ← loadAt buildIdSize 12
  let filename ← cStringAt (bufferSize - 36 + 1) 36
  return .buildId ⟨UInt32.ofNat type, UInt16.ofNat misc, UInt16.ofNat size, UInt32.ofNat pid, id,
    filename⟩

def readSectionBuildId : Mem → Int → File → Outcome :=
  readSection tooBig "build_id too big...\n" "Couldn't read build_id header!" buildId

def nrcpus : Reader Section := do
  let available ← nextUint32
  let online ← nextUint32
  return .nrcpus available online

def readSectionNrcpus : Mem → Int → File → Outcome :=
  readSection tooBig "ncrpus too big...\n" "Couldn't read cpus header!" nrcpus

def string : Reader Section := do
  let string ← nextString
  return .string string

def readSectionString (name : String) : Mem → Int → File → Outcome :=
  readSection tooBig "String length too big!\n" ("Couldn't read " ++ name ++ " header!") string

def stringList : Reader Section := do
  let number ← nextUint32
  let strings ← times number.toNat nextString
  return .stringList strings

def readSectionStringList (name : String) (stale : Mem) (len : Int) : File → Outcome :=
  readSection tooBig ("String list " ++ toString len ++ " size too big!\n")
    ("Couldn't read " ++ name ++ " header!") stringList stale len

def totalMem : Reader Section := do
  let value ← getUint64
  return .u64 value

/-- This decoder wants the exact size. -/
def readSectionU64 (name : String) : Mem → Int → File → Outcome :=
  readSection (fun len => len ≠ 8) "U64 size wrong!\n" ("Couldn't read " ++ name ++ " header!")
    totalMem

/-- One event. The attributes are passed over and not printed. -/
def describedEvent (attrSize : UInt32) : Reader DescribedEvent := do
  advance attrSize.toNat
  let nrIds ← nextUint32
  let name ← nextString
  let ids ← times nrIds.toNat nextUint64
  return ⟨[], name, ids⟩

def eventDesc : Reader Section := do
  let nr ← nextUint32
  let attrSize ← nextUint32
  let events ← times nr.toNat (describedEvent attrSize)
  return .eventDesc attrSize events

def readSectionEventDesc : Mem → Int → File → Outcome :=
  readSection tooBig "event desc size too big...\n" "Couldn't read event_desc header!" eventDesc

/-- A string list whose size is an `int`. -/
def topologyList : Reader (List Bytes) := do
  let size ← nextUint32
  times (toInt32 size.toNat).toNat nextString

def cpuPlace : Reader CpuPlace := do
  let coreId ← nextUint32
  let socketId ← nextUint32
  return ⟨coreId, socketId⟩

/-- The last revision, behind the list of the cpus. -/
def cpuDies (nrCpusAvail : UInt32) (cores threads : List Bytes) (cpus : List CpuPlace) :
    Reader Section := do
  let dies ← topologyList
  let dieIds ← times nrCpusAvail.toNat nextUint32
  return .cpuTopology3 cores threads cpus dies dieIds

def cpuPlaces (nrCpusAvail : UInt32) (len : Int) (cores threads : List Bytes) : Reader Section := do
  let cpus ← times nrCpusAvail.toNat cpuPlace
  let offset ← getOffset
  if len ≤ offset then return .cpuTopology2 cores threads cpus
  else cpuDies nrCpusAvail cores threads cpus

/-- The later revisions are read only while the section is not at its end. -/
def cpuTopology (nrCpusAvail : UInt32) (len : Int) : Reader Section := do
  let cores ← topologyList
  let threads ← topologyList
  let offset ← getOffset
  if len ≤ offset then return .cpuTopology cores threads
  else cpuPlaces nrCpusAvail len cores threads

def readSectionCpuTopology (nrCpusAvail : UInt32) (stale : Mem) (len : Int) : File → Outcome :=
  readSection tooBig "CPU topo Size too big...\n" "Couldn't read cpu_topo header!"
    (cpuTopology nrCpusAvail len) stale len

def numaNode : Reader NumaNode := do
  let nodenr ← nextUint32
  let memTotal ← nextUint64
  let memFree ← nextUint64
  let cpus ← nextString
  return ⟨nodenr, memTotal, memFree, cpus⟩

def numaTopology : Reader Section := do
  let nodes ← nextUint32
  let nodes ← times nodes.toNat numaNode
  return .numaTopology nodes

def readSectionNumaTopology : Mem → Int → File → Outcome :=
  readSection tooBig "NUMA topo Size too big...\n" "Couldn't read cpu_numa header!" numaTopology

def pmu : Reader Pmu := do
  let type ← nextUint32
  let name ← nextString
  return ⟨type, name⟩

def pmuMappings : Reader Section := do
  let nr ← nextUint32
  let pmus ← times nr.toNat pmu
  return .pmuMappings pmus

def readSectionPmuMappings : Mem → Int → File → Outcome :=
  readSection tooBig "PMU Size too big...\n" "Couldn't read pmu_mapping header!" pmuMappings

def cacheLevel : Reader CacheLevel := do
  let level ← nextUint32
  let lineSize ← nextUint32
  let sets ← nextUint32
  let ways ← nextUint32
  let type ← nextString
  let size ← nextString
  let map ← nextString
  return ⟨level, lineSize, sets, ways, type, size, map⟩

def cache : Reader Section := do
  let version ← nextUint32
  let levels ← nextUint32
  let levels ← times levels.toNat cacheLevel
  return .cache version levels

def readSectionCache : Mem → Int → File → Outcome :=
  readSection tooBig "Cache Size too big...\n" "Couldn't read cache header!" cache

def sampleTime : Reader Section := do
  let begin ← nextUint64
  let end_ ← nextUint64
  return .sampleTime begin end_

def readSectionSampleTime : Mem → Int → File → Outcome :=
  readSection tooBig "Sample Time too big...\n" "Couldn't read sample time header!" sampleTime

def memoryNode : Reader MemoryNode := do
  let nodeId ← nextUint64
  let size ← nextUint64
  let bitmapSize ← nextUint64
  let entries ← times (bitmapSize.toNat / 64 + 1) nextUint64
  return ⟨nodeId, size, bitmapSize, entries⟩

def sampleTopology : Reader Section := do
  let version ← nextUint64
  let blockSize ← nextUint64
  let count ← nextUint64
  let nodes ← times count.toNat memoryNode
  return .sampleTopology version blockSize nodes

def readSectionSampleTopology : Mem → Int → File → Outcome :=
  readSection tooBig "Sample topology too big...\n" "Couldn't read sample topology header!"
    sampleTopology

/-- The decoder of a feature, from the switch of `dump_section`. -/
def decoder (nrCpusAvail : UInt32) (which : Nat) : Option (Mem → Int → File → Outcome) :=
  match which with
  | 2 => some readSectionBuildId
  | 3 => some (readSectionString "hostname")
  | 4 => some (readSectionString "OS release")
  | 5 => some (readSectionString "Version")
  | 6 => some (readSectionString "Arch")
  | 7 => some readSectionNrcpus
  | 8 => some (readSectionString "CPU Description")
  | 9 => some (readSectionString "CPU ID")
  | 10 => some (readSectionU64 "Total memory (kB)")
  | 11 => some (readSectionStringList "Cmdline")
  | 12 => some readSectionEventDesc
  | 13 => some (readSectionCpuTopology nrCpusAvail)
  | 14 => some readSectionNumaTopology
  | 16 => some readSectionPmuMappings
  | 20 => some readSectionCache
  | 21 => some readSectionSampleTime
  | 22 => some readSectionSampleTopology
  | _ => none

end PerfEvent.PerfData
