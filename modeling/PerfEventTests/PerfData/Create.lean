import PerfEventTests.Lib.Draws
import PerfEventTests.PerfData.Flags

/-!
# Writing a `perf.data` file

`perf_data_fuzzer/create_perf_data.c`. The file records what a run has written where; what stood
in it before, and the gaps, are nothing.
-/

namespace PerfEvent.PerfData

open ByteMemory Draws

/-! ## The file that is written -/

structure Written where
  cells : Nat → Option UInt8 := fun _ => none
  pos : Nat := 0

namespace Written

def seek (f : Written) (pos : Nat) : Written := { f with pos := pos }

def write (f : Written) (bs : Bytes) : Written where
  cells i := if f.pos ≤ i ∧ i < f.pos + bs.length then bs[i - f.pos]? else f.cells i
  pos := f.pos + bs.length

/-- The bytes `bs` have been written at `a` and are still there. -/
def Holds (f : Written) (a : Nat) (bs : Bytes) : Prop :=
  ∀ k, k < bs.length → f.cells (a + k) = bs[k]?

end Written

/-! ## The header -/

/-- What a run finds: the unicode page whenever it is copied from, the memory behind the header,
and what the local buffers held. -/
structure CreateEnv where
  unicodePage : Draw (Nat → UInt8)
  behindHeader : Nat → UInt8
  stack : Nat → UInt8

variable (env : CreateEnv)

def randChar : Draw UInt8 := do return UInt8.ofNat (← rand)

/-- `for(i=0;i<n;i++) data[i]=rand();` -/
def randBytes : Nat → Draw Bytes
  | 0 => return []
  | n + 1 => do
    let b ← randChar
    let bs ← randBytes n
    return b :: bs

def randWord64 : Draw UInt64 := do return UInt64.ofBitVec (← word 64)

/-- Half of the strings have a random length. -/
def stringLength (size : Nat) : Draw Nat := do
  if (← rand) % 4 < 2 then return (← rand) % size else return size

/-- The length is random, and so is whether the string ends with a zero byte. The rest of the
destination stays. -/
def randomString (dest : Bytes) (size : Nat) : Draw Bytes := do
  let _ ← rand
  if size = 0 then return dest
  else do
    let offset ← rand
    let length ← stringLength size
    let page ← env.unicodePage
    let string := (List.range length).map fun i => page (offset % (16384 - size) + i)
    let r ← rand
    let string := if r % 16 = 0 ∨ length = 0 then string else string.take (length - 1) ++ [0]
    return string ++ dest.drop length

/-- `sizeof(struct perf_header)` -/
def headerSize : Nat := 104

/-- `sizeof(struct perf_event_attr)` -/
def attrSize : UInt64 := 144

def PerfHeader.encode (h : PerfHeader) : Bytes :=
  h.magic ++ (u64 h.size ++ (u64 h.attrSize ++ (h.attrs.encode ++ (h.data.encode ++
    (h.eventTypes.encode ++ (le 8 h.flags.toNat ++ u64s h.flags1))))))

def perfile2 : Bytes := [80, 69, 82, 70, 73, 76, 69, 50]

/-- Case 14 falls through to case 15. -/
def randomMagic : Draw Bytes := do
  match (← rand) % 16 with
  | 12 => return perfile2.take 7 ++ [UInt8.ofNat ((← rand) % 10 + 48)]
  | 13 => return perfile2.take 7 ++ [← randChar]
  | 14 => do
    let _ ← randomString env perfile2 8
    randBytes 8
  | 15 => randBytes 8
  | _ => return perfile2

def randomFlags : Draw (BitVec 64) := do
  match (← rand) % 3 with
  | 0 => return 0
  | 1 => return BitVec.ofNat 64 ((← rand) % 256)
  | _ => word 64

def randomSize (size : UInt64) : Nat → Draw UInt64
  | 0 => return size
  | 1 => return UInt64.ofNat ((← rand) % 256)
  | _ => randWord64

/-- The reserved fields, which are seldom changed. -/
def randomFlags1 (old : List UInt64) : Draw (List UInt64) := do
  match (← rand) % 16 with
  | 14 => do
    let i ← rand
    return old.set (i % 3) (← randWord64)
  | 15 => return [← randWord64, ← randWord64, ← randWord64]
  | _ => return old

/-- In its first case the second switch sets the size again, not the size of the attributes. -/
def createHeader (ph : PerfHeader) : Draw PerfHeader := do
  let magic ← randomMagic env
  let swap ← rand
  let size ← randomSize headerSize.toUInt64 ((← rand) % 3)
  let which ← rand
  let attr ← if which % 3 = 0 then pure attrSize else randomSize ph.attrSize (which % 3)
  let flags ← randomFlags
  let flags1 ← randomFlags1 ph.flags1
  return { ph with
    magic := if swap % 4 = 3 then magic.reverse else magic
    size := if which % 3 = 0 then attr else size
    attrSize := if which % 3 = 0 then ph.attrSize else attr
    flags := flags
    flags1 := flags1 }

/-- The number of bytes that are written of the header. -/
def randomHeaderSize : Draw Nat := do
  if (← rand) % 16 = 15 then return (← rand) % 16384 else return headerSize

/-- `write(fd,&ph,n)`, which goes on behind the header. -/
def headerBytes (ph : PerfHeader) (n : Nat) : Bytes :=
  (ph.encode ++ (List.range n).map env.behindHeader).take n

/-! ## The sections -/

def createFlagSectionRandom : Draw Bytes := do
  let len ← rand
  randBytes (len % 4096)

/-- The length is drawn apart from the structure. -/
def createFlagSectionBuildId : Draw Bytes := do
  let pid ← rand
  let id ← randBytes buildIdSize
  let filename ← randomString env ((List.range 164).map fun i => env.stack (36 + i)) 36
  let len ← rand
  return (u32 0 ++ (u16 1 ++ (u16 100 ++ (u32 (UInt32.ofNat pid) ++ (id ++ (filename ++
    (List.range 3896).map fun i => env.stack (200 + i))))))).take (len % 512)

/-- `create_flag_section_string` and `create_flag_section_string_list`, which are the same text. -/
def createFlagSectionString : Draw Bytes := do
  match (← rand) % 16 with
  | 0 => return le 4 3 ++ [86, 77, 87]
  | 1 => do
    let stringLen ← rand
    let string ← randBytes (stringLen % 8192)
    return le 4 (← rand) ++ string
  | 2 => do
    let stringLen ← rand
    let string ← randomString env
      ((List.range (stringLen % 8192)).map fun i => env.stack (4 + i)) (stringLen % 8192)
    return (List.range 4).map env.stack ++ string
  | _ => do
    let stringLen ← rand
    let string ← randBytes (stringLen % 8192)
    return le 4 (stringLen % 8192) ++ string

def createFlagSectionStringList : Draw Bytes := createFlagSectionString env

def createFlagSectionU64 : Draw Bytes := do
  match (← rand) % 16 with
  | 0 => return u64 (← randWord64)
  | 1 => return u64 0
  | _ => return u64 ((← randWord64) % 256000000)

def randomAvailable : Draw UInt32 := do
  match (← rand) % 16 with
  | 0 | 1 => return UInt32.ofNat (← rand)
  | _ => return UInt32.ofNat ((← rand) % 128)

def randomOnline (available : UInt32) : Draw UInt32 := do
  match (← rand) % 16 with
  | 0 | 1 => return UInt32.ofNat (← rand)
  | 2 | 3 => return UInt32.ofNat ((← rand) % 128)
  | 4 => return available - UInt32.ofNat ((← rand) % 4)
  | 5 => return available + UInt32.ofNat ((← rand) % 4)
  | _ => return available

def createFlagSectionNrcpus : Draw Bytes := do
  let available ← randomAvailable
  let online ← randomOnline available
  return u32 available ++ u32 online

inductive Generator where
  | random | buildId | string | nrcpus | u64 | stringList
  deriving DecidableEq, Repr

/-- The switch of `create_flag_section`. -/
def generator : Nat → Generator
  | 2 => .buildId
  | 3 => .string
  | 4 => .string
  | 5 => .string
  | 6 => .string
  | 7 => .nrcpus
  | 8 => .string
  | 9 => .string
  | 10 => .u64
  | 11 => .stringList
  | _ => .random

def Generator.run : Generator → Draw Bytes
  | .random => createFlagSectionRandom
  | .buildId => createFlagSectionBuildId env
  | .string => createFlagSectionString env
  | .nrcpus => createFlagSectionNrcpus
  | .u64 => createFlagSectionU64
  | .stringList => createFlagSectionStringList env

def createFlagSection (which : Nat) : Draw Bytes := (generator which).run env

/-! ## The file -/

/-- A section as it was generated: the number its generator was chosen by, and its bytes. -/
structure Generated where
  which : Nat
  payload : Bytes

/-- The state of the loop over the sections. -/
structure FlagState where
  file : Written
  sectionOffset : Nat
  generated : List Generated := []

/-- One round. The section is written where its entry belongs, and then the entry over it. -/
def createEntry (i : Nat) (s : FlagState) : Draw FlagState := do
  let payload ← createFlagSection env i
  let entry : FileSection := ⟨UInt64.ofNat s.sectionOffset, UInt64.ofNat payload.length⟩
  return {
    file := ((s.file.write payload).seek s.file.pos).write entry.encode
    sectionOffset := s.sectionOffset + payload.length
    generated := s.generated ++ [⟨i, payload⟩] }

/-- `n` rounds from `i` on. -/
def createEntries : Nat → Nat → FlagState → Draw FlagState
  | 0, _, s => return s
  | n + 1, i, s => do
    let s ← createEntry env i s
    createEntries n (i + 1) s

/-- A file with its header, the number of bytes that were written of it, and the sections. -/
structure Created where
  file : Written
  ph : PerfHeader
  headerWrittenSize : Nat
  generated : List Generated

def attrsSection : FileSection := ⟨168, 128⟩

def dataSection : FileSection := ⟨296, 1576⟩

/-- The end of the data section, where the table starts. -/
def tableOffset : Nat := 1872

def createPerfDataFile (ph : PerfHeader) : Draw Created := do
  let ph ← createHeader env ph
  let headerWrittenSize ← randomHeaderSize
  let file : Written := {}
  let file := (file.write (headerBytes env ph headerWrittenSize)).seek 168
  let file := file.write (← randBytes 128)
  let file := file.write (← randBytes 1576)
  let ph := { ph with attrs := attrsSection, data := dataSection }
  let flagCount := weight ph.flags
  let s ← createEntries env flagCount 0
    { file := file, sectionOffset := file.pos + flagCount * sectionSize }
  let file := (s.file.seek 0).write (headerBytes env ph headerWrittenSize)
  return { file, ph, headerWrittenSize, generated := s.generated }

end PerfEvent.PerfData
