import PerfEventTests.ParseRecord.Reader
import PerfEventTests.PerfData.Fitting

/-!
# The data section

`dump_data` and `perf_data_fuzzer/parse_record.c`. The arms of `parse_perf_record` are those of the
record reader of the library, without validation and without register masks; it has two more, and
it returns the size that the record claims.
-/

namespace PerfEvent.PerfData

open ByteMemory Files ParseRecord

/-! ## `parse_perf_record` -/

def recordFinishedRound : Nat := 68

def recordTimeConv : Nat := 79

/-- The switch on `record_type`: the records that only the perf tool writes are skipped, except for
two of them. -/
def recordArm (env : Env) (size : Int) (type : Nat) (d : Decoder) : Decoder :=
  if type = recordFinishedRound then (d.field env 8 "Type").field env 8 "Time"
  else if type = recordTimeConv then
    ((d.field env 8 "Time shift").field env 8 "Time mult").field env 8 "Time zero"
  else arm env size size type d

/-- The decoder, and the value that is returned. -/
def parsePerfRecord (env : Env) : Decoder × Int :=
  let type := env.data.word 4 0
  let misc := env.data.word 2 4
  let size := env.data.word 2 6
  let d := (({} : Decoder).access (.data 0 8)).print env (.header type misc size)
  (recordArm env size type (d.skip 8), size)

/-! ## `dump_data` -/

def maxRecordSize : Nat := 16384

/-- The values of an `off_t` are below. -/
def offLimit : Nat := 2 ^ 63

/-- What a run is given: the file, the section that the header names, the attributes of the event,
and what the local buffer holds. -/
structure DumpInput where
  content : Bytes
  small : content.length < offLimit
  data : FileSection
  sampleType : Nat
  readFormat : Nat
  stale : Mem

/-- A call of `parse_perf_record`: where the file was read from, and the buffer. -/
structure Call where
  position : Nat
  data : Mem

structure DataState where
  file : File
  data : Mem
  offset : Nat := 0
  calls : List Call := []

variable (i : DumpInput)

def DumpInput.env (data : Mem) : Env where
  data := data
  sampleType := i.sampleType
  readFormat := i.readFormat
  regMask := 0
  quiet := false

inductive Round where
  | returned (value : Int)
  | undefined
  | again (s : DataState)

/-- The state after the bytes `bs` have been read from `f` and a record of this length was found. -/
def DataState.advance (s : DataState) (f : File) (bs : Bytes) (length : Nat) : DataState where
  file := { f with pos := f.pos + bs.length }
  data := buffer bs s.data
  offset := s.offset + length
  calls := s.calls ++ [⟨f.pos, buffer bs s.data⟩]

/-- The call and what follows it: undefined when the decoder has left its buffers, or when the
offset overflows. -/
def dumpRecord (f : File) (bs : Bytes) (s : DataState) : Round :=
  let record := parsePerfRecord (i.env (buffer bs s.data))
  if ∃ x ∈ record.1.accesses, ¬x.Inside maxRecordSize then .undefined
  else if record.2 < 0 then .returned (-1)
  else if offLimit ≤ s.offset + record.2.toNat then .undefined
  else .again (s.advance f bs record.2.toNat)

/-- `lseek(fd,header.data.offset+offset,SEEK_SET)`; the result is not looked at. -/
def DataState.seeked (s : DataState) : File :=
  s.file.seek (toInt64 (i.data.offset + UInt64.ofNat s.offset).toNat)

/-- One round of the loop. The answer of `read` is how many bytes it may transfer, or an error. -/
def dumpRound (answer : Option Nat) (s : DataState) : Round :=
  if s.offset < i.data.size.toNat then
    match answer with
    | none => .returned (-1)
    | some n =>
      dumpRecord i (s.seeked i) ((s.seeked i).slice (s.seeked i).pos (min n maxRecordSize)) s
  else .returned 0

inductive Ending where
  | returned (value : Int) (calls : List Call)
  | undefined

/-- At most `fuel` rounds, the first of which reads as the first of the answers says. -/
def dumpLoop : Nat → (Nat → Option Nat) → DataState → Option Ending
  | 0, _, _ => none
  | fuel + 1, reads, s =>
    match dumpRound i (reads 0) s with
    | .returned v => some (.returned v s.calls)
    | .undefined => some .undefined
    | .again s => dumpLoop fuel (fun k => reads (k + 1)) s

def DumpInput.start : DataState where
  file := ({ content := i.content } : File).seek (toInt64 i.data.offset.toNat)
  data := i.stale

/-- The result of `lseek` is kept in an `int`. -/
def DumpInput.Refused : Prop :=
  toInt32 (File.seekResult (toInt64 i.data.offset.toNat)) < 0

instance : Decidable i.Refused := inferInstanceAs (Decidable (_ < _))

def dumpData (reads : Nat → Option Nat) (fuel : Nat) : Option Ending :=
  if i.Refused then some (.returned (-1) [])
  else dumpLoop i fuel reads i.start

end PerfEvent.PerfData
