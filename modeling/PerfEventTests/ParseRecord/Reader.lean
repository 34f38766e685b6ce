import PerfEventTests.Abi.Record

/-!
# The record reader

`lib/parse_record.c`: the record loop of `perf_mmap_read` with every arm of its switch,
`handle_struct_read_format`, `print_regs` and the two IBS dumps. A `Decoder` is the state of the
loop body: the offset into the copy of the ring, what was printed, the validation errors, and
every access that was made. The names that are printed for the type and the mode of a record, for
the bits of an IBS register and for the flags of an AUX record are left out; these values are printed
as numbers.
-/

namespace PerfEvent.ParseRecord

open ByteMemory

/-- `struct validate_values`. -/
structure ValidateValues where
  pid : Int
  tid : Int
  events : Int
  branchLow : Nat
  branchHigh : Nat

def rawNone : Nat := 0
def rawIbsFetch : Nat := 1
def rawIbsOp : Nat := 2

/-- What `perf_mmap_read` is called with, and the copy of the ring it decodes. -/
structure Env where
  data : Mem
  sampleType : Nat
  readFormat : Nat
  regMask : BitVec 64
  validate : Option ValidateValues := none
  quiet : Bool := true
  rawType : Nat := rawNone
  /-- what lies behind a buffer that `malloc` has given -/
  heap : Mem := fun _ => 0

/-- A buffer of `size` bytes filled from `pos`, and what lies behind it. -/
def Env.stackData (env : Env) (pos size : Int) : Mem := fun b =>
  if 0 ≤ b ∧ b < size then env.data (pos + b) else env.heap b

inductive Printed where
  | header (type misc size : Nat)
  | value (label : String) (v : Int)
  | register (i : Nat) (v : Int)
  | text (label : String) (bs : Bytes)
  | names (label : String) (names : List String)
  deriving DecidableEq

inductive ValidateError where
  | wrongNumberOfEvents (want got : Int)
  | pid (want got : Int)
  | branchOutOfBounds

/-- An access to the copy of the ring, or to a buffer of `allocated` bytes, or a counter that is
stepped by four up to a last value. -/
inductive Access where
  | data (pos len : Int)
  | buffer (allocated pos len : Int)
  | counter (last : Int)

/-- An access that stays in the copy, which has `room` bytes, or in its own buffer. A counter has to
stay an `int`. -/
def Access.Inside (room : Int) : Access → Prop
  | .data pos len => 0 ≤ pos ∧ 0 ≤ len ∧ pos + len ≤ room
  | .buffer allocated pos len => 0 ≤ pos ∧ 0 ≤ len ∧ pos + len ≤ allocated
  | .counter last => last < 2 ^ 31

instance (room : Int) : (x : Access) → Decidable (x.Inside room)
  | .data .. => inferInstanceAs (Decidable (_ ∧ _ ∧ _))
  | .buffer .. => inferInstanceAs (Decidable (_ ∧ _ ∧ _))
  | .counter _ => inferInstanceAs (Decidable (_ < _))

structure Decoder where
  offset : Int := 0
  printed : List Printed := []
  errors : List ValidateError := []
  accesses : List Access := []
  /-- The bounds of the loops over a count in the data. -/
  loops : List Int := []

namespace Decoder

def skip (n : Int) (d : Decoder) : Decoder := { d with offset := d.offset + n }

def access (x : Access) (d : Decoder) : Decoder := { d with accesses := d.accesses ++ [x] }

def error (e : ValidateError) (d : Decoder) : Decoder := { d with errors := d.errors ++ [e] }

/-- `if (!quiet) printf(...)`. -/
def print (env : Env) (p : Printed) (d : Decoder) : Decoder :=
  if env.quiet then d else { d with printed := d.printed ++ [p] }

/-- `if (validate) { if (...) fprintf(stderr, ...); }`. -/
def check (env : Env) (f : ValidateValues → Option ValidateError) (d : Decoder) : Decoder :=
  match env.validate.bind f with
  | some e => d.error e
  | none => d

/-- The signed value of the `n` bytes at the offset. -/
def value (env : Env) (n : Nat) (d : Decoder) : Int :=
  toSigned (8 * n) (env.data.word n d.offset)

/-- `memcpy(&v, &data[offset+rel], n); printf(label, v);` -/
def look (env : Env) (n : Nat) (rel : Int) (label : String) (d : Decoder) : Decoder :=
  (d.access (.data (d.offset + rel) n)).print env
    (.value label (toSigned (8 * n) (env.data.word n (d.offset + rel))))

/-- `memcpy(&v, &data[offset], n); printf(label, v); offset += n;` -/
def field (env : Env) (n : Nat) (label : String) (d : Decoder) : Decoder :=
  (d.look env n 0 label).skip n

/-- `memcpy(&v, &data[offset], 8); offset += 8;` with names printed for what is found in `v`. -/
def named (env : Env) (label : String) (names : Nat → List String) (d : Decoder) : Decoder :=
  ((d.access (.data d.offset 8)).print env (.names label (names (env.data.word 8 d.offset)))).skip 8

/-- A loop with the bound `n` is about to run. -/
def enter (n : Int) (d : Decoder) : Decoder := { d with loops := d.loops ++ [n] }

/-- The same for a loop that steps its counter by four. -/
def enterWords (n : Int) (d : Decoder) : Decoder := (d.enter n).access (.counter (4 * n))

/-- `for (i = 0; i < n; i++) body`. -/
def loop (n : Int) (body : Nat → Decoder → Decoder) (d : Decoder) : Decoder :=
  (List.range n.toNat).foldl (fun d i => body i d) d

/-- `printf("%s", string)`: the bytes are read up to the first zero. -/
def readText (env : Env) (n : Int) (bs : Bytes) (d : Decoder) : Decoder :=
  if env.quiet then d else d.access (.buffer n 0 ((bs.takeWhile (· ≠ 0)).length + 1))

/-- A fresh buffer of `n` bytes is filled from the offset and printed as a string. -/
def string (env : Env) (n : Int) (label : String) (d : Decoder) : Decoder :=
  let bs := env.data.load d.offset n.toNat
  let d := (d.access (.data d.offset n)).access (.buffer n 0 n)
  ((d.readText env n bs).print env (.text label bs)).skip n

end Decoder

variable (env : Env)

/-- A named part of an arm that is run only when its bit is set. -/
def onBit (flags mask : Nat) (f : Decoder → Decoder) (d : Decoder) : Decoder :=
  if bitAnd flags mask then f d else d

/-! ## `handle_struct_read_format` -/

/-- The body of the group loop. -/
def readMember (d : Decoder) : Decoder :=
  onBit env.readFormat perfFormatId (·.field env 8 "id") (d.field env 8 "Value")

/-- `handle_struct_read_format`; the offset moves by the length it returns. -/
def handleStructReadFormat (d : Decoder) : Decoder :=
  if bitAnd env.readFormat perfFormatGroup then
    let nr := d.value env 8
    let d := d.field env 8 "Number"
    let d := d.check env fun v =>
      if v.events ≠ nr then some (.wrongNumberOfEvents v.events nr) else none
    let d := onBit env.readFormat perfFormatTotalTimeEnabled (·.field env 8 "enabled") d
    let d := onBit env.readFormat perfFormatTotalTimeRunning (·.field env 8 "running") d
    (d.enter nr).loop nr fun _ => readMember env
  else
    let d := d.field env 8 "Value"
    let d := onBit env.readFormat perfFormatTotalTimeEnabled (·.field env 8 "enabled") d
    let d := onBit env.readFormat perfFormatTotalTimeRunning (·.field env 8 "running") d
    onBit env.readFormat perfFormatId (·.field env 8 "id") d

/-! ## `print_regs` and the raw dumps -/

/-- One turn of the loop of `print_regs`: the value is read only when it is printed. -/
def printReg (i : Nat) (d : Decoder) : Decoder :=
  if env.regMask.getLsbD i then
    (if env.quiet then d
      else (d.access (.data d.offset 8)).print env (.register i (d.value env 8))).skip 8
  else d

/-- `print_regs`; the offset moves by the length it returns. The register ABI is a parameter of
the function, which never looks at it. -/
def printRegs (_abi : Int) (d : Decoder) : Decoder :=
  (d.print env (.value "Reg mask" env.regMask.toNat)).loop 64 (printReg env)

/-- `dump_raw_ibs_fetch`. -/
def dumpRawIbsFetch (size : Int) (d : Decoder) : Decoder :=
  let d := d.look env 4 0 "Header"
  let d := d.look env 8 4 "MSR IBS_FETCH_CONTROL"
  let d := d.look env 8 12 "MSR IBS_FETCH_LINEAR_ADDRESS"
  let d := d.look env 8 20 "MSR IBS_FETCH_PHYSICAL_ADDRESS"
  if size > 24 then d.look env 8 28 "MSR IBS_BRTARGET" else d

/-- `dump_raw_ibs_op`. -/
def dumpRawIbsOp (size : Int) (d : Decoder) : Decoder :=
  let data3 := env.data.word 8 (d.offset + 36)
  let d := d.look env 4 0 "Header"
  let d := d.look env 8 4 "MSR IBS_EXECUTION_CONTROL"
  let d := d.look env 8 12 "MSR IBS_OP_LOGICAL_ADDRESS"
  let d := d.look env 8 20 "MSR IBS_OP_DATA"
  let d := d.look env 8 28 "MSR IBS_OP_DATA2"
  let d := d.look env 8 36 "MSR IBS_OP_DATA3"
  let d := if bitAnd data3 (1 <<< 17) then d.look env 8 44 "MSR IBS_DC_LINEAR_ADDRESS" else d
  let d := if bitAnd data3 (1 <<< 18) then d.look env 8 52 "MSR IBS_DC_PHYSICAL_ADDRESS" else d
  if size > 64 then d.look env 8 60 "MSR IBS_OP_DATA4" else d

/-! ## The arms of the switch -/

def lost (d : Decoder) : Decoder := (d.field env 8 "ID").field env 8 "LOST"

/-- `PERF_RECORD_COMM`; `size` is `event->size`. -/
def comm (size : Int) (d : Decoder) : Decoder :=
  ((d.field env 4 "PID").field env 4 "TID").string env (size - 16) "comm"

/-- `PERF_RECORD_FORK` and `PERF_RECORD_EXIT`, whose arms are the same text. -/
def fork (d : Decoder) : Decoder :=
  ((((d.field env 4 "PID").field env 4 "PPID").field env 4 "TID").field env 4 "PTID").field env 8
    "Time"

def exit (d : Decoder) : Decoder := fork env d

def mmap (size : Int) (d : Decoder) : Decoder :=
  let d := (d.field env 4 "PID").field env 4 "TID"
  let d := ((d.field env 8 "Address").field env 8 "Length").field env 8 "Page Offset"
  d.string env (size - 40) "Filename"

def mmap2 (size : Int) (d : Decoder) : Decoder :=
  let d := (d.field env 4 "PID").field env 4 "TID"
  let d := ((d.field env 8 "Address").field env 8 "Length").field env 8 "Page Offset"
  let d := (d.field env 4 "Major").field env 4 "Minor"
  let d := (d.field env 8 "Ino").field env 8 "Ino generation"
  let d := (d.field env 4 "Prot").field env 4 "Flags"
  d.string env (size - 72) "Filename"

/-- `PERF_RECORD_THROTTLE` and `PERF_RECORD_UNTHROTTLE`. -/
def throttle (d : Decoder) : Decoder :=
  ((d.field env 8 "Time").field env 8 "ID").field env 8 "Stream ID"

def aux (d : Decoder) : Decoder :=
  (((d.field env 8 "AUX_OFFSET").field env 8 "AUX_SIZE").field env 8 "FLAGS").field env 8
    "SAMPLE_ID"

def itraceStart (d : Decoder) : Decoder := (d.field env 4 "PID").field env 4 "TID"

def lostSamples (d : Decoder) : Decoder := (d.field env 8 "LOST").field env 8 "SAMPLE_ID"

def switch (d : Decoder) : Decoder := d.field env 8 "SAMPLE_ID"

def switchCpuWide (d : Decoder) : Decoder :=
  ((d.field env 4 "PREV_PID").field env 4 "PREV_TID").field env 8 "SAMPLE_ID"

/-! ### `PERF_RECORD_SAMPLE` -/

/-- Two 32-bit values read together; only the pid is validated. -/
def sampleTid (d : Decoder) : Decoder :=
  let pid := d.value env 4
  let d := d.check env fun v => if v.pid ≠ pid then some (.pid v.pid pid) else none
  ((d.look env 4 0 "pid").look env 4 4 "tid").skip 8

def sampleCpu (d : Decoder) : Decoder := ((d.look env 4 0 "cpu").look env 4 4 "res").skip 8

/-- The length is an `int`, and it is added only when it is not negative. -/
def sampleRead (d : Decoder) : Decoder :=
  let d' := handleStructReadFormat env d
  let length := toInt32 (d'.offset - d.offset)
  { d' with offset := if length ≥ 0 then d.offset + length else d.offset }

def sampleCallchain (d : Decoder) : Decoder :=
  let nr := d.value env 8
  ((d.field env 8 "callchain length").enter nr).loop nr fun _ => (·.field env 8 "ip")

/-- `printf("%d ",data[offset+i]);` -/
def rawByte (i : Nat) (d : Decoder) : Decoder :=
  (d.access (.data (d.offset + i) 1)).print env (.value "raw" (env.data.word 1 (d.offset + i)))

/-- The raw bytes, when they are printed. -/
def dumpRaw (size : Int) (d : Decoder) : Decoder :=
  if env.rawType = rawIbsFetch then dumpRawIbsFetch env size d
  else if env.rawType = rawIbsOp then dumpRawIbsOp env size d
  else (d.enter size).loop size (rawByte env)

def sampleRaw (d : Decoder) : Decoder :=
  let size := d.value env 4
  let d := d.field env 4 "Raw length"
  (if env.quiet then d else dumpRaw env size d).skip size

/-- The tests for the flags of a branch, and the bit that is cleared behind each of them. -/
def branchTests : List (BitVec 64 × String × BitVec 64) :=
  [(1, "MISPREDICTED ", 2), (2, "PREDICTED ", 2), (4, "IN_TRANSACTION ", 4),
    (8, "TRANSACTION_ABORT ", 8)]

/-- `if (flags & mask) { printf(name); flags &= ~cleared; }`, again and again. -/
def testFlags : List (BitVec 64 × String × BitVec 64) → BitVec 64 → List String
  | [], _ => []
  | (mask, name, cleared) :: tests, flags =>
    if flags &&& mask ≠ 0 then name :: testFlags tests (flags &&& ~~~cleared)
    else testFlags tests flags

def branchFlagNames (flags : Nat) : List String :=
  (if flags = 0 then ["0"] else []) ++ testFlags branchTests (BitVec.ofNat 64 flags)

/-- One branch entry. The comparison with `branch_low` is made on unsigned values. -/
def branchEntry (d : Decoder) : Decoder :=
  let from_ := env.data.word 8 d.offset
  let d := d.field env 8 "from"
  let d := d.check env fun v => if from_ < v.branchLow then some .branchOutOfBounds else none
  (d.field env 8 "to").named env "flags" branchFlagNames

def sampleBranchStack (d : Decoder) : Decoder :=
  let bnr := d.value env 8
  ((d.field env 8 "branch_stack entries").enter bnr).loop bnr fun _ => branchEntry env

def regsAbiNames (abi : Nat) : List String :=
  (if abi = perfSampleRegsAbiNone then ["PERF_SAMPLE_REGS_ABI_NONE"] else []) ++
  (if abi = perfSampleRegsAbi32 then ["PERF_SAMPLE_REGS_ABI_32"] else []) ++
  (if abi = perfSampleRegsAbi64 then ["PERF_SAMPLE_REGS_ABI_64"] else [])

/-- `PERF_SAMPLE_REGS_USER` and `PERF_SAMPLE_REGS_INTR`. -/
def sampleRegs (label : String) (d : Decoder) : Decoder :=
  let abi := d.value env 8
  printRegs env abi (d.named env label regsAbiNames)

/-- The words of the stack copy; `stack_data` is an `int` pointer indexed with a byte count. The loop
runs in any case, and here alone it reads nothing on its way when nothing is printed. -/
def dumpStack (stackData : Mem) (size dynSize : Int) (d : Decoder) : Decoder :=
  let d := d.enterWords ((dynSize + 3) / 4)
  if env.quiet then d else
    d.loop ((dynSize + 3) / 4) fun k d =>
      (d.access (.buffer size (4 * (4 * k)) 4)).print env
        (.value "stack" (stackData.word 4 (4 * (4 * k))))

def sampleStackUser (d : Decoder) : Decoder :=
  let size := d.value env 8
  let d := d.field env 8 "Requested size"
  let stackData := env.stackData d.offset size
  let d := ((d.access (.data d.offset size)).access (.buffer size 0 size)).skip size
  let dynSize := d.value env 8
  dumpStack env stackData size dynSize (d.field env 8 "Dynamic (used) size")

/-- `x << shift` on ints, as it stands beside a `long long`. -/
def intMask (x : BitVec 32) (shift : Nat) : BitVec 64 := (x <<< shift).signExtend 64

/-- The tests for the parts of a data source: the operation, the level, the snoop, the lock and the
TLB. The mask of the hardware walker is a negative int; the last mask alone is made in 64 bits. -/
def dataSrcTests : List (BitVec 64 × String) := [
  (intMask 0x01 0, "Op Not available "), (intMask 0x02 0, "Load "), (intMask 0x04 0, "Store "),
  (intMask 0x08 0, "Prefetch "), (intMask 0x10 0, "Executable code "),
  (intMask 0x0001 5, "Level Not available "), (intMask 0x0002 5, "Hit "), (intMask 0x0004 5, "Miss "),
  (intMask 0x0008 5, "L1 cache "), (intMask 0x0010 5, "Line fill buffer "),
  (intMask 0x0020 5, "L2 cache "), (intMask 0x0040 5, "L3 cache "), (intMask 0x0080 5, "Local DRAM "),
  (intMask 0x0100 5, "Remote DRAM 1 hop "), (intMask 0x0200 5, "Remote DRAM 2 hops "),
  (intMask 0x0400 5, "Remote cache 1 hop "), (intMask 0x0800 5, "Remote cache 2 hops "),
  (intMask 0x1000 5, "I/O memory "), (intMask 0x2000 5, "Uncached memory "),
  (intMask 0x01 19, "Not available "), (intMask 0x02 19, "No snoop "), (intMask 0x04 19, "Snoop hit "),
  (intMask 0x08 19, "Snoop miss "), (intMask 0x10 19, "Snoop hit modified "),
  (intMask 0x01 24, "Not available "), (intMask 0x02 24, "Locked transaction "),
  (intMask 0x01 26, "Not available "), (intMask 0x02 26, "Hit "), (intMask 0x04 26, "Miss "),
  (intMask 0x08 26, "Level 1 TLB "), (intMask 0x10 26, "Level 2 TLB "),
  (intMask 0x20 26, "Hardware walker "), ((0x40 : BitVec 64) <<< 26, "OS fault handler ")]

def dataSrcNames (src : Nat) : List String :=
  (dataSrcTests.filter fun x => BitVec.ofNat 64 src &&& x.1 ≠ 0).map (·.2)

/-- `PERF_SAMPLE_DATA_SRC`: the value, and names for its parts. -/
def sampleDataSrc (d : Decoder) : Decoder :=
  let src := env.data.word 8 d.offset
  (d.field env 8 "Raw").print env (.names "PERF_SAMPLE_DATA_SRC" (dataSrcNames src))

/-- The fields of fixed size at the head of a sample. -/
def sampleHead (d : Decoder) : Decoder :=
  let has := onBit env.sampleType
  let d := has perfSampleIp (·.field env 8 "IP") d
  let d := has perfSampleTid (sampleTid env) d
  let d := has perfSampleTime (·.field env 8 "time") d
  let d := has perfSampleAddr (·.field env 8 "addr") d
  let d := has perfSampleId (·.field env 8 "sample_id") d
  let d := has perfSampleStreamId (·.field env 8 "sample_stream_id") d
  let d := has perfSampleCpu (sampleCpu env) d
  has perfSamplePeriod (·.field env 8 "period") d

/-- The fields of variable size. -/
def sampleBody (d : Decoder) : Decoder :=
  let has := onBit env.sampleType
  let d := has perfSampleRead (sampleRead env) d
  let d := has perfSampleCallchain (sampleCallchain env) d
  let d := has perfSampleRaw (sampleRaw env) d
  let d := has perfSampleBranchStack (sampleBranchStack env) d
  let d := has perfSampleRegsUser (sampleRegs env "PERF_SAMPLE_REGS_USER") d
  let d := has perfSampleRegsIntr (sampleRegs env "PERF_SAMPLE_REGS_INTR") d
  has perfSampleStackUser (sampleStackUser env) d

/-- The fields of fixed size at the end of a sample. -/
def sampleTail (d : Decoder) : Decoder :=
  let has := onBit env.sampleType
  let d := has perfSampleWeight (·.field env 8 "Weight") d
  let d := has perfSampleDataSrc (sampleDataSrc env) d
  let d := has perfSampleIdentifier (·.field env 8 "PERF_SAMPLE_IDENTIFIER") d
  has perfSampleTransaction (·.field env 8 "PERF_SAMPLE_TRANSACTION") d

def sample (d : Decoder) : Decoder := sampleTail env (sampleBody env (sampleHead env d))

/-! ## The loop -/

/-- The type numbers that have a case label. `PERF_RECORD_READ` is named in the switch that prints
the header, but not in the one that decodes the record. -/
def caseOf : Nat → Option RecordType
  | 1 => some .mmap | 2 => some .lost | 3 => some .comm | 4 => some .exit | 5 => some .throttle
  | 6 => some .unthrottle | 7 => some .fork | 9 => some .sample | 10 => some .mmap2
  | 11 => some .aux | 12 => some .itraceStart | 13 => some .lostSamples | 14 => some .switch
  | 15 => some .switchCpuWide | _ => none

/-- The switch on `event->type`; `size` is the number of bytes available, where the default case
sets the offset to, and `evsize` is `event->size`. -/
def arm (size evsize : Int) (type : Nat) (d : Decoder) : Decoder :=
  match caseOf type with
  | some .lost => lost env d
  | some .comm => comm env evsize d
  | some .fork => fork env d
  | some .mmap => mmap env evsize d
  | some .mmap2 => mmap2 env evsize d
  | some .exit => exit env d
  | some .throttle | some .unthrottle => throttle env d
  | some .sample => sample env d
  | some .aux => aux env d
  | some .itraceStart => itraceStart env d
  | some .lostSamples => lostSamples env d
  | some .switch => switch env d
  | some .switchCpuWide => switchCpuWide env d
  | _ => { d with offset := size }

/-- One iteration of the record loop. -/
def iteration (size : Int) (d : Decoder) : Decoder :=
  let type := env.data.word 4 d.offset
  let misc := env.data.word 2 (d.offset + 4)
  let evsize := env.data.word 2 (d.offset + 6)
  let d := (d.access (.data d.offset 8)).print env (.header type misc evsize)
  arm env size evsize type (d.skip 8)

/-- The loop with the offsets at which its iterations started. -/
structure Loop where
  decoder : Decoder := {}
  starts : List Int := []

/-- `while (offset < size) ...`, with at most `fuel` iterations. -/
def recordLoop (size : Int) : Nat → Loop → Option Loop
  | fuel, l =>
    if l.decoder.offset < size then
      match fuel with
      | 0 => none
      | fuel + 1 =>
        recordLoop size fuel ⟨iteration env size l.decoder, l.starts ++ [l.decoder.offset]⟩
    else some l

/-- `*events_read`: it is incremented once in each iteration. -/
def Loop.eventsRead (l : Loop) : Nat := l.starts.length

end PerfEvent.ParseRecord
