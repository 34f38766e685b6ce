import PerfEventTests.Fuzzer.OpenLine
import PerfEventTests.Lib.Programs

/-!
# The state of the fuzzer

The tables of `fuzzer/perf_fuzzer.c` and `fuzzer/fuzz_mmap.c`, the static variables of the
operations, the log, and the kernel's table of descriptors.

An operation is a program with an environment (`Env`) whose field `pt` stands between its
statements: it is where a signal handler may run. `ignore_but_dont_skip`, `throttle_close_event`
and `trigger_failure_logging` are never set, so the branches behind them are left out; so are the
counters of `stats`, which nothing reads back.
-/

namespace PerfEvent.Fuzzer

open Draws Programs Text

/-- `NUM_EVENTS` -/
def numEvents : Nat := 100000

/-- `MAX_MMAPS` -/
def maxMmaps : Nat := 1024

/-- `MAP_FAILED` -/
def mapFailed : Int := -1

theorem numEvents_pos : 0 < numEvents := by decide

theorem maxMmaps_pos : 0 < maxMmaps := by decide

/-- `struct event_data_t`. The serial number says which of the events that the kernel has made the
slot was filled with; no event has the number 0. -/
structure EventData where
  active : Bool := false
  fd : Int := 0
  attr : PerfEventAttr := {}
  pid : BitVec 32 := 0
  cpu : BitVec 32 := 0
  groupFd : BitVec 32 := 0
  flags : BitVec 64 := 0
  readSize : Int := 0
  numberInGroup : Int := 0
  mmap : Int := 0
  lastRefresh : Int := 0
  overflows : Int := 0
  throttles : Int := 0
  serial : Nat := 0

/-- `struct our_mmap_t`. The serial number is that of the event it was made for; `mapped` says
whether the memory is still there. -/
structure MmapEntry where
  active : Bool := false
  addr : Int := 0
  size : Int := 0
  fd : Int := 0
  prot : BitVec 32 := 0
  flags : BitVec 32 := 0
  aux : Bool := false
  parentMmap : Int := 0
  whichEvent : Int := 0
  serial : Nat := 0
  mapped : Bool := false

/-- What a descriptor of the process is open on. -/
inductive Descriptor where
  | perf (serial : Nat)
  | file
  deriving DecidableEq

/-- The last argument of an `ioctl`. -/
inductive IoctlArg where
  | value (v : Int)
  | period (v : Int)
  | idOut
  | filter (text : Str)
  | attr (a : PerfEventAttr)
  | validRam

inductive Request where
  | close
  | ioctl (request : Int) (arg : IoctlArg)
  | read (size : Int)
  | write (size : Int)

/-- A system call on the descriptor of an event that was chosen from the table: what the table has
about the event, and what the descriptor was open on. -/
structure Call where
  request : Request
  fd : Int
  serial : Nat
  active : Bool
  target : Option Descriptor

/-- An operation that was logged: its letter, and what was written for it. -/
structure LoggedOp where
  letter : Char
  text : Str
  deriving DecidableEq

structure St where
  eventData : Int → EventData
  activeEvents : Int := 0
  mmaps : Int → MmapEntry := fun _ => {}
  activeMmaps : Int := 0
  alreadyHandling : Bool := false
  syscallRec : SyscallRecord := {}
  kprobeInitialized : Bool := false
  kprobeId : Int := 0
  bpfFd : Int := 0
  alreadyForked : Bool := false
  forkedPid : Int := 0
  /-- The children that have not been waited for. -/
  children : List Int := []
  openFds : Nat → Int := fun _ => 0
  openFiles : Int := 0
  cpuMask : Bool := false
  log : Str := []
  /-- The kernel's descriptors. -/
  fds : Int → Option Descriptor := fun _ => none
  /-- The serial number of the next event that the kernel makes. -/
  nextSerial : Nat := 1
  /-- The operations that were logged, in order. -/
  logged : List LoggedOp := []
  /-- The calls on events, the last one first. -/
  calls : List Call := []
  /-- How often `sigio_handler` has closed all events. -/
  storms : Nat := 0
  /-- A table has been used at an index outside it. -/
  outside : Bool := false

def InRange (size : Nat) (i : Int) : Prop := 0 ≤ i ∧ i < size

instance (size : Nat) (i : Int) : Decidable (InRange size i) :=
  inferInstanceAs (Decidable (_ ∧ _))

/-! ## Updates -/

namespace St

def checkEvent (s : St) (i : Int) : St :=
  if InRange numEvents i then s else { s with outside := true }

def checkMmap (s : St) (i : Int) : St :=
  if InRange maxMmaps i then s else { s with outside := true }

def setEvent (s : St) (i : Int) (f : EventData → EventData) : St :=
  { s with eventData := fun j => if j = i then f (s.eventData i) else s.eventData j }

def setMmap (s : St) (i : Int) (f : MmapEntry → MmapEntry) : St :=
  { s with mmaps := fun j => if j = i then f (s.mmaps i) else s.mmaps j }

def setFd (s : St) (fd : Int) (d : Option Descriptor) : St :=
  { s with fds := fun n => if n = fd then d else s.fds n }

def addCall (s : St) (i : Int) (request : Request) : St :=
  let ev := s.eventData i
  { s with calls := ⟨request, ev.fd, ev.serial, ev.active, s.fds ev.fd⟩ :: s.calls }

end St

/-! ## The environment -/

abbrev Fuzz := Prog St

/-- Where a run is, as far as a handler that runs there can tell. -/
inductive Loc where
  | elsewhere
  /-- `close_event(i)` has been called for an event that was active. -/
  | closing (i : Int)
  /-- A mapping has been made for slot `i` and the slot is not active yet. -/
  | mapped (i : Int)
  /-- The mapping of slot `i` is gone and its address is still in the slot. -/
  | unmapped (i : Int)
  /-- The result of a search is about to be used as an index, unchecked. -/
  | use (sure : Bool)
  /-- `our_handler` is about to close the event in slot `i`. -/
  | storm (i : Int)
  /-- A filter is about to be logged, as much of it as its line holds. -/
  | filterLine (shown : Str)

inductive OpKind where
  | mmap | overflow | perfEventOpen | close | read | write | ioctl | fork | prctl | poll | million
  | access | trashMmap | vsyscall | affinity
  deriving DecidableEq

structure Config where
  /-- The mask `type`. -/
  enabled : OpKind → Bool
  logging : Bool
  pageSize : Nat
  pmus : List Pmu
  ownPid : BitVec 32
  seed : Int
  sampleRate : Int
  /-- `event_data[i].read_size=rand()` before the main loop. -/
  readSizes : Int → Int
  /-- How often `perf_event_open` may fail before a run is no longer followed. -/
  retries : Nat
  /-- The addresses of `filter` and `valid_ram`. -/
  filterAddr : Int
  validRamAddr : Int

structure Env extends Config where
  pt : Loc → Fuzz Unit

/-! ## Primitive steps -/

def rand : Fuzz Nat := draw Draws.rand

/-- An answer of the kernel. -/
def answer : Fuzz Int := draw next

def getEvent (i : Int) : Fuzz EventData := do
  update fun s => s.checkEvent i
  let s ← getState
  return s.eventData i

def setEvent (i : Int) (f : EventData → EventData) : Fuzz Unit :=
  update fun s => (s.checkEvent i).setEvent i f

def getMmap (i : Int) : Fuzz MmapEntry := do
  update fun s => s.checkMmap i
  let s ← getState
  return s.mmaps i

def setMmap (i : Int) (f : MmapEntry → MmapEntry) : Fuzz Unit :=
  update fun s => (s.checkMmap i).setMmap i f

/-- The line of one operation. No handler writes to the log, so a line that the source writes in
pieces is written at once. -/
def logLine (e : Env) (letter : Char) (text : Str) : Fuzz Unit :=
  whenever e.logging (update fun s =>
    { s with log := s.log ++ text, logged := s.logged ++ [⟨letter, text⟩] })

/-- A system call on the descriptor of the event in slot `i`. -/
def callOn (i : Int) (request : Request) : Fuzz Int := do
  update fun s => (s.checkEvent i).addCall i request
  answer

/-! ### Descriptors

The kernel hands out a descriptor that is not open. -/

/-- The number that a call which opens something returns. -/
def freeFd (s : St) (a : Int) : Int := if 0 ≤ a ∧ a < 2 ^ 31 ∧ s.fds a = none then a else -1

def openFile : Fuzz Int := do
  let a ← answer
  let s ← getState
  let fd := freeFd s a
  whenever (fd ≠ -1) (update fun s => s.setFd fd (some .file))
  return fd

/-- `perf_event_open`, with the serial number of the event that it made. -/
def openPerf : Fuzz (Int × Nat) := do
  let a ← answer
  let s ← getState
  let fd := freeFd s a
  whenever (fd ≠ -1) (update fun s =>
    { s.setFd fd (some (.perf s.nextSerial)) with nextSerial := s.nextSerial + 1 })
  return (fd, s.nextSerial)

def closeFd (fd : Int) : Fuzz Int := do
  let s ← getState
  update fun s => s.setFd fd none
  return if s.fds fd = none then -1 else 0

/-! ### Memory

An empty mapping is refused, and unmapping succeeds wherever an address and a length are given. -/

def sysMmap (size : Int) : Fuzz Int := do
  let a ← answer
  return if size = 0 then mapFailed else a

def sysMunmap (i : Int) : Fuzz Int := do
  let m ← getMmap i
  if m.addr = mapFailed ∨ m.size = 0 then return -1
  else do
    setMmap i fun m => { m with mapped := false }
    return 0

/-! ## The start -/

/-- What is logged before the first operation. -/
def headerOps (c : Config) : List LoggedOp :=
  [⟨'S', line 'S' [intText c.seed]⟩, ⟨'G', line 'G' [signedText c.ownPid]⟩,
    ⟨'r', line 'r' [intText c.sampleRate]⟩]

def startState (c : Config) : St where
  eventData := fun i => { readSize := c.readSizes i }
  log := if c.logging then (headerOps c).flatMap LoggedOp.text else []
  logged := if c.logging then headerOps c else []
  fds := fun fd => if 0 ≤ fd ∧ fd < (if c.logging then 4 else 3) then some .file else none

end PerfEvent.Fuzzer
