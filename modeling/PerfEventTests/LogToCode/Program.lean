import PerfEventTests.Replay.Machine
import PerfEventTests.Replay.Reproducer

/-!
# The printed program

`fuzzer/log_to_code.c` prints a C program: a `main` of one statement after the other, over an array
of descriptors and one of mappings, and a signal handler. Here are its statements and what running
them does. An index that is not in its array, a `memset` at `MAP_FAILED` and a mask that could not
be allocated leave the program without a meaning.

The statements that open an event are those of `perf_pretty_print_event`, as tokens. A file is its
place in the table of names, which is the one of the replay.
-/

namespace PerfEvent.LogToCode

open AttrPrint (CToken OpenCall)
open ByteMemory Replay
open Fuzzer (InRange perfEventIocDisable perfEventIocRefresh)

/-- `NUM_VALUES` -/
def numValues : Nat := 1024

/-! ## Statements -/

/-- The last argument of a printed `ioctl`. -/
inductive Arg where
  /-- `%lld` -/
  | number (v : Int)
  /-- `PERF_IOC_FLAG_GROUP | %d` -/
  | grouped (v : BitVec 32)
  /-- `fd[%lld]` -/
  | descriptor (n : Int)
  /-- `&period` -/
  | period
  /-- `&id` -/
  | id

inductive FileStatement where
  | fread (count : Int)
  /-- `fprintf(fff,"%lld",%lldULL)` -/
  | fprintf (v : Int)
  | fclose

inductive Statement where
  /-- The text for `pe[n]` and `fd[n]`, which may use `fd[groupFd]`. -/
  | openEvent (n groupFd : Int) (text : List CToken)
  /-- `mmap_result[n]=mmap(NULL, length, PROT_READ|PROT_WRITE, MAP_SHARED, fd[n], 0)` -/
  | mmap (n length : Int)
  /-- `if (mmap_result[n]>0) memset(mmap_result[n], value, count)` -/
  | memset (n value count : Int)
  | munmap (n length : Int)
  | close (n : Int)
  | setPeriod (v : Int)
  | ioctl (n request : Int) (arg : Arg)
  | read (n count : Int)
  | prctl (enable : Bool)
  /-- `pollfds[i].fd=fd[n]; pollfds[i].events=events` -/
  | setPollfd (i n events : Int)
  | poll (count timeout : Int)
  | fopen (file : Int) (writing : Bool)
  /-- `if (fff!=NULL)` -/
  | ifOpened (body : List FileStatement)
  | setSize
  | cpuZero
  | cpuSet (cpu : Int)
  | schedSetaffinity
  | fork
  | kill
  | waitpid
  | sigaction
  | fcntl (n : Int) (command : Nat)

/-! ## Running them -/

/-- The variables of the program, and what it has done. -/
structure Process where
  pe : Int → PerfEventAttr := fun _ => {}
  fd : Int → BitVec 32 := fun _ => -1
  mmapResult : Int → Region := fun _ => .null
  period : Int := 0
  pollfds : Int → BitVec 32 × Int := fun _ => (0, 0)
  fff : Bool := false
  setSize : Nat := 0
  cpuMask : Option (Nat → Bool)
  forkedPid : Int := 0
  calls : List Call := []
  memsets : List Memset := []

namespace Process

def issue (p : Process) (c : Call) : Process := { p with calls := p.calls ++ [c] }

/-- `fd[n]` -/
def descriptor (p : Process) (n : Int) : Option Int :=
  if InRange numValues n then some (p.fd n).toInt else none

/-- `mmap_result[n]` -/
def mapping (p : Process) (n : Int) : Option Region :=
  if InRange numValues n then some (p.mmapResult n) else none

def setMapping (p : Process) (n : Int) (region : Region) : Process :=
  { p with mmapResult := Function.update p.mmapResult n region }

/-- The first entries of `pollfds`. -/
def entries (p : Process) (n : Nat) : List (Int × Option Int) :=
  (List.range n).map fun i : Nat => ((p.pollfds i).1.toInt, some (p.pollfds i).2)

end Process

variable (e : Env)

/-- What the next system call will return. -/
def nextResult (p : Process) : Int := e.result p.calls.length

def Arg.value (p : Process) : Arg → Option Argument
  | .number v => some (.value v)
  | .grouped v => some (.value (1 ||| v).toInt)
  | .descriptor n => (p.descriptor n).map .value
  | .period => some (.period p.period)
  | .id => some .idOut

def FileStatement.run (p : Process) : FileStatement → Process
  | .fread count => p.issue (.fread count)
  | .fprintf v => p.issue (.fprintf (Text.decimal (toSigned 64 (toUnsigned 64 v))))
  | .fclose => p.issue .fclose

def openCall (c : OpenCall) : Call :=
  .perfEventOpen c.attr c.pid.toInt c.cpu.toInt c.groupFd.toInt c.flags

/-- The text works on `pe` and `fd`. It has one call. -/
def runText (text : List CToken) (p : Process) : Option Process :=
  let m : AttrPrint.Machine := ⟨.ofInt 32 e.ownPid, fun _ => .ofInt 32 (nextResult e p)⟩
  (AttrPrint.execute m text [] ⟨p.pe, p.fd, []⟩).map fun r =>
    { p with pe := r.pe, fd := r.fd, calls := p.calls ++ r.calls.map openCall }

/-- What `mmap` returns, as the next call. -/
def mapped (length : Int) (p : Process) : Region :=
  if nextResult e p = -1 then .failed else .mapped p.calls.length length

/-- `MAP_FAILED` is greater than `0` too. -/
def memsetRegion (region : Region) (value count : Int) (p : Process) : Option Process :=
  match region with
  | .failed => none
  | .null => some p
  | .mapped .. => some { p with memsets := p.memsets ++ [⟨region, value, count⟩] }

/-- The child never comes back from the loop behind the call. -/
def forked (p : Process) : Int := if 0 < nextResult e p then nextResult e p else -1

def Statement.run (p : Process) : Statement → Option Process
  | .openEvent n groupFd text =>
    if InRange numValues n ∧ (groupFd = -1 ∨ InRange numValues groupFd) then runText e text p
    else none
  | .mmap n length => (p.descriptor n).map fun fd =>
    (p.issue (mmapCall length fd)).setMapping n (mapped e length p)
  | .memset n value count => (p.mapping n).bind fun region =>
    memsetRegion region value count p
  | .munmap n length => (p.mapping n).map fun region => p.issue (.munmap region length)
  | .close n => (p.descriptor n).map fun fd => p.issue (.close fd)
  | .setPeriod v => some { p with period := v }
  | .ioctl n request arg => (p.descriptor n).bind fun fd =>
    (arg.value p).map fun v => p.issue (.ioctl fd request v)
  | .read n count => (p.descriptor n).map fun fd => p.issue (.read fd count)
  | .prctl enable => some (p.issue (.prctl enable))
  | .setPollfd i n events =>
    if InRange maxPollFds i then (p.descriptor n).map fun _ =>
      { p with pollfds := Function.update p.pollfds i (p.fd n, events) }
    else none
  | .poll count timeout =>
    if count ≤ maxPollFds then some (p.issue (.poll (p.entries count.toNat) count timeout)) else none
  | .fopen file writing =>
    some { p.issue (.fopen file writing) with fff := nextResult e p ≠ 0 }
  | .ifOpened body => some (if p.fff then body.foldl FileStatement.run p else p)
  | .setSize => some { p with setSize := cpuSetSize }
  | .cpuZero => p.cpuMask.map fun _ => { p with cpuMask := some fun _ => false }
  | .cpuSet cpu => p.cpuMask.map fun mask =>
    { p with cpuMask := some (Replay.cpuSet cpu p.setSize mask) }
  | .schedSetaffinity => p.cpuMask.map fun mask => p.issue (.schedSetaffinity mask)
  | .fork => some { p.issue .fork with forkedPid := forked e p }
  | .kill => some (p.issue (.kill p.forkedPid))
  | .waitpid => some (p.issue (.waitpid p.forkedPid))
  | .sigaction => some (p.issue .sigaction)
  | .fcntl n command => (p.descriptor n).map fun fd => p.issue (.fcntl fd command)

/-- One statement after the other. -/
def execute : List Statement → Process → Option Process
  | [], p => some p
  | a :: as, p => (a.run e p).bind (execute as)

/-- `our_handler` of the program. Its counts are never looked at. -/
def ourHandler (fd : Int) (p : Process) : Process :=
  (p.issue (.ioctl fd perfEventIocDisable (.value 0))).issue
    (.ioctl fd perfEventIocRefresh (.value 1))

/-- The program before its first statement. -/
def startProcess : Process where
  cpuMask := e.cpuAlloc

end PerfEvent.LogToCode
