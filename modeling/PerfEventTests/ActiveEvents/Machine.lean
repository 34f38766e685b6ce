import PerfEventTests.Replay.Machine

/-!
# The active events of a log

`fuzzer/active_events.c`: what each line does to the tables of events and mappings, and the loop
over the lines. A local variable that a line leaves unset holds whatever was on the stack. What is
printed is left out, up to the entries that the report lists.
-/

namespace PerfEvent.ActiveEvents

open Text Fuzzer Replay

/-- `MAX_EVENTS` -/
def maxEvents : Nat := 8192

structure EventInfo where
  opened : Int := 0
  enabled : Int := 0
  mmap : Int := 0
  signalHandler : Int := 0
  pid : BitVec 32 := 0
  cpu : BitVec 32 := 0
  groupFd : BitVec 32 := 0
  flags : BitVec 64 := 0
  attr : PerfEventAttr := {}

structure MmapInfo where
  valid : Int := 0
  size : Int := 0

/-- A use of `event_info` or `mmap_info` at an index. -/
inductive Access where
  | eventInfo (fd : Int)
  | mmapInfo (fd : Int)
  deriving DecidableEq

def Access.Inside : Access → Prop
  | .eventInfo fd | .mmapInfo fd => InRange maxEvents fd

structure State where
  eventInfo : Int → EventInfo
  mmapInfo : Int → MmapInfo
  originalPid : Int := -1
  lineNum : Nat := 0
  replaySyscalls : Nat := 0
  totalSyscalls : Nat := 0
  quit : Bool := false
  accesses : List Access := []

structure Env where
  /-- The local variables of the handler of a line. -/
  stack : Nat → Nat → Int
  openStack : Nat → OpenVars
  /-- What stands outside the tables. -/
  outsideEvent : Int → EventInfo
  outsideMmap : Int → MmapInfo

/-! ## Updates -/

namespace State

def setEvent (s : State) (fd : Int) (f : EventInfo → EventInfo) : State :=
  { s with eventInfo := fun n => if n = fd then f (s.eventInfo fd) else s.eventInfo n }

def setMmap (s : State) (fd : Int) (f : MmapInfo → MmapInfo) : State :=
  { s with mmapInfo := fun n => if n = fd then f (s.mmapInfo fd) else s.mmapInfo n }

def access (s : State) (xs : List Access) : State := { s with accesses := s.accesses ++ xs }

@[simp] theorem eventInfo_setMmap (s : State) (fd : Int) (f : MmapInfo → MmapInfo) :
    (s.setMmap fd f).eventInfo = s.eventInfo := rfl

@[simp] theorem eventInfo_access (s : State) (xs : List Access) :
    (s.access xs).eventInfo = s.eventInfo := rfl

@[simp] theorem accesses_setEvent (s : State) (fd : Int) (f : EventInfo → EventInfo) :
    (s.setEvent fd f).accesses = s.accesses := rfl

@[simp] theorem accesses_setMmap (s : State) (fd : Int) (f : MmapInfo → MmapInfo) :
    (s.setMmap fd f).accesses = s.accesses := rfl

@[simp] theorem accesses_access (s : State) (xs : List Access) :
    (s.access xs).accesses = s.accesses ++ xs := rfl

end State

variable (e : Env)

/-! ## The handlers -/

def mmapFor (fd size : Int) (s : State) : State :=
  let s := s.access [.eventInfo fd]
  if (s.eventInfo fd).opened = 0 then s
  else
    ((s.setEvent fd fun ev => { ev with mmap := 1 }).access [.mmapInfo fd]).setMmap fd fun _ =>
      { valid := 1, size := size }

/-- The length comes before the descriptor. -/
def mmapEvent (line : Str) (s : State) : State :=
  let var := scanned [.d, .d] line (e.stack s.lineNum)
  mmapFor (var 1) (var 0) s

def munmapFor (fd : Int) (s : State) : State :=
  let s := s.access [.mmapInfo fd]
  if (s.mmapInfo fd).valid = 0 then s else s.setMmap fd fun _ => { valid := 0, size := 0 }

def munmapEvent (line : Str) (s : State) : State :=
  munmapFor (scanned [.d, .d] line (e.stack s.lineNum) 0) s

/-- The fields of the attribute that are kept; the others stay as they were. -/
def copyAttr (pe attr : PerfEventAttr) : PerfEventAttr :=
  { attr with
    type := pe.type
    size := pe.size
    config := pe.config
    samplePeriod := pe.samplePeriod
    sampleType := pe.sampleType
    readFormat := pe.readFormat
    wakeupEvents := pe.wakeupEvents
    bpType := pe.bpType
    config1 := pe.config1
    config2 := pe.config2
    branchSampleType := pe.branchSampleType
    sampleRegsUser := pe.sampleRegsUser
    sampleStackUser := pe.sampleStackUser
    disabled := pe.disabled
    inherit := pe.inherit
    pinned := pe.pinned
    exclusive := pe.exclusive
    excludeUser := pe.excludeUser
    excludeKernel := pe.excludeKernel
    excludeHv := pe.excludeHv
    excludeIdle := pe.excludeIdle
    mmap := pe.mmap
    comm := pe.comm
    freq := pe.freq
    inheritStat := pe.inheritStat
    enableOnExec := pe.enableOnExec
    task := pe.task
    watermark := pe.watermark
    preciseIp := pe.preciseIp
    mmapData := pe.mmapData
    sampleIdAll := pe.sampleIdAll
    excludeHost := pe.excludeHost
    excludeGuest := pe.excludeGuest
    excludeCallchainUser := pe.excludeCallchainUser
    excludeCallchainKernel := pe.excludeCallchainKernel
    mmap2 := pe.mmap2 }

/-- The event counts as enabled when it is to be enabled on exec. -/
def openEntry (o : OpenVars) (ev : EventInfo) : EventInfo where
  opened := 1
  enabled := o.pe.enableOnExec.toNat
  mmap := 0
  signalHandler := 0
  pid := o.pid
  cpu := o.cpu
  groupFd := o.groupFd
  flags := o.flags
  attr := copyAttr o.pe ev.attr

def openFor (o : OpenVars) (s : State) : State :=
  if InRange maxEvents o.fd.toInt then
    (s.access [.eventInfo o.fd.toInt]).setEvent o.fd.toInt (openEntry o)
  else s

def openEvent (line : Str) (s : State) : State :=
  openFor (parseOpenEvent line (e.openStack s.lineNum)) s

def closeEntry (ev : EventInfo) : EventInfo :=
  { ev with opened := 0, enabled := 0, mmap := 0, signalHandler := 0 }

def closeFor (fd : Int) (s : State) : State :=
  let s := s.access [.eventInfo fd]
  if (s.eventInfo fd).opened = 0 then s else s.setEvent fd closeEntry

def closeEvent (line : Str) (s : State) : State :=
  closeFor (scanned [.d] line (e.stack s.lineNum) 0) s

def turn (on : Bool) (ev : EventInfo) : EventInfo := { ev with enabled := if on then 1 else 0 }

/-- What a request turns an event to. -/
def requested (request : Int) : Option Bool :=
  if request = iocEnable then some true
  else if request = perfEventIocDisable then some false
  else none

/-- Whether the event is open is not looked at. -/
def ioctlFor (fd request : Int) (s : State) : State :=
  match requested request with
  | some on => (s.access [.eventInfo fd]).setEvent fd (turn on)
  | none => s

def ioctlEvent (line : Str) (s : State) : State :=
  let var := scanned [.d, .d, .d] line (e.stack s.lineNum)
  ioctlFor (var 0) (var 1) s

/-- Every entry of the table, in turn. -/
def everyEvent : List Access := (List.range maxEvents).map fun i : Nat => .eventInfo i

def prctlFor (on : Bool) (s : State) : State :=
  { s.access everyEvent with
    eventInfo := fun fd =>
      if InRange maxEvents fd ∧ (s.eventInfo fd).opened ≠ 0 then turn on (s.eventInfo fd)
      else s.eventInfo fd }

def prctlEvent (line : Str) (s : State) : State := prctlFor (flagOf line ≠ 0) s

def overflowFor (fd : Int) (s : State) : State :=
  (s.access [.eventInfo fd]).setEvent fd fun ev => { ev with signalHandler := 1 }

def setupOverflow (line : Str) (s : State) : State :=
  overflowFor (scanned [.d] line (e.stack s.lineNum) 0) s

/-! ## The loop -/

/-- `replay_syscalls++`, behind a handler. -/
def counted (s : State) : State := { s with replaySyscalls := s.replaySyscalls + 1 }

/-- The switch on the first character. The handlers that are empty in the source are left out. -/
def dispatch (line : Str) (s : State) : State :=
  match line.head? with
  | some 'C' => counted (closeEvent e line s)
  | some 'G' => { s with originalPid := (sscanfLine [.d] line).getD 0 s.originalPid }
  | some 'I' => counted (ioctlEvent e line s)
  | some 'M' => counted (mmapEvent e line s)
  | some 'O' => counted (openEvent e line s)
  | some 'o' => counted (setupOverflow e line s)
  | some 'P' => counted (prctlEvent line s)
  | some 'U' => counted (munmapEvent e line s)
  | some 'F' | some 'V' | some 'p' | some 'Q' | some 'R' => counted s
  | some 'q' => { s with quit := true }
  | _ => s

/-- One round of the loop. -/
def step (s : State) (text : Str) : State :=
  if s.quit then s
  else
    let s := dispatch e (cString text) { s with lineNum := s.lineNum + 1 }
    if s.quit then s else { s with totalSyscalls := s.totalSyscalls + 1 }

/-- The tables as `main` leaves them before the loop. -/
def startState : State where
  eventInfo fd := if InRange maxEvents fd then {} else e.outsideEvent fd
  mmapInfo fd := if InRange maxEvents fd then {} else e.outsideMmap fd

/-- The state after the lines of a log. -/
def readLog (lines : List Str) : State := lines.foldl (step e) (startState e)

/-! ## The report -/

/-- The events that are listed as enabled, and as opened. -/
structure Report where
  enabled : List Nat
  opened : List Nat
  deriving DecidableEq

/-- Nothing is reported after an early end. -/
def report (s : State) : Option Report :=
  if s.quit then none
  else some {
    enabled := (List.range maxEvents).filter fun fd => (s.eventInfo fd).enabled ≠ 0
    opened := (List.range maxEvents).filter fun fd => (s.eventInfo fd).opened ≠ 0 }

end PerfEvent.ActiveEvents
