import PerfEventTests.Fuzzer.Overflow

/-!
# Opening events

`open_random_event` in `fuzzer/fuzz_open.c`: attributes are generated into a free slot until the
kernel accepts one.
-/

namespace PerfEvent.Fuzzer

open Draws Programs Text

/-- `update_read_size` -/
def updateReadSize (ev : EventData) : Int :=
  let has (bit : BitVec 64) : Int := if ev.attr.readFormat &&& bit = 0 then 0 else 1
  let times := 1 + has 1 + has 2
  if ev.attr.readFormat &&& 8 = 0 then (times + has 4 + has 16) * 8
  else (times + (1 + (has 4 + has 16) * ev.numberInGroup)) * 8

/-- `EPERM`, `ENOENT`, `E2BIG`, `EBADF`, `EAGAIN`, `EACCES`, `EFAULT`, `EBUSY`, `ENODEV`, `EINVAL`,
`EMFILE`, `ENOSPC`, `EOVERFLOW`, `EOPNOTSUPP` -/
def knownErrnos : List Int := [1, 2, 7, 9, 11, 13, 14, 16, 19, 22, 24, 28, 75, 95]

def emfile : Int := 24

def overflowLine (fd : Int) : Str := line 'o' [intText fd]

/-- A quarter of the events join the group of a random one. -/
def drawGroup (e : Env) (i : Int) : Fuzz Unit := do
  let j ← findRandomActiveEvent e
  e.pt (.use j.sure)
  let leader ← getEvent j.index
  setEvent i fun ev => { ev with groupFd := BitVec.ofInt 32 leader.fd }

/-- Everything that is handed to `perf_event_open`. -/
def prepareEvent (e : Env) (i : Int) : Fuzz Unit := do
  let s ← getState
  let r ← draw (sanitisePerfEventOpen e.pmus e.ownPid s.syscallRec)
  let cpu ← draw (word 32)
  update fun s => { s with syscallRec := r.1 }
  e.pt .elsewhere
  setEvent i fun ev => { ev with
    attr := r.1.attr, pid := r.1.pid, cpu := cpu, groupFd := r.1.groupFd, flags := r.1.flags }
  let group ← rand
  e.pt .elsewhere
  whenever (group % 4 = 2) (drawGroup e i)
  e.pt .elsewhere
  let ev ← getEvent i
  let s ← getState
  let attr ← draw (kprobeConfig (BitVec.ofInt 64 s.kprobeId) ev.attr)
  setEvent i fun ev => { ev with attr := attr }

/-- The descriptor and the serial number of a new event, or -1 when there are no more descriptors.
A descriptor of the standard streams or an unknown error ends the process. -/
def openAttempts (e : Env) (i : Int) : Nat → Fuzz (Int × Nat)
  | 0 => stop
  | n + 1 => do
    prepareEvent e i
    e.pt .elsewhere
    let r ← openPerf
    if 2 < r.1 then return r
    else if 0 ≤ r.1 then stop
    else do
      let errno ← answer
      if errno ∉ knownErrnos then stop
      else if errno = emfile then return (-1, 0)
      else do
        e.pt .elsewhere
        openAttempts e i n

/-- The new event is a member of the group it names. -/
def joinGroup (e : Env) (groupFd : BitVec 32) : Fuzz Unit := do
  let j ← lookupEvent e groupFd.toInt
  e.pt (.use j.sure)
  setEvent j.index fun ev => { ev with numberInGroup := ev.numberInGroup + 1 }
  e.pt .elsewhere
  setEvent j.index fun ev => { ev with readSize := updateReadSize ev }

/-- Signals on overflow: `sigaction` and three calls of `fcntl`. -/
def setupOverflow (e : Env) (i : Int) : Fuzz Unit := do
  let ev ← getEvent i
  logLine e 'o' (overflowLine ev.fd)
  e.pt .elsewhere
  let _ ← getEvent i
  pure ()

/-- What follows a successful open. -/
def enterEvent (e : Env) (i : Int) (r : Int × Nat) : Fuzz Unit := do
  let ev ← getEvent i
  logLine e 'O' (openLine (BitVec.ofInt 32 r.1) ev.pid ev.cpu ev.groupFd ev.flags ev.attr)
  e.pt .elsewhere
  setEvent i fun ev => { ev with fd := r.1, serial := r.2 }
  e.pt .elsewhere
  setEvent i fun ev => { ev with active := true }
  e.pt .elsewhere
  update fun s => { s with activeEvents := s.activeEvents + 1 }
  e.pt .elsewhere
  let ev ← getEvent i
  whenever (ev.groupFd ≠ BitVec.ofInt 32 (-1)) (joinGroup e ev.groupFd)
  e.pt .elsewhere
  whenever (e.enabled .mmap) (setupMmap e ⟨i, true⟩)
  e.pt .elsewhere
  whenever (e.enabled .overflow) do
    let r ← rand
    whenever (r % 2 = 1) (setupOverflow e i)
  e.pt .elsewhere
  setEvent i fun ev => { ev with numberInGroup := 1 }
  e.pt .elsewhere
  setEvent i fun ev => { ev with readSize := updateReadSize ev }

def openInSlot (e : Env) (i : Int) : Fuzz Unit := do
  e.pt .elsewhere
  setEvent i fun ev => { ev with overflows := 0, throttles := 0 }
  let r ← openAttempts e i e.retries
  e.pt .elsewhere
  whenever (2 < r.1) (enterEvent e i r)

def openRandomEvent (e : Env) : Fuzz Unit := do
  let i ← findEmptyEvent e
  whenever (0 ≤ i) (openInSlot e i)

end PerfEvent.Fuzzer
