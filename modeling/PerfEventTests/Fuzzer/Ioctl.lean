import PerfEventTests.Fuzzer.Filter
import PerfEventTests.Fuzzer.Overflow

/-!
# The ioctl operation

`ioctl_random_event` in `fuzzer/fuzz_ioctl.c`, one definition for each arm of its switch. An `id`
that an arm logs without having set it is whatever was on the stack.
-/

namespace PerfEvent.Fuzzer

open Draws Programs Text

def iocEnable : Int := 0x2400
def iocReset : Int := 0x2403
def iocPeriod : Int := 0x40082404
def iocSetOutput : Int := 0x2405
def iocSetFilter : Int := 0x40082406
def iocId : Int := 0x80082407
def iocSetBpf : Int := 0x40042408
def iocPauseOutput : Int := 0x40042409
def iocQueryBpf : Int := 0xc008240a
def iocModifyAttributes : Int := 0x4008240b

/-! ## Arguments -/

/-- `rand_ioctl_arg`: `PERF_IOC_FLAG_GROUP` is 1. -/
def randIoctlArg : Draw Int := do
  match (← Draws.rand) % 4 with
  | 0 => return 0
  | 1 => return 1
  | 2 => return ((← Draws.rand) % 256 : Nat)
  | _ => return (← Draws.rand)

def randRefresh : Draw Int := do
  match (← Draws.rand) % 6 with
  | 0 => return 0
  | 1 => return 1
  | 2 => return -1
  | 3 => return ((← Draws.rand) % 100 : Nat)
  | 4 => return (← Draws.rand)
  | _ => return 1

def randPeriod : Draw Int := do
  if (← Draws.rand) % 2 = 1 then return (← Draws.rand)
  else do
    match (← Draws.rand) % 8 with
    | 0 => return 0
    | 1 => return 1
    | 2 => return -1
    | 3 => return ((← Draws.rand) % 100000 : Nat)
    | 4 => return (← Draws.rand)
    | 5 => return ((← Draws.rand) % 256 : Nat)
    | 6 => return -((← Draws.rand) % 256 : Nat)
    | _ => return (← Draws.rand)

/-- `create_ioctl`, an `int` that is widened to `long`. -/
def createIoctl (dir type nr size : Nat) : Int :=
  (BitVec.ofNat 32 (dir * 2 ^ 30) ||| BitVec.ofNat 32 (type * 2 ^ 8) ||| BitVec.ofNat 32 nr |||
    BitVec.ofNat 32 (size * 2 ^ 16)).toInt

/-- A request of type `$`. -/
def randPerfRequest : Draw Int := do
  let realistic ← Draws.rand
  let dir ← Draws.rand
  let nr ← Draws.rand
  let size ← Draws.rand
  return if realistic % 2 = 1 then createIoctl (dir % 3) 0x24 (nr % 64) (size % 16)
    else createIoctl (dir % 3) 0x24 nr size

def randRequest : Draw Int := do
  return createIoctl (← Draws.rand) (← Draws.rand) (← Draws.rand) (← Draws.rand)

/-! ## Lines -/

def ioctlLine (fd request arg : Int) : Str := line 'I' [intText fd, longText request, longText arg]

def filterHead (fd : Int) (custom : Nat) (arg : Int) : List Str :=
  [intText fd, longText iocSetFilter, intText custom, longText arg]

/-- What `snprintf` leaves of the filter before the last character of the buffer. -/
def shownFilter (fd : Int) (custom : Nat) (arg : Int) (filter : Str) : Str :=
  filter.take (bufsiz - 2 - (line 'I' (filterHead fd custom arg)).length)

def setFilterLine (fd : Int) (custom : Nat) (arg : Int) (filter : Str) : Str :=
  (line 'I' (filterHead fd custom arg ++ [filter])).take (bufsiz - 1)

/-! ## The arms -/

/-- An `ioctl` on the event in slot `i`. -/
def ioctlOn (i : Int) (request : Int) (arg : IoctlArg) : Fuzz Int :=
  callOn i (.ioctl request arg)

def logIoctl (e : Env) (i result request arg : Int) : Fuzz Unit :=
  whenever (0 ≤ result) do
    let ev ← getEvent i
    logLine e 'I' (ioctlLine ev.fd request arg)

def plainIoctl (e : Env) (i request : Int) (arg : IoctlArg) (shown : Int) : Fuzz Unit := do
  e.pt .elsewhere
  let result ← ioctlOn i request arg
  e.pt .elsewhere
  logIoctl e i result request shown

/-- A 64-bit value from the stack or from the kernel. -/
def randId : Draw Int := do return (BitVec.ofInt 64 (← next)).toInt

def refreshEvent (e : Env) (sampling : Int) : Fuzz Unit := do
  let arg ← draw randRefresh
  e.pt .elsewhere
  let result ← ioctlOn sampling perfEventIocRefresh (.value arg)
  e.pt .elsewhere
  whenever (0 < result) (setEvent sampling fun ev => { ev with lastRefresh := arg })
  e.pt .elsewhere
  logIoctl e sampling result perfEventIocRefresh arg

def setOutput (e : Env) (sampling : Int) : Fuzz Unit := do
  let output ← findRandomActiveEvent e
  e.pt (.use output.sure)
  let ev ← getEvent output.index
  let r ← rand
  let arg := if r % 10 = 0 then -1 else ev.fd
  plainIoctl e sampling iocSetOutput (.value arg) arg

/-- `if (custom) arg=rand(); else arg=(long)&filter;` -/
def randFilterArg (filterAddr : Int) (custom : Nat) : Draw Int := do
  if custom = 1 then return ((← Draws.rand : Nat) : Int) else return filterAddr

def setFilter (e : Env) (any : Int) : Fuzz Unit := do
  let r ← rand
  let custom := r % 2
  let arg ← draw (randFilterArg e.filterAddr custom)
  e.pt .elsewhere
  let _ ← getEvent any
  let filter ← draw fillFilter
  e.pt .elsewhere
  let result ← ioctlOn any iocSetFilter (if custom = 1 then .value arg else .filter filter)
  e.pt .elsewhere
  whenever (0 ≤ result) do
    let ev ← getEvent any
    e.pt (.filterLine (shownFilter ev.fd custom arg filter))
    logLine e 'I' (setFilterLine ev.fd custom arg filter)

/-- A file that is opened, used and closed. -/
def usingFile (e : Env) (use : Fuzz Unit) : Fuzz Bool := do
  let fd ← openFile
  if fd = -1 then return false
  else do
    e.pt .elsewhere
    use
    let _ ← closeFd fd
    return true

/-- `fscanf` of the id of the new kprobe. -/
def readKprobeId : Fuzz Unit := do
  let id ← answer
  update fun s => { s with kprobeId := id }

def loadBpf (e : Env) : Fuzz Int := do
  e.pt .elsewhere
  let fd ← openFile
  update fun s => { s with bpfFd := fd }
  return fd

def setupBpfFd (e : Env) : Fuzz Int := do
  let s ← getState
  if s.kprobeInitialized then return s.bpfFd
  else do
    update fun s => { s with kprobeInitialized := true }
    let written ← usingFile e (pure ())
    if !written then return -1
    else do
      e.pt .elsewhere
      let found ← usingFile e readKprobeId
      if !found then return -1 else loadBpf e

def setBpf (e : Env) (any : Int) : Fuzz Unit := do
  let _ ← rand
  let bpfFd ← setupBpfFd e
  let id ← draw randId
  plainIoctl e any iocSetBpf (.value bpfFd) id

/-- `arg=rand()%3; if (arg==2) arg=rand();` -/
def randPause : Draw Int := do
  let r ← Draws.rand
  if r % 3 = 2 then return (← Draws.rand) else return ((r % 3 : Nat) : Int)

def unsetIdIoctl (e : Env) (any request : Int) : Fuzz Unit := do
  let arg ← draw randPause
  let id ← draw randId
  plainIoctl e any request (.value arg) id

def logModify (e : Env) (any result : Int) : Fuzz Unit := do
  let id ← draw randId
  logIoctl e any result iocModifyAttributes id

def modifyRandom (e : Env) (any : Int) : Fuzz Unit := do
  let arg ← rand
  e.pt .elsewhere
  let result ← ioctlOn any iocModifyAttributes (.value arg)
  e.pt .elsewhere
  logModify e any result

/-- The breakpoint event gets the attributes of the event in slot `source`. -/
def modifyBreakpoint (e : Env) (breakpoint : Found) (source : Int) : Fuzz Int := do
  e.pt .elsewhere
  e.pt (.use breakpoint.sure)
  let ev ← getEvent source
  ioctlOn breakpoint.index iocModifyAttributes (.attr ev.attr)

/-- The variable `custom` is used for the second search too, so slot 2 leads into the last case. -/
def modifyOther (e : Env) (any : Int) (breakpoint : Found) : Fuzz Unit := do
  let custom ← findRandomActiveBreakpointEvent e
  e.pt (.use custom.sure)
  let result ← modifyBreakpoint e breakpoint custom.index
  e.pt .elsewhere
  if custom.index = 2 then modifyRandom e any else logModify e any result

def modifyAttributes (e : Env) (any : Int) (breakpoint : Found) : Fuzz Unit := do
  let custom ← rand
  match custom % 3 with
  | 0 => do
    let result ← modifyBreakpoint e breakpoint any
    e.pt .elsewhere
    logModify e any result
  | 1 => modifyOther e any breakpoint
  | _ => modifyRandom e any

def randomPerfIoctl (e : Env) (any : Int) : Fuzz Unit := do
  let request ← draw randPerfRequest
  let r ← rand
  if r % 2 = 1 then do
    let arg ← rand
    let _ ← rand
    let _ ← rand
    plainIoctl e any request (.value arg) arg
  else plainIoctl e any request .validRam e.validRamAddr

def randomIoctl (e : Env) (any : Int) : Fuzz Unit := do
  let request ← draw randRequest
  let arg ← rand
  plainIoctl e any request (.value arg) arg

def ioctlOfType (e : Env) (any sampling : Int) (breakpoint : Found) : Nat → Fuzz Unit
  | 0 => do
    let arg ← draw randIoctlArg
    plainIoctl e any iocEnable (.value arg) arg
  | 1 => do
    let arg ← draw randIoctlArg
    plainIoctl e any perfEventIocDisable (.value arg) arg
  | 2 => refreshEvent e sampling
  | 3 => do
    let arg ← draw randIoctlArg
    plainIoctl e any iocReset (.value arg) arg
  | 4 => do
    let arg ← draw randPeriod
    plainIoctl e sampling iocPeriod (.period arg) arg
  | 5 => setOutput e sampling
  | 6 => setFilter e any
  | 7 => do
    let _ ← rand
    let id ← draw randId
    plainIoctl e any iocId .idOut id
  | 8 => setBpf e any
  | 9 => unsetIdIoctl e any iocPauseOutput
  | 10 => unsetIdIoctl e any iocQueryBpf
  | 11 => modifyAttributes e any breakpoint
  | 12 => randomPerfIoctl e any
  | _ => randomIoctl e any

def ioctlRandomEvent (e : Env) : Fuzz Unit := do
  let any ← findRandomActiveEvent e
  let sampling ← findRandomActiveSamplingEvent e
  let breakpoint ← findRandomActiveBreakpointEvent e
  let r ← rand
  let sampling := if sampling.index < 0 ∨ r % 4 = 0 then any.index else sampling.index
  whenever (0 ≤ any.index) do
    let type ← rand
    ioctlOfType e any.index sampling breakpoint (type % 14)

end PerfEvent.Fuzzer
