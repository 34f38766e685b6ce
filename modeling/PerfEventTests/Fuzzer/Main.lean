import PerfEventTests.Fuzzer.Ioctl
import PerfEventTests.Fuzzer.Open

/-!
# The other operations, and the main loop

`fuzz_read.c`, `fuzz_write.c`, `fuzz_poll.c`, `fuzz_prctl.c`, `fuzz_access.c`, `fuzz_fork.c`,
`fuzz_affinity.c`, `fuzz_vsyscall.c`, `fuzz_million.c` and the loop of `perf_fuzzer.c`.
-/

namespace PerfEvent.Fuzzer

open Draws Programs Text

/-! ## Reading and writing events -/

/-- The size of a read or a write, for an event with the given nominal size. -/
def transferSize (readSize : Int) : Draw Int := do
  match (← Draws.rand) % 4 with
  | 0 => return readSize
  | 1 => return ((← Draws.rand) % 8 * 8 : Nat)
  | 2 => return ((← Draws.rand) % 65536 : Nat)
  | _ => return ((← Draws.rand) % 65536 * 8 : Nat)

/-- The common body of `read_random_event` and `write_random_event`. -/
def transferAt (e : Env) (letter : Char) (request : Int → Request) (i : Int) : Fuzz Unit := do
  e.pt .elsewhere
  let ev ← getEvent i
  whenever (ev.fd ≠ 0) do
    let size ← draw (transferSize ev.readSize)
    e.pt .elsewhere
    let result ← callOn i (request size)
    e.pt .elsewhere
    whenever (0 < result) do
      let ev ← getEvent i
      logLine e letter (line letter [intText ev.fd, intText size])

def transferRandomEvent (e : Env) (letter : Char) (request : Int → Request) : Fuzz Unit := do
  let i ← findRandomActiveEvent e
  whenever (0 ≤ i.index) (transferAt e letter request i.index)

def readRandomEvent (e : Env) : Fuzz Unit := transferRandomEvent e 'R' .read

def writeRandomEvent (e : Env) : Fuzz Unit := transferRandomEvent e 'W' .write

/-! ## Polling -/

def pollFds (e : Env) : Nat → Fuzz (List Int)
  | 0 => return []
  | n + 1 => do
    let i ← findRandomActiveEvent e
    e.pt (.use i.sure)
    let ev ← getEvent i.index
    let fds ← pollFds e n
    return ev.fd :: fds

/-- `POLLIN` is 1. -/
def pollLine (fds : List Int) (timeout : Nat) : Str :=
  line 'p' (intText fds.length :: ((fds.flatMap fun fd => [intText fd, "1".toList]) ++
    [intText timeout]))

def pollRandomEvent (e : Env) : Fuzz Unit := do
  let num ← rand
  let fds ← pollFds e (num % 128)
  let timeout ← rand
  e.pt .elsewhere
  let result ← answer
  whenever (0 < result) (logLine e 'p' (pollLine fds (timeout % 10)))

/-! ## Process-wide operations -/

def prctlRandomEvent (e : Env) : Fuzz Unit := do
  let type ← rand
  e.pt .elsewhere
  let ret ← answer
  whenever (ret = 0) (logLine e 'P' (line 'P' [intText (type % 2)]))

/-- The child never returns from the call, so this is the parent. -/
def sysFork : Fuzz Int := do
  let a ← answer
  return if 0 < a then a else -1

/-- A child is killed and waited for, or a new one is made. -/
def forkRandomEvent (e : Env) : Fuzz Unit := do
  let s ← getState
  if s.alreadyForked then do
    logLine e 'F' (line 'F' [intText 0])
    e.pt .elsewhere
    update fun s => { s with
      alreadyForked := false
      children := s.children.filter (· ≠ s.forkedPid) }
  else do
    logLine e 'F' (line 'F' [intText 1])
    e.pt .elsewhere
    let pid ← sysFork
    update fun s => { s with
      forkedPid := pid
      alreadyForked := pid ≠ -1
      children := if pid = -1 then s.children else pid :: s.children }

/-- The cpus of the `n` from `j` on that are drawn. -/
def drawCpus : Nat → Nat → Draw (List Nat)
  | 0, _ => return []
  | n + 1, j => do
    let r ← Draws.rand
    let cpus ← drawCpus n (j + 1)
    return if r % 2 = 1 then j :: cpus else cpus

def affinityCpus : Nat → Draw (List Nat)
  | 0 => return [(← Draws.rand) % 4]
  | 1 => return [(← Draws.rand) % 1024]
  | 2 => drawCpus 32 0
  | _ => drawCpus 1024 0

/-- The blank behind the last cpu stays. -/
def affinityLine (which : Nat) (cpus : List Nat) : Str :=
  line 'a' (intText which :: intText cpus.length :: ((cpus.map fun j : Nat => intText j) ++ [[]]))

def setAffinity (e : Env) : Fuzz Unit := do
  let which ← rand
  let cpus ← draw (affinityCpus (which % 4))
  e.pt .elsewhere
  let result ← answer
  whenever (result = 0) (logLine e 'a' (affinityLine (which % 4) cpus))

/-- The mask is allocated once. -/
def cpuAffinityEvent (e : Env) : Fuzz Unit := do
  let s ← getState
  if s.cpuMask then setAffinity e
  else do
    let mask ← answer
    whenever (mask ≠ 0) do
      update fun s => { s with cpuMask := true }
      setAffinity e

/-- A line is printed into the buffer and never written. -/
def vsyscallRandomEvent (e : Env) : Fuzz Unit := do
  let _ ← rand
  e.pt .elsewhere

def runAMillionInstructions (e : Env) : Fuzz Unit := e.pt .elsewhere

/-! ## Files -/

/-- `MAX_FILES` -/
def maxFiles : Nat := 5

/-- `TYPE_ACCESS`, the bound of the search for a free place. -/
def typeAccess : Nat := 0x1000

/-- Up to three random numbers are printed; the length is that of the last one. -/
def lastNumberSize : Nat → Nat → Int → Draw Int
  | 0, _, size => return size
  | n + 1, i, size => do
    if i < (← Draws.rand) % 4 then
      lastNumberSize n (i + 1) (decimal (← Draws.rand)).length
    else return size

/-- `setup_random_write_value`: the size of what was set up. -/
def setupRandomWriteValue : Draw Int := do
  match (← Draws.rand) % 3 with
  | 0 => return if (← Draws.rand) % 5 = 0 then 2 else 1
  | 1 => lastNumberSize 4 0 (← next)
  | _ => return ((← Draws.rand) % 9000 : Nat)

def accessLine (kind which : Nat) (more : List Str) : Str :=
  line 'A' (intText kind :: intText which :: more)

/-- Reading (kind 0) or writing (kind 1) a file that is opened for it. -/
def transferFile (e : Env) (kind which : Nat) (size : Draw Int) : Fuzz Unit := do
  let fd ← openFile
  whenever (0 < fd) do
    let size ← draw size
    e.pt .elsewhere
    let result ← answer
    e.pt .elsewhere
    logLine e 'A' (accessLine kind which [intText size, intText result])
    let _ ← closeFd fd
    pure ()

/-- The first free place, or `TYPE_ACCESS`. -/
def freePlace (s : St) : Nat := ((List.range typeAccess).find? fun k => s.openFds k = 0).getD typeAccess

def leaveOpen (e : Env) : Fuzz Unit := do
  let fd ← openFile
  whenever (0 ≤ fd) do
    let s ← getState
    let k := freePlace s
    update fun s => { s with
      openFds := fun j => if j = k then fd else s.openFds j
      openFiles := s.openFiles + 1 }
    e.pt .elsewhere
    logLine e 'A' (accessLine 2 k [])

/-- `close(open_fds[k]); open_fds[k]=0; open_files--;`, of which no handler sees anything. -/
def closePlace (k : Nat) : Fuzz Unit := do
  let s ← getState
  let _ ← closeFd (s.openFds k)
  update fun s => { s with
    openFds := fun j => if j = k then 0 else s.openFds j
    openFiles := s.openFiles - 1 }

def closeOpen (e : Env) (k : Nat) : Fuzz Unit := do
  let s ← getState
  whenever (s.openFds k ≠ 0) do
    closePlace k
    e.pt .elsewhere
    logLine e 'A' (accessLine 3 k [])

def accessRandomFile (e : Env) : Fuzz Unit := do
  let file ← rand
  let readSize ← rand
  let which ← rand
  e.pt .elsewhere
  match which % 4 with
  | 0 => transferFile e 0 (file % 6) (return ((readSize % 9000 : Nat) : Int))
  | 1 => transferFile e 1 (file % 6) setupRandomWriteValue
  | 2 => do
    let s ← getState
    whenever (s.openFiles < maxFiles) (leaveOpen e)
  | _ => do
    let k ← rand
    closeOpen e (k % maxFiles)

/-! ## The loop -/

/-- The operation that a number below 13 stands for. -/
def operation (e : Env) : Nat → Fuzz Unit
  | 0 => whenever (e.enabled .perfEventOpen) (openRandomEvent e)
  | 1 => whenever (e.enabled .close) (closeRandomEvent e)
  | 2 => whenever (e.enabled .ioctl) (ioctlRandomEvent e)
  | 3 => whenever (e.enabled .prctl) (prctlRandomEvent e)
  | 4 => whenever (e.enabled .read) (readRandomEvent e)
  | 5 => whenever (e.enabled .write) (writeRandomEvent e)
  | 6 => whenever (e.enabled .access) (accessRandomFile e)
  | 7 => whenever (e.enabled .fork) (forkRandomEvent e)
  | 8 => whenever (e.enabled .poll) (pollRandomEvent e)
  | 9 => whenever (e.enabled .mmap) (mmapRandomEvent e)
  | 10 => whenever (e.enabled .vsyscall) (vsyscallRandomEvent e)
  | 11 => whenever (e.enabled .affinity) (cpuAffinityEvent e)
  | _ => whenever (e.enabled .million) (runAMillionInstructions e)

/-- One round. The two values drawn at its end are stored and never used. -/
def iteration (e : Env) : Fuzz Unit := do
  let r ← rand
  operation e (r % 13)
  e.pt .elsewhere
  let _ ← rand
  let _ ← draw randRefresh
  pure ()

/-- `n` rounds of the main loop. -/
def mainLoop (e : Env) (n : Nat) : Fuzz Unit := forRange (fun _ => iteration e) n 0

end PerfEvent.Fuzzer
