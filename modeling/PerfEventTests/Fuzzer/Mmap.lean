import PerfEventTests.Fuzzer.Tables

/-!
# Mapping and unmapping

`fuzzer/fuzz_mmap.c`. A slot of `mmaps` becomes active only after its mapping has been made and
recorded, and stops being active before the mapping is undone.
-/

namespace PerfEvent.Fuzzer

open Draws Programs Text

def protRead : BitVec 32 := 1
def protWrite : BitVec 32 := 2
def protExec : BitVec 32 := 4

/-- `if (rand()%2) bits|=b;` for each `b` in turn. -/
def drawBits : List (BitVec 32) → BitVec 32 → Draw (BitVec 32)
  | [], bits => return bits
  | b :: bs, bits => do
    let r ← Draws.rand
    drawBits bs (if r % 2 = 1 then bits ||| b else bits)

def mmapRandomProt : Draw (BitVec 32) := do
  if (← Draws.rand) % 10 ≠ 0 then return protRead ||| protWrite
  else drawBits [protExec, protRead, protWrite] 0

/-- `MAP_32BIT`, `MAP_DENYWRITE` and so on, in the order of the source. -/
def rareMmapFlags : List (BitVec 32) :=
  [0x40, 0x800, 0x1000, 0, 0x10, 0x100, 0x40000, 0x2000, 0x10000, 0x4000, 0x8000, 0x20000]

def mmapRandomFlags : Draw (BitVec 32) := do
  if (← Draws.rand) % 10 ≠ 0 then return 1
  else do
    let r ← Draws.rand
    drawBits rareMmapFlags (if r % 2 = 1 then 1 else 2)

def mmapRandomSize (pageSize : Nat) (notaux : Nat) : Draw Int := do
  match (← Draws.rand) % 3 with
  | 0 => return ((← Draws.rand) % 64 * pageSize : Nat)
  | 1 => return ((notaux + 2 ^ ((← Draws.rand) % 10)) * pageSize : Nat)
  | _ => return ((← Draws.rand) % 65535 : Nat)

/-- The address that is asked for. -/
def mmapAddress : Draw (BitVec 64) := do
  if (← Draws.rand) % 20 = 0 then getAddress else return 0

/-- `%p` -/
def pointerText (addr : Int) : Str :=
  if addr = 0 then "(nil)".toList else '0' :: 'x' :: hex (addr % 2 ^ 64).toNat

def mmapLine (size fd addr : Int) : Str := line 'M' [intText size, intText fd, pointerText addr]

def munmapLine (fd size addr : Int) : Str := line 'U' [intText fd, intText size, pointerText addr]

def trashLine (value pageSize : Nat) (fd : Int) : Str :=
  line 'Q' [intText value, intText pageSize, intText fd]

/-! ## Reading -/

/-- `perf_mmap_aux_read(which)`: the head of the parent's control page. -/
def perfMmapAuxRead (which : Int) : Fuzz Int := do
  let m ← getMmap which
  if m.prot &&& protRead = 0 then return 0
  else do
    let parent ← getMmap m.parentMmap
    if parent.prot &&& protRead = 0 ∨ !parent.active ∨ parent.addr = mapFailed ∨ parent.size = 0
    then return 0
    else if parent.addr = 0 then return -1 else answer

def perfMmapRead (e : Env) (which : Int) : Fuzz Int := do
  e.pt .elsewhere
  let m ← getMmap which
  if m.aux then perfMmapAuxRead which
  else if m.prot &&& protRead = 0 ∨ !m.active ∨ m.addr = mapFailed ∨ m.size = 0 then return 0
  else if m.addr = 0 then return -1 else answer

/-- `memset` of the first byte; the handler of a segmentation fault prints the event. -/
def trashWrite (i : Int) : Fuzz Unit := do
  let faults ← answer
  whenever (faults ≠ 0) do
    let m ← getMmap i
    let _ ← getEvent m.whichEvent
    pure ()

def trashAt (e : Env) (i : Int) : Fuzz Unit := do
  let value ← rand
  e.pt .elsewhere
  let m ← getMmap i
  whenever (m.prot &&& protWrite ≠ 0 ∧ !m.aux) do
    trashWrite i
    e.pt .elsewhere
    let m ← getMmap i
    logLine e 'Q' (trashLine value e.pageSize m.fd)

def trashRandomMmap (e : Env) : Fuzz Unit := do
  let i ← findRandomActiveMmap e
  whenever (0 ≤ i) (trashAt e i)

/-! ## Mapping -/

/-- The slot before its mapping is made. While its address is `MAP_FAILED` no handler looks at the
other fields. -/
def prepareMmap (e : Env) (i : Int) (fill : MmapEntry → MmapEntry) : Fuzz Unit := do
  e.pt .elsewhere
  setMmap i fun m => { m with addr := mapFailed }
  e.pt .elsewhere
  setMmap i fill

/-- The call itself, whose result goes into the slot at once. -/
def callMmap (i : Int) (which : Int) (size : Int) : Fuzz Unit := do
  let ev ← getEvent which
  let addr ← sysMmap size
  setMmap i fun m => { m with addr := addr, serial := ev.serial, mapped := addr ≠ mapFailed }

/-- What is recorded of a new mapping, up to the moment where the slot is active. -/
def recordMmap (e : Env) (i which : Int) (own : MmapEntry → MmapEntry) : Fuzz Unit := do
  update fun s => { s with activeMmaps := s.activeMmaps + 1 }
  e.pt (.mapped i)
  setEvent which fun ev => { ev with mmap := i }
  e.pt (.mapped i)
  let ev ← getEvent which
  setMmap i fun m => own { m with fd := ev.fd }
  e.pt (.mapped i)
  let m ← getMmap i
  let ev ← getEvent which
  logLine e 'M' (mmapLine m.size ev.fd m.addr)
  e.pt (.mapped i)
  setMmap i fun m => { m with active := true }
  e.pt .elsewhere

def setupMmapAuxAt (e : Env) (i whichFd whichMmap : Int) : Fuzz Unit := do
  let size ← draw (mmapRandomSize e.pageSize 0)
  let prot ← draw mmapRandomProt
  let flags ← draw mmapRandomFlags
  prepareMmap e i fun m =>
    { m with prot := prot, flags := flags, size := size, aux := true, parentMmap := whichMmap }
  e.pt .elsewhere
  let _ ← getMmap whichMmap
  callMmap i whichFd size
  e.pt (.mapped i)
  let m ← getMmap i
  whenever (m.addr ≠ mapFailed) do
    e.pt (.mapped i)
    recordMmap e i whichFd id

def setupMmapAux (e : Env) (whichFd whichMmap : Int) : Fuzz Unit := do
  let i ← findEmptyMmap e
  whenever (0 ≤ i) (setupMmapAuxAt e i whichFd whichMmap)

def setupMmapAt (e : Env) (i : Int) (which : Found) : Fuzz Unit := do
  let size ← draw (mmapRandomSize e.pageSize 1)
  let prot ← draw mmapRandomProt
  let flags ← draw mmapRandomFlags
  prepareMmap e i fun m => { m with prot := prot, flags := flags, size := size, aux := false }
  let _ ← draw mmapAddress
  e.pt .elsewhere
  e.pt (.use which.sure)
  callMmap i which.index size
  e.pt (.mapped i)
  let m ← getMmap i
  whenever (m.addr ≠ mapFailed) do
    e.pt (.mapped i)
    recordMmap e i which.index fun m => { m with whichEvent := which.index }
    let r ← rand
    whenever (r % 4 = 0) (setupMmapAux e which.index i)

def setupMmap (e : Env) (which : Found) : Fuzz Unit := do
  let i ← findEmptyMmap e
  whenever (0 ≤ i) (setupMmapAt e i which)

/-! ## Unmapping -/

def unmapAt (e : Env) (i : Int) (fromSigio : Bool) : Fuzz Unit := do
  setMmap i fun m => { m with active := false }
  e.pt .elsewhere
  let result ← sysMunmap i
  e.pt (.unmapped i)
  whenever (!fromSigio) do
    let m ← getMmap i
    logLine e 'U' (munmapLine m.fd m.size m.addr)
    e.pt (.unmapped i)
  setMmap i fun m => { m with addr := mapFailed }
  e.pt .elsewhere
  whenever (result = 0) (update fun s => { s with activeMmaps := s.activeMmaps - 1 })

def unmapMmap (e : Env) (i : Int) (fromSigio : Bool) : Fuzz Unit := do
  e.pt .elsewhere
  let m ← getMmap i
  whenever (m.addr ≠ mapFailed) do
    e.pt .elsewhere
    unmapAt e i fromSigio

def mmapRandomEvent (e : Env) : Fuzz Unit := do
  let r ← rand
  match r % 6 with
  | 0 => do
    let which ← findRandomActiveEvent e
    setupMmap e which
  | 2 => do
    let which ← findRandomActiveMmap e
    whenever (0 ≤ which) (unmapMmap e which false)
  | 3 => do
    let which ← findRandomActiveMmap e
    whenever (0 ≤ which) do
      let _ ← perfMmapRead e which
      pure ()
  | 4 => whenever (e.enabled .trashMmap) (trashRandomMmap e)
  | _ => pure ()

end PerfEvent.Fuzzer
