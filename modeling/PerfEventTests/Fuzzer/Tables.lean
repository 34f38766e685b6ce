import PerfEventTests.Fuzzer.State
import PerfEventTests.Lib.Searches

/-!
# Searching the tables

`find_random_active_event` and its relatives in `fuzzer/perf_fuzzer.c` and `fuzzer/fuzz_mmap.c`.
All of them return -1 when they find nothing, and most callers use the result as an index as it is.
-/

namespace PerfEvent.Fuzzer

open Draws Programs

/-- The result of a search. The code has the index only; `sure` says whether what was looked for
was in the table when the search began and no handler has emptied the table since. -/
structure Found where
  index : Int
  sure : Bool

/-- How many slots pass a test. -/
def countSlots (p : EventData → Bool) (s : St) : Nat :=
  Nat.count (fun k => p (s.eventData k) = true) numEvents

def slotTest (e : Env) (p : EventData → Bool) (i : Nat) : Fuzz Bool := do
  e.pt .elsewhere
  let ev ← getEvent i
  return p ev

/-- `x=rand()%active_events`: a division by zero ends the process. -/
def position (active : Int) : Fuzz Nat :=
  if active = 0 then stop
  else do
    let r ← rand
    return (Int.tmod r active).toNat

/-- A random one of the slots that pass a test, by a position that is drawn below the number of
all active events. -/
def findRandomSlot (e : Env) (p : EventData → Bool) : Fuzz Found := do
  let s ← getState
  if s.activeEvents < 1 then return ⟨-1, false⟩
  else do
    e.pt .elsewhere
    let s ← getState
    let x ← position s.activeEvents
    let i ← nthRange (slotTest e p) numEvents 0 x
    let s' ← getState
    return ⟨i, x < countSlots p s && s'.storms = s.storms⟩

def isSampling (ev : EventData) : Bool := ev.active && ev.attr.samplePeriod ≠ 0

def isBreakpoint (ev : EventData) : Bool := ev.active && ev.attr.type = perfTypeBreakpoint

def findRandomActiveEvent (e : Env) : Fuzz Found := findRandomSlot e EventData.active

def findRandomActiveSamplingEvent (e : Env) : Fuzz Found := findRandomSlot e isSampling

def findRandomActiveBreakpointEvent (e : Env) : Fuzz Found := findRandomSlot e isBreakpoint

def hasFd (fd : Int) (ev : EventData) : Bool := ev.active && ev.fd = fd

def lookupEvent (e : Env) (fd : Int) : Fuzz Found := do
  let s ← getState
  if s.activeEvents < 1 then return ⟨-1, false⟩
  else do
    let i ← findRange (slotTest e (hasFd fd)) numEvents 0
    let s' ← getState
    return ⟨i, 0 < countSlots (hasFd fd) s && s'.storms = s.storms⟩

def findEmptyEvent (e : Env) : Fuzz Int := findRange (slotTest e fun ev => !ev.active) numEvents 0

def mmapTest (e : Env) (p : MmapEntry → Bool) (i : Nat) : Fuzz Bool := do
  e.pt .elsewhere
  let m ← getMmap i
  return p m

def findEmptyMmap (e : Env) : Fuzz Int := findRange (mmapTest e fun m => !m.active) maxMmaps 0

def findRandomActiveMmap (e : Env) : Fuzz Int := do
  let s ← getState
  if s.activeMmaps < 1 then return -1
  else do
    e.pt .elsewhere
    let s ← getState
    let x ← position s.activeMmaps
    nthRange (mmapTest e MmapEntry.active) maxMmaps 0 x

end PerfEvent.Fuzzer
