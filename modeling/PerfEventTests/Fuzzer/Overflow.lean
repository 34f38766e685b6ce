import PerfEventTests.Fuzzer.Mmap

/-!
# Closing events, and the signal handlers

`fuzzer/fuzz_close.c` and `fuzzer/fuzz_overflow.c`, and where the handlers run.
-/

namespace PerfEvent.Fuzzer

open Draws Programs Text

/-! ## Closing -/

def closeLine (fd : Int) : Str := line 'C' [intText fd]

/-- `unmap_mmap(event_data[i].mmap,from_sigio)` -/
def unmapOf (e : Env) (i : Int) (fromSigio : Bool) : Fuzz Unit := do
  let ev ← getEvent i
  unmapMmap e ev.mmap fromSigio

/-- `close(event_data[i].fd)` -/
def closeDescriptor (i : Int) : Fuzz Unit := do
  let ev ← getEvent i
  update fun s => s.addCall i .close
  let _ ← closeFd ev.fd
  pure ()

def closeActive (e : Env) (i : Int) (fromSigio : Bool) : Fuzz Unit := do
  let r ← rand
  e.pt (.closing i)
  setEvent i fun ev => { ev with active := false }
  e.pt .elsewhere
  whenever (r % 2 = 1) (unmapOf e i fromSigio)
  e.pt .elsewhere
  closeDescriptor i
  e.pt .elsewhere
  whenever (!fromSigio) do
    let ev ← getEvent i
    logLine e 'C' (closeLine ev.fd)
    e.pt .elsewhere
  whenever (r % 2 ≠ 1) (unmapOf e i fromSigio)
  e.pt .elsewhere
  update fun s => { s with activeEvents := s.activeEvents - 1 }

def closeEvent (e : Env) (i : Int) (fromSigio : Bool) : Fuzz Unit :=
  whenever (0 ≤ i) do
    e.pt (.closing i)
    closeActive e i fromSigio

def closeRandomEvent (e : Env) : Fuzz Unit := do
  let i ← findRandomActiveEvent e
  closeEvent e i.index false

/-! ## Handlers -/

/-- `MAX_THROTTLES` -/
def maxThrottles : Int := 10

def perfEventIocDisable : Int := 0x2401

def perfEventIocRefresh : Int := 0x2402

def closeIfActive (e : Env) (i : Int) : Fuzz Unit := do
  e.pt .elsewhere
  let ev ← getEvent i
  whenever ev.active (closeEvent e i true)

/-- The signal comes from the kernel when the queue of real-time signals is full. -/
def sigioHandler (e : Env) : Fuzz Unit := do
  let siKernel ← answer
  whenever (siKernel ≠ 0) do
    update fun s => { s with storms := s.storms + 1 }
    forRange (fun i => closeIfActive e i) numEvents 0

/-- The event is closed for good when it has been throttled too often. -/
def throttle (e : Env) (i : Int) : Fuzz Unit := do
  setEvent i fun ev => { ev with overflows := 0, throttles := ev.throttles + 1 }
  e.pt .elsewhere
  let ev ← getEvent i
  whenever (maxThrottles < ev.throttles) do
    e.pt (.storm i)
    let ev ← getEvent i
    let _ ← closeFd ev.fd
    pure ()

/-- The event is read and refreshed. The static `next_refresh` of this file is always 0. -/
def refresh (e : Env) (i : Int) : Fuzz Unit := do
  let ev ← getEvent i
  let _ ← perfMmapRead e ev.mmap
  e.pt .elsewhere
  let ret ← answer
  whenever (ret = 0) (setEvent i fun ev => { ev with lastRefresh := 0 })

def countOverflow (e : Env) (i : Int) : Fuzz Unit := do
  e.pt .elsewhere
  setEvent i fun ev => { ev with overflows := ev.overflows + 1 }
  e.pt .elsewhere
  let ev ← getEvent i
  if 10000 < ev.overflows then throttle e i else refresh e i

/-- `our_handler`, for a signal from `fd`. -/
def handleOverflow (e : Env) (fd : Int) : Fuzz Unit := do
  update fun s => { s with alreadyHandling := true }
  e.pt .elsewhere
  let ret ← answer
  whenever (0 ≤ ret) do
    let i ← lookupEvent e fd
    whenever (0 ≤ i.index) (countOverflow e i.index)
  e.pt .elsewhere
  update fun s => { s with alreadyHandling := false }

def ourHandler (e : Env) (fd : Int) : Fuzz Unit := do
  let s ← getState
  whenever (!s.alreadyHandling) (handleOverflow e fd)

/-! ## Delivery

Between two statements any number of signals may arrive, and a signal of one kind may interrupt
the handler of the other kind. A negative answer ends the run there, so that the end of a run may
be any point of the program.
-/

/-- What is asked of a run: where it may go on, and where `sigio_handler` may run. A run that does
otherwise ends there. -/
structure Rules where
  passes : Loc → St → Bool := fun _ _ => true
  delivers : Loc → St → Bool := fun _ _ => true

/-- All runs. -/
def anyRun : Rules := {}

def passPoint (r : Rules) (loc : Loc) : Fuzz Unit := do
  let s ← getState
  if r.passes loc s then pure () else stop

/-- How many signals arrive. -/
def arrivals : Fuzz Nat := do
  let a ← answer
  if a < 0 then stop else return (a / 2 ^ 32).toNat

/-- A point of a handler that nothing interrupts. -/
def quietPoint (r : Rules) (loc : Loc) : Fuzz Unit := do
  passPoint r loc
  let _ ← arrivals
  pure ()

def deliverSigio (r : Rules) (loc : Loc) (handler : Fuzz Unit) : Fuzz Unit := do
  let s ← getState
  if r.delivers loc s then handler else stop

/-- A point of `our_handler`, which runs at `loc`. -/
def pointInOverflow (c : Config) (r : Rules) (loc here : Loc) : Fuzz Unit := do
  passPoint r here
  let n ← arrivals
  forRange (fun _ => deliverSigio r loc (sigioHandler ⟨c, quietPoint r⟩)) n 0

/-- A point of `sigio_handler`. -/
def pointInSigio (c : Config) (r : Rules) (here : Loc) : Fuzz Unit := do
  passPoint r here
  let n ← arrivals
  forRange (fun _ => do
    let fd ← answer
    ourHandler ⟨c, quietPoint r⟩ fd) n 0

def deliver (c : Config) (r : Rules) (loc : Loc) : Fuzz Unit := do
  let fd ← answer
  if fd < 0 then deliverSigio r loc (sigioHandler ⟨c, pointInSigio c r⟩)
  else ourHandler ⟨c, pointInOverflow c r loc⟩ fd

/-- A point of the main program. -/
def mainPoint (c : Config) (r : Rules) (loc : Loc) : Fuzz Unit := do
  passPoint r loc
  let n ← arrivals
  forRange (fun _ => deliver c r loc) n 0

/-- The fuzzer whose runs obey the rules. -/
def Config.env (c : Config) (r : Rules) : Env := ⟨c, mainPoint c r⟩

/-- The fuzzer with no signals. -/
def Config.quiet (c : Config) : Env := ⟨c, fun _ => pure ()⟩

end PerfEvent.Fuzzer
