import PerfEventTests.Fuzzer.Ioctl
import PerfEventTests.Lib.Runs
import PerfEventTests.Lib.Tokens
import PerfEventTests.Replay.ParseLog

/-!
# The replay of a log

`fuzzer/replay_log.c`: the table of the recorded descriptors, a handler for each kind of line, the
signal handler, and the loop over the lines. The result of the `n`-th system call is the `n`-th
value that the environment gives, and a mapping is named by the call that made it.

A local variable that a line leaves unset holds whatever was on the stack. What is printed is left
out.
-/

namespace PerfEvent.Replay

open Text ByteMemory Fuzzer

/-- `FD_REMAP_SIZE` -/
def fdRemapSize : Nat := 2048

/-- `MAX_FILENAMES`, of the reader. -/
def maxFilenames : Nat := 6

def maxCpus : Nat := 1024

def maxPollFds : Nat := 128

/-- `MAX_READ_SIZE*sizeof(long long)` -/
def readRoom : Nat := 65536 * 8

/-- The buffer of `access_event`. -/
def accessRoom : Nat := 2048

/-! ## What a replay does -/

/-- A value of `mmap_remap`: a mapping is the call that made it and its length. -/
inductive Region where
  | failed
  | null
  | mapped (call : Nat) (length : Int)
  deriving DecidableEq

/-- `struct event_type` -/
structure Event where
  fdRemap : Int := -1
  mmapRemap : Region := .failed
  size : Int := 0
  deriving DecidableEq

inductive Argument where
  | value (v : Int)
  | period (v : Int)
  | idOut
  deriving DecidableEq

inductive Call where
  | mmap (length prot flags fd offset : Int)
  | munmap (region : Region) (length : Int)
  | perfEventOpen (attr : PerfEventAttr) (pid cpu groupFd : Int) (flags : BitVec 64)
  | close (fd : Int)
  | ioctl (fd request : Int) (arg : Argument)
  | read (fd count : Int)
  | fopen (file : Int) (writing : Bool)
  | fread (count : Int)
  | fprintf (text : Str)
  | fclose
  | schedSetaffinity (mask : Nat → Bool)
  | prctl (enable : Bool)
  | poll (fds : List (Int × Option Int)) (count timeout : Int)
  | fork
  | kill (pid : Int)
  | waitpid (pid : Int)
  | sigaction
  | fcntl (fd : Int) (command : Nat)

/-- `memset`. -/
structure Memset where
  region : Region
  value : Int
  count : Int

inductive Table where
  | event
  | fdOverflows
  | fdThrottles
  | filenames
  | cpuArray
  | pollfds
  /-- The words of the mask that `CPU_ALLOC` gives. -/
  | cpuMask
  deriving DecidableEq

def Table.size : Table → Nat
  | .event | .fdOverflows | .fdThrottles => fdRemapSize
  | .filenames => maxFilenames
  | .cpuArray => maxCpus
  | .pollfds => maxPollFds
  | .cpuMask => maxCpus / 64

/-- A use of a table at an index, or a count, a `size_t`, that is passed for a buffer with so much
room. -/
inductive Access where
  | element (table : Table) (index : Int)
  | passed (count room : Int)
  deriving DecidableEq

def Access.Inside : Access → Prop
  | .element table index => InRange table.size index
  | .passed count room => toUnsigned 64 count ≤ room

instance : (x : Access) → Decidable x.Inside
  | .element .. => inferInstanceAs (Decidable (InRange _ _))
  | .passed .. => inferInstanceAs (Decidable (_ ≤ _))

/-- A recorded descriptor for which a number was passed to the kernel, and the number that the last
open of it had obtained. -/
structure Handed where
  recorded : Int
  passed : Int
  latest : Option Int
  deriving DecidableEq

/-- A mapping that has been made for a recorded descriptor and not been undone. -/
structure Held where
  call : Nat
  fd : Int
  length : Int
  deriving DecidableEq

/-- The loop goes on, has been left, or `exit` has been called. -/
inductive Progress where
  | running
  | stopped
  | exited
  deriving DecidableEq

structure State where
  event : Int → Event
  fdOverflows : Int → Int
  fdThrottles : Int → Int
  originalPid : Int := -1
  forkedPid : Int := 0
  cpuMask : Option (Nat → Bool) := none
  lineNum : Nat := 0
  totalSyscalls : Nat := 0
  progress : Progress := .running
  calls : List Call := []
  memsets : List Memset := []
  accesses : List Access := []
  /-- What each recorded descriptor was last opened as. -/
  opened : Int → Option Int := fun _ => none
  handed : List Handed := []
  held : List Held := []

/-! ## The environment -/

/-- Which kinds of lines are replayed. -/
inductive Kind where
  | open | close | ioctl | read | mmap | munmap | prctl | fork | poll | overflow | trashMmap
  | access | affinity
  deriving DecidableEq

structure Env where
  /-- The result of each system call. -/
  result : Nat → Int
  /-- The local variables of the handler of a line. -/
  stack : Nat → Nat → Int
  openStack : Nat → OpenVars
  /-- What stands outside the tables. -/
  outsideEvent : Int → Event
  outsideCount : Int → Int
  /-- Whether `CPU_ALLOC` finds memory, and what is in it. -/
  cpuAlloc : Option (Nat → Bool)
  ownPid : Int
  which : Kind → Bool := fun _ => true
  skipLines : Nat := 0
  stopLines : Nat := 0

/-! ## Updates -/

namespace State

def setEvent (s : State) (fd : Int) (f : Event → Event) : State :=
  { s with event := fun n => if n = fd then f (s.event fd) else s.event n }

def setOverflows (s : State) (fd n : Int) : State :=
  { s with fdOverflows := fun k => if k = fd then n else s.fdOverflows k }

def setThrottles (s : State) (fd n : Int) : State :=
  { s with fdThrottles := fun k => if k = fd then n else s.fdThrottles k }

def issue (s : State) (c : Call) : State := { s with calls := s.calls ++ [c] }

def access (s : State) (x : Access) : State := { s with accesses := s.accesses ++ [x] }

def touch (s : State) (table : Table) (index : Int) : State := s.access (.element table index)

/-- The number `passed` goes to the kernel where the log has `fd`. -/
def hand (s : State) (fd passed : Int) : State :=
  { s with handed := s.handed ++ [⟨fd, passed, s.opened fd⟩] }

def setOpened (s : State) (fd : Int) (n : Int) : State :=
  { s with opened := fun k => if k = fd then some n else s.opened k }

def hold (s : State) (h : Held) : State := { s with held := s.held ++ [h] }

def release (s : State) (call : Nat) : State :=
  { s with held := s.held.filter fun h => h.call ≠ call }

def memset (s : State) (m : Memset) : State := { s with memsets := s.memsets ++ [m] }

/-! The updates that leave the table alone. -/

@[simp] theorem event_issue (s : State) (c : Call) : (s.issue c).event = s.event := rfl

@[simp] theorem event_access (s : State) (x : Access) : (s.access x).event = s.event := rfl

@[simp] theorem event_touch (s : State) (table : Table) (index : Int) :
    (s.touch table index).event = s.event := rfl

@[simp] theorem setEvent_self (s : State) (fd : Int) (f : Event → Event) :
    (s.setEvent fd f).event fd = f (s.event fd) := if_pos rfl

theorem setEvent_other (s : State) {k fd : Int} (h : k ≠ fd) (f : Event → Event) :
    (s.setEvent fd f).event k = s.event k := if_neg h

@[simp] theorem event_hand (s : State) (fd passed : Int) : (s.hand fd passed).event = s.event := rfl

@[simp] theorem event_hold (s : State) (h : Held) : (s.hold h).event = s.event := rfl

end State

variable (e : Env)

/-- What the next system call will return. -/
def Env.next (s : State) : Int := e.result s.calls.length

/-- The `k`-th variable that a scan assigns. -/
def scanned (convs : List Conv) (line : Str) (stack : Nat → Int) (k : Nat) : Int :=
  (sscanfLine convs line).getD k (stack k)

/-! ## Mappings -/

/-- `PROT_READ|PROT_WRITE` -/
def protReadWrite : Int := 3

def mapShared : Int := 1

def mmapCall (length fd : Int) : Call := .mmap length protReadWrite mapShared fd 0

/-- The entry is cleared before the call, in case it fails. -/
def mapFor (fd length : Int) (s : State) : State :=
  let remapped := (s.event fd).fdRemap
  let s := s.setEvent fd fun ev => { ev with mmapRemap := .failed, size := 0 }
  let result := e.next s
  let call := s.calls.length
  let s := (s.hand fd remapped).issue (mmapCall length remapped)
  if result = -1 then s
  else
    (s.setEvent fd fun ev => { ev with mmapRemap := .mapped call length, size := length }).hold
      ⟨call, fd, length⟩

def mmapIfOpen (fd length : Int) (s : State) : State :=
  let s := s.touch .event fd
  if (s.event fd).fdRemap = -1 then s else mapFor e fd length s

def mmapEvent (line : Str) (s : State) : State :=
  let var := scanned [.d, .d, .lx] line (e.stack s.lineNum)
  mmapIfOpen e (var 1) (var 0) s

def trashRegion (region : Region) (value size : Int) (s : State) : State :=
  match region with
  | .failed => s
  | .null => s
  | .mapped _ length => (s.access (.passed size length)).memset ⟨region, value, size⟩

def trashIfOpen (fd value size : Int) (s : State) : State :=
  let s := s.touch .event fd
  if (s.event fd).fdRemap = -1 then s else trashRegion (s.event fd).mmapRemap value size s

def trashMmapEvent (line : Str) (s : State) : State :=
  let var := scanned [.d, .d, .d] line (e.stack s.lineNum)
  trashIfOpen (var 2) (var 0) (var 1) s

/-- The call itself, for an entry that has been cleared. -/
def unmap (region : Region) (size : Int) (s : State) : State :=
  let result := e.next s
  let s := s.issue (.munmap region size)
  match region with
  | .mapped call _ => if result < 0 then s else s.release call
  | _ => s

/-- The entry is cleared whether or not its size is the one of the line. -/
def munmapIfOpen (fd size : Int) (s : State) : State :=
  let s := s.touch .event fd
  if (s.event fd).fdRemap = -1 then s
  else
    let entry := s.event fd
    let s := s.setEvent fd fun ev => { ev with mmapRemap := .failed }
    if entry.size ≠ size then s
    else if entry.mmapRemap = .failed then s
    else unmap e entry.mmapRemap size s

def munmapEvent (line : Str) (s : State) : State :=
  let var := scanned [.d, .d] line (e.stack s.lineNum)
  munmapIfOpen e (var 0) (var 1) s

/-! ## Opening and closing -/

/-- A new descriptor is entered, and its counters start again. -/
def recordOpen (recorded fd : Int) (s : State) : State :=
  if recorded > fdRemapSize then s
  else
    let s := (s.touch .event recorded).setEvent recorded fun ev =>
      { ev with fdRemap := fd, mmapRemap := .failed }
    if fd > fdRemapSize then s
    else
      ((s.touch .fdOverflows fd).setOverflows fd 0 |>.touch .fdThrottles fd).setThrottles fd 0

/-- The group leader, which is looked up before the call. -/
def remapGroup (groupFd : Int) (s : State) : Int × State :=
  if groupFd = -1 then (-1, s)
  else
    let s := s.touch .event groupFd
    let remapped := (s.event groupFd).fdRemap
    (remapped, s.hand groupFd remapped)

def openAs (o : OpenVars) (s : State) : State :=
  let pid := if o.pid.toInt = s.originalPid then e.ownPid else o.pid.toInt
  let group := remapGroup o.groupFd.toInt s
  let fd := e.next group.2
  let s := group.2.issue (.perfEventOpen o.pe pid o.cpu.toInt group.1 o.flags)
  if fd < 0 then s
  else recordOpen o.fd.toInt fd (s.setOpened o.fd.toInt fd)

/-- The attribute is read into zeros. -/
def openEvent (line : Str) (s : State) : State :=
  openAs e (parseOpenEvent line { e.openStack s.lineNum with pe := {} }) s

def closeFor (fd : Int) (s : State) : State :=
  let s := s.touch .event fd
  let remapped := (s.event fd).fdRemap
  if remapped = -1 then s
  else ((s.hand fd remapped).issue (.close remapped)).setEvent fd fun ev => { ev with fdRemap := -1 }

def closeEvent (line : Str) (s : State) : State :=
  match sscanfLine [.d] line with
  | [fd] => closeFor fd s
  | _ => s

/-! ## Calls on an event -/

/-- A request as the `int` that is logged and scanned. -/
def requestInt (request : Int) : Int := toInt32 request

def ioctlFor (fd request : Int) (arg : Argument) (s : State) : State :=
  let remapped := (s.event fd).fdRemap
  (s.hand fd remapped).issue (.ioctl remapped request arg)

/-- The switch on the request. -/
def ioctlAs (fd request arg : Int) (s : State) : State :=
  let s := s.touch .event fd
  if request = requestInt iocSetOutput then
    if arg = -1 then ioctlFor fd request (.value arg) s
    else
      let s := s.touch .event arg
      let output := (s.event arg).fdRemap
      ioctlFor fd request (.value output) (s.hand arg output)
  else if request = requestInt iocId then ioctlFor fd request .idOut s
  else if request = requestInt iocPeriod then ioctlFor fd request (.period arg) s
  else ioctlFor fd request (.value arg) s

def ioctlEvent (line : Str) (s : State) : State :=
  let var := scanned [.d, .d, .ld] line (e.stack s.lineNum)
  ioctlAs (var 0) (var 1) (var 2) s

/-- The size is compared as a `size_t`. -/
def readFor (fd size : Int) (s : State) : State :=
  if toUnsigned 64 size > readRoom then s
  else
    let s := s.touch .event fd
    let remapped := (s.event fd).fdRemap
    ((s.hand fd remapped).access (.passed size readRoom)).issue (.read remapped size)

def readEvent (line : Str) (s : State) : State :=
  let var := scanned [.d, .d] line (e.stack s.lineNum)
  readFor (var 0) (var 1) s

/-- `F_SETFL`, `F_SETSIG` and `F_SETOWN`. -/
def overflowCommands : List Nat := [4, 10, 8]

def fcntlFor (fd : Int) (command : Nat) (s : State) : State :=
  let remapped := (s.event fd).fdRemap
  (s.hand fd remapped).issue (.fcntl remapped command)

def overflowFor (fd : Int) (s : State) : State :=
  overflowCommands.foldl (fun s command => fcntlFor fd command s)
    ((s.issue .sigaction).touch .event fd)

def setupOverflow (line : Str) (s : State) : State :=
  overflowFor (scanned [.d] line (e.stack s.lineNum) 0) s

/-! ## Files, processors, processes -/

/-- A file is read with one count, and written as a number. -/
def accessFile (type file size : Int) (s : State) : State :=
  let opened := e.next s
  let s := (s.touch .filenames file).issue (.fopen file (type ≠ 0))
  if opened = 0 then s
  else if type = 0 then
    ((s.access (.passed size accessRoom)).issue (.fread size)).issue .fclose
  else (s.issue (.fprintf (decimal size ++ ['\n']))).issue .fclose

/-- The bound is compared with `>`. -/
def accessAs (type which size : Int) (s : State) : State :=
  if which > maxFilenames then { s with progress := .exited } else accessFile e type which size s

def accessEvent (line : Str) (s : State) : State :=
  let var := scanned [.d, .d, .ld, .d] line (e.stack s.lineNum)
  accessAs e (var 0) (var 1) (var 2) s

def isBlankOrNewline (c : Char) : Bool := c = ' ' ∨ c = '\n'

def isBlank (c : Char) : Bool := c = ' '

/-- `CPU_SET_S(cpu,setsize,mask)`: the cpu number becomes a `size_t`. -/
def cpuSet (cpu : Int) (setSize : Nat) (mask : Nat → Bool) : Nat → Bool := fun n =>
  if (toUnsigned 64 cpu).toNat / 8 < setSize ∧ n = (toUnsigned 64 cpu).toNat then true else mask n

/-- The word that `CPU_SET_S` writes to: the size, in bytes, says whether there is one. -/
def touchMask (cpu : Int) (setSize : Nat) (s : State) : State :=
  let cpu := (toUnsigned 64 cpu).toNat
  if cpu / 8 < setSize then s.touch .cpuMask (cpu / 64 : Nat) else s

theorem touchMask_elim {P : State → Prop} {s : State} (cpu : Int) (setSize : Nat) (hs : P s)
    (htouch : ∀ word : Nat, P (s.touch .cpuMask word)) : P (touchMask cpu setSize s) := by
  unfold touchMask
  dsimp only
  split
  · exact htouch _
  · exact hs

/-- `CPU_ALLOC_SIZE(max_cpus)` -/
def cpuSetSize : Nat := maxCpus / 8

/-- The numbers behind the first two are stored one after the other. -/
def storeCpus : Nat → List Str → State → State
  | _, [], s => s
  | i, _ :: ts, s => storeCpus (i + 1) ts (s.touch .cpuArray i)

theorem storeCpus_lineNum (texts : List Str) : ∀ (i : Nat) (s : State),
    (storeCpus i texts s).lineNum = s.lineNum := by
  induction texts with
  | nil => exact fun _ _ => rfl
  | cons text texts ih => exact fun i _ => ih (i + 1) _

/-- The elements from `j` on that a loop with the bound `n` reads. The size of the mask is given as
the number of its processors. -/
def readCpus (cpus : Int → Int) : Nat → Nat → (Nat → Bool) → State → (Nat → Bool) × State
  | 0, _, mask, s => (mask, s)
  | n + 1, j, mask, s =>
    readCpus cpus n (j + 1) (cpuSet (cpus j) maxCpus mask)
      (touchMask (cpus j) maxCpus (s.touch .cpuArray j))

/-- `cpu_array[i]`, which may not have been set. -/
def cpuArray (texts : List Str) (stack : Nat → Int) (i : Int) : Int :=
  match texts[i.toNat]? with
  | some t => if 0 ≤ i then atoi t else stack i.toNat
  | none => stack i.toNat

/-- The switch on the kind of affinity: the mask that it leaves. -/
def affinityMask (which num : Int) (cpus : Int → Int) (mask : Nat → Bool) (s : State) :
    (Nat → Bool) × State :=
  if which = 0 ∨ which = 1 then
    (cpuSet (cpus 0) cpuSetSize fun _ => false, touchMask (cpus 0) cpuSetSize (s.touch .cpuArray 0))
  else if which = 2 ∨ which = 3 then readCpus cpus num.toNat 0 (fun _ => false) s
  else (mask, s)

/-- Of the mask the kernel takes no more than it has processors, whatever the size. -/
def setAffinity (which num : Int) (texts : List Str) (mask : Nat → Bool) (s : State) : State :=
  let s := storeCpus 0 texts s
  let r := affinityMask which num (cpuArray texts (e.stack s.lineNum)) mask s
  { r.2.issue (.schedSetaffinity r.1) with cpuMask := some r.1 }

/-- The texts of an affinity line. -/
def affinityAs (texts : List Str) (mask : Nat → Bool) (s : State) : State :=
  match texts with
  | _ :: which :: num :: texts => setAffinity e (atoi which) (atoi num) texts mask s
  | _ => s

/-- The line is cut behind its first text, unless no mask could be allocated. -/
def affinityEvent (line : Str) (s : State) : Str × State :=
  match s.cpuMask <|> e.cpuAlloc with
  | none => (line, s)
  | some mask =>
    (line.takeWhile fun c => !isBlankOrNewline c,
      affinityAs e (tokens isBlankOrNewline line) mask { s with cpuMask := some mask })

/-- A variable that is zero when the line has no number. -/
def flagOf (line : Str) : Int := (sscanfLine [.d] line).getD 0 0

def prctlEvent (line : Str) (s : State) : State := s.issue (.prctl (flagOf line ≠ 0))

/-- The entries from `i` on, as far as there are texts. The descriptors are passed as they are. -/
def pollEntries : Nat → Nat → List Str → State → List (Int × Option Int) × List Str × State
  | 0, _, texts, s => ([], texts, s)
  | _ + 1, _, [], s => ([], [], s)
  | _ + 1, i, [fd], s => ([(atoi fd, none)], [], (s.touch .pollfds i).hand (atoi fd) (atoi fd))
  | n + 1, i, fd :: events :: texts, s =>
    let r := pollEntries n (i + 1) texts ((s.touch .pollfds i).hand (atoi fd) (atoi fd))
    ((atoi fd, some (toSigned 16 (atoi events))) :: r.1, r.2)

def pollAs (num : Int) (texts : List Str) (s : State) : State :=
  let r := pollEntries num.toNat 0 texts s
  let timeout := (r.2.1.head?.map atoi).getD 0
  (r.2.2.access (.passed num maxPollFds)).issue (.poll r.1 num timeout)

def pollEvent (line : Str) (s : State) : State :=
  pollAs (scanned [.d] line (e.stack s.lineNum) 0) ((tokens isBlank line).drop 2) s

/-- The child never returns from the call, so this is the parent. -/
def Env.forked (s : State) : Int := if 0 < e.next s then e.next s else -1

def forkEvent (line : Str) (s : State) : State :=
  if flagOf line ≠ 0 then { s.issue .fork with forkedPid := e.forked s }
  else (s.issue (.kill s.forkedPid)).issue (.waitpid s.forkedPid)

/-! ## Signals -/

/-- `MAX_THROTTLES`, of the replay. -/
def replayMaxThrottles : Int := 20

def throttleOverflow (fd : Int) (s : State) : State :=
  let s := s.touch .fdThrottles fd
  let throttles := s.fdThrottles fd + 1
  let s := (s.setThrottles fd throttles).setOverflows fd 0
  if throttles > replayMaxThrottles then
    ((s.issue (.close fd)).touch .event fd).setEvent fd fun ev => { ev with fdRemap := -1 }
  else s

/-- The descriptor of the signal is one of the replay, and it is used as an index all the same. -/
def ourHandler (fd : Int) (s : State) : State :=
  let s := (s.issue (.ioctl fd perfEventIocDisable (.value 0))).touch .fdOverflows fd
  let overflows := s.fdOverflows fd + 1
  let s := s.setOverflows fd overflows
  if overflows > 10000 then throttleOverflow fd s
  else s.issue (.ioctl fd perfEventIocRefresh (.value 1))

/-! ## The loop -/

/-- What is behind a zero byte is not seen. -/
def cString (line : Str) : Str := line.takeWhile (· ≠ '\x00')

/-- One kind of line. -/
def replayAs (kind : Kind) (handler : State → State) (s : State) : State :=
  if e.which kind then handler s else s

inductive Command where
  | access | affinity | close | fork | pid | ioctl | mmap | open | overflow | prctl | poll | trash
  | quit | read | munmap | other
  deriving DecidableEq

/-- The labels of the switch on the first character. -/
def command : Option Char → Command
  | some 'A' => .access
  | some 'a' => .affinity
  | some 'C' => .close
  | some 'F' => .fork
  | some 'G' => .pid
  | some 'I' => .ioctl
  | some 'M' => .mmap
  | some 'O' => .open
  | some 'o' => .overflow
  | some 'P' => .prctl
  | some 'p' => .poll
  | some 'Q' => .trash
  | some 'q' => .quit
  | some 'R' => .read
  | some 'U' => .munmap
  | _ => .other

/-- An affinity line goes on as a close line. -/
def affinityThenClose (line : Str) (s : State) : State :=
  let r := if e.which .affinity then affinityEvent e line s else (line, s)
  replayAs e .close (closeEvent r.1) r.2

def runCommand (line : Str) (s : State) : Command → State
  | .access => replayAs e .access (accessEvent e line) s
  | .affinity => affinityThenClose e line s
  | .close => replayAs e .close (closeEvent line) s
  | .fork => replayAs e .fork (forkEvent e line) s
  | .pid => { s with originalPid := (sscanfLine [.d] line).getD 0 s.originalPid }
  | .ioctl => replayAs e .ioctl (ioctlEvent e line) s
  | .mmap => replayAs e .mmap (mmapEvent e line) s
  | .open => replayAs e .open (openEvent e line) s
  | .overflow => replayAs e .overflow (setupOverflow e line) s
  | .prctl => replayAs e .prctl (prctlEvent line) s
  | .poll => replayAs e .poll (pollEvent e line) s
  | .trash => replayAs e .trashMmap (trashMmapEvent e line) s
  | .quit => { s with progress := .exited }
  | .read => replayAs e .read (readEvent e line) s
  | .munmap => replayAs e .munmap (munmapEvent e line) s
  | .other => s

def dispatch (line : Str) (s : State) : State := runCommand e line s (command line.head?)

/-- `total_syscalls++` and the test for the last line. -/
def countLine (s : State) : State :=
  let s := { s with totalSyscalls := s.totalSyscalls + 1 }
  if e.stopLines ≠ 0 ∧ s.totalSyscalls > e.stopLines then { s with progress := .stopped } else s

/-- One round of the loop. The first two lines are never skipped. -/
def replayLine (line : Str) (s : State) : State :=
  let s := { s with lineNum := s.lineNum + 1 }
  if 2 < s.lineNum ∧ s.lineNum < e.skipLines then s
  else
    let s := dispatch e (cString line) s
    if s.progress = .running then countLine e s else s

/-- A line of the log, or a signal between two lines. -/
inductive Happening where
  | line (text : Str)
  | signal (fd : Int)

def step (s : State) (h : Happening) : State :=
  if s.progress = .running then
    match h with
    | .line text => replayLine e text s
    | .signal fd => ourHandler fd s
  else s

def startState : State where
  event fd := if InRange fdRemapSize fd then {} else e.outsideEvent fd
  fdOverflows fd := if InRange fdRemapSize fd then 0 else e.outsideCount fd
  fdThrottles fd := if InRange fdRemapSize fd then 0 else e.outsideCount fd

/-- The loop over the lines. -/
def replayFrom (hs : List Happening) (s : State) : State := hs.foldl (step e) s

/-- A child that is left over is killed, unless `exit` was called. -/
def killChild (s : State) : State :=
  if s.progress ≠ .exited ∧ s.forkedPid ≠ 0 then s.issue (.kill s.forkedPid) else s

def replay (hs : List Happening) : State := killChild (replayFrom e hs (startState e))

/-! ## A quiet environment -/

def zeroBits : BitLocals :=
  ⟨0, 0, 0, 0, 0, 0, 0, 0, 0, 0, 0, 0, 0, 0, 0, 0, 0, 0, 0, 0, 0, 0, 0, 0, 0, 0, 0, 0, 0, 0, 0, 0, 0,
    0, 0, 0, 0⟩

/-- All memory is zero, and the system calls return the values given. -/
def zeroEnv (result : Nat → Int) : Env where
  result := result
  stack _ _ := 0
  openStack _ := ⟨0, 0, 0, 0, 0, {}, zeroBits⟩
  outsideEvent _ := {}
  outsideCount _ := 0
  cpuAlloc := some fun _ => false
  ownPid := 1

end PerfEvent.Replay
