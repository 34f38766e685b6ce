import PerfEventTests.LogToCode.Program

/-!
# Printing a log as a program

`fuzzer/log_to_code.c`: a function for each kind of line, which scans the line and prints
statements, and the loop over the lines. A variable that a line leaves unset holds whatever was on
the stack of the printer. The printer itself may stop, or use an index that is not in an array; then
there is no program.
-/

namespace PerfEvent.LogToCode

open Text ByteMemory
open Fuzzer (InRange iocEnable iocReset iocPeriod iocSetOutput iocSetFilter iocId
  perfEventIocDisable perfEventIocRefresh)
open Replay (OpenVars Command parseOpenEvent scanned requestInt isBlank isBlankOrNewline
  flagOf command cString maxCpus maxFilenames cpuArray overflowCommands)

/-! ## The kinds of lines -/

def mmapEvent (line : Str) (stack : Nat → Int) : List Statement :=
  let var := scanned [.d, .d] line stack
  [.mmap (var 1) (var 0)]

def trashMmapEvent (line : Str) (stack : Nat → Int) : List Statement :=
  let var := scanned [.d, .d, .d] line stack
  [.memset (var 2) (var 0) (var 1)]

def munmapEvent (line : Str) (stack : Nat → Int) : List Statement :=
  let var := scanned [.d, .d] line stack
  [.munmap (var 0) (var 1)]

/-- The attribute is on the stack too. -/
def openEvent (originalPid : BitVec 32) (line : Str) (stack : OpenVars) : List Statement :=
  let o := parseOpenEvent line stack
  [.openEvent o.fd.toInt o.groupFd.toInt
    (AttrPrint.perfPrettyPrintEvent o.pe .stdout o.fd.toInt originalPid o.pid o.cpu o.groupFd
      o.flags)]

def closeEvent (line : Str) (stack : Nat → Int) : List Statement :=
  [.close (scanned [.d] line stack 0)]

/-- The parameter is an `int`. -/
def ioctlArgPrint (arg : BitVec 32) : Arg :=
  if arg.getLsbD 0 then .grouped arg else .number arg.toInt

/-- The switch on the request. -/
def ioctlStatements (fd arg arg2 : Int) : List Statement :=
  if arg = requestInt iocEnable then [.ioctl fd arg (ioctlArgPrint (.ofInt 32 arg2))]
  else if arg = requestInt perfEventIocDisable then [.ioctl fd arg (ioctlArgPrint (.ofInt 32 arg2))]
  else if arg = requestInt perfEventIocRefresh then [.ioctl fd arg (.number arg2)]
  else if arg = requestInt iocReset then [.ioctl fd arg (ioctlArgPrint (.ofInt 32 arg2))]
  else if arg = requestInt iocPeriod then [.setPeriod arg2, .ioctl fd arg .period]
  else if arg = requestInt iocSetOutput then
    if arg2 = -1 then [.ioctl fd arg (.number arg2)] else [.ioctl fd arg (.descriptor arg2)]
  else if arg = requestInt iocSetFilter then [.ioctl fd arg (.number arg2)]
  else if arg = requestInt iocId then [.ioctl fd arg .id]
  else [.ioctl fd arg (.number arg2)]

def ioctlEvent (line : Str) (stack : Nat → Int) : List Statement :=
  let var := scanned [.d, .d, .ld] line stack
  ioctlStatements (var 0) (var 1) (var 2)

def readEvent (line : Str) (stack : Nat → Int) : List Statement :=
  let var := scanned [.d, .d] line stack
  [.read (var 0) (var 1)]

def prctlEvent (line : Str) : List Statement := [.prctl (flagOf line ≠ 0)]

/-- The entries from `i` on, as far as there are two texts for each, and the texts behind them. -/
def pollEntries : Nat → Nat → List Str → List Statement × List Str
  | 0, _, texts => ([], texts)
  | _ + 1, _, [] => ([], [])
  | _ + 1, _, [_] => ([], [])
  | n + 1, i, fd :: events :: texts =>
    let r := pollEntries n (i + 1) texts
    (.setPollfd i (atoi fd) (toSigned 16 (atoi events)) :: r.1, r.2)

/-- Without a timeout there is no call. -/
def pollStatements (num : Int) (texts : List Str) : List Statement :=
  let r := pollEntries num.toNat 0 texts
  match r.2 with
  | [] => r.1
  | timeout :: _ => r.1 ++ [.poll num (atoi timeout)]

def pollEvent (line : Str) (stack : Nat → Int) : List Statement :=
  pollStatements (scanned [.d] line stack 0) ((tokens isBlank line).drop 2)

/-- The printer stops at a number that is too large, and has no name for a negative one. -/
def accessStatements (type which size : Int) : Option (List Statement) :=
  if InRange maxFilenames which then
    if type = 0 then some [.fopen which false, .ifOpened [.fread size, .fclose]]
    else some [.fopen which true, .ifOpened [.fprintf size, .fclose]]
  else none

def accessEvent (line : Str) (stack : Nat → Int) : Option (List Statement) :=
  let var := scanned [.d, .d, .ld, .d] line stack
  accessStatements (var 0) (var 1) (var 2)

/-- Only one kind of affinity is printed. The numbers of all kinds are stored in an array. -/
def affinityStatements (texts : List Str) (stack : Nat → Int) : Option (List Statement) :=
  match texts with
  | _ :: which :: _ :: cpus =>
    if cpus.length ≤ maxCpus then
      if atoi which = 0 then
        some [.setSize, .cpuZero, .cpuSet (cpuArray cpus stack 0), .schedSetaffinity]
      else some [.setSize]
    else none
  | _ => some []

def affinityEvent (line : Str) (stack : Nat → Int) : Option (List Statement) :=
  affinityStatements (tokens isBlankOrNewline line) stack

def forkEvent (line : Str) : List Statement :=
  if flagOf line ≠ 0 then [.fork] else [.kill, .waitpid]

def overflowStatements (fd : Int) : List Statement := .sigaction :: overflowCommands.map (.fcntl fd)

def setupOverflow (line : Str) (stack : Nat → Int) : List Statement :=
  overflowStatements (scanned [.d] line stack 0)

/-! ## The loop -/

/-- What stands on the stack of the printer at each line. -/
structure Stack where
  vars : Nat → Nat → Int
  openVars : Nat → OpenVars

/-- The variables of the printer. -/
structure Printer where
  originalPid : BitVec 32 := -1
  lineNum : Nat := 0

variable (stack : Stack)

/-- The switch on the first character. A quit line is not known to it. -/
def printCommand (line : Str) (c : Printer) : Command → Option (List Statement)
  | .access => accessEvent line (stack.vars c.lineNum)
  | .affinity => affinityEvent line (stack.vars c.lineNum)
  | .close => some (closeEvent line (stack.vars c.lineNum))
  | .fork => some (forkEvent line)
  | .ioctl => some (ioctlEvent line (stack.vars c.lineNum))
  | .mmap => some (mmapEvent line (stack.vars c.lineNum))
  | .open => some (openEvent c.originalPid line (stack.openVars c.lineNum))
  | .overflow => some (setupOverflow line (stack.vars c.lineNum))
  | .prctl => some (prctlEvent line)
  | .poll => some (pollEvent line (stack.vars c.lineNum))
  | .trash => some (trashMmapEvent line (stack.vars c.lineNum))
  | .read => some (readEvent line (stack.vars c.lineNum))
  | .munmap => some (munmapEvent line (stack.vars c.lineNum))
  | .pid | .quit | .other => some []

/-- `sscanf(line,"%*c %d",&original_pid)` -/
def scanPid (line : Str) (c : Printer) : Command → Printer
  | .pid => { c with originalPid := ((sscanfLine [.d] line).head?.map (.ofInt 32)).getD c.originalPid }
  | _ => c

/-- One round of the loop. -/
def printLine (text : Str) (c : Printer) : Option (Printer × List Statement) :=
  let line := cString text
  let c := { c with lineNum := c.lineNum + 1 }
  (printCommand stack line c (command line.head?)).map fun statements =>
    (scanPid line c (command line.head?), statements)

/-- The statements for the lines of a log. -/
def logToCode : List Str → Printer → Option (List Statement)
  | [], _ => some []
  | line :: lines, c => do
    let (c, statements) ← printLine stack line c
    return statements ++ (← logToCode lines c)

end PerfEvent.LogToCode
