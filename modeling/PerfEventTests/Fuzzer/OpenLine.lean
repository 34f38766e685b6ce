import PerfEventTests.Fuzzer.PerfEventOpen
import PerfEventTests.Lib.Text

/-!
# The open line of the log

The event that `open_random_event` in `fuzzer/fuzz_open.c` tries to open, and its `O` line with
`perf_log_attr`.
-/

namespace PerfEvent.Fuzzer

open Text Draws

/-- Some tracepoints are made a kprobe. -/
def kprobeConfig (kprobeId : BitVec 64) (attr : PerfEventAttr) : Draw PerfEventAttr := do
  if attr.type = perfTypeTracepoint then
    if (← rand) % 10 = 5 then return { attr with config := kprobeId } else return attr
  else return attr

/-- The attribute that is handed to the kernel. The draws for the group stand between the two and
do not change it. -/
def generateAttr (pmus : List Pmu) (ownPid : BitVec 32) (rec : SyscallRecord)
    (kprobeId : BitVec 64) : Draw PerfEventAttr := do
  let r ← sanitisePerfEventOpen pmus ownPid rec
  kprobeConfig kprobeId r.1.attr

/-! ## The line -/

/-- A `__u32` that is handed to `%d`. -/
def signedText {w : Nat} (v : BitVec w) : Str := decimal v.toInt

/-- A bit-field is promoted to `int`. -/
def bitText {w : Nat} (v : BitVec w) : Str := decimal v.toNat

def hexText {w : Nat} (v : BitVec w) : Str := hex v.toNat

/-- The texts that `perf_log_attr` writes, in its order. -/
def attrTexts (attr : PerfEventAttr) : List Str :=
  [hexText attr.type, hexText attr.size, hexText attr.config, hexText attr.samplePeriod,
    hexText attr.sampleType, hexText attr.readFormat,
    bitText attr.disabled, bitText attr.inherit, bitText attr.pinned, bitText attr.exclusive,
    bitText attr.excludeUser, bitText attr.excludeKernel, bitText attr.excludeHv,
    bitText attr.excludeIdle, bitText attr.mmap, bitText attr.comm, bitText attr.freq,
    bitText attr.inheritStat, bitText attr.enableOnExec, bitText attr.task, bitText attr.watermark,
    bitText attr.preciseIp, bitText attr.mmapData, bitText attr.sampleIdAll,
    bitText attr.excludeHost, bitText attr.excludeGuest, bitText attr.excludeCallchainKernel,
    bitText attr.excludeCallchainUser, bitText attr.mmap2, bitText attr.commExec,
    bitText attr.useClockid, bitText attr.contextSwitch, bitText attr.writeBackward,
    bitText attr.namespaces, bitText attr.ksymbol, bitText attr.bpfEvent, bitText attr.auxOutput,
    bitText attr.cgroup, bitText attr.textPoke, bitText attr.buildId, bitText attr.inheritThread,
    bitText attr.removeOnExec, bitText attr.sigtrap,
    signedText attr.wakeupEvents, signedText attr.bpType,
    hexText attr.config1, hexText attr.config2,
    signedText attr.branchSampleType, signedText attr.sampleRegsUser,
    signedText attr.sampleStackUser, signedText attr.clockid, signedText attr.sampleRegsIntr,
    signedText attr.auxWatermark, signedText attr.sampleMaxStack, signedText attr.auxSampleSize]

/-- Texts with a blank behind each. -/
def spaced (texts : List Str) : Str := texts.flatMap fun t => t ++ [' ']

def perfLogAttr (attr : PerfEventAttr) : Str := spaced (attrTexts attr) ++ ['\n']

/-- The line that `open_random_event` logs for an event it has opened. -/
def openLine (fd pid cpu groupFd : BitVec 32) (flags : BitVec 64) (attr : PerfEventAttr) : Str :=
  'O' :: ' ' :: (spaced [signedText fd, signedText pid, signedText cpu, signedText groupFd,
    hexText flags] ++ perfLogAttr attr)

end PerfEvent.Fuzzer
