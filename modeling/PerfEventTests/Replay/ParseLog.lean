import PerfEventTests.Abi.Attr
import PerfEventTests.Lib.Text

/-!
# Reading an open line

`parse_open_event` in `fuzzer/parse_log.c`: one `sscanf` into the caller's variables, the fields
of the attribute and a local variable for each bit-field, and then the assignment of the
bit-fields. What `sscanf` does not assign keeps its old value.
-/

namespace PerfEvent.Replay

open Text

/-- The local variables, which start with whatever was on the stack. -/
structure BitLocals where
  disabled : Int
  inherit : Int
  pinned : Int
  exclusive : Int
  excludeUser : Int
  excludeKernel : Int
  excludeHv : Int
  excludeIdle : Int
  mmap : Int
  comm : Int
  freq : Int
  inheritStat : Int
  enableOnExec : Int
  task : Int
  watermark : Int
  preciseIp : Int
  mmapData : Int
  sampleIdAll : Int
  excludeHost : Int
  excludeGuest : Int
  excludeCallchainKernel : Int
  excludeCallchainUser : Int
  mmap2 : Int
  commExec : Int
  useClockid : Int
  contextSwitch : Int
  writeBackward : Int
  namespaces : Int
  ksymbol : Int
  bpfEvent : Int
  auxOutput : Int
  cgroup : Int
  textPoke : Int
  buildId : Int
  inheritThread : Int
  removeOnExec : Int
  sigtrap : Int

/-- Every variable that the `sscanf` may assign. -/
structure OpenVars where
  fd : BitVec 32
  pid : BitVec 32
  cpu : BitVec 32
  groupFd : BitVec 32
  flags : BitVec 64
  pe : PerfEventAttr
  bits : BitLocals

/-- A conversion with the assignment through its pointer. -/
structure ScanField where
  conv : Conv
  store : Int → OpenVars → OpenVars

def openFields : List ScanField := [
  ⟨.d, fun v o => { o with fd := BitVec.ofInt 32 v }⟩,
  ⟨.d, fun v o => { o with pid := BitVec.ofInt 32 v }⟩,
  ⟨.d, fun v o => { o with cpu := BitVec.ofInt 32 v }⟩,
  ⟨.d, fun v o => { o with groupFd := BitVec.ofInt 32 v }⟩,
  ⟨.lx, fun v o => { o with flags := BitVec.ofInt 64 v }⟩,
  ⟨.x, fun v o => { o with pe := { o.pe with type := BitVec.ofInt 32 v } }⟩,
  ⟨.x, fun v o => { o with pe := { o.pe with size := BitVec.ofInt 32 v } }⟩,
  ⟨.lx, fun v o => { o with pe := { o.pe with config := BitVec.ofInt 64 v } }⟩,
  ⟨.lx, fun v o => { o with pe := { o.pe with samplePeriod := BitVec.ofInt 64 v } }⟩,
  ⟨.lx, fun v o => { o with pe := { o.pe with sampleType := BitVec.ofInt 64 v } }⟩,
  ⟨.lx, fun v o => { o with pe := { o.pe with readFormat := BitVec.ofInt 64 v } }⟩,
  ⟨.d, fun v o => { o with bits := { o.bits with disabled := v } }⟩,
  ⟨.d, fun v o => { o with bits := { o.bits with inherit := v } }⟩,
  ⟨.d, fun v o => { o with bits := { o.bits with pinned := v } }⟩,
  ⟨.d, fun v o => { o with bits := { o.bits with exclusive := v } }⟩,
  ⟨.d, fun v o => { o with bits := { o.bits with excludeUser := v } }⟩,
  ⟨.d, fun v o => { o with bits := { o.bits with excludeKernel := v } }⟩,
  ⟨.d, fun v o => { o with bits := { o.bits with excludeHv := v } }⟩,
  ⟨.d, fun v o => { o with bits := { o.bits with excludeIdle := v } }⟩,
  ⟨.d, fun v o => { o with bits := { o.bits with mmap := v } }⟩,
  ⟨.d, fun v o => { o with bits := { o.bits with comm := v } }⟩,
  ⟨.d, fun v o => { o with bits := { o.bits with freq := v } }⟩,
  ⟨.d, fun v o => { o with bits := { o.bits with inheritStat := v } }⟩,
  ⟨.d, fun v o => { o with bits := { o.bits with enableOnExec := v } }⟩,
  ⟨.d, fun v o => { o with bits := { o.bits with task := v } }⟩,
  ⟨.d, fun v o => { o with bits := { o.bits with watermark := v } }⟩,
  ⟨.d, fun v o => { o with bits := { o.bits with preciseIp := v } }⟩,
  ⟨.d, fun v o => { o with bits := { o.bits with mmapData := v } }⟩,
  ⟨.d, fun v o => { o with bits := { o.bits with sampleIdAll := v } }⟩,
  ⟨.d, fun v o => { o with bits := { o.bits with excludeHost := v } }⟩,
  ⟨.d, fun v o => { o with bits := { o.bits with excludeGuest := v } }⟩,
  ⟨.d, fun v o => { o with bits := { o.bits with excludeCallchainKernel := v } }⟩,
  ⟨.d, fun v o => { o with bits := { o.bits with excludeCallchainUser := v } }⟩,
  ⟨.d, fun v o => { o with bits := { o.bits with mmap2 := v } }⟩,
  ⟨.d, fun v o => { o with bits := { o.bits with commExec := v } }⟩,
  ⟨.d, fun v o => { o with bits := { o.bits with useClockid := v } }⟩,
  ⟨.d, fun v o => { o with bits := { o.bits with contextSwitch := v } }⟩,
  ⟨.d, fun v o => { o with bits := { o.bits with writeBackward := v } }⟩,
  ⟨.d, fun v o => { o with bits := { o.bits with namespaces := v } }⟩,
  ⟨.d, fun v o => { o with bits := { o.bits with ksymbol := v } }⟩,
  ⟨.d, fun v o => { o with bits := { o.bits with bpfEvent := v } }⟩,
  ⟨.d, fun v o => { o with bits := { o.bits with auxOutput := v } }⟩,
  ⟨.d, fun v o => { o with bits := { o.bits with cgroup := v } }⟩,
  ⟨.d, fun v o => { o with bits := { o.bits with textPoke := v } }⟩,
  ⟨.d, fun v o => { o with bits := { o.bits with buildId := v } }⟩,
  ⟨.d, fun v o => { o with bits := { o.bits with inheritThread := v } }⟩,
  ⟨.d, fun v o => { o with bits := { o.bits with removeOnExec := v } }⟩,
  ⟨.d, fun v o => { o with bits := { o.bits with sigtrap := v } }⟩,
  ⟨.d, fun v o => { o with pe := { o.pe with wakeupEvents := BitVec.ofInt 32 v } }⟩,
  ⟨.d, fun v o => { o with pe := { o.pe with bpType := BitVec.ofInt 32 v } }⟩,
  ⟨.lx, fun v o => { o with pe := { o.pe with config1 := BitVec.ofInt 64 v } }⟩,
  ⟨.lx, fun v o => { o with pe := { o.pe with config2 := BitVec.ofInt 64 v } }⟩,
  ⟨.ld, fun v o => { o with pe := { o.pe with branchSampleType := BitVec.ofInt 64 v } }⟩,
  ⟨.ld, fun v o => { o with pe := { o.pe with sampleRegsUser := BitVec.ofInt 64 v } }⟩,
  ⟨.d, fun v o => { o with pe := { o.pe with sampleStackUser := BitVec.ofInt 32 v } }⟩,
  ⟨.d, fun v o => { o with pe := { o.pe with clockid := BitVec.ofInt 32 v } }⟩,
  ⟨.ld, fun v o => { o with pe := { o.pe with sampleRegsIntr := BitVec.ofInt 64 v } }⟩,
  ⟨.d, fun v o => { o with pe := { o.pe with auxWatermark := BitVec.ofInt 32 v } }⟩,
  ⟨.hd, fun v o => { o with pe := { o.pe with sampleMaxStack := BitVec.ofInt 16 v } }⟩,
  ⟨.d, fun v o => { o with pe := { o.pe with auxSampleSize := BitVec.ofInt 32 v } }⟩]

/-- The assignments of a scan that found the values `vs`. -/
def assign : List ScanField → List Int → OpenVars → OpenVars
  | f :: fs, v :: vs, o => assign fs vs (f.store v o)
  | _, _, o => o

/-- `pe->disabled=disabled;` and so on. -/
def repopulate (bits : BitLocals) (pe : PerfEventAttr) : PerfEventAttr :=
  { pe with
    disabled := BitVec.ofInt 1 bits.disabled
    inherit := BitVec.ofInt 1 bits.inherit
    pinned := BitVec.ofInt 1 bits.pinned
    exclusive := BitVec.ofInt 1 bits.exclusive
    excludeUser := BitVec.ofInt 1 bits.excludeUser
    excludeKernel := BitVec.ofInt 1 bits.excludeKernel
    excludeHv := BitVec.ofInt 1 bits.excludeHv
    excludeIdle := BitVec.ofInt 1 bits.excludeIdle
    mmap := BitVec.ofInt 1 bits.mmap
    comm := BitVec.ofInt 1 bits.comm
    freq := BitVec.ofInt 1 bits.freq
    inheritStat := BitVec.ofInt 1 bits.inheritStat
    enableOnExec := BitVec.ofInt 1 bits.enableOnExec
    task := BitVec.ofInt 1 bits.task
    watermark := BitVec.ofInt 1 bits.watermark
    preciseIp := BitVec.ofInt 2 bits.preciseIp
    mmapData := BitVec.ofInt 1 bits.mmapData
    sampleIdAll := BitVec.ofInt 1 bits.sampleIdAll
    excludeHost := BitVec.ofInt 1 bits.excludeHost
    excludeGuest := BitVec.ofInt 1 bits.excludeGuest
    excludeCallchainKernel := BitVec.ofInt 1 bits.excludeCallchainKernel
    excludeCallchainUser := BitVec.ofInt 1 bits.excludeCallchainUser
    mmap2 := BitVec.ofInt 1 bits.mmap2
    commExec := BitVec.ofInt 1 bits.commExec
    useClockid := BitVec.ofInt 1 bits.useClockid
    contextSwitch := BitVec.ofInt 1 bits.contextSwitch
    writeBackward := BitVec.ofInt 1 bits.writeBackward
    namespaces := BitVec.ofInt 1 bits.namespaces
    ksymbol := BitVec.ofInt 1 bits.ksymbol
    bpfEvent := BitVec.ofInt 1 bits.bpfEvent
    auxOutput := BitVec.ofInt 1 bits.auxOutput
    cgroup := BitVec.ofInt 1 bits.cgroup
    textPoke := BitVec.ofInt 1 bits.textPoke
    buildId := BitVec.ofInt 1 bits.buildId
    inheritThread := BitVec.ofInt 1 bits.inheritThread
    removeOnExec := BitVec.ofInt 1 bits.removeOnExec
    sigtrap := BitVec.ofInt 1 bits.sigtrap }

def parseOpenEvent (line : Str) (vars : OpenVars) : OpenVars :=
  let o := assign openFields (sscanfLine (openFields.map ScanField.conv) line) vars
  { o with pe := repopulate o.bits o.pe }

end PerfEvent.Replay
