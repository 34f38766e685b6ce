import PerfEventTests.Fuzzer.OpenLine
import PerfEventTests.Fuzzer.PerfEventOpen
import PerfEventTests.Replay.ParseLog

/-!
# Open lines are read back

The writer and the reader of an `O` line side by side: every text that the writer prints is one
conversion of the reader, and what the conversion stores is the field that was printed. The
reader leaves the fields alone that the writer does not print.
-/

namespace PerfEvent.Replay

open Text Fuzzer Draws

/-! ## The two sides item by item -/

def signedItem {w : Nat} (c : Conv) (v : BitVec w) : Item := ⟨c, signedText v, v.toInt⟩

def bitItem {w : Nat} (v : BitVec w) : Item := ⟨.d, bitText v, v.toNat⟩

def hexItem {w : Nat} (c : Conv) (v : BitVec w) : Item := ⟨c, hexText v, v.toNat⟩

def headerItems (fd pid cpu groupFd : BitVec 32) (flags : BitVec 64) : List Item :=
  [signedItem .d fd, signedItem .d pid, signedItem .d cpu, signedItem .d groupFd,
    hexItem .lx flags]

def attrItems (attr : PerfEventAttr) : List Item :=
  [hexItem .x attr.type, hexItem .x attr.size, hexItem .lx attr.config,
    hexItem .lx attr.samplePeriod, hexItem .lx attr.sampleType, hexItem .lx attr.readFormat,
    bitItem attr.disabled, bitItem attr.inherit, bitItem attr.pinned, bitItem attr.exclusive,
    bitItem attr.excludeUser, bitItem attr.excludeKernel, bitItem attr.excludeHv,
    bitItem attr.excludeIdle, bitItem attr.mmap, bitItem attr.comm, bitItem attr.freq,
    bitItem attr.inheritStat, bitItem attr.enableOnExec, bitItem attr.task, bitItem attr.watermark,
    bitItem attr.preciseIp, bitItem attr.mmapData, bitItem attr.sampleIdAll,
    bitItem attr.excludeHost, bitItem attr.excludeGuest, bitItem attr.excludeCallchainKernel,
    bitItem attr.excludeCallchainUser, bitItem attr.mmap2, bitItem attr.commExec,
    bitItem attr.useClockid, bitItem attr.contextSwitch, bitItem attr.writeBackward,
    bitItem attr.namespaces, bitItem attr.ksymbol, bitItem attr.bpfEvent, bitItem attr.auxOutput,
    bitItem attr.cgroup, bitItem attr.textPoke, bitItem attr.buildId, bitItem attr.inheritThread,
    bitItem attr.removeOnExec, bitItem attr.sigtrap,
    signedItem .d attr.wakeupEvents, signedItem .d attr.bpType,
    hexItem .lx attr.config1, hexItem .lx attr.config2,
    signedItem .ld attr.branchSampleType, signedItem .ld attr.sampleRegsUser,
    signedItem .d attr.sampleStackUser, signedItem .d attr.clockid,
    signedItem .ld attr.sampleRegsIntr, signedItem .d attr.auxWatermark,
    signedItem .hd attr.sampleMaxStack, signedItem .d attr.auxSampleSize]

variable {fd pid cpu groupFd : BitVec 32} {flags : BitVec 64} {attr : PerfEventAttr}

theorem attrItems_text : (attrItems attr).map Item.text = attrTexts attr := rfl

theorem openFields_conv (fd pid cpu groupFd : BitVec 32) (flags : BitVec 64)
    (attr : PerfEventAttr) : openFields.map ScanField.conv =
      (headerItems fd pid cpu groupFd flags ++ attrItems attr).map Item.conv := rfl

theorem openLine_eq :
    openLine fd pid cpu groupFd flags attr =
      'O' :: ' ' :: ((headerItems fd pid cpu groupFd flags ++ attrItems attr).flatMap
        (fun i => i.text ++ [' ']) ++ ['\n']) := by
  have hspaced : ∀ items : List Item, spaced (items.map Item.text) =
      items.flatMap (fun i => i.text ++ [' ']) := fun items => List.flatMap_map ..
  rw [openLine, perfLogAttr, ← attrItems_text, List.flatMap_append, ← hspaced, ← hspaced,
    List.append_assoc]
  rfl

theorem scans_signed_int (v : BitVec 32) : Scans .d (signedText v) v.toInt :=
  scans_d (BitVec.le_toInt v) BitVec.toInt_lt

theorem scans_signed_long (v : BitVec 64) : Scans .ld (signedText v) v.toInt :=
  scans_ld (BitVec.le_toInt v) BitVec.toInt_lt

theorem scans_signed_short (v : BitVec 16) : Scans .hd (signedText v) v.toInt :=
  scans_hd (BitVec.le_toInt v) BitVec.toInt_lt

theorem scans_bit {w : Nat} (hw : w < 32) (v : BitVec w) : Scans .d (bitText v) v.toNat := by
  have hlt : v.toNat < 2 ^ 31 := v.isLt.trans_le (Nat.pow_le_pow_right (by decide) (by omega))
  exact scans_d (by omega) (by omega)

theorem header_scans : ∀ i ∈ headerItems fd pid cpu groupFd flags, Scans i.conv i.text i.value := by
  simp only [headerItems, List.forall_mem_cons, List.not_mem_nil, false_imp_iff, implies_true,
    and_true]
  exact ⟨scans_signed_int fd, scans_signed_int pid, scans_signed_int cpu, scans_signed_int groupFd,
    scans_lx flags.isLt⟩

theorem attr_scans : ∀ i ∈ attrItems attr, Scans i.conv i.text i.value := by
  simp only [attrItems, List.forall_mem_cons, List.not_mem_nil, false_imp_iff, implies_true,
    and_true]
  exact ⟨
    scans_x attr.type.isLt, scans_x attr.size.isLt, scans_lx attr.config.isLt,
    scans_lx attr.samplePeriod.isLt, scans_lx attr.sampleType.isLt, scans_lx attr.readFormat.isLt,
    scans_bit (by decide) attr.disabled, scans_bit (by decide) attr.inherit,
    scans_bit (by decide) attr.pinned, scans_bit (by decide) attr.exclusive,
    scans_bit (by decide) attr.excludeUser, scans_bit (by decide) attr.excludeKernel,
    scans_bit (by decide) attr.excludeHv, scans_bit (by decide) attr.excludeIdle,
    scans_bit (by decide) attr.mmap, scans_bit (by decide) attr.comm,
    scans_bit (by decide) attr.freq, scans_bit (by decide) attr.inheritStat,
    scans_bit (by decide) attr.enableOnExec, scans_bit (by decide) attr.task,
    scans_bit (by decide) attr.watermark, scans_bit (by decide) attr.preciseIp,
    scans_bit (by decide) attr.mmapData, scans_bit (by decide) attr.sampleIdAll,
    scans_bit (by decide) attr.excludeHost, scans_bit (by decide) attr.excludeGuest,
    scans_bit (by decide) attr.excludeCallchainKernel,
    scans_bit (by decide) attr.excludeCallchainUser, scans_bit (by decide) attr.mmap2,
    scans_bit (by decide) attr.commExec, scans_bit (by decide) attr.useClockid,
    scans_bit (by decide) attr.contextSwitch, scans_bit (by decide) attr.writeBackward,
    scans_bit (by decide) attr.namespaces, scans_bit (by decide) attr.ksymbol,
    scans_bit (by decide) attr.bpfEvent, scans_bit (by decide) attr.auxOutput,
    scans_bit (by decide) attr.cgroup, scans_bit (by decide) attr.textPoke,
    scans_bit (by decide) attr.buildId, scans_bit (by decide) attr.inheritThread,
    scans_bit (by decide) attr.removeOnExec, scans_bit (by decide) attr.sigtrap,
    scans_signed_int attr.wakeupEvents, scans_signed_int attr.bpType, scans_lx attr.config1.isLt,
    scans_lx attr.config2.isLt, scans_signed_long attr.branchSampleType,
    scans_signed_long attr.sampleRegsUser, scans_signed_int attr.sampleStackUser,
    scans_signed_int attr.clockid, scans_signed_long attr.sampleRegsIntr,
    scans_signed_int attr.auxWatermark, scans_signed_short attr.sampleMaxStack,
    scans_signed_int attr.auxSampleSize⟩

/-- The values that the reader finds in a line of the writer. -/
theorem sscanf_openLine :
    sscanfLine (openFields.map ScanField.conv) (openLine fd pid cpu groupFd flags attr) =
      (headerItems fd pid cpu groupFd flags ++ attrItems attr).map Item.value := by
  rw [openLine_eq, openFields_conv fd pid cpu groupFd flags attr, sscanfLine, List.drop_one, List.tail_cons, sscanf_blank]
  apply sscanf_items
  intro i hi
  exact (List.mem_append.1 hi).elim (header_scans i) (attr_scans i)

theorem ofInt_toNat {w : Nat} (v : BitVec w) : BitVec.ofInt w v.toNat = v := by
  rw [BitVec.ofInt_natCast, BitVec.ofNat_toNat, BitVec.setWidth_eq]

/-- The attribute that the reader makes of a line of the writer: the fields that the writer does
not print stay as they were in `pe`. -/
def reread (attr pe : PerfEventAttr) : PerfEventAttr :=
  { attr with
    deferCallchain := pe.deferCallchain, deferOutput := pe.deferOutput
    reserved1 := pe.reserved1, reserved2 := pe.reserved2, auxAction := pe.auxAction
    sigData := pe.sigData, config3 := pe.config3, config4 := pe.config4 }

theorem assign_pe (vars : OpenVars) :
    let o := assign openFields
      ((headerItems fd pid cpu groupFd flags ++ attrItems attr).map Item.value) vars
    repopulate o.bits o.pe = reread attr vars.pe := by
  intro o
  apply PerfEventAttr.ext
  all_goals
    first
    | exact ofInt_toNat _
    | exact BitVec.ofInt_toInt
    | rfl

/-- What the reader makes of a line of the writer. -/
theorem parseOpenEvent_openLine (fd pid cpu groupFd : BitVec 32) (flags : BitVec 64)
    (attr : PerfEventAttr) (vars : OpenVars) :
    let o := parseOpenEvent (openLine fd pid cpu groupFd flags attr) vars
    o.fd = fd ∧ o.pid = pid ∧ o.cpu = cpu ∧ o.groupFd = groupFd ∧ o.flags = flags ∧
      o.pe = reread attr vars.pe := by
  intro o
  have ho : o = parseOpenEvent (openLine fd pid cpu groupFd flags attr) vars := rfl
  rw [parseOpenEvent, sscanf_openLine] at ho
  rw [ho]
  exact ⟨BitVec.ofInt_toInt, BitVec.ofInt_toInt, BitVec.ofInt_toInt, BitVec.ofInt_toInt,
    ofInt_toNat flags, assign_pe vars⟩

/-! ## Which events survive -/

/-- The fields that are generated and not printed are zero. -/
structure Logged (attr : PerfEventAttr) : Prop where
  deferCallchain : attr.deferCallchain = 0
  deferOutput : attr.deferOutput = 0
  sigData : attr.sigData = 0
  config3 : attr.config3 = 0
  config4 : attr.config4 = 0

theorem reread_eq_iff (h : ReservedZero attr) : reread attr {} = attr ↔ Logged attr := by
  constructor
  · intro heq
    exact ⟨(congrArg PerfEventAttr.deferCallchain heq).symm,
      (congrArg PerfEventAttr.deferOutput heq).symm, (congrArg PerfEventAttr.sigData heq).symm,
      (congrArg PerfEventAttr.config3 heq).symm, (congrArg PerfEventAttr.config4 heq).symm⟩
  · intro hl
    apply PerfEventAttr.ext <;>
      first
      | rfl
      | exact h.reserved1.symm
      | exact h.reserved2.symm
      | exact h.auxAction.symm
      | exact hl.deferCallchain.symm
      | exact hl.deferOutput.symm
      | exact hl.sigData.symm
      | exact hl.config3.symm
      | exact hl.config4.symm

theorem generateAttr_reservedZero {pmus : List Pmu} {ownPid : BitVec 32} {rec : SyscallRecord}
    {kprobeId : BitVec 64} : Always (generateAttr pmus ownPid rec kprobeId) ReservedZero := by
  refine always_bind sanitisePerfEventOpen_reservedZero fun r h => ?_
  refine always_ite (fun _ => ?_) fun _ => always_pure h
  refine always_bind_any fun _ => always_ite (fun _ => ?_) fun _ => always_pure h
  exact always_pure ⟨h.reserved1, h.reserved2, h.auxAction⟩

/-- Whatever was drawn, the line of the event that was opened is read back as it was written
exactly when the fields that are not printed are zero. -/
theorem openLine_read_back_iff (pmus : List Pmu) (ownPid : BitVec 32) (rec : SyscallRecord)
    (kprobeId : BitVec 64) (answers : Nat → Int) (fd pid cpu groupFd : BitVec 32)
    (flags : BitVec 64) (vars : OpenVars) :
    let attr := (generateAttr pmus ownPid rec kprobeId answers).1
    let o := parseOpenEvent (openLine fd pid cpu groupFd flags attr) { vars with pe := {} }
    (o.fd = fd ∧ o.pid = pid ∧ o.cpu = cpu ∧ o.groupFd = groupFd ∧ o.flags = flags ∧
      o.pe = attr) ↔ Logged attr := by
  intro attr o
  have hattr : ReservedZero attr := generateAttr_reservedZero answers
  obtain ⟨hfd, hpid, hcpu, hgroup, hflags, hpe⟩ := parseOpenEvent_openLine fd pid cpu groupFd
    flags attr { vars with pe := {} }
  rw [← reread_eq_iff hattr]
  exact ⟨fun h => hpe.symm.trans h.2.2.2.2.2, fun h => ⟨hfd, hpid, hcpu, hgroup, hflags, hpe.trans h⟩⟩

/-- Answers that make an event of the fourth kind with `sig_data` 1. -/
def sigDataAnswers (n : Nat) : Int := if n = 8 then 3 else if n < 8 then 0 else 1

def noVars : OpenVars where
  fd := 0
  pid := 0
  cpu := 0
  groupFd := 0
  flags := 0
  pe := {}
  bits := ⟨0, 0, 0, 0, 0, 0, 0, 0, 0, 0, 0, 0, 0, 0, 0, 0, 0, 0, 0, 0, 0, 0, 0, 0, 0, 0, 0, 0, 0, 0,
    0, 0, 0, 0, 0, 0, 0⟩

/-- The `sig_data` of this event is lost. -/
theorem openLine_loses_sigData :
    ¬ ∀ (answers : Nat → Int) (fd pid cpu groupFd : BitVec 32) (flags : BitVec 64),
      let attr := (generateAttr [] 100 {} 0 answers).1
      (parseOpenEvent (openLine fd pid cpu groupFd flags attr) noVars).pe = attr := by
  intro hall
  have h := hall sigDataAnswers 5 0 0 (-1) 0
  obtain ⟨-, -, -, -, -, hpe⟩ := parseOpenEvent_openLine 5 0 0 (-1) 0
    (generateAttr [] 100 {} 0 sigDataAnswers).1 noVars
  have hlost := congrArg PerfEventAttr.sigData (hpe.symm.trans h)
  have hdrawn : (generateAttr [] 100 {} 0 sigDataAnswers).1.sigData = 1 := by decide
  rw [hdrawn] at hlost
  exact absurd hlost (by decide)

end PerfEvent.Replay
