import PerfEventTests.ParseRecord.Decoding
import PerfEventTests.ParseRecord.Loop
import PerfEventTests.ParseRecord.Names
import PerfEventTests.ParseRecord.Quiet

/-!
# Samples of the header's layout

The fields of a `PERF_RECORD_SAMPLE` in the order in which the arm reads them, with the bytes that
the header's layout has for each and what should be printed of it; and when the values that the
arm prints and validates are those that were encoded.
-/

namespace PerfEvent.ParseRecord

open ByteMemory

/-! ## What is to be printed -/

def shownBranch (b : BranchEntry) : List Printed :=
  [shownWord 8 "from" b.from_.toNat, shownWord 8 "to" b.to_.toNat, .names "flags" (shownFlags b.flags)]

/-- The registers of a mask below the `n`-th, with their values. -/
def shownRegs (mask : BitVec 64) (n : Nat) (regs : List UInt64) : List Printed :=
  ((List.range n).filter fun i => mask.getLsbD i).zipWith
    (fun i v => .register i (toSigned (8 * 8) v.toNat)) regs

/-- The 32-bit words of the stack, as far as it is used. -/
def shownStack (stack : Bytes) (dynSize : Nat) : List Printed :=
  (List.range ((dynSize + 3) / 4)).map fun j =>
    .value "stack" (ofLe ((stack.drop (4 * j)).take 4))

variable {env : Env}

theorem callchainPart_reads (hquiet : env.quiet = false) (ips : List UInt64)
    (h : ips.length < 2 ^ 63) :
    Reads env (fun a => callchainPart env (env.value 8 a) a) (le 8 ips.length ++ u64s ips)
      (shownWord 8 "callchain length" ips.length :: ips.map fun v => shownWord 8 "ip" v.toNat)
      [] := by
  have hips : Reads env (Part.times ips.length fun _ => Part.field env 8 "ip") (u64s ips)
      (ips.flatMap fun v => [shownWord 8 "ip" v.toNat]) [] :=
    Reads.times_silent ips fun v _ => reads_u64 hquiet "ip" v
  have hpart := (reads_field hquiet 8 "callchain length" (v := ips.length) (by omega)).seq
    ((Reads.enter ips.length).seq hips)
  have hcount := congrArg (callchainPart env)
    (toInt64_of_range (x := ips.length) (by omega) (by omega))
  rw [← List.map_eq_flatMap] at hpart
  apply Reads.value (p := callchainPart env) (by omega)
  rw [hcount]
  exact hpart

theorem rawBytes_printed (hquiet : env.quiet = false) {raw : Bytes} {a : Int}
    (h : env.data.Holds a raw) (n : Nat) (hn : n ≤ raw.length) :
    (Part.times n (rawBytePart env) a).printed =
      (raw.take n).map fun b => .value "raw" b.toNat := by
  induction n with
  | zero => rfl
  | succ n ih =>
    have hstays : (Part.times n (rawBytePart env) a).size = 0 :=
      Stays.times (fun _ _ => rfl) n a
    have hword : env.data.word 1 (a + n) = (raw.get ⟨n, hn⟩).toNat := by
      simp [Mem.word, Mem.load, ofLe, h n hn]
    change (Part.times n (rawBytePart env) a).printed ++ (rawBytePart env n _).printed = _
    rw [ih (Nat.le_of_succ_le hn), hstays, add_zero, List.take_succ_eq_append_getElem hn,
      List.map_append]
    unfold rawBytePart Env.shown
    rw [hquiet, hword]
    rfl

/-- Raw data are printed byte by byte when nothing is known of them. -/
theorem rawPart_reads (hquiet : env.quiet = false) (hraw : env.rawType = rawNone) (raw : Bytes)
    (h : raw.length < 2 ^ 31) :
    Reads env (fun a => rawPart env (env.value 4 a) a) (le 4 raw.length ++ raw)
      (shownWord 4 "Raw length" raw.length :: raw.map fun b => .value "raw" b.toNat) [] := by
  have hdump : dumpRawPart env raw.length = rawBytesPart env raw.length := by
    unfold dumpRawPart
    rw [hraw, if_neg (by decide), if_neg (by decide)]
  have hbytes : Reads env ((Part.unlessQuiet env (dumpRawPart env raw.length)).seq
      (Part.skip raw.length)) raw (raw.map fun b => .value "raw" b.toNat) [] := by
    have hloud : Part.unlessQuiet env (dumpRawPart env raw.length) = dumpRawPart env raw.length :=
      if_neg (by rw [hquiet]; decide)
    rw [hloud]
    constructor
    · intro a ha
      have hprinted := rawBytes_printed hquiet ha raw.length le_rfl
      rw [List.take_length] at hprinted
      refine ⟨?_, ?_⟩
      · change (dumpRawPart env raw.length a).printed ++ [] = _
        rw [List.append_nil, hdump]
        change [] ++ (Part.times _ (rawBytePart env) (a + 0)).printed = _
        rw [add_zero]
        exact hprinted
      · change (dumpRawPart env raw.length a).errors ++ [] = []
        rw [(silent_dumpRaw _ a).2]
        rfl
    · intro a _
      change (dumpRawPart env raw.length a).size + (raw.length : Int) = raw.length
      rw [(silent_dumpRaw _ a).1]
      exact zero_add _
  have hpart := (reads_field hquiet 4 "Raw length" (v := raw.length) (by omega)).seq hbytes
  have hcount := congrArg (rawPart env)
    (toInt32_of_range (x := raw.length) (by omega) (by omega))
  apply Reads.value (p := rawPart env) (by omega)
  rw [hcount]
  exact hpart

/-! ## Branches and registers -/

theorem branchEntryPart_reads (hquiet : env.quiet = false) (b : BranchEntry)
    (hflags : OnePrediction b.flags) : Reads env (branchEntryPart env) b.encode (shownBranch b)
      (env.validate.bind (outOfBounds b.from_.toNat)).toList := by
  have h : Reads env (branchFieldsPart env b.from_.toNat) _ _ _ :=
    (reads_u64 hquiet "from" b.from_).seq ((Reads.check (outOfBounds b.from_.toNat)).seq
      ((reads_u64 hquiet "to" b.to_).seq (reads_named hquiet "flags" branchFlagNames b.flags)))
  simp only [List.nil_append, List.append_nil] at h
  rw [← List.append_assoc, branchFlagNames_eq hflags] at h
  apply Reads.word (p := branchFieldsPart env) _ h
  intro a ha
  rw [List.append_assoc] at ha
  exact ha.word_eq b.from_.toNat_lt

theorem branchStackPart_reads (hquiet : env.quiet = false) (lbr : List BranchEntry)
    (h : lbr.length < 2 ^ 63) (hflags : ∀ b ∈ lbr, OnePrediction b.flags) :
    Reads env (fun a => branchStackPart env (env.value 8 a) a)
      (le 8 lbr.length ++ lbr.flatMap BranchEntry.encode)
      (shownWord 8 "branch_stack entries" lbr.length :: lbr.flatMap shownBranch)
      (lbr.flatMap fun b => (env.validate.bind (outOfBounds b.from_.toNat)).toList) := by
  have hentries := Reads.times lbr fun b hb => branchEntryPart_reads hquiet b (hflags b hb)
  have hpart := (reads_field hquiet 8 "branch_stack entries" (v := lbr.length) (by omega)).seq
    ((Reads.enter lbr.length).seq hentries)
  have hcount := congrArg (branchStackPart env)
    (toInt64_of_range (x := lbr.length) (by omega) (by omega))
  apply Reads.value (p := branchStackPart env) (by omega)
  rw [hcount]
  exact hpart

theorem registerPart_reads (hquiet : env.quiet = false) (i : Nat) (v : UInt64) :
    Reads env ((Part.unlessQuiet env (registerPart env i)).seq (Part.skip 8)) (u64 v)
      [.register i (toSigned (8 * 8) v.toNat)] [] := by
  have hloud : Part.unlessQuiet env (registerPart env i) = registerPart env i :=
    if_neg (by rw [hquiet]; decide)
  rw [hloud]
  constructor
  · intro a ha
    rw [← List.append_nil (u64 v)] at ha
    have hvalue : env.value 8 a = toSigned (8 * 8) v.toNat := value_of_holds ha v.toNat_lt
    refine ⟨?_, rfl⟩
    change env.shown (.register i (env.value 8 a)) ++ [] = _
    unfold Env.shown
    rw [hquiet, hvalue]
    rfl
  · intro a _
    rw [length_u64]
    rfl

/-- The registers below the `n`-th. -/
theorem printRegs_reads (hquiet : env.quiet = false) (n : Nat) (regs : List UInt64)
    (h : regs.length = (List.range n).countP fun i => env.regMask.getLsbD i) :
    Reads env (Part.times n (printRegPart env)) (u64s regs) (shownRegs env.regMask n regs) [] := by
  induction n generalizing regs with
  | zero =>
    cases regs with
    | nil => exact Reads.nil
    | cons v vs => cases h
  | succ n ih =>
    rw [List.range_succ, List.countP_append, List.countP_singleton] at h
    unfold shownRegs
    rw [List.range_succ, List.filter_append, List.filter_cons, List.filter_nil]
    change Reads env ((Part.times n (printRegPart env)).seq (printRegPart env n)) _ _ _
    unfold printRegPart
    by_cases hreg : env.regMask.getLsbD n = true
    · rw [if_pos hreg] at h ⊢
      have hne : regs ≠ [] := by
        rintro rfl
        cases h
      obtain ⟨init, v, rfl⟩ := List.eq_nil_or_concat regs |>.resolve_left hne
      rw [List.concat_eq_append] at h ⊢
      have hinit : init.length = (List.range n).countP fun i => env.regMask.getLsbD i := by
        rw [List.length_append, List.length_singleton] at h
        omega
      have hseq := (ih init hinit).seq (registerPart_reads hquiet n v)
      have hfilter : ((List.range n).filter fun i => env.regMask.getLsbD i).length = init.length := by
        rw [hinit, List.countP_eq_length_filter]
      rw [if_pos hreg, List.zipWith_append hfilter]
      unfold u64s
      rw [List.flatMap_append, List.flatMap_singleton]
      exact hseq
    · rw [if_neg hreg] at h ⊢
      rw [if_neg hreg, List.append_nil]
      have hseq := (ih regs h).seq Reads.nil
      simp only [List.append_nil] at hseq
      exact hseq

/-- What is printed of the registers, with the mask that the reader is given. -/
def shownRegsField (label : String) (regMask : BitVec 64) (abi : UInt64) (regs : List Printed) :
    List Printed :=
  .names label (shownAbi abi) :: .value "Reg mask" regMask.toNat :: regs

theorem regsPart_reads (hquiet : env.quiet = false) (label : String) (abi : UInt64)
    (regs : List UInt64) (h : regs.length = weight env.regMask) :
    Reads env (regsPart env label) (u64 abi ++ u64s regs)
      (shownRegsField label env.regMask abi (shownRegs env.regMask 64 regs)) [] := by
  have hmask : Reads env (regMaskPart env) [] [.value "Reg mask" env.regMask.toNat] [] := by
    apply Reads.of_nothing (fun _ => rfl) (fun _ => ?_) fun _ => rfl
    change env.shown _ = _
    unfold Env.shown
    rw [hquiet]
    rfl
  have habi := reads_named hquiet label regsAbiNames abi
  rw [regsAbiNames_eq] at habi
  exact habi.seq (hmask.seq (printRegs_reads hquiet 64 regs h))

/-! ## Stacks -/

/-- No word is printed, or the first one alone, which is taken from its place. -/
theorem dumpStackPart_reads (hquiet : env.quiet = false) {stack : Bytes} {stackData : Mem}
    {dynSize : Nat} (hdyn : dynSize = 0 ∨ (dynSize ≤ 4 ∧ 4 ≤ stack.length))
    (h : 4 ≤ stack.length → stackData.word 4 0 = ofLe (stack.take 4)) :
    Reads env (dumpStackPart env stackData stack.length dynSize) [] (shownStack stack dynSize) [] := by
  have hloud : ∀ p, Part.unlessQuiet env p = p := fun p => if_neg (by rw [hquiet]; decide)
  unfold dumpStackPart shownStack
  rw [hloud]
  by_cases hzero : dynSize = 0
  · rw [hzero]
    exact (Reads.enterWords _).seq Reads.nil
  · obtain hnone | ⟨hle, hlen⟩ := hdyn
    · exact absurd hnone hzero
    · have hone : (dynSize + 3) / 4 = 1 := by omega
      have hwords : stackWords dynSize = 1 := by
        unfold stackWords
        omega
      rw [hwords, hone]
      have hword : Reads env (stackWordPart env stackData stack.length 0) []
          [.value "stack" (ofLe (stack.take 4))] [] := by
        apply Reads.of_nothing (fun _ => rfl) (fun _ => ?_) fun _ => rfl
        change env.shown (.value "stack" (stackData.word 4 (4 * (4 * 0)))) = _
        unfold Env.shown
        rw [hquiet, mul_zero, mul_zero, h hlen]
        rfl
      exact (Reads.enterWords 1).seq (Reads.nil.seq hword)

theorem stackData_word {stack : Bytes} {pos : Int} (h : env.data.Holds pos stack)
    (hlen : 4 ≤ stack.length) :
    (env.stackData pos stack.length).word 4 0 = ofLe (stack.take 4) := by
  have hload : (env.stackData pos stack.length).load 0 4 = stack.take 4 := by
    apply List.ext_getElem
    · simp [hlen]
    · intro k hk hk'
      have hlt : k < 4 := by simpa using hk
      have hinside : (0 : Int) ≤ 0 + (k : Int) ∧ (0 : Int) + (k : Int) < stack.length := by omega
      have hbyte := h k (by omega)
      simp only [Mem.load, List.getElem_map, List.getElem_range, Env.stackData, List.getElem_take]
      rw [if_pos hinside, zero_add, hbyte]
      rfl
  unfold Mem.word
  rw [hload]

theorem stackUserPart_reads (hquiet : env.quiet = false) (stack : Bytes) (dynSize : UInt64)
    (hsize : stack.length < 2 ^ 63)
    (hdyn : dynSize.toNat = 0 ∨ (dynSize.toNat ≤ 4 ∧ 4 ≤ stack.length)) :
    Reads env (fun a => stackUserPart env (env.value 8 a) a)
      (le 8 stack.length ++ (stack ++ u64 dynSize))
      (shownWord 8 "Requested size" stack.length ::
        shownWord 8 "Dynamic (used) size" dynSize.toNat :: shownStack stack dynSize.toNat) [] := by
  have hsigned : toInt64 dynSize.toNat = dynSize.toNat :=
    toInt64_of_range (by omega) (by omega)
  have hcopied : ∀ stackData : Mem, (4 ≤ stack.length → stackData.word 4 0 = ofLe (stack.take 4)) →
      Reads env (stackCopiedPart env stackData stack.length) (stack ++ u64 dynSize)
        (shownWord 8 "Dynamic (used) size" dynSize.toNat :: shownStack stack dynSize.toNat) [] := by
    intro stackData hword
    have hcopy : Reads env (Part.copy stack.length) stack [] [] :=
      ⟨fun _ _ => ⟨rfl, rfl⟩, fun _ _ => rfl⟩
    have hrest := (reads_u64 hquiet "Dynamic (used) size" dynSize).seq
      (dumpStackPart_reads hquiet hdyn hword)
    rw [← congrArg (dumpStackPart env stackData stack.length) hsigned] at hrest
    have hdyn : Reads env (fun a => dynSizePart env stackData stack.length (env.value 8 a) a)
        (u64 dynSize ++ []) _ _ :=
      Reads.value (n := 8) (v := dynSize.toNat) dynSize.toNat_lt hrest
    rw [List.append_nil] at hdyn
    exact hcopy.seq hdyn
  have hcopy : Reads env (stackCopyPart env stack.length) (stack ++ u64 dynSize)
      (shownWord 8 "Dynamic (used) size" dynSize.toNat :: shownStack stack dynSize.toNat) [] := by
    constructor
    · intro a ha
      exact (hcopied _ (stackData_word (Mem.holds_append.1 ha).1)).shows a ha
    · intro a ha
      exact (hcopied _ (stackData_word (Mem.holds_append.1 ha).1)).size a ha
  have hpart := (reads_field hquiet 8 "Requested size" (v := stack.length) (by omega)).seq hcopy
  have hcount := congrArg (stackUserPart env)
    (toInt64_of_range (x := stack.length) (by omega) (by omega))
  apply Reads.value (p := stackUserPart env) (by omega)
  rw [hcount]
  exact hpart

/-! ## Data sources -/

theorem dataSrcPart_reads (hquiet : env.quiet = false) (src : UInt64) (h : OneWalker src) :
    Reads env (fun a => dataSrcPart env (env.data.word 8 a) a) (u64 src)
      [shownWord 8 "Raw" src.toNat, .names "PERF_SAMPLE_DATA_SRC" (bitNames dataSrcBits src)] [] := by
  have hnames : Reads env (Part.names env "PERF_SAMPLE_DATA_SRC" (dataSrcNames src.toNat)) []
      [.names "PERF_SAMPLE_DATA_SRC" (bitNames dataSrcBits src)] [] := by
    apply Reads.of_nothing (fun _ => rfl) (fun _ => ?_) fun _ => rfl
    change env.shown _ = _
    unfold Env.shown
    rw [hquiet, dataSrcNames_eq h]
    rfl
  have hpart := (reads_u64 hquiet "Raw" src).seq hnames
  rw [List.append_nil] at hpart
  apply Reads.word (p := dataSrcPart env) _ hpart
  intro a ha
  rw [← List.append_nil (u64 src)] at ha
  exact ha.word_eq src.toNat_lt

/-! ## The fields -/

/-- A field of a sample: its bit, what the arm does for it, the bytes that the header has for it, and
what is to be printed and reported. It is `whole` where the arm goes over all of these bytes and
no others, and `sound` where at least what it makes of them is right. -/
structure FieldCode where
  bit : Nat
  field : SampleField
  bytes : Bytes
  shown : List Printed
  reported : Option ValidateValues → List ValidateError := fun _ => []
  whole : Prop := True
  sound : Prop := True

/-- A sample, the attributes of its event, and the mask that the reader is given. -/
structure SampleCall where
  attr : PerfEventAttr
  sample : Sample
  regMask : BitVec 64
  wellFormed : sample.WellFormed attr
  /-- the bits that the arm has a case for -/
  handled : attr.sampleType.toNat < 2 ^ 19
  small : (sample.encode attr).length < 65536

def wordCode (bit : Nat) (label : String) (v : UInt64) : FieldCode where
  bit := bit
  field := .word label
  bytes := u64 v
  shown := [shownWord 8 label v.toNat]

/-- The mask is that of the registers that are there. -/
def MaskFits (regMask mask : BitVec 64) (abi : UInt64) : Prop :=
  if abi.toNat = perfSampleRegsAbiNone then regMask = 0 else regMask = mask

def regsCode (bit : Nat) (label : String) (regMask mask : BitVec 64) (abi : UInt64)
    (regs : List UInt64) : FieldCode where
  bit := bit
  field := .regs label
  bytes := u64 abi ++ u64s regs
  shown := shownRegsField label regMask abi (shownRegs mask 64 regs)
  whole := MaskFits regMask mask abi
  sound := MaskFits regMask mask abi

namespace SampleCall

variable (i : SampleCall)

def tidCode : FieldCode where
  bit := perfSampleTid
  field := .tid
  bytes := u32 i.sample.pid ++ u32 i.sample.tid
  shown := [shownWord 4 "pid" i.sample.pid.toNat, shownWord 4 "tid" i.sample.tid.toNat]
  reported validate := (validate.bind (pidWrong (toSigned (8 * 4) i.sample.pid.toNat))).toList

def cpuCode : FieldCode where
  bit := perfSampleCpu
  field := .cpu
  bytes := u32 i.sample.cpu ++ u32 i.sample.res
  shown := [shownWord 4 "cpu" i.sample.cpu.toNat, shownWord 4 "res" i.sample.res.toNat]

def NoneLost : Prop :=
  bitAnd i.attr.readFormat.toNat perfFormatLost = false ∨
    (bitAnd i.attr.readFormat.toNat perfFormatGroup = true ∧ i.sample.values.cntr = [])

/-- A lost count does no harm where no member comes behind it. -/
def readCode : FieldCode where
  bit := perfSampleRead
  field := .read
  bytes := i.sample.values.encode i.attr
  shown := shownRead i.attr i.sample.values
  reported := reportedRead i.attr i.sample.values
  whole := i.NoneLost
  sound := i.NoneLost ∨ bitAnd i.attr.readFormat.toNat perfFormatGroup = false ∨
    i.sample.values.cntr.length = 1

def callchainCode : FieldCode where
  bit := perfSampleCallchain
  field := .callchain
  bytes := le 8 i.sample.ips.length ++ u64s i.sample.ips
  shown := shownWord 8 "callchain length" i.sample.ips.length ::
    i.sample.ips.map fun v => shownWord 8 "ip" v.toNat

def rawCode : FieldCode where
  bit := perfSampleRaw
  field := .raw
  bytes := le 4 i.sample.raw.length ++ i.sample.raw
  shown := shownWord 4 "Raw length" i.sample.raw.length ::
    i.sample.raw.map fun b => .value "raw" b.toNat

def NoIndex : Prop := bitAnd i.attr.branchSampleType.toNat perfSampleBranchHwIndex = false

def NoCounters : Prop :=
  bitAnd i.attr.branchSampleType.toNat perfSampleBranchCounters = false ∨ i.sample.lbr = []

/-- No branch was both predicted and mispredicted. -/
def OnePredictions : Prop := ∀ b ∈ i.sample.lbr, OnePrediction b.flags

/-- The arm knows neither the index nor the counters of the branches. -/
def branchCode : FieldCode where
  bit := perfSampleBranchStack
  field := .branchStack
  bytes := i.sample.branchBytes i.attr
  shown := shownWord 8 "branch_stack entries" i.sample.lbr.length ::
    i.sample.lbr.flatMap shownBranch
  reported validate :=
    i.sample.lbr.flatMap fun b => (validate.bind (outOfBounds b.from_.toNat)).toList
  whole := i.NoIndex ∧ i.NoCounters ∧ i.OnePredictions
  sound := (i.NoIndex ∨ i.sample.lbr = []) ∧ i.OnePredictions

/-- An empty stack has no dynamic size, and of the words of a stack the arm finds the first one. -/
def StackFits : Prop := i.sample.stack ≠ [] ∧
  (i.sample.dynSize.toNat = 0 ∨ (i.sample.dynSize.toNat ≤ 4 ∧ 4 ≤ i.sample.stack.length))

def stackCode : FieldCode where
  bit := perfSampleStackUser
  field := .stackUser
  bytes := le 8 i.sample.stack.length ++ i.sample.stack ++
    opt (i.sample.stack.length != 0) (u64 i.sample.dynSize)
  shown := shownWord 8 "Requested size" i.sample.stack.length ::
    onlyIf (i.sample.stack.length != 0) (shownWord 8 "Dynamic (used) size" i.sample.dynSize.toNat ::
      shownStack i.sample.stack i.sample.dynSize.toNat)
  whole := i.StackFits
  sound := i.StackFits

def dataSrcCode : FieldCode where
  bit := perfSampleDataSrc
  field := .dataSrc
  bytes := u64 i.sample.dataSrc
  shown := [shownWord 8 "Raw" i.sample.dataSrc.toNat,
    .names "PERF_SAMPLE_DATA_SRC" (bitNames dataSrcBits i.sample.dataSrc)]
  whole := OneWalker i.sample.dataSrc
  sound := OneWalker i.sample.dataSrc

/-- The fields in the order of the arm. -/
def codes : List FieldCode := [
  wordCode perfSampleIp "IP" i.sample.ip,
  i.tidCode,
  wordCode perfSampleTime "time" i.sample.time,
  wordCode perfSampleAddr "addr" i.sample.addr,
  wordCode perfSampleId "sample_id" i.sample.id,
  wordCode perfSampleStreamId "sample_stream_id" i.sample.streamId,
  i.cpuCode,
  wordCode perfSamplePeriod "period" i.sample.period,
  i.readCode,
  i.callchainCode,
  i.rawCode,
  i.branchCode,
  regsCode perfSampleRegsUser "PERF_SAMPLE_REGS_USER" i.regMask i.attr.sampleRegsUser
    i.sample.userAbi i.sample.userRegs,
  regsCode perfSampleRegsIntr "PERF_SAMPLE_REGS_INTR" i.regMask i.attr.sampleRegsIntr
    i.sample.intrAbi i.sample.intrRegs,
  i.stackCode,
  wordCode perfSampleWeight "Weight" i.sample.weight,
  i.dataSrcCode,
  wordCode perfSampleIdentifier "PERF_SAMPLE_IDENTIFIER" i.sample.identifier,
  wordCode perfSampleTransaction "PERF_SAMPLE_TRANSACTION" i.sample.transaction]

/-- The fields that are there. -/
def present : List FieldCode :=
  i.codes.filter fun c => bitAnd i.attr.sampleType.toNat c.bit

/-- The fields lie in the order of the arm: the identifier comes first in the header's layout and late
in the arm, the interrupt registers come last in the layout and before the stack in the arm. -/
structure Ordered : Prop where
  identifier : bitAnd i.attr.sampleType.toNat perfSampleIdentifier = true →
    i.attr.sampleType.toNat = perfSampleIdentifier ∨
      i.attr.sampleType.toNat = perfSampleIdentifier ||| perfSampleTransaction
  regsIntr : bitAnd i.attr.sampleType.toNat perfSampleRegsIntr = true →
    bitAnd i.attr.sampleType.toNat perfSampleStackUser = false ∧
    bitAnd i.attr.sampleType.toNat perfSampleWeight = false ∧
    bitAnd i.attr.sampleType.toNat perfSampleDataSrc = false ∧
    bitAnd i.attr.sampleType.toNat perfSampleTransaction = false

/-- Every field is sound, and whole if another one is read behind it. -/
structure InPlace : Prop extends Ordered i where
  fields : ∀ xs c ys, i.present = xs ++ c :: ys → c.sound ∧ (ys ≠ [] → c.whole)

/-- A loud reader that is given the event's attributes and the mask, and knows nothing of raw data. -/
structure Suits (env : Env) : Prop where
  sampleType : env.sampleType = i.attr.sampleType.toNat
  readFormat : env.readFormat = i.attr.readFormat.toNat
  regMask : env.regMask = i.regMask
  loud : env.quiet = false
  rawType : env.rawType = rawNone

/-- Whatever the memory around the sample holds, the arm prints and reports what is encoded. -/
def Decoded : Prop := ∀ env o, i.Suits env → env.data.Holds o (i.sample.encode i.attr) →
  (ParseRecord.sample env { offset := o }).printed = i.present.flatMap (·.shown) ∧
  (ParseRecord.sample env { offset := o }).errors = i.present.flatMap (·.reported env.validate)

end SampleCall

/-! ## The fields in a row -/

/-- A field that is read right where it is whole, and shown right where it is sound. -/
structure Good (env : Env) (c : FieldCode) : Prop where
  reads : c.whole → Reads env (c.field.part env) c.bytes c.shown (c.reported env.validate)
  shows : c.sound → Shows env (c.field.part env) c.bytes c.shown (c.reported env.validate)

theorem Good.of_reads {c : FieldCode}
    (h : Reads env (c.field.part env) c.bytes c.shown (c.reported env.validate)) : Good env c :=
  ⟨fun _ => h, fun _ => h.shows⟩

theorem Good.of_whole {c : FieldCode} (hsame : c.sound → c.whole)
    (h : c.whole → Reads env (c.field.part env) c.bytes c.shown (c.reported env.validate)) :
    Good env c :=
  ⟨h, fun hc => (h (hsame hc)).shows⟩

theorem fieldParts_shows (cs : List FieldCode) (hgood : ∀ c ∈ cs, Good env c)
    (h : ∀ xs c ys, cs = xs ++ c :: ys → c.sound ∧ (ys ≠ [] → c.whole)) :
    Shows env (fieldParts env (cs.map (·.field))) (cs.flatMap (·.bytes)) (cs.flatMap (·.shown))
      (cs.flatMap (·.reported env.validate)) := by
  induction cs with
  | nil => exact fun _ _ => ⟨rfl, rfl⟩
  | cons c cs ih =>
    obtain ⟨hsound, hwhole⟩ := h [] c cs rfl
    obtain ⟨hc, hcs⟩ := List.forall_mem_cons.1 hgood
    have hrest := ih hcs fun xs d ys heq => h (c :: xs) d ys (congrArg (c :: ·) heq)
    cases cs with
    | nil =>
      intro a ha
      rw [List.flatMap_singleton] at ha
      obtain ⟨hprinted, herrors⟩ := hc.shows hsound a ha
      rw [List.flatMap_singleton, List.flatMap_singleton]
      constructor
      · change (c.field.part env a).printed ++ [] = _
        rw [List.append_nil, hprinted]
      · change (c.field.part env a).errors ++ [] = _
        rw [List.append_nil, herrors]
    | cons d ds => exact (hc.reads (hwhole (List.cons_ne_nil d ds))).seq_shows hrest

/-! ## Each field -/

namespace SampleCall

variable {i : SampleCall}

theorem wordCode_reads (hi : i.Suits env) (bit : Nat) (label : String) (v : UInt64) :
    Reads env ((wordCode bit label v).field.part env) (wordCode bit label v).bytes
      (wordCode bit label v).shown ((wordCode bit label v).reported env.validate) :=
  reads_u64 hi.loud label v

/-- Two numbers of four bytes that are read together. -/
theorem pair_reads (hquiet : env.quiet = false) (label label' : String) (v w : UInt32) :
    Reads env (((Part.look env 4 0 label).seq (Part.look env 4 4 label')).seq (Part.skip 8))
      (u32 v ++ u32 w) [shownWord 4 label v.toNat, shownWord 4 label' w.toNat] [] := by
  constructor
  · intro a ha
    have hfirst : env.value 4 (a + 0) = toSigned (8 * 4) v.toNat := by
      rw [add_zero]
      exact value_of_holds ha v.toNat_lt
    have hholds := (Mem.holds_append.1 ha).2
    rw [← List.append_nil (u32 w), length_u32] at hholds
    have hsecond : env.value 4 (a + 0 + 4) = toSigned (8 * 4) w.toNat := by
      rw [add_zero]
      exact value_of_holds hholds w.toNat_lt
    refine ⟨?_, rfl⟩
    change env.shown (.value label (env.value 4 (a + 0))) ++
      env.shown (.value label' (env.value 4 (a + 0 + 4))) ++ [] = _
    unfold Env.shown
    rw [hquiet, hfirst, hsecond]
    rfl
  · intro a _
    rw [List.length_append, length_u32, length_u32]
    rfl

theorem tidCode_reads (hi : i.Suits env) :
    Reads env (i.tidCode.field.part env) i.tidCode.bytes
      i.tidCode.shown (i.tidCode.reported env.validate) := by
  have hpair := (Reads.check (pidWrong (toSigned (8 * 4) i.sample.pid.toNat))).seq
    (pair_reads hi.loud "pid" "tid" i.sample.pid i.sample.tid)
  rw [List.append_nil, List.nil_append, List.nil_append] at hpair
  exact Reads.value (n := 4) (v := i.sample.pid.toNat) (p := tidPart env) i.sample.pid.toNat_lt hpair

theorem cpuCode_reads (hi : i.Suits env) : Reads env (i.cpuCode.field.part env) i.cpuCode.bytes
    i.cpuCode.shown (i.cpuCode.reported env.validate) :=
  pair_reads hi.loud "cpu" "res" i.sample.cpu i.sample.res

/-- The sizes inside a sample are below the size of a record. -/
theorem sizes_lt (i : SampleCall) :
    (bitAnd i.attr.sampleType.toNat perfSampleRead = true →
      (i.sample.values.encode i.attr).length < 65536) ∧
    (bitAnd i.attr.sampleType.toNat perfSampleCallchain = true → i.sample.ips.length < 65536) ∧
    (bitAnd i.attr.sampleType.toNat perfSampleRaw = true → i.sample.raw.length < 65536) ∧
    (bitAnd i.attr.sampleType.toNat perfSampleBranchStack = true → i.sample.lbr.length < 65536) := by
  obtain ⟨hread, hips, hraw, hlbr⟩ := Sample.length_body_parts (a := i.attr) i.sample
  have hbody : (i.sample.bodyBytes i.attr).length < 65536 := by
    have hsmall := i.small
    unfold Sample.encode at hsmall
    simp only [List.length_append] at hsmall
    omega
  exact ⟨fun h => (hread h).trans_lt hbody, fun h => (hips h).trans_lt hbody,
    fun h => (hraw h).trans_lt hbody, fun h => (hlbr h).trans_lt hbody⟩

theorem stack_lt (i : SampleCall)
    (hbit : bitAnd i.attr.sampleType.toNat perfSampleStackUser = true) :
    i.sample.stack.length < 65536 := by
  have hsmall := i.small
  unfold Sample.encode Sample.stackBytes at hsmall
  rw [hbit] at hsmall
  simp only [List.length_append, length_opt, if_true] at hsmall
  omega

theorem readCode_reads (hi : i.Suits env)
    (hbit : bitAnd i.attr.sampleType.toNat perfSampleRead = true) (h : i.NoneLost) :
    Reads env (sampleReadPart env) (i.sample.values.encode i.attr)
      (shownRead i.attr i.sample.values) (reportedRead i.attr i.sample.values env.validate) := by
  have hlength := i.sizes_lt.1 hbit
  have hread := readFormatPart_reads i.sample.values hi.loud hi.readFormat h fun hgroup =>
    (members_le_length _ hgroup).trans_lt (by omega)
  constructor
  · exact fun a ha => hread.shows a ha
  · intro a ha
    change max (toInt32 (readFormatPart env a).size) 0 = _
    rw [hread.size a ha, toInt32_of_range (by omega) (by omega)]
    omega

theorem shownRead_single {a : PerfEventAttr} {r : ReadValues}
    (hgroup : bitAnd a.readFormat.toNat perfFormatGroup = false) : shownRead a r =
      [shownWord 8 "Value" r.own.value.toNat] ++ (shownTimes a r ++
        onlyIf (bitAnd a.readFormat.toNat perfFormatId) [shownWord 8 "id" r.own.id.toNat]) := by
  unfold shownRead
  rw [if_neg (by rw [hgroup]; decide)]

/-- A group of one member, whose lost count is not read. -/
theorem groupOfOne_shows (hquiet : env.quiet = false) {a : PerfEventAttr}
    (hf : env.readFormat = a.readFormat.toNat) (r : ReadValues) (m : ReadMember) :
    Shows env (groupPart env 1)
      (le 8 1 ++
        ((opt (bitAnd a.readFormat.toNat perfFormatTotalTimeEnabled) (u64 r.timeEnabled) ++
          opt (bitAnd a.readFormat.toNat perfFormatTotalTimeRunning) (u64 r.timeRunning)) ++
        m.encode a))
      ([shownWord 8 "Number" 1] ++ (shownTimes a r ++ shownMember a m))
      (env.validate.bind (wrongNumber 1)).toList := by
  have hmember : Shows env (Part.times 1 fun _ => readMemberPart env) (m.encode a)
      (shownMember a m) [] :=
    Reads.nil.seq_shows ((readMemberPart_reads hquiet hf m).shows.append_right _)
  have hnumber : Reads env ((Part.field env 8 "Number").seq (Part.check env (wrongNumber 1)))
      (le 8 1 ++ []) _ _ :=
    (reads_field hquiet 8 "Number" (by decide)).seq (Reads.check _)
  have h := hnumber.seq_shows ((timesPart_reads r hquiet hf).seq_shows
    ((Reads.enter 1).seq_shows hmember))
  simp only [List.append_nil, List.nil_append] at h
  exact h

/-- Behind the values that are shown there may be a lost count that is not read. -/
theorem readCode_shows (hi : i.Suits env)
    (hbit : bitAnd i.attr.sampleType.toNat perfSampleRead = true)
    (h : i.NoneLost ∨ bitAnd i.attr.readFormat.toNat perfFormatGroup = false ∨
      i.sample.values.cntr.length = 1) :
    Shows env (sampleReadPart env) (i.sample.values.encode i.attr)
      (shownRead i.attr i.sample.values) (reportedRead i.attr i.sample.values env.validate) := by
  by_cases hlost : i.NoneLost
  · exact (readCode_reads hi hbit hlost).shows
  have hshows : Shows env (readFormatPart env) (i.sample.values.encode i.attr)
      (shownRead i.attr i.sample.values) (reportedRead i.attr i.sample.values env.validate) := by
    unfold readFormatPart reportedRead
    rw [hi.readFormat]
    cases hgroup : bitAnd i.attr.readFormat.toNat perfFormatGroup with
    | false =>
      rw [encode_single _ hgroup, shownRead_single hgroup]
      exact (singlePart_reads i.sample.values hi.loud hi.readFormat).shows.append_right _
    | true =>
      rw [hgroup] at h
      obtain ⟨m, hone⟩ := List.length_eq_one_iff.1
        ((h.resolve_left hlost).resolve_left (by decide))
      have hgroupOfOne := groupOfOne_shows hi.loud hi.readFormat i.sample.values m
      rw [encode_group _ hgroup]
      unfold shownRead
      rw [if_pos hgroup, hone, List.flatMap_singleton, List.flatMap_singleton]
      exact Shows.value (n := 8) (v := 1) (p := groupPart env) (by decide) hgroupOfOne
  exact fun a ha => hshows a ha

theorem branchBytes_eq (i : SampleCall) : i.sample.branchBytes i.attr =
    le 8 i.sample.lbr.length ++
      opt (bitAnd i.attr.branchSampleType.toNat perfSampleBranchHwIndex) (u64 i.sample.hwIdx) ++
      i.sample.lbr.flatMap BranchEntry.encode ++
      opt (bitAnd i.attr.branchSampleType.toNat perfSampleBranchCounters)
        (u64s i.sample.counters) := rfl

theorem branchCode_shows (hi : i.Suits env)
    (hbit : bitAnd i.attr.sampleType.toNat perfSampleBranchStack = true)
    (h : (i.NoIndex ∨ i.sample.lbr = []) ∧ i.OnePredictions) :
    Shows env (i.branchCode.field.part env) i.branchCode.bytes
      i.branchCode.shown (i.branchCode.reported env.validate) := by
  have hlength := i.sizes_lt.2.2.2 hbit
  have hreads := branchStackPart_reads hi.loud i.sample.lbr (by omega) h.2
  change Shows env _ (i.sample.branchBytes i.attr) _ _
  rw [branchBytes_eq]
  obtain hindex | hnone := h.1
  · rw [show bitAnd _ perfSampleBranchHwIndex = false from hindex]
    change Shows env _ (le 8 i.sample.lbr.length ++ [] ++ _ ++ _) _ _
    rw [List.append_nil]
    exact hreads.shows.append_right _
  · have hshows := hreads.shows
    rw [hnone, List.flatMap_nil, List.append_nil] at hshows
    have hshown : i.branchCode = { i.branchCode with
        shown := [shownWord 8 "branch_stack entries" 0], reported := fun _ => [] } := by
      unfold branchCode
      rw [hnone]
      rfl
    rw [hshown, hnone, List.append_assoc, List.append_assoc]
    exact hshows.append_right _

theorem branchCode_reads (hi : i.Suits env)
    (hbit : bitAnd i.attr.sampleType.toNat perfSampleBranchStack = true)
    (h : i.NoIndex ∧ i.NoCounters ∧ i.OnePredictions) :
    Reads env (i.branchCode.field.part env) i.branchCode.bytes
      i.branchCode.shown (i.branchCode.reported env.validate) := by
  have hlength := i.sizes_lt.2.2.2 hbit
  have hreads := branchStackPart_reads hi.loud i.sample.lbr (by omega) h.2.2
  have hcounters : opt (bitAnd i.attr.branchSampleType.toNat perfSampleBranchCounters)
      (u64s i.sample.counters) = [] := by
    obtain hoff | hnone := h.2.1
    · rw [hoff]
      rfl
    · have hlen := i.wellFormed.counters
      rw [hnone] at hlen
      rw [List.eq_nil_of_length_eq_zero hlen]
      unfold u64s opt
      rw [List.flatMap_nil, ite_self]
  change Reads env _ (i.sample.branchBytes i.attr) _ _
  rw [branchBytes_eq, hcounters, show bitAnd _ perfSampleBranchHwIndex = false from h.1]
  change Reads env _ (le 8 i.sample.lbr.length ++ [] ++ _ ++ []) _ _
  rw [List.append_nil, List.append_nil]
  exact hreads

theorem regsCode_reads (hi : i.Suits env) (label : String) (mask : BitVec 64) (abi : UInt64)
    (regs : List UInt64) (hregs : RegsWellFormed abi regs mask)
    (h : MaskFits i.regMask mask abi) :
    Reads env (regsPart env label) (u64 abi ++ u64s regs)
      (shownRegsField label i.regMask abi (shownRegs mask 64 regs)) [] := by
  unfold RegsWellFormed at hregs
  unfold MaskFits at h
  by_cases habi : abi.toNat = perfSampleRegsAbiNone
  · rw [if_pos habi] at hregs h
    have hzero : weight (0 : BitVec 64) = 0 := by decide
    have hlen : regs.length = weight env.regMask := by rw [hregs, hi.regMask, h, hzero]
    have hreads := regsPart_reads hi.loud label abi regs hlen
    rw [List.eq_nil_of_length_eq_zero hregs] at hreads ⊢
    unfold shownRegs at hreads ⊢
    rw [List.zipWith_nil_right] at hreads ⊢
    rw [hi.regMask] at hreads
    exact hreads
  · rw [if_neg habi] at hregs h
    have hlen : regs.length = weight env.regMask := by rw [hregs, hi.regMask, h]
    have hreads := regsPart_reads hi.loud label abi regs hlen
    rw [hi.regMask, h] at hreads
    rw [h]
    exact hreads

theorem stackCode_reads (hi : i.Suits env)
    (hbit : bitAnd i.attr.sampleType.toNat perfSampleStackUser = true) (h : i.StackFits) :
    Reads env (i.stackCode.field.part env) i.stackCode.bytes i.stackCode.shown
      (i.stackCode.reported env.validate) := by
  have hlength := i.stack_lt hbit
  have hreads := stackUserPart_reads hi.loud i.sample.stack i.sample.dynSize (by omega) h.2
  have hne : (i.sample.stack.length != 0) = true := by
    rw [bne_iff_ne]
    exact fun hzero => h.1 (List.eq_nil_of_length_eq_zero hzero)
  change Reads env _ (le 8 i.sample.stack.length ++ i.sample.stack ++ opt _ _)
    (_ :: onlyIf _ _) []
  rw [hne, List.append_assoc]
  exact hreads

/-! ## The sample -/

theorem opt_flatMap (st : Nat) (cs : List FieldCode) :
    (cs.filter fun c => bitAnd st c.bit).flatMap (·.bytes) =
      cs.flatMap fun c => opt (bitAnd st c.bit) c.bytes := by
  induction cs with
  | nil => rfl
  | cons c cs ih =>
    rw [List.filter_cons, List.flatMap_cons, ← ih]
    unfold opt
    split
    · rfl
    · rfl

theorem bitAnd_of_lt {x k n : Nat} (h : x < 2 ^ n) (hk : n ≤ k) : bitAnd x (1 <<< k) = false := by
  have hzero : x &&& 1 <<< k = 0 := by
    apply Nat.eq_of_testBit_eq
    intro j
    rw [Nat.testBit_and, Nat.one_shiftLeft, Nat.testBit_two_pow, Nat.zero_testBit]
    by_cases hj : k = j
    · have hlt : x < 2 ^ j := h.trans_le (Nat.pow_le_pow_right (by decide) (hj ▸ hk))
      rw [Nat.testBit_lt_two_pow hlt, Bool.false_and]
    · rw [decide_eq_false hj, Bool.and_false]
  unfold bitAnd
  rw [hzero]
  rfl

/-- The header's layout is that of the fields in the order of the arm. -/
theorem encode_eq (h : i.Ordered) :
    i.sample.encode i.attr = i.present.flatMap (·.bytes) := by
  have hextra : ∀ k, 19 ≤ k → bitAnd i.attr.sampleType.toNat (1 <<< k) = false :=
    fun k hk => bitAnd_of_lt i.handled hk
  have hweight : bitAnd i.attr.sampleType.toNat perfSampleWeightStruct = false := hextra 24 (by decide)
  have hphys : bitAnd i.attr.sampleType.toNat perfSamplePhysAddr = false := hextra 19 (by decide)
  have haux : bitAnd i.attr.sampleType.toNat perfSampleAux = false := hextra 20 (by decide)
  have hcgroup : bitAnd i.attr.sampleType.toNat perfSampleCgroup = false := hextra 21 (by decide)
  have hpage : bitAnd i.attr.sampleType.toNat perfSampleDataPageSize = false := hextra 22 (by decide)
  have hcode : bitAnd i.attr.sampleType.toNat perfSampleCodePageSize = false := hextra 23 (by decide)
  have hextraBytes : i.sample.extraBytes i.attr = [] := by
    simp [Sample.extraBytes, opt, hphys, haux, hcgroup, hpage, hcode]
  unfold present
  rw [opt_flatMap]
  unfold Sample.encode
  rw [hextraBytes]
  unfold Sample.headBytes Sample.bodyBytes Sample.stackBytes Sample.tailBytes codes
  simp only [List.flatMap_cons, List.flatMap_nil, wordCode, regsCode, tidCode, cpuCode, readCode,
    callchainCode, rawCode, branchCode, stackCode, dataSrcCode, hweight, Bool.or_false, List.append_assoc,
    List.append_nil]
  cases hident : bitAnd i.attr.sampleType.toNat perfSampleIdentifier with
  | false =>
    cases hregs : bitAnd i.attr.sampleType.toNat perfSampleRegsIntr with
    | false =>
      unfold opt
      simp
    | true =>
      obtain ⟨hstack, hw, hsrc, htx⟩ := h.regsIntr hregs
      simp [hstack, hw, hsrc, htx, opt]
  | true =>
    obtain hst | hst := h.identifier hident
    · rw [hst]
      rfl
    · rw [hst]
      rfl

/-- The arm reads the fields that are there in the order of the list. -/
theorem presentFields_eq (hi : i.Suits env) : presentFields env = i.present.map (·.field) := by
  have htable : sampleFields = i.codes.map fun c => (c.bit, c.field) := rfl
  unfold presentFields present
  rw [htable, List.filter_map, List.map_map, hi.sampleType]
  rfl

theorem codes_good (hi : i.Suits env) :
    ∀ c ∈ i.codes, bitAnd i.attr.sampleType.toNat c.bit = true → Good env c := by
  obtain ⟨-, hips, hraw, -⟩ := i.sizes_lt
  have hword : ∀ bit label v, Good env (wordCode bit label v) := fun bit label v =>
    .of_reads (wordCode_reads hi bit label v)
  have hcallchain : bitAnd i.attr.sampleType.toNat perfSampleCallchain = true →
      Good env i.callchainCode := by
    intro hbit
    have hlength := hips hbit
    exact .of_reads (callchainPart_reads hi.loud i.sample.ips (by omega))
  have hrawGood : bitAnd i.attr.sampleType.toNat perfSampleRaw = true → Good env i.rawCode := by
    intro hbit
    have hlength := hraw hbit
    exact .of_reads (rawPart_reads hi.loud hi.rawType i.sample.raw (by omega))
  unfold codes
  simp only [List.forall_mem_cons]
  exact ⟨fun _ => hword .., fun _ => .of_reads (tidCode_reads hi), fun _ => hword ..,
    fun _ => hword .., fun _ => hword .., fun _ => hword .., fun _ => .of_reads (cpuCode_reads hi),
    fun _ => hword .., fun hbit => ⟨readCode_reads hi hbit, readCode_shows hi hbit⟩,
    hcallchain, hrawGood, fun hbit => ⟨branchCode_reads hi hbit, branchCode_shows hi hbit⟩,
    fun _ => .of_whole id (regsCode_reads hi _ _ _ _ i.wellFormed.userRegs),
    fun _ => .of_whole id (regsCode_reads hi _ _ _ _ i.wellFormed.intrRegs),
    fun hbit => .of_whole id (stackCode_reads hi hbit), fun _ => hword ..,
    fun _ => .of_whole id (dataSrcPart_reads hi.loud i.sample.dataSrc), fun _ => hword ..,
    fun _ => hword .., List.forall_mem_nil _⟩

/-- The arm prints and reports what is encoded in a sample whose fields are all in place. -/
theorem inPlace_decoded (h : i.InPlace) : i.Decoded := by
  intro env o hi ha
  rw [encode_eq h.toOrdered] at ha
  have hgood : ∀ c ∈ i.present, Good env c := fun c hc =>
    codes_good hi c (List.mem_filter.1 hc).1 (List.mem_filter.1 hc).2
  have hshows := fieldParts_shows i.present hgood h.fields o ha
  rw [← presentFields_eq hi, ← samplePart_eq] at hshows
  rw [sample_describes]
  exact hshows

/-- An instruction pointer, a process and a time. -/
def timed : SampleCall where
  attr := { sampleType := 0x7 }
  sample := { ip := 2, pid := 3, tid := 4, time := 5 }
  regMask := 0
  wellFormed := ⟨rfl, rfl, rfl, Nat.le_refl 0⟩
  handled := by decide
  small := by decide

theorem timed_decoded : timed.Decoded := by
  have hpresent : timed.present =
      [wordCode perfSampleIp "IP" 2, timed.tidCode, wordCode perfSampleTime "time" 5] := rfl
  have hall : ∀ c ∈ timed.present, c.sound ∧ c.whole := by
    rw [hpresent]
    simp only [List.forall_mem_cons]
    exact ⟨⟨trivial, trivial⟩, ⟨trivial, trivial⟩, ⟨trivial, trivial⟩, List.forall_mem_nil _⟩
  have hordered : timed.Ordered := ⟨fun h => absurd h (by decide), fun h => absurd h (by decide)⟩
  refine inPlace_decoded ⟨hordered, fun xs c ys heq => ?_⟩
  obtain ⟨hsound, hwhole⟩ := hall c (heq ▸ List.mem_append_right _ List.mem_cons_self)
  exact ⟨hsound, fun _ => hwhole⟩

/-- A sample with an identifier, 1, and an instruction pointer, 2. -/
def identified : SampleCall where
  attr := { sampleType := 0x10001 }
  sample := { identifier := 1, ip := 2 }
  regMask := 0
  wellFormed := ⟨rfl, rfl, rfl, Nat.le_refl 0⟩
  handled := by decide
  small := by decide

theorem identified_not_decoded : ¬identified.Decoded := by
  intro h
  let env : Env :=
    { data := Mem.ofList (identified.sample.encode identified.attr)
      sampleType := 0x10001
      readFormat := 0
      regMask := 0
      quiet := false }
  have hprinted := (h env 0 ⟨rfl, rfl, rfl, rfl, rfl⟩ (Mem.ofList_holds _)).1
  exact absurd hprinted (by decide)

end SampleCall

end PerfEvent.ParseRecord
