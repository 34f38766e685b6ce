import PerfEventTests.ParseRecord.Advance

/-!
# The record loop on well-formed records

An iteration on a record that its arm covers ends on the next header. The loop visits the records
up to the first one whose type has no case label; the default arm then skips the rest.
-/

namespace PerfEvent.ParseRecord

open ByteMemory

/-- The reader is called with the attributes of the event whose records it reads. -/
structure Env.Matches (env : Env) (a : PerfEventAttr) : Prop where
  sampleType : env.sampleType = a.sampleType.toNat
  readFormat : env.readFormat = a.readFormat.toNat

/-! ## Samples -/

/-- The samples that the sample arm covers: every selected field has a case in the arm and stands
where the arm expects it, as far as a size is read from the data behind it. -/
structure SampleCovered (a : PerfEventAttr) (regMask : BitVec 64) (s : Sample) : Prop where
  physAddr : bitAnd a.sampleType.toNat perfSamplePhysAddr = false
  aux : bitAnd a.sampleType.toNat perfSampleAux = false
  cgroup : bitAnd a.sampleType.toNat perfSampleCgroup = false
  dataPageSize : bitAnd a.sampleType.toNat perfSampleDataPageSize = false
  codePageSize : bitAnd a.sampleType.toNat perfSampleCodePageSize = false
  weight : bitAnd a.sampleType.toNat perfSampleWeightStruct = true →
    bitAnd a.sampleType.toNat perfSampleWeight = true
  /-- the identifier comes first in the record and last in the arm -/
  identifier : bitAnd a.sampleType.toNat perfSampleIdentifier = true →
    (bitAnd a.sampleType.toNat perfSampleRead = true →
      bitAnd a.readFormat.toNat perfFormatGroup = false) ∧
    bitAnd a.sampleType.toNat perfSampleCallchain = false ∧
    bitAnd a.sampleType.toNat perfSampleRaw = false ∧
    bitAnd a.sampleType.toNat perfSampleBranchStack = false ∧
    bitAnd a.sampleType.toNat perfSampleStackUser = false
  read : bitAnd a.sampleType.toNat perfSampleRead = true →
    bitAnd a.readFormat.toNat perfFormatLost = false
  branchStack : bitAnd a.sampleType.toNat perfSampleBranchStack = true →
    bitAnd a.branchSampleType.toNat perfSampleBranchHwIndex = false ∧
    (bitAnd a.branchSampleType.toNat perfSampleBranchCounters = true → s.lbr = [])
  /-- `print_regs` moves over the registers of `reg_mask` -/
  regsUser : bitAnd a.sampleType.toNat perfSampleRegsUser = true →
    s.userRegs.length = PerfEvent.weight regMask
  regsIntr : bitAnd a.sampleType.toNat perfSampleRegsIntr = true →
    s.intrRegs.length = PerfEvent.weight regMask
  /-- the interrupt registers come after the stack in the record and before it in the arm -/
  stackUser : bitAnd a.sampleType.toNat perfSampleStackUser = true →
    s.stack ≠ [] ∧ bitAnd a.sampleType.toNat perfSampleRegsIntr = false

variable {env : Env} {a : PerfEventAttr}

/-- The number of bytes of the fields of fixed size before the read values. -/
def headSize (a : PerfEventAttr) : Nat :=
  let has := bitAnd a.sampleType.toNat
  (if has perfSampleIp then 8 else 0) + (if has perfSampleTid then 8 else 0) +
  (if has perfSampleTime then 8 else 0) + (if has perfSampleAddr then 8 else 0) +
  (if has perfSampleId then 8 else 0) + (if has perfSampleStreamId then 8 else 0) +
  (if has perfSampleCpu then 8 else 0) + (if has perfSamplePeriod then 8 else 0)

theorem sampleHead_moves (h : env.Matches a) : Moves (headSize a) (sampleHead env) := by
  have htid : Moves 8 (sampleTid env) := by
    intro d
    simp [sampleTid]
  have hcpu : Moves 8 (sampleCpu env) := by
    intro d
    simp [sampleCpu]
  unfold headSize
  rw [← h.sampleType]
  exact (((((((Moves.field env 8 "IP").onBit.comp htid.onBit).comp (Moves.field env 8 "time").onBit).comp
    (Moves.field env 8 "addr").onBit).comp (Moves.field env 8 "sample_id").onBit).comp
    (Moves.field env 8 "sample_stream_id").onBit).comp hcpu.onBit).comp (Moves.field env 8 "period").onBit

/-- The number of bytes of the fields of fixed size that the arm reads at its end. -/
def tailSize (a : PerfEventAttr) : Nat :=
  let has := bitAnd a.sampleType.toNat
  (if has perfSampleWeight then 8 else 0) + (if has perfSampleDataSrc then 8 else 0) +
  (if has perfSampleIdentifier then 8 else 0) + (if has perfSampleTransaction then 8 else 0)

theorem sampleTail_moves (h : env.Matches a) : Moves (tailSize a) (sampleTail env) := by
  unfold tailSize
  rw [← h.sampleType]
  exact (((Moves.field env 8 "Weight").onBit.comp sampleDataSrc_moves.onBit).comp
    (Moves.field env 8 "PERF_SAMPLE_IDENTIFIER").onBit).comp
    (Moves.field env 8 "PERF_SAMPLE_TRANSACTION").onBit

theorem length_headBytes (s : Sample) : (s.headBytes a).length = headSize a := by
  simp [Sample.headBytes, headSize, add_assoc]

theorem SampleCovered.extraBytes_eq {regMask : BitVec 64} {s : Sample}
    (h : SampleCovered a regMask s) : s.extraBytes a = [] := by
  simp [Sample.extraBytes, opt, h.physAddr, h.aux, h.cgroup, h.dataPageSize, h.codePageSize]

/-- What follows the stack has the sizes that the arm adds, but for the identifier, which it adds
at the end, and the interrupt registers, which it has added before. -/
theorem SampleCovered.length_tailBytes {regMask : BitVec 64} {s : Sample}
    (h : SampleCovered a regMask s) :
    (s.tailBytes a).length +
      (if bitAnd a.sampleType.toNat perfSampleIdentifier then 8 else 0) =
    (if bitAnd a.sampleType.toNat perfSampleRegsIntr then 8 + 8 * PerfEvent.weight regMask else 0) +
      tailSize a := by
  have hw : (bitAnd a.sampleType.toNat perfSampleWeight ||
      bitAnd a.sampleType.toNat perfSampleWeightStruct) =
        bitAnd a.sampleType.toNat perfSampleWeight := by
    cases hws : bitAnd a.sampleType.toNat perfSampleWeightStruct with
    | false => rw [Bool.or_false]
    | true => rw [h.weight hws, Bool.or_true]
  have hi : (if bitAnd a.sampleType.toNat perfSampleRegsIntr then 8 + 8 * s.intrRegs.length else 0) =
      if bitAnd a.sampleType.toNat perfSampleRegsIntr then 8 + 8 * PerfEvent.weight regMask
        else 0 := by
    cases hri : bitAnd a.sampleType.toNat perfSampleRegsIntr with
    | false => rfl
    | true => rw [h.regsIntr hri]
  simp only [Sample.tailBytes, hw, List.length_append, length_opt, length_u64, length_u64s, hi,
    tailSize]
  omega

theorem SampleCovered.branchBytes_eq {regMask : BitVec 64} {s : Sample} (wf : s.WellFormed a)
    (h : SampleCovered a regMask s) (hb : bitAnd a.sampleType.toNat perfSampleBranchStack = true) :
    s.branchBytes a = le 8 s.lbr.length ++ s.lbr.flatMap BranchEntry.encode := by
  obtain ⟨hidx, hcnt⟩ := h.branchStack hb
  have hcounters : opt (bitAnd a.branchSampleType.toNat perfSampleBranchCounters)
      (u64s s.counters) = [] := by
    cases hc : bitAnd a.branchSampleType.toNat perfSampleBranchCounters with
    | false => rfl
    | true =>
      have hlen := wf.counters
      rw [hcnt hc] at hlen
      rw [List.eq_nil_of_length_eq_zero hlen]
      rfl
  simp only [Sample.branchBytes, hidx, hcounters]
  simp [opt]

/-- The sizes inside the body of a sample are below the size of the body. -/
theorem Sample.length_body_parts (s : Sample) :
    (bitAnd a.sampleType.toNat perfSampleRead = true →
      (s.values.encode a).length ≤ (s.bodyBytes a).length) ∧
    (bitAnd a.sampleType.toNat perfSampleCallchain = true →
      s.ips.length ≤ (s.bodyBytes a).length) ∧
    (bitAnd a.sampleType.toNat perfSampleRaw = true → s.raw.length ≤ (s.bodyBytes a).length) ∧
    (bitAnd a.sampleType.toNat perfSampleBranchStack = true →
      s.lbr.length ≤ (s.bodyBytes a).length) := by
  refine ⟨?_, ?_, ?_, ?_⟩ <;> intro hbit <;>
    simp only [Sample.bodyBytes, Sample.branchBytes, List.length_append, hbit, length_opt, if_true,
      length_branchEntries, length_u64s, length_le] <;> omega

theorem sampleRegs_consumes {label : String} {abi : UInt64} {regs : List UInt64}
    (h : regs.length = PerfEvent.weight env.regMask) :
    Consumes env (u64 abi ++ u64s regs) (sampleRegs env label) :=
  (sampleRegs_moves label).consumes (by simp [h])

/-- The part of the arm from the read values to the user registers. -/
def sampleBodyHead (env : Env) (d : Decoder) : Decoder :=
  onBit env.sampleType perfSampleRegsUser (sampleRegs env "PERF_SAMPLE_REGS_USER")
    (onBit env.sampleType perfSampleBranchStack (sampleBranchStack env)
      (onBit env.sampleType perfSampleRaw (sampleRaw env)
        (onBit env.sampleType perfSampleCallchain (sampleCallchain env)
          (onBit env.sampleType perfSampleRead (sampleRead env) d))))

theorem sampleBodyHead_consumes {s : Sample} (hm : env.Matches a) (wf : s.WellFormed a)
    (h : SampleCovered a env.regMask s) (hlt : (s.bodyBytes a).length < 65536) :
    Consumes env (s.bodyBytes a) (sampleBodyHead env) := by
  obtain ⟨hread, hips, hraw, hlbr⟩ := Sample.length_body_parts (a := a) s
  have hbranch : bitAnd a.sampleType.toNat perfSampleBranchStack = true →
      Consumes env (s.branchBytes a) (sampleBranchStack env) := by
    intro hb
    rw [h.branchBytes_eq wf hb]
    exact sampleBranchStack_consumes ((hlbr hb).trans_lt hlt)
  unfold Sample.bodyBytes sampleBodyHead
  rw [hm.sampleType]
  exact ((((Consumes.onBit fun hb => sampleRead_consumes hm.readFormat (h.read hb)
      ((hread hb).trans_lt hlt)).comp
    (Consumes.onBit fun hb => sampleCallchain_consumes ((hips hb).trans_lt hlt))).comp
    (Consumes.onBit fun hb => sampleRaw_consumes ((hraw hb).trans_lt hlt))).comp
    (Consumes.onBit hbranch)).comp (Consumes.onBit fun hb => sampleRegs_consumes (h.regsUser hb))

/-- A sample with an identifier has no part whose size is read from displaced data. -/
theorem sampleBodyHead_moves {s : Sample} (hm : env.Matches a) (h : SampleCovered a env.regMask s)
    (hid : bitAnd a.sampleType.toNat perfSampleIdentifier = true) :
    Moves (s.bodyBytes a).length (sampleBodyHead env) := by
  obtain ⟨hgroup, hcallchain, hraw, hbranch, -⟩ := h.identifier hid
  intro d
  have hread : (onBit env.sampleType perfSampleRead (sampleRead env) d).offset = d.offset +
      (opt (bitAnd a.sampleType.toNat perfSampleRead) (s.values.encode a)).length := by
    cases hr : bitAnd a.sampleType.toNat perfSampleRead with
    | false => simp [onBit, hm.sampleType, hr, opt]
    | true =>
      have hg := hgroup hr
      rw [← hm.readFormat] at hg
      have hlen := handleStructReadFormat_moves hg d
      rw [hm.readFormat] at hg hlen
      have hval : (s.values.encode a).length = 8 +
          (if bitAnd a.readFormat.toNat perfFormatTotalTimeEnabled then 8 else 0) +
          (if bitAnd a.readFormat.toNat perfFormatTotalTimeRunning then 8 else 0) +
          (if bitAnd a.readFormat.toNat perfFormatId then 8 else 0) := by
        simp [ReadValues.encode, hg, h.read hr, add_assoc]
      rw [← hval] at hlen
      have hsmall : (s.values.encode a).length < 65536 := by
        rw [hval]
        split <;> split <;> split <;> decide
      have hint : toInt32 ((handleStructReadFormat env d).offset - d.offset) =
          (s.values.encode a).length := by
        rw [hlen, toInt32_of_range] <;> omega
      simp only [onBit, hm.sampleType, hr, if_true, sampleRead, hint, opt]
      rw [if_pos (by omega)]
  have hregs : ∀ d : Decoder, (onBit env.sampleType perfSampleRegsUser
      (sampleRegs env "PERF_SAMPLE_REGS_USER") d).offset = d.offset +
      (opt (bitAnd a.sampleType.toNat perfSampleRegsUser)
        (u64 s.userAbi ++ u64s s.userRegs)).length := by
    intro d
    cases hr : bitAnd a.sampleType.toNat perfSampleRegsUser with
    | false => simp [onBit, hm.sampleType, hr, opt]
    | true =>
      have hmoves : Moves _ (sampleRegs env "PERF_SAMPLE_REGS_USER") := sampleRegs_moves _
      have := hmoves d
      simpa [onBit, hm.sampleType, hr, opt, h.regsUser hr] using this
  unfold sampleBodyHead
  rw [hregs]
  simp only [onBit, hm.sampleType, hbranch, hraw, hcallchain, Bool.false_eq_true, if_false]
  have hr := hread
  simp only [onBit, hm.sampleType] at hr
  rw [hr]
  simp [Sample.bodyBytes, opt, hbranch, hraw, hcallchain]
  ring

/-- The interrupt registers are moved over whatever the data are. -/
theorem regsIntr_moves (hm : env.Matches a) :
    Moves (if bitAnd a.sampleType.toNat perfSampleRegsIntr then 8 + 8 * PerfEvent.weight env.regMask
      else 0) (onBit env.sampleType perfSampleRegsIntr (sampleRegs env "PERF_SAMPLE_REGS_INTR")) := by
  rw [← hm.sampleType]
  exact (sampleRegs_moves _).onBit

/-- A covered stack dump has its three parts. -/
theorem stackUser_consumes {s : Sample} (hm : env.Matches a) (h : SampleCovered a env.regMask s)
    (hlt : (s.stackBytes a).length < 65536) :
    Consumes env (s.stackBytes a)
      (onBit env.sampleType perfSampleStackUser (sampleStackUser env)) := by
  unfold Sample.stackBytes at hlt ⊢
  rw [hm.sampleType]
  refine Consumes.onBit fun hb => ?_
  have hne : s.stack.length ≠ 0 := by simpa using (h.stackUser hb).1
  have hbit : (s.stack.length != 0) = true := by simpa using hne
  rw [hb, hbit] at hlt
  simp only [opt, if_true, List.length_append, length_le, length_u64] at hlt
  rw [hbit]
  exact sampleStackUser_consumes (by omega)

/-- The sample arm advances by the bytes of a covered sample. -/
theorem sample_consumes {s : Sample} (hm : env.Matches a) (wf : s.WellFormed a)
    (h : SampleCovered a env.regMask s) (hlt : (s.encode a).length < 65536) :
    Consumes env (s.encode a) (sample env) := by
  have hsplit : ∀ d, sample env d = sampleTail env
      (onBit env.sampleType perfSampleStackUser (sampleStackUser env)
        (onBit env.sampleType perfSampleRegsIntr (sampleRegs env "PERF_SAMPLE_REGS_INTR")
          (sampleBodyHead env (sampleHead env d)))) := fun _ => rfl
  have htail := h.length_tailBytes
  simp only [Sample.encode, h.extraBytes_eq, List.append_nil, List.length_append] at hlt
  intro d hd
  simp only [Sample.encode, h.extraBytes_eq, List.append_nil] at hd ⊢
  cases hid : bitAnd a.sampleType.toNat perfSampleIdentifier with
  | true =>
    obtain ⟨-, -, -, -, hstack⟩ := h.identifier hid
    have hs : s.stackBytes a = [] := by simp [Sample.stackBytes, hstack, opt]
    rw [hsplit, sampleTail_moves hm]
    simp only [onBit, hm.sampleType, hstack, Bool.false_eq_true, if_false]
    have hr := regsIntr_moves hm (sampleBodyHead env (sampleHead env d))
    simp only [onBit, hm.sampleType] at hr
    rw [hr, sampleBodyHead_moves hm h hid, sampleHead_moves hm]
    simp only [hid, if_true] at htail
    simp only [hs, opt, if_true, List.length_append, length_u64, length_headBytes, List.nil_append]
    omega
  | false =>
    simp only [hid, opt, Bool.false_eq_true, if_false, List.nil_append, Nat.add_zero] at htail hd ⊢
    have hprefix : Consumes env (s.headBytes a ++ s.bodyBytes a)
        fun d => sampleBodyHead env (sampleHead env d) :=
      ((sampleHead_moves hm).consumes (length_headBytes s)).comp
        (sampleBodyHead_consumes hm wf h (by omega))
    rw [← List.append_assoc] at hd ⊢
    rw [hsplit, sampleTail_moves hm]
    obtain ⟨hd₁, hd₂⟩ := Mem.holds_append.1 hd
    have hpre := hprefix d hd₁
    cases hst : bitAnd a.sampleType.toNat perfSampleStackUser with
    | true =>
      have hri := (h.stackUser hst).2
      have hskip : ∀ d, onBit env.sampleType perfSampleRegsIntr
          (sampleRegs env "PERF_SAMPLE_REGS_INTR") d = d := by
        intro d
        simp [onBit, hm.sampleType, hri]
      rw [hskip, stackUser_consumes hm h (by omega) _ (by
        rw [hpre]
        exact (Mem.holds_append.1 hd₂).1), hpre]
      simp only [hri, Bool.false_eq_true, if_false, Nat.zero_add] at htail
      rw [← htail]
      simp only [List.length_append]
      push_cast
      ring
    | false =>
      have hs : s.stackBytes a = [] := by simp [Sample.stackBytes, hst, opt]
      have hskip : ∀ d, onBit env.sampleType perfSampleStackUser (sampleStackUser env) d = d := by
        intro d
        simp [onBit, hm.sampleType, hst]
      rw [hskip, regsIntr_moves hm, hpre]
      simp only [hs, List.nil_append, List.length_append]
      omega

/-! ## One iteration -/

/-- The record types that have an arm of their own. -/
def HasCase (t : RecordType) : Prop := caseOf t.toNat = some t

instance (t : RecordType) : Decidable (HasCase t) := inferInstanceAs (Decidable (_ = _))

theorem caseOf_eq_none {t : RecordType} (h : ¬HasCase t) : caseOf t.toNat = none := by
  revert h
  cases t <;> decide

/-- The records that their arm covers. The arms of `MMAP`, `MMAP2` and `COMM` count the trailer as
part of the string; those of `AUX`, `LOST_SAMPLES` and the two switch records expect a trailer of
one word, the other arms none. -/
def Covered (a : PerfEventAttr) (regMask : BitVec 64) : Body → Prop
  | .lost .. | .exit .. | .fork .. | .throttle .. | .unthrottle .. | .itraceStart .. =>
    sampleIdSize a = 0
  | .aux .. | .lostSamples .. | .switch | .switchCpuWide .. => sampleIdSize a = 8
  | .sample s => SampleCovered a regMask s
  | _ => True

/-- The header that the loop reads is the one that was encoded. -/
theorem header_words {r : Record a} {o : Int} (h : env.data.Holds o r.encode) :
    env.data.word 4 o = r.body.type.toNat ∧ env.data.word 2 (o + 6) = r.size := by
  have htype : r.body.type.toNat < 256 ^ 4 := by
    cases r.body.type <;> decide
  have hsize := r.size_le
  unfold Record.encode Record.header at h
  rw [List.append_assoc] at h
  obtain ⟨-, hrest⟩ := Mem.holds_append.1 h
  rw [List.append_assoc] at hrest
  obtain ⟨-, hrest⟩ := Mem.holds_append.1 hrest
  refine ⟨h.word_eq htype, ?_⟩
  have haddr : o + ((le 4 r.body.type.toNat).length : Int) + ((u16 r.misc).length : Int) = o + 6 := by
    simp only [length_le, length_u16]
    omega
  rw [haddr] at hrest
  exact hrest.word_eq (by norm_num; omega)

/-- The decoder after the header of a record. -/
def afterHeader (env : Env) (d : Decoder) : Decoder :=
  ((d.access (.data d.offset 8)).print env (.header (env.data.word 4 d.offset)
    (env.data.word 2 (d.offset + 4)) (env.data.word 2 (d.offset + 6)))).skip 8

@[simp] theorem afterHeader_offset (d : Decoder) : (afterHeader env d).offset = d.offset + 8 := by
  simp [afterHeader]

theorem iteration_eq {r : Record a} {d : Decoder} (size : Int)
    (h : env.data.Holds d.offset r.encode) :
    iteration env size d = arm env size r.size r.body.type.toNat (afterHeader env d) := by
  obtain ⟨htype, hsize⟩ := header_words h
  unfold iteration afterHeader
  rw [htype, hsize]

/-- The size of every record but a sample. -/
theorem Record.size_of_body {r : Record a} {b : Body} (hb : r.body = b) (hs : b.type ≠ .sample) :
    r.size = 8 + (b.encode a).length + sampleIdSize a := by
  have htrailer : (b.trailer a r.sampleId).length = sampleIdSize a := by
    cases b <;> first | exact absurd rfl hs | exact SampleId.length_encode a _
  rw [Record.size, Record.payload, List.length_append, hb, htrailer, Nat.add_assoc]

/-- An iteration on a covered record ends on the next header. -/
theorem iteration_covered {r : Record a} {d : Decoder} (size : Int) (hm : env.Matches a)
    (hcase : HasCase r.body.type) (hcov : Covered a env.regMask r.body)
    (h : env.data.Holds d.offset r.encode) :
    (iteration env size d).offset = d.offset + r.size := by
  have harm : iteration env size d = _ := iteration_eq size h
  unfold HasCase at hcase
  rw [arm, hcase] at harm
  cases hb : r.body with
  | sample s =>
    have hpay : r.payload = s.encode a := by simp [Record.payload, hb, Body.encode, Body.trailer]
    have hlt := r.size_le
    have hwf := r.wellFormed
    rw [hb] at hwf hcov
    rw [Record.size, hpay] at hlt ⊢
    have hd : env.data.Holds (afterHeader env d).offset (s.encode a) := by
      rw [Record.encode, hpay] at h
      have := (Mem.holds_append.1 h).2
      rw [Record.length_header] at this
      simpa using this
    simp only [hb, Body.type] at harm
    rw [harm, sample_consumes hm hwf hcov (by omega) _ hd, afterHeader_offset]
    push_cast
    ring
  | mmap | mmap2 | comm =>
    -- the string takes whatever `header.size` leaves
    simp only [hb, Body.type] at harm
    rw [harm]
    simp only [mmap, mmap2, comm, Decoder.string_offset, Decoder.field_offset, afterHeader_offset]
    push_cast
    ring
  | lost | exit | fork | throttle | unthrottle | itraceStart | aux | lostSamples | switch
  | switchCpuWide =>
    have hs := Record.size_of_body hb (by simp [Body.type])
    simp only [hb, Body.type, Covered] at harm hcov
    simp only [Body.encode, List.length_append, length_u32, length_u64, List.length_nil, hcov] at hs
    rw [harm, hs]
    simp [lost, exit, fork, throttle, itraceStart, aux, lostSamples, switch, switchCpuWide]
    try ring
  | read | namespaces | ksymbol | bpfEvent | cgroup | textPoke | auxOutputHwId
  | callchainDeferred => simp [hb, Body.type, caseOf, RecordType.toNat] at hcase

/-- The default arm skips to the end of the data. -/
theorem iteration_default {r : Record a} {d : Decoder} (size : Int) (hcase : ¬HasCase r.body.type)
    (h : env.data.Holds d.offset r.encode) : (iteration env size d).offset = size := by
  rw [iteration_eq size h, arm, caseOf_eq_none hcase]

/-! ## The loop -/

/-- The records up to and including the first one whose type has no case label. -/
def visited : List (Record a) → List (Record a)
  | [] => []
  | r :: rs => if HasCase r.body.type then r :: visited rs else [r]

/-- The offsets of the headers of records that stand one after the other from `o` on. -/
def headerOffsets (o : Int) : List (Record a) → List Int
  | [] => []
  | r :: rs => o :: headerOffsets (o + r.size) rs

@[simp] theorem length_headerOffsets (o : Int) (rs : List (Record a)) :
    (headerOffsets o rs).length = rs.length := by
  induction rs generalizing o with
  | nil => rfl
  | cons r rs ih => simp [headerOffsets, ih]

/-- The loop from the header of the first of the records `rs`, which stand at the offset and end
at `size`. -/
theorem recordLoop_from (hm : env.Matches a) (size : Int) (rs : List (Record a)) :
    ∀ (l : Loop) (fuel : Nat), env.data.Holds l.decoder.offset (encodeAll rs) →
      l.decoder.offset + (encodeAll rs).length = size →
      (∀ r ∈ visited rs, Covered a env.regMask r.body) → (visited rs).length ≤ fuel →
      ∃ l', recordLoop env size fuel l = some l' ∧ l'.decoder.offset = size ∧
        l'.starts = l.starts ++ headerOffsets l.decoder.offset (visited rs) := by
  induction rs with
  | nil =>
    intro l fuel _ hsize _ _
    have hoff : l.decoder.offset = size := by simpa [encodeAll] using hsize
    refine ⟨l, ?_, hoff, by simp [visited, headerOffsets]⟩
    unfold recordLoop
    rw [if_neg (by omega)]
  | cons r rs ih =>
    intro l fuel hd hsize hcov hfuel
    have hbytes : encodeAll (r :: rs) = r.encode ++ encodeAll rs := List.flatMap_cons
    rw [hbytes] at hd hsize
    obtain ⟨hr, hrs⟩ := Mem.holds_append.1 hd
    rw [List.length_append, Record.length_encode] at hsize
    rw [Record.length_encode] at hrs
    have hpos : 8 ≤ r.size := Nat.le_add_right 8 _
    have hlt : l.decoder.offset < size := by omega
    obtain ⟨fuel, rfl⟩ : ∃ k, fuel = k + 1 := by
      refine ⟨fuel - 1, ?_⟩
      have : 0 < (visited (r :: rs)).length := by
        unfold visited
        split <;> simp
      omega
    by_cases hcase : HasCase r.body.type
    · simp only [visited, if_pos hcase, List.length_cons] at hcov hfuel ⊢
      have hstep := iteration_covered size hm hcase (hcov r (by simp)) hr
      obtain ⟨l', hl', hoff, hstarts⟩ := ih
        ⟨iteration env size l.decoder, l.starts ++ [l.decoder.offset]⟩ fuel
        (by simpa only [hstep] using hrs) (by simp only [hstep]; omega)
        (fun r' hr' => hcov r' (by simp [hr'])) (by omega)
      refine ⟨l', ?_, hoff, ?_⟩
      · rw [recordLoop, if_pos hlt]
        exact hl'
      · rw [hstarts, hstep]
        simp [headerOffsets]
    · simp only [visited, if_neg hcase]
      refine ⟨⟨iteration env size l.decoder, l.starts ++ [l.decoder.offset]⟩, ?_,
        iteration_default size hcase hr, by simp [headerOffsets]⟩
      rw [recordLoop, if_pos hlt]
      unfold recordLoop
      rw [if_neg (by rw [iteration_default size hcase hr]; omega)]

/-- On a buffer of records whose arms cover them, the iterations start on the record headers, up
to and including the first record whose type has no case label. The loop ends at the end of the
data, and `*events_read` counts the records visited. -/
theorem recordLoop_visits (hm : env.Matches a) (rs : List (Record a)) (fuel : Nat)
    (hdata : env.data.Holds 0 (encodeAll rs)) (hcov : ∀ r ∈ visited rs, Covered a env.regMask r.body)
    (hfuel : (visited rs).length ≤ fuel) :
    ∃ l, recordLoop env (encodeAll rs).length fuel {} = some l ∧
      l.starts = headerOffsets 0 (visited rs) ∧ l.decoder.offset = (encodeAll rs).length ∧
      l.eventsRead = (visited rs).length := by
  obtain ⟨l, hl, hoff, hstarts⟩ := recordLoop_from hm (encodeAll rs).length rs {} fuel hdata
    (by simp) hcov hfuel
  refine ⟨l, hl, by simpa using hstarts, hoff, ?_⟩
  rw [Loop.eventsRead, hstarts]
  simp

/-! ### Two buffers -/

/-- An event that samples the instruction pointer and the callchain. -/
def callchainAttr : PerfEventAttr := { sampleType := 0x21 }

def forkRecord : Record callchainAttr where
  body := .fork 10 1 10 1 7
  wellFormed := trivial
  size_lt := by decide

def sampleRecord : Record callchainAttr where
  body := .sample { ip := 0x401000, ips := [0x401000, 0x400800] }
  wellFormed := ⟨rfl, rfl, rfl, by decide⟩
  size_lt := by decide

def bpfRecord : Record callchainAttr where
  body := .bpfEvent 1 0 5 [1, 2, 3, 4, 5, 6, 7, 8]
  wellFormed := rfl
  size_lt := by decide

/-- The buffer of the records `rs`, and the call that reads it. -/
def readerOf (rs : List (Record callchainAttr)) : Env where
  data := Mem.ofList (encodeAll rs)
  sampleType := callchainAttr.sampleType.toNat
  readFormat := callchainAttr.readFormat.toNat
  regMask := 0

theorem sampleRecord_covered : Covered callchainAttr 0 sampleRecord.body where
  physAddr := by decide
  aux := by decide
  cgroup := by decide
  dataPageSize := by decide
  codePageSize := by decide
  weight := fun h => absurd h (by decide)
  identifier := fun h => absurd h (by decide)
  read := fun h => absurd h (by decide)
  branchStack := fun h => absurd h (by decide)
  regsUser := fun h => absurd h (by decide)
  regsIntr := fun h => absurd h (by decide)
  stackUser := fun h => absurd h (by decide)

/-- A fork, a sample, a BPF record and another fork, in this order. -/
def fourRecords : List (Record callchainAttr) :=
  [forkRecord, sampleRecord, bpfRecord, forkRecord]

theorem visited_fourRecords : visited fourRecords = [forkRecord, sampleRecord, bpfRecord] := rfl

/-- The fork and the sample are decoded, the BPF record ends the loop. -/
theorem recordLoop_visits_fork_sample_bpf :
    ∃ l, recordLoop (readerOf fourRecords) (encodeAll fourRecords).length 3 {} = some l ∧
      l.starts = headerOffsets 0 (visited fourRecords) ∧
      l.decoder.offset = (encodeAll fourRecords).length ∧
      l.eventsRead = (visited fourRecords).length :=
  recordLoop_visits (a := callchainAttr) ⟨rfl, rfl⟩ fourRecords 3 (Mem.ofList_holds _)
    (by
      intro r hr
      rw [visited_fourRecords] at hr
      have hr' : r = forkRecord ∨ r = sampleRecord ∨ r = bpfRecord := by simpa using hr
      rcases hr' with rfl | rfl | rfl
      · show sampleIdSize callchainAttr = 0
        decide
      · exact sampleRecord_covered
      · trivial)
    (by decide)

/-- The default arm skips the records behind a BPF record: the second record of this buffer is
never visited. -/
theorem recordLoop_skips_after_bpf :
    ¬ ∀ (a : PerfEventAttr) (env : Env) (rs : List (Record a)), env.Matches a →
      env.data.Holds 0 (encodeAll rs) →
      ∃ fuel l, recordLoop env (encodeAll rs).length fuel {} = some l ∧
        l.starts = headerOffsets 0 rs ∧ l.decoder.offset = (encodeAll rs).length ∧
        l.eventsRead = rs.length := by
  intro hall
  obtain ⟨fuel, l, hl, -, -, hcount⟩ := hall callchainAttr (readerOf [bpfRecord, forkRecord])
    [bpfRecord, forkRecord] ⟨rfl, rfl⟩ (Mem.ofList_holds _)
  cases fuel with
  | zero =>
    have hlt : (0 : Int) < (encodeAll [bpfRecord, forkRecord]).length := by decide
    unfold recordLoop at hl
    rw [if_pos hlt] at hl
    cases hl
  | succ fuel =>
    have hv : visited [bpfRecord, forkRecord] = [bpfRecord] := rfl
    obtain ⟨l', hl', -, hstarts⟩ := recordLoop_from
      (⟨rfl, rfl⟩ : (readerOf [bpfRecord, forkRecord]).Matches callchainAttr) (encodeAll [bpfRecord, forkRecord]).length
      [bpfRecord, forkRecord] {} (fuel + 1) (Mem.ofList_holds _) (by simp)
      (by rw [hv]; intro r hr; rw [List.mem_singleton.1 hr]; trivial) (by rw [hv]; simp)
    rw [hl] at hl'
    cases hl'
    rw [Loop.eventsRead, hstarts, hv] at hcount
    simp [headerOffsets] at hcount

end PerfEvent.ParseRecord
