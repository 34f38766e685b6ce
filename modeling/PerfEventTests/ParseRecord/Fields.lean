import PerfEventTests.ParseRecord.Advance
import PerfEventTests.ParseRecord.Call

/-!
# Where the fields of a record lie

The lengths of the fields of a sample and of the arms of the switch, as the data give them, the
counts that loops run up to, and the room that a field needs.
-/

namespace PerfEvent.ParseRecord

open ByteMemory

/-- The bytes `[a, a + n)` are in a buffer of `room` bytes. -/
def Within (room a n : Int) : Prop := 0 ≤ a ∧ a + n ≤ room

instance (room a n : Int) : Decidable (Within room a n) := inferInstanceAs (Decidable (_ ∧ _))

/-! ## The fields of a sample -/

/-- The kinds of fields in a sample. -/
inductive SampleField where
  | word (label : String)
  | tid
  | cpu
  | read
  | callchain
  | raw
  | branchStack
  | regs (label : String)
  | stackUser
  | dataSrc

/-- The fields in the order of the arm. -/
def sampleFields : List (Nat × SampleField) := [
  (perfSampleIp, .word "IP"),
  (perfSampleTid, .tid),
  (perfSampleTime, .word "time"),
  (perfSampleAddr, .word "addr"),
  (perfSampleId, .word "sample_id"),
  (perfSampleStreamId, .word "sample_stream_id"),
  (perfSampleCpu, .cpu),
  (perfSamplePeriod, .word "period"),
  (perfSampleRead, .read),
  (perfSampleCallchain, .callchain),
  (perfSampleRaw, .raw),
  (perfSampleBranchStack, .branchStack),
  (perfSampleRegsUser, .regs "PERF_SAMPLE_REGS_USER"),
  (perfSampleRegsIntr, .regs "PERF_SAMPLE_REGS_INTR"),
  (perfSampleStackUser, .stackUser),
  (perfSampleWeight, .word "Weight"),
  (perfSampleDataSrc, .dataSrc),
  (perfSampleIdentifier, .word "PERF_SAMPLE_IDENTIFIER"),
  (perfSampleTransaction, .word "PERF_SAMPLE_TRANSACTION")]

section Lengths

variable (env : Env)

/-- Eight bytes when the bit is set. -/
def wordOnBit (flags mask : Nat) : Nat := if bitAnd flags mask then 8 else 0

def timesLength : Nat :=
  wordOnBit env.readFormat perfFormatTotalTimeEnabled +
    wordOnBit env.readFormat perfFormatTotalTimeRunning

def memberLength : Nat := 8 + wordOnBit env.readFormat perfFormatId

/-- The bytes that `handle_struct_read_format` goes over. -/
def readLength (a : Int) : Nat :=
  if bitAnd env.readFormat perfFormatGroup then
    8 + timesLength env + (env.value 8 a).toNat * memberLength env
  else 8 + timesLength env + wordOnBit env.readFormat perfFormatId

/-- The bytes that a dump of `size` raw bytes at `a` looks at. -/
def rawLooks (size a : Int) : Nat :=
  if env.rawType = rawIbsFetch then if size > 24 then 36 else 28
  else if env.rawType = rawIbsOp then
    let data3 := env.data.word 8 (a + 36)
    if size > 64 then 68 else if bitAnd data3 (1 <<< 18) then 60
    else if bitAnd data3 (1 <<< 17) then 52 else 44
  else size.toNat

namespace SampleField

def part : SampleField → Part
  | word label => Part.field env 8 label
  | tid => fun a => tidPart env (env.value 4 a) a
  | cpu => cpuPart env
  | read => sampleReadPart env
  | callchain => fun a => callchainPart env (env.value 8 a) a
  | raw => fun a => rawPart env (env.value 4 a) a
  | branchStack => fun a => branchStackPart env (env.value 8 a) a
  | regs label => regsPart env label
  | stackUser => fun a => stackUserPart env (env.value 8 a) a
  | dataSrc => fun a => dataSrcPart env (env.data.word 8 a) a

/-- How far the offset moves; the sizes of raw and of stack data are signed. -/
def length : SampleField → Int → Int
  | word _, _ | tid, _ | cpu, _ | dataSrc, _ => 8
  | read, a => max (toInt32 (readLength env a)) 0
  | callchain, a => 8 + 8 * (env.value 8 a).toNat
  | raw, a => 4 + env.value 4 a
  | branchStack, a => 8 + 24 * (env.value 8 a).toNat
  | regs _, _ => 8 + 8 * weight env.regMask
  | stackUser, a => 16 + env.value 8 a

/-- The bounds of its loops. -/
def counts : SampleField → Int → List Int
  | read, a => if bitAnd env.readFormat perfFormatGroup then [env.value 8 a] else []
  | callchain, a | branchStack, a => [env.value 8 a]
  | raw, a =>
    if env.quiet ∨ env.rawType = rawIbsFetch ∨ env.rawType = rawIbsOp then [] else [env.value 4 a]
  | stackUser, a => [stackWords (env.value 8 (a + 8 + env.value 8 a))]
  | _, _ => []

/-- What it reads is in the first `room` bytes, and in its own buffers. -/
def Fits (room : Int) : SampleField → Int → Prop
  | word _, a | tid, a | cpu, a | dataSrc, a => Within room a 8
  | read, a => Within room a (readLength env a)
  | callchain, a => Within room a (8 + 8 * (env.value 8 a).toNat)
  | raw, a => Within room a 4 ∧
      (env.quiet = false → 0 < rawLooks env (env.value 4 a) (a + 4) →
        Within room (a + 4) (rawLooks env (env.value 4 a) (a + 4)))
  | branchStack, a => Within room a (8 + 24 * (env.value 8 a).toNat)
  | regs _, a => Within room a (if env.quiet then 8 else 8 + 8 * weight env.regMask)
  | stackUser, a =>
    let words := stackWords (env.value 8 (a + 8 + env.value 8 a))
    0 ≤ env.value 8 a ∧ Within room a (16 + env.value 8 a) ∧ 4 * words < 2 ^ 31 ∧
      (env.quiet = false → 0 < words → 16 * (words - 1) + 4 ≤ env.value 8 a)

end SampleField

/-- The fields that the sample type asks for. -/
def presentFields : List SampleField :=
  (sampleFields.filter fun x => bitAnd env.sampleType x.1).map (·.2)

/-- The length of fields in a row. -/
def totalLength : List SampleField → Int → Int
  | [], _ => 0
  | f :: fs, a => f.length env a + totalLength fs (a + f.length env a)

/-- `P` holds of each of the fields in a row, where it lies. -/
def EachField (P : SampleField → Int → Prop) : List SampleField → Int → Prop
  | [], _ => True
  | f :: fs, a => P f a ∧ EachField P fs (a + f.length env a)

/-! ## The records -/

def fieldsLength (fs : List (Nat × String)) : Nat := (fs.map (·.1)).sum

/-- How far an iteration at `a` moves. -/
def recordLength (size a : Int) : Int :=
  match caseOf (env.data.word 4 a) with
  | none => size - a
  | some .comm | some .mmap | some .mmap2 => (env.data.word 2 (a + 6) : Int)
  | some .sample => 8 + totalLength env (presentFields env) (a + 8)
  | some t => 8 + fieldsLength (fixedFields t)

/-- The counts that an iteration at `a` loops over satisfy `P`. -/
def RecordCounts (P : Int → Prop) (a : Int) : Prop :=
  match caseOf (env.data.word 4 a) with
  | some .sample => EachField env (fun f b => ∀ n ∈ f.counts env b, P n) (presentFields env) (a + 8)
  | _ => True

/-- What an iteration at `a` reads is in the first `room` bytes, and in its own buffers. -/
def RecordFits (room a : Int) : Prop :=
  let evsize : Int := env.data.word 2 (a + 6)
  Within room a 8 ∧
  match caseOf (env.data.word 4 a) with
  | none => True
  | some .comm => 16 ≤ evsize ∧ Within room a evsize
  | some .mmap => 40 ≤ evsize ∧ Within room a evsize
  | some .mmap2 => 72 ≤ evsize ∧ Within room a evsize
  | some .sample => EachField env (SampleField.Fits env room) (presentFields env) (a + 8)
  | some t => Within room a (8 + fieldsLength (fixedFields t))

/-- The string at the end of the record at `a`, if it has one, ends in a zero. -/
def Terminated (a : Int) : Prop :=
  let evsize := env.data.word 2 (a + 6)
  let string := fun n : Nat => env.data.load (a + n) ((evsize : Int) - n).toNat
  match caseOf (env.data.word 4 a) with
  | some .comm => 0 ∈ string 16
  | some .mmap => 0 ∈ string 40
  | some .mmap2 => 0 ∈ string 72
  | _ => True

/-- An iteration at `a` stays inside: its fields are there, and the text that it prints ends. -/
def RecordInside (room a : Int) : Prop :=
  RecordFits env room a ∧ (env.quiet = false → Terminated env a)

/-- The positions at which the records lie that begin before `size`, and the end. -/
inductive Comes (size : Int) : Int → Prop
  | first : Comes size 0
  | next {a : Int} : Comes size a → a < size → Comes size (a + recordLength env size a)

end Lengths

variable {env : Env} {p q : Part} {m n : Nat}

-- a value that is read from the data is never computed in these proofs
attribute [local irreducible] Env.value

/-! ## Parts that read what they go over -/

/-- The accesses of a part are inside. -/
def Part.Inside (room : Int) (p : Part) (a : Int) : Prop := ∀ x ∈ (p a).accesses, x.Inside room

theorem Part.inside_seq {room a : Int} :
    (p.seq q).Inside room a ↔ p.Inside room a ∧ q.Inside room (a + (p a).size) :=
  List.forall_mem_append

theorem Part.seq_accesses (p q : Part) (a : Int) :
    (p.seq q a).accesses = (p a).accesses ++ (q (a + (p a).size)).accesses := rfl

theorem Part.inside_nil {room a : Int} : Part.nil.Inside room a ↔ True :=
  iff_true_intro (List.forall_mem_nil _)

theorem Part.inside_of_accesses {room a : Int} (h : (p a).accesses = []) :
    p.Inside room a ↔ True := by
  unfold Part.Inside
  rw [h]
  exact iff_true_intro (List.forall_mem_nil _)

theorem Part.inside_value {env : Env} {k : Nat} {p : Int → Part} {room a : Int} :
    Part.Inside room (fun a => p (env.value k a) a) a ↔ (p (env.value k a)).Inside room a :=
  Iff.rfl

theorem Part.inside_at {α : Type} {f : Int → α} {p : α → Part} {room a : Int} :
    Part.Inside room (fun a => p (f a) a) a ↔ (p (f a)).Inside room a :=
  Iff.rfl

/-- A part that goes over `n` bytes and reads all of them. -/
structure Covers (p : Part) (n : Nat) : Prop where
  size : ∀ a, (p a).size = n
  inside : ∀ room a, p.Inside room a ↔ (0 < n → Within room a n)

/-- A part without loops over counts. -/
def Loopless (p : Part) : Prop := ∀ a, (p a).loops = []

namespace Covers

theorem seq (hp : Covers p m) (hq : Covers q n) : Covers (p.seq q) (m + n) := by
  constructor
  · intro a
    change (p a).size + (q (a + (p a).size)).size = _
    rw [hp.size, hq.size]
    push_cast
    rfl
  · intro room a
    rw [Part.inside_seq, hp.inside, hq.inside, hp.size]
    unfold Within
    push_cast
    omega

theorem of_eq (h : Covers p m) (heq : m = n) : Covers p n := heq ▸ h

theorem named (label : String) (names : Nat → List String) : Covers (Part.named env label names) 8 := by
  refine ⟨fun _ => rfl, fun room a => ?_⟩
  unfold Part.Inside Part.named Within
  simp only [List.forall_mem_singleton, Access.Inside]
  omega

theorem of_nothing (hsize : ∀ a, (p a).size = 0) (h : ∀ a, (p a).accesses = []) : Covers p 0 :=
  ⟨hsize, fun _ a => (Part.inside_of_accesses (h a)).trans
    (iff_true_intro fun hpos => absurd hpos (Nat.lt_irrefl 0)).symm⟩

theorem nil : Covers Part.nil 0 := of_nothing (fun _ => rfl) fun _ => rfl

theorem enter (n : Int) : Covers (Part.enter n) 0 := of_nothing (fun _ => rfl) fun _ => rfl

theorem check (f : ValidateValues → Option ValidateError) : Covers (Part.check env f) 0 :=
  of_nothing (fun _ => rfl) fun _ => rfl

theorem field (n : Nat) (label : String) (h : 0 < n) : Covers (Part.field env n label) n := by
  refine ⟨fun _ => rfl, fun room a => ?_⟩
  unfold Part.Inside Part.field Within
  simp only [List.forall_mem_singleton, Access.Inside]
  omega

theorem wordOnBit {flags mask : Nat} (h : Covers p 8) :
    Covers (Part.onBit flags mask p) (ParseRecord.wordOnBit flags mask) := by
  unfold Part.onBit ParseRecord.wordOnBit
  split
  · exact h
  · exact nil

theorem times {p : Nat → Part} (h : ∀ i, Covers (p i) m) (n : Nat) :
    Covers (Part.times n p) (n * m) := by
  induction n with
  | zero => exact nil.of_eq (Nat.zero_mul m).symm
  | succ n ih => exact (ih.seq (h n)).of_eq (Nat.succ_mul n m).symm

theorem times_exists {p : Nat → Part} (h : ∀ i, ∃ m, Covers (p i) m) (n : Nat) :
    ∃ m, Covers (Part.times n p) m := by
  induction n with
  | zero => exact ⟨0, nil⟩
  | succ n ih =>
    obtain ⟨m, hm⟩ := ih
    obtain ⟨k, hk⟩ := h n
    exact ⟨m + k, hm.seq hk⟩

theorem inside_of_pos (h : Covers p n) (hn : 0 < n) (room a : Int) :
    p.Inside room a ↔ Within room a n :=
  (h.inside room a).trans ⟨fun himp => himp hn, fun hw _ => hw⟩

end Covers

namespace Loopless

theorem nil : Loopless Part.nil := fun _ => rfl

theorem seq (hp : Loopless p) (hq : Loopless q) : Loopless (p.seq q) := by
  intro a
  change (p a).loops ++ (q (a + (p a).size)).loops = []
  rw [hp, hq]
  rfl

theorem onBit {flags mask : Nat} (h : Loopless p) : Loopless (Part.onBit flags mask p) := by
  unfold Part.onBit
  split
  · exact h
  · exact nil

theorem times {p : Nat → Part} (h : ∀ i, Loopless (p i)) (n : Nat) :
    Loopless (Part.times n p) := by
  induction n with
  | zero => exact nil
  | succ n ih => exact ih.seq (h n)

theorem unlessQuiet (h : Loopless p) : Loopless (Part.unlessQuiet env p) := by
  unfold Part.unlessQuiet
  split
  · exact nil
  · exact h

theorem ite {c : Prop} [Decidable c] (h : Loopless p) : Loopless (if c then p else Part.nil) := by
  split
  · exact h
  · exact nil

theorem field (n : Nat) (label : String) : Loopless (Part.field env n label) := fun _ => rfl

theorem named (label : String) (names : Nat → List String) :
    Loopless (Part.named env label names) := fun _ => rfl

theorem look (n : Nat) (rel : Int) (label : String) : Loopless (Part.look env n rel label) :=
  fun _ => rfl

theorem look_seq {n : Nat} {rel : Int} {label : String} (h : Loopless q) :
    Loopless ((Part.look env n rel label).seq q) :=
  .seq (.look n rel label) h

theorem check (f : ValidateValues → Option ValidateError) : Loopless (Part.check env f) :=
  fun _ => rfl

theorem skip (n : Int) : Loopless (Part.skip n) := fun _ => rfl

theorem seq_loops (hp : Loopless p) (a : Int) :
    (p.seq q a).loops = (q (a + (p a).size)).loops := by
  change (p a).loops ++ _ = _
  rw [hp]
  rfl

/-- A loop over a count, entered behind the part that has the count. -/
theorem loops_enter (hp : Loopless p) (hq : Loopless q) (n a : Int) :
    (p.seq ((Part.enter n).seq q) a).loops = [n] := by
  rw [hp.seq_loops]
  change [n] ++ (q _).loops = [n]
  rw [hq]
  rfl

end Loopless

/-! ## The read values -/

theorem timesPart_covers : Covers (timesPart env) (timesLength env) :=
  (Covers.field 8 "enabled" (by decide)).wordOnBit.seq
    (Covers.field 8 "running" (by decide)).wordOnBit

theorem timesPart_loopless : Loopless (timesPart env) :=
  (Loopless.field 8 "enabled").onBit.seq (Loopless.field 8 "running").onBit

theorem readMemberPart_covers : Covers (readMemberPart env) (memberLength env) :=
  (Covers.field 8 "Value" (by decide)).seq (Covers.field 8 "id" (by decide)).wordOnBit

theorem groupPart_covers (nr : Int) :
    Covers (groupPart env nr) (8 + timesLength env + nr.toNat * memberLength env) := by
  have h : Covers (groupPart env nr)
      (8 + 0 + (timesLength env + (0 + nr.toNat * memberLength env))) :=
    ((Covers.field 8 "Number" (by decide)).seq (Covers.check (wrongNumber nr))).seq
      (timesPart_covers.seq ((Covers.enter nr).seq
        (.times (fun _ => readMemberPart_covers) nr.toNat)))
  exact h.of_eq (by omega)

theorem singlePart_covers : Covers (singlePart env)
    (8 + timesLength env + wordOnBit env.readFormat perfFormatId) :=
  Covers.of_eq ((Covers.field 8 "Value" (by decide)).seq
    (timesPart_covers.seq (Covers.field 8 "id" (by decide)).wordOnBit)) (Nat.add_assoc ..).symm

theorem readFormatPart_size (a : Int) : (readFormatPart env a).size = readLength env a := by
  unfold readFormatPart readLength
  split
  · have h : Covers (groupPart env (env.value 8 a)) _ := groupPart_covers _
    exact h.size a
  · exact singlePart_covers.size a

theorem readFormatPart_inside (room a : Int) :
    (readFormatPart env).Inside room a ↔ Within room a (readLength env a) := by
  unfold readFormatPart readLength
  split
  · have h : Covers (groupPart env (env.value 8 a)) _ := groupPart_covers _
    exact Part.inside_value.trans (h.inside_of_pos (by omega) room a)
  · exact singlePart_covers.inside_of_pos (by omega) room a

theorem groupPart_loops (nr a : Int) : (groupPart env nr a).loops = [nr] := by
  have hhead : Loopless ((Part.field env 8 "Number").seq (Part.check env (wrongNumber nr))) :=
    (Loopless.field 8 "Number").seq (Loopless.check _)
  have hmember : Loopless (readMemberPart env) :=
    (Loopless.field 8 "Value").seq (Loopless.field 8 "id").onBit
  exact (hhead.seq_loops a).trans
    (Loopless.loops_enter timesPart_loopless (.times (fun _ => hmember) _) nr _)

theorem readFormatPart_loops (a : Int) : (readFormatPart env a).loops =
    if bitAnd env.readFormat perfFormatGroup then [env.value 8 a] else [] := by
  unfold readFormatPart
  split
  · exact groupPart_loops (env.value 8 a) a
  · exact ((Loopless.field 8 "Value").seq (timesPart_loopless.seq
      (Loopless.field 8 "id").onBit)) a

/-! ## Counted fields, and registers -/

theorem callchainPart_covers (nr : Int) : Covers (callchainPart env nr) (8 + 8 * nr.toNat) :=
  Covers.of_eq ((Covers.field 8 "callchain length" (by decide)).seq ((Covers.enter nr).seq
    (.times (fun _ => Covers.field 8 "ip" (by decide)) nr.toNat))) (by omega)

theorem branchEntryPart_covers : Covers (branchEntryPart env) 24 := by
  have h : ∀ from_, Covers (branchFieldsPart env from_) 24 := fun _ =>
    (Covers.field 8 "from" (by decide)).seq ((Covers.check _).seq
      ((Covers.field 8 "to" (by decide)).seq (Covers.named "flags" branchFlagNames)))
  constructor
  · intro a
    exact (h (env.data.word 8 a)).size a
  · intro room a
    exact (Part.inside_at (p := branchFieldsPart env)).trans ((h _).inside room a)

theorem branchStackPart_covers (bnr : Int) :
    Covers (branchStackPart env bnr) (8 + 24 * bnr.toNat) :=
  Covers.of_eq ((Covers.field 8 "branch_stack entries" (by decide)).seq ((Covers.enter bnr).seq
    (.times (fun _ => branchEntryPart_covers) bnr.toNat))) (by omega)

theorem printRegsPart_size (a : Int) : (printRegsPart env a).size = (8 * weight env.regMask : Nat) := by
  have hprint : Moves _ (printRegs env 0) := printRegs_moves 0
  have hmoves := hprint { offset := a }
  rw [printRegs_describes] at hmoves
  exact add_left_cancel hmoves

theorem regMaskPart_covers : Covers (regMaskPart env) 0 :=
  Covers.of_nothing (fun _ => rfl) fun _ => rfl

theorem printRegsPart_quiet (hquiet : env.quiet = true) (a : Int) :
    (printRegsPart env a).accesses = [] := by
  have hreg : ∀ i a, (printRegPart env i a).accesses = [] := by
    intro i a
    unfold printRegPart Part.unlessQuiet
    rw [if_pos hquiet]
    split <;> rfl
  have hregs : ∀ n a, (Part.times n (printRegPart env) a).accesses = [] := by
    intro n a
    induction n with
    | zero => rfl
    | succ n ih =>
      change (Part.times n (printRegPart env) a).accesses ++ _ = []
      rw [ih, hreg]
      rfl
  unfold printRegsPart
  rw [Part.seq_accesses, hregs]
  rfl

theorem printRegPart_covers (hquiet : env.quiet = false) (i : Nat) :
    ∃ n, Covers (printRegPart env i) n := by
  unfold printRegPart Part.unlessQuiet
  rw [hquiet]
  by_cases hreg : env.regMask.getLsbD i
  · rw [if_pos hreg]
    refine ⟨8, fun _ => rfl, fun room a => ?_⟩
    simp [Part.Inside, Part.seq, Effect.append, registerPart, Part.skip, Access.Inside, Within]
  · rw [if_neg hreg]
    exact ⟨0, .nil⟩

theorem printRegsPart_covers (hquiet : env.quiet = false) :
    Covers (printRegsPart env) (8 * weight env.regMask) := by
  obtain ⟨n, hn⟩ := Covers.times_exists (printRegPart_covers hquiet) 64
  have h : Covers (printRegsPart env) (0 + n) := regMaskPart_covers.seq hn
  have hsize := (h.size 0).symm.trans (printRegsPart_size 0)
  exact h.of_eq (Int.ofNat.inj hsize)

/-- Without printing the registers are skipped, otherwise they are read. -/
theorem regsPart_inside (label : String) (room a : Int) : (regsPart env label).Inside room a ↔
    Within room a (if env.quiet then 8 else 8 + 8 * weight env.regMask) := by
  have hfield : Covers (Part.named env label regsAbiNames) 8 := Covers.named label regsAbiNames
  cases hquiet : env.quiet with
  | true =>
    unfold regsPart
    rw [Part.inside_seq, Part.inside_of_accesses (printRegsPart_quiet hquiet _), and_true]
    exact hfield.inside_of_pos (by decide) room a
  | false =>
    have h := (hfield.seq (printRegsPart_covers hquiet)).inside_of_pos (by omega) room a
    push_cast at h
    exact h

theorem regsPart_size (label : String) (a : Int) :
    (regsPart env label a).size = 8 + 8 * weight env.regMask := by
  change 8 + (printRegsPart env _).size = _
  rw [printRegsPart_size]
  push_cast
  rfl

/-! ## Raw data and stacks -/

section Looks

variable (n : Nat) (rel : Int) (label : String) (room a : Int)

theorem look_inside : (Part.look env n rel label).Inside room a ↔ Within room (a + rel) n := by
  simp [Part.Inside, Part.look, Access.Inside, Within]

theorem look_seq_inside : ((Part.look env n rel label).seq q).Inside room a ↔
    Within room (a + rel) n ∧ q.Inside room a := by
  rw [Part.inside_seq, look_inside]
  change _ ∧ q.Inside room (a + 0) ↔ _
  rw [add_zero]

theorem onBit_look_seq_inside (flags mask : Nat) :
    ((Part.onBit flags mask (Part.look env n rel label)).seq q).Inside room a ↔
      (bitAnd flags mask → Within room (a + rel) n) ∧ q.Inside room a := by
  unfold Part.onBit
  split
  · next hbit => rw [look_seq_inside, forall_prop_of_true hbit]
  · next hbit =>
    rw [Part.inside_seq, Part.inside_nil, forall_prop_of_false hbit]
    change True ∧ q.Inside room (a + 0) ↔ _
    rw [add_zero]

theorem ite_look_inside (c : Prop) [Decidable c] :
    Part.Inside room (if c then Part.look env n rel label else Part.nil) a ↔
      (c → Within room (a + rel) n) := by
  split
  · next h => rw [look_inside, forall_prop_of_true h]
  · next h => rw [Part.inside_nil, forall_prop_of_false h]

end Looks

/-- Looks are made without moving. -/
def Stays (p : Part) : Prop := ∀ a, (p a).size = 0

theorem Stays.nil : Stays Part.nil := fun _ => rfl

theorem Stays.look (n : Nat) (rel : Int) (label : String) : Stays (Part.look env n rel label) :=
  fun _ => rfl

theorem Stays.seq (hp : Stays p) (hq : Stays q) : Stays (p.seq q) := by
  intro a
  change (p a).size + (q _).size = 0
  rw [hp, hq, add_zero]

theorem Stays.look_seq {n : Nat} {rel : Int} {label : String} (h : Stays q) :
    Stays ((Part.look env n rel label).seq q) :=
  .seq (.look n rel label) h

theorem Stays.onBit {flags mask : Nat} (h : Stays p) : Stays (Part.onBit flags mask p) := by
  unfold Part.onBit
  split
  · exact h
  · exact .nil

theorem Stays.ite {c : Prop} [Decidable c] (h : Stays p) : Stays (if c then p else Part.nil) := by
  split
  · exact h
  · exact .nil

theorem Stays.times {p : Nat → Part} (h : ∀ i, Stays (p i)) (n : Nat) : Stays (Part.times n p) := by
  induction n with
  | zero => exact .nil
  | succ n ih => exact ih.seq (h n)

theorem rawIbsFetchPart_inside (size room a : Int) : (rawIbsFetchPart env size).Inside room a ↔
    Within room a (if size > 24 then 36 else 28) := by
  unfold rawIbsFetchPart Within
  simp only [look_seq_inside, ite_look_inside, Within]
  split <;> omega

theorem rawIbsOpPart_inside (size room a : Int) : (rawIbsOpPart env size).Inside room a ↔
    Within room a (if size > 64 then 68
      else if bitAnd (env.data.word 8 (a + 36)) (1 <<< 18) then 60
      else if bitAnd (env.data.word 8 (a + 36)) (1 <<< 17) then 52 else 44) := by
  have hlooks : ∀ data3, (rawIbsOpLooks env size data3).Inside room a ↔
      Within room a (if size > 64 then 68 else if bitAnd data3 (1 <<< 18) then 60
        else if bitAnd data3 (1 <<< 17) then 52 else 44) := by
    intro data3
    unfold rawIbsOpLooks
    simp only [look_seq_inside, onBit_look_seq_inside, ite_look_inside]
    unfold Within
    cases bitAnd data3 (1 <<< 17) <;> cases bitAnd data3 (1 <<< 18) <;>
      simp only [if_true, if_false, forall_const, Bool.false_eq_true, false_imp_iff, true_and] <;>
      split <;> omega
  have h := hlooks (env.data.word 8 (a + 36))
  unfold Part.Inside at h ⊢
  exact h

theorem rawBytesPart_inside (size room a : Int) : (rawBytesPart env size).Inside room a ↔
    (0 < size.toNat → Within room a size.toNat) := by
  have hbyte : ∀ i : Nat, (rawBytePart env i).Inside room a ↔ Within room (a + i) 1 := fun i => by
    simp [Part.Inside, rawBytePart, Access.Inside, Within]
  have htimes : ∀ n : Nat, (Part.times n (rawBytePart env)).Inside room a ↔
      (0 < n → Within room a n) := by
    intro n
    induction n with
    | zero => exact Part.inside_nil.trans (iff_of_true trivial fun h => absurd h (by decide))
    | succ n ih =>
      change Part.Inside room (Part.seq _ _) a ↔ _
      rw [Part.inside_seq, ih, Stays.times (fun _ _ => rfl) n a, add_zero, hbyte]
      unfold Within
      push_cast
      omega
  unfold rawBytesPart
  rw [Part.inside_seq, Part.inside_of_accesses rfl, true_and]
  change Part.Inside room _ (a + 0) ↔ _
  rw [add_zero]
  exact htimes size.toNat

theorem dumpRawPart_inside (size room a : Int) : (dumpRawPart env size).Inside room a ↔
    (0 < rawLooks env size a → Within room a (rawLooks env size a)) := by
  have hpos : ∀ {n : Nat} {P : Prop}, 0 < n → ((0 < n → P) ↔ P) := fun hn =>
    ⟨fun h => h hn, fun h _ => h⟩
  unfold dumpRawPart rawLooks
  split
  · rw [rawIbsFetchPart_inside, hpos (by split <;> decide)]
    push_cast
    rfl
  · split
    · rw [rawIbsOpPart_inside, hpos (by dsimp only; split_ifs <;> decide)]
      push_cast
      rfl
    · exact rawBytesPart_inside size room a

theorem dumpRawPart_stays (size : Int) : Stays (dumpRawPart env size) := by
  unfold dumpRawPart
  split
  · exact .look_seq (.look_seq (.look_seq (.look_seq (.ite (.look _ _ _)))))
  · split
    · have hlooks : ∀ data3, Stays (rawIbsOpLooks env size data3) := fun data3 =>
        .look_seq (.look_seq (.look_seq (.look_seq (.look_seq (.look_seq
          (.seq (.onBit (.look _ _ _)) (.seq (.onBit (.look _ _ _)) (.ite (.look _ _ _)))))))))
      exact fun a => hlooks _ a
    · exact Stays.seq (fun _ => rfl) (.times (fun _ _ => rfl) _)

theorem rawPart_size (size a : Int) : (rawPart env size a).size = 4 + size := by
  have hdump : Stays (Part.unlessQuiet env (dumpRawPart env size)) := by
    unfold Part.unlessQuiet
    split
    · exact .nil
    · exact dumpRawPart_stays size
  change 4 + ((Part.unlessQuiet env (dumpRawPart env size) _).size + size) = _
  rw [hdump, zero_add]

theorem rawPart_inside (size room a : Int) : (rawPart env size).Inside room a ↔ Within room a 4 ∧
    (env.quiet = false → 0 < rawLooks env size (a + 4) →
      Within room (a + 4) (rawLooks env size (a + 4))) := by
  have hfield : (Part.field env 4 "Raw length").Inside room a ↔ Within room a 4 :=
    (Covers.field 4 _ (by decide)).inside_of_pos (by decide) room a
  have hskip : ∀ a, (Part.skip size).Inside room a ↔ True := fun _ => Part.inside_of_accesses rfl
  unfold rawPart
  rw [Part.inside_seq, hfield, Part.inside_seq, hskip, and_true]
  apply and_congr_right
  intro _
  change Part.Inside room _ (a + 4) ↔ _
  unfold Part.unlessQuiet
  cases hquiet : env.quiet with
  | true => exact iff_of_true (Part.inside_nil.2 trivial) fun h => by cases h
  | false => exact (dumpRawPart_inside size room (a + 4)).trans ⟨fun h _ => h, fun h => h rfl⟩

theorem dumpRawPart_loops (size a : Int) : (dumpRawPart env size a).loops =
    if env.rawType = rawIbsFetch ∨ env.rawType = rawIbsOp then [] else [size] := by
  unfold dumpRawPart
  by_cases hfetch : env.rawType = rawIbsFetch
  · rw [if_pos hfetch, if_pos (.inl hfetch)]
    have hlooks : Loopless (rawIbsFetchPart env size) :=
      .look_seq (.look_seq (.look_seq (.look_seq (.ite (.look _ _ _)))))
    exact hlooks a
  · rw [if_neg hfetch]
    by_cases hop : env.rawType = rawIbsOp
    · rw [if_pos hop, if_pos (.inr hop)]
      have hlooks : ∀ data3, Loopless (rawIbsOpLooks env size data3) := fun data3 =>
        .look_seq (.look_seq (.look_seq (.look_seq (.look_seq (.look_seq
          (.seq (.onBit (.look _ _ _)) (.seq (.onBit (.look _ _ _)) (.ite (.look _ _ _)))))))))
      exact hlooks _ a
    · rw [if_neg hop, if_neg (not_or.2 ⟨hfetch, hop⟩)]
      have hbytes : Loopless (Part.times size.toNat (rawBytePart env)) :=
        .times (fun _ _ => rfl) _
      change [size] ++ (Part.times size.toNat (rawBytePart env) _).loops = [size]
      rw [hbytes]
      rfl

theorem rawPart_loops (size a : Int) : (rawPart env size a).loops =
    if env.quiet ∨ env.rawType = rawIbsFetch ∨ env.rawType = rawIbsOp then [] else [size] := by
  unfold rawPart
  rw [(Loopless.field 4 "Raw length").seq_loops]
  change (Part.unlessQuiet env (dumpRawPart env size) (a + 4)).loops ++ [] = _
  rw [List.append_nil]
  unfold Part.unlessQuiet
  cases hquiet : env.quiet with
  | true => exact (if_pos (.inl rfl)).symm
  | false =>
    rw [if_neg Bool.false_ne_true, dumpRawPart_loops]
    simp

section Stack

variable (stackData : Mem) (size dynSize room a : Int)

theorem stackWords_inside (n : Nat) : (Part.times n (stackWordPart env stackData size)).Inside room a ↔
    (0 < n → 16 * ((n : Int) - 1) + 4 ≤ size) := by
  induction n with
  | zero => exact Part.inside_nil.trans (iff_of_true trivial fun h => absurd h (by decide))
  | succ n ih =>
    change Part.Inside room (Part.seq _ _) a ↔ _
    rw [Part.inside_seq, ih]
    simp only [Part.Inside, stackWordPart, List.forall_mem_singleton, Access.Inside]
    push_cast
    rw [true_and]
    omega

theorem dumpStackPart_inside : (dumpStackPart env stackData size dynSize).Inside room a ↔
    4 * stackWords dynSize < 2 ^ 31 ∧
      (env.quiet = false → 0 < stackWords dynSize → 16 * (stackWords dynSize - 1) + 4 ≤ size) := by
  have henter : (Part.enterWords (stackWords dynSize)).Inside room a ↔
      4 * stackWords dynSize < 2 ^ 31 := List.forall_mem_singleton
  unfold dumpStackPart
  rw [Part.inside_seq, henter]
  apply and_congr_right'
  unfold Part.unlessQuiet
  cases hquiet : env.quiet with
  | true => exact iff_of_true (Part.inside_nil.2 trivial) fun h => by cases h
  | false =>
    have hcount : (Part.times (stackWords dynSize).toNat (stackWordPart env stackData size)).Inside
        room (a + 0) ↔ (0 < stackWords dynSize → 16 * (stackWords dynSize - 1) + 4 ≤ size) := by
      rw [stackWords_inside]
      omega
    exact hcount.trans ⟨fun h _ => h, fun h => h rfl⟩

theorem dumpStackPart_stays : Stays (dumpStackPart env stackData size dynSize) := by
  have hwords : Stays (Part.times (stackWords dynSize).toNat (stackWordPart env stackData size)) :=
    .times (fun _ _ => rfl) _
  apply Stays.seq fun _ => rfl
  unfold Part.unlessQuiet
  split
  · exact .nil
  · exact hwords

theorem dynSizePart_size : (dynSizePart env stackData size dynSize a).size = 8 := by
  change 8 + (dumpStackPart env stackData size _ _).size = 8
  rw [dumpStackPart_stays, add_zero]

theorem stackUserPart_size : (stackUserPart env size a).size = 16 + size := by
  change 8 + (size + (dynSizePart env _ size _ _).size) = _
  rw [dynSizePart_size]
  ring

theorem copy_inside : (Part.copy size).Inside room a ↔ 0 ≤ size ∧ Within room a size := by
  unfold Part.Inside Part.copy Within
  simp only [List.forall_mem_cons, Access.Inside, List.not_mem_nil, false_imp_iff, implies_true]
  rw [and_true]
  omega

theorem dynSizePart_inside : (dynSizePart env stackData size dynSize).Inside room a ↔
    Within room a 8 ∧ 4 * stackWords dynSize < 2 ^ 31 ∧
      (env.quiet = false → 0 < stackWords dynSize → 16 * (stackWords dynSize - 1) + 4 ≤ size) := by
  unfold dynSizePart
  rw [Part.inside_seq, (Covers.field 8 _ (by decide)).inside_of_pos (by decide),
    dumpStackPart_inside]
  rfl

theorem stackCopiedPart_inside : (stackCopiedPart env stackData size).Inside room a ↔
    0 ≤ size ∧ Within room a (size + 8) ∧ 4 * stackWords (env.value 8 (a + size)) < 2 ^ 31 ∧
      (env.quiet = false → 0 < stackWords (env.value 8 (a + size)) →
        16 * (stackWords (env.value 8 (a + size)) - 1) + 4 ≤ size) := by
  have hcopy : (Part.copy size a).size = size := rfl
  unfold stackCopiedPart
  rw [Part.inside_seq, copy_inside, Part.inside_value, dynSizePart_inside, hcopy]
  unfold Within
  constructor
  · rintro ⟨hcopy, hdyn, hwords⟩
    exact ⟨by omega, by omega, hwords⟩
  · rintro ⟨hsize, hroom, hwords⟩
    exact ⟨by omega, by omega, hwords⟩

theorem stackCopyPart_inside : (stackCopyPart env size).Inside room a ↔
    0 ≤ size ∧ Within room a (size + 8) ∧ 4 * stackWords (env.value 8 (a + size)) < 2 ^ 31 ∧
      (env.quiet = false → 0 < stackWords (env.value 8 (a + size)) →
        16 * (stackWords (env.value 8 (a + size)) - 1) + 4 ≤ size) := by
  unfold stackCopyPart
  rw [Part.inside_at (p := fun stackData => stackCopiedPart env stackData size),
    stackCopiedPart_inside]

theorem stackUserPart_inside : (stackUserPart env size).Inside room a ↔
    0 ≤ size ∧ Within room a (16 + size) ∧ 4 * stackWords (env.value 8 (a + 8 + size)) < 2 ^ 31 ∧
      (env.quiet = false → 0 < stackWords (env.value 8 (a + 8 + size)) →
        16 * (stackWords (env.value 8 (a + 8 + size)) - 1) + 4 ≤ size) := by
  have hfield : (Part.field env 8 "Requested size").Inside room a ↔ Within room a 8 :=
    (Covers.field 8 _ (by decide)).inside_of_pos (by decide) room a
  have hsize : (Part.field env 8 "Requested size" a).size = 8 := rfl
  unfold stackUserPart
  rw [Part.inside_seq, hfield, stackCopyPart_inside, hsize]
  unfold Within
  constructor
  · rintro ⟨hfield, hcopy, hdyn, hwords⟩
    exact ⟨by omega, by omega, hwords⟩
  · rintro ⟨hsize, hroom, hwords⟩
    exact ⟨by omega, by omega, by omega, hwords⟩

theorem stackUserPart_loops :
    (stackUserPart env size a).loops = [stackWords (env.value 8 (a + 8 + size))] := by
  have hwords : ∀ dynSize, Loopless (Part.unlessQuiet env (Part.times (stackWords dynSize).toNat
      (stackWordPart env (env.stackData (a + 8) size) size))) := fun _ =>
    .unlessQuiet (.times (fun _ _ => rfl) _)
  change [] ++ ([] ++ ([] ++ ([stackWords (env.value 8 (a + 8 + size))] ++
    (Part.unlessQuiet env (Part.times _ (stackWordPart env _ size)) _).loops))) = _
  rw [show (a + (Part.field env 8 "Requested size" a).size) = a + 8 from rfl, hwords]
  rfl

end Stack

/-! ## What is said of every field -/

theorem pair_inside (label label' : String) (room a : Int) :
    (((Part.look env 4 0 label).seq (Part.look env 4 4 label')).seq (Part.skip 8)).Inside room a ↔
      Within room a 8 := by
  have hskip : ∀ a, (Part.skip 8).Inside room a ↔ True := fun _ => Part.inside_of_accesses rfl
  rw [Part.inside_seq, hskip, and_true, look_seq_inside, look_inside]
  unfold Within
  omega

theorem tidPart_inside (pid room a : Int) : (tidPart env pid).Inside room a ↔ Within room a 8 := by
  have hcheck : (Part.check env (pidWrong pid)).Inside room a ↔ True := Part.inside_of_accesses rfl
  have hsize : (Part.check env (pidWrong pid) a).size = 0 := rfl
  unfold tidPart
  rw [Part.inside_seq, hcheck, true_and, hsize, add_zero]
  exact pair_inside "pid" "tid" room a

theorem cpuPart_inside (room a : Int) : (cpuPart env).Inside room a ↔ Within room a 8 :=
  pair_inside "cpu" "res" room a

theorem dataSrcPart_covers (src : Nat) : Covers (dataSrcPart env src) 8 :=
  (Covers.field 8 "Raw" (by decide)).seq (Covers.of_nothing (fun _ => rfl) fun _ => rfl)

theorem branchStackPart_loops (bnr a : Int) : (branchStackPart env bnr a).loops = [bnr] := by
  have hentry : Loopless (branchEntryPart env) := fun _ => rfl
  exact Loopless.loops_enter (.field 8 _) (.times (fun _ => hentry) _) bnr a

theorem regsPart_loops (label : String) (a : Int) : (regsPart env label a).loops = [] := by
  have hreg : ∀ i, Loopless (printRegPart env i) := by
    intro i
    unfold printRegPart
    have hregister : Loopless (registerPart env i) := fun _ => rfl
    exact .ite (.seq (.unlessQuiet hregister) (.skip 8))
  have hmask : Loopless (regMaskPart env) := fun _ => rfl
  have hregs : Loopless (regsPart env label) := .seq (.named _ _) (.seq hmask (.times hreg 64))
  exact hregs a

namespace SampleField

theorem part_size (f : SampleField) (a : Int) : (f.part env a).size = f.length env a := by
  cases f with
  | word _ | tid | cpu => rfl
  | read =>
    change max (toInt32 (readFormatPart env a).size) 0 = max (toInt32 (readLength env a)) 0
    rw [readFormatPart_size]
  | callchain => exact (callchainPart_covers (env.value 8 a)).size a
  | raw => exact rawPart_size (env.value 4 a) a
  | branchStack => exact (branchStackPart_covers (env.value 8 a)).size a
  | regs label => exact regsPart_size label a
  | stackUser => exact stackUserPart_size (env.value 8 a) a
  | dataSrc => exact (dataSrcPart_covers (env.data.word 8 a)).size a

theorem part_loops (f : SampleField) (a : Int) : (f.part env a).loops = f.counts env a := by
  cases f with
  | word _ | tid | cpu => rfl
  | read => exact readFormatPart_loops a
  | callchain =>
    have h : Loopless (Part.times (env.value 8 a).toNat fun _ => Part.field env 8 "ip") :=
      .times (fun _ => .field 8 _) _
    exact Loopless.loops_enter (.field 8 _) h _ a
  | raw => exact rawPart_loops (env.value 4 a) a
  | branchStack =>
    exact branchStackPart_loops (env.value 8 a) a
  | regs label => exact regsPart_loops label a
  | stackUser => exact stackUserPart_loops (env.value 8 a) a
  | dataSrc =>
    have hdataSrc : Loopless (dataSrcPart env (env.data.word 8 a)) :=
      .seq (.field 8 _) fun _ => rfl
    exact hdataSrc a

theorem part_inside (f : SampleField) (room a : Int) :
    (f.part env).Inside room a ↔ f.Fits env room a := by
  cases f with
  | word label => exact (Covers.field 8 label (by decide)).inside_of_pos (by decide) room a
  | tid => exact Part.inside_value.trans (tidPart_inside (env.value 4 a) room a)
  | cpu => exact cpuPart_inside room a
  | read => exact readFormatPart_inside room a
  | callchain =>
    have hcovers : Covers (callchainPart env (env.value 8 a)) _ := callchainPart_covers _
    have h := hcovers.inside_of_pos (by omega) room a
    push_cast at h
    exact Part.inside_value.trans h
  | raw => exact Part.inside_value.trans (rawPart_inside (env.value 4 a) room a)
  | branchStack =>
    have hcovers : Covers (branchStackPart env (env.value 8 a)) _ := branchStackPart_covers _
    have h := hcovers.inside_of_pos (by omega) room a
    push_cast at h
    exact Part.inside_value.trans h
  | regs label => exact regsPart_inside label room a
  | stackUser => exact Part.inside_value.trans (stackUserPart_inside (env.value 8 a) room a)
  | dataSrc =>
    have hcovers : ∀ src, Covers (dataSrcPart env src) 8 := dataSrcPart_covers
    exact (Part.inside_at (p := dataSrcPart env)).trans
      ((hcovers _).inside_of_pos (by decide) room a)

end SampleField

/-! ## Samples -/

theorem Part.nil_seq (p : Part) : Part.nil.seq p = p := by
  funext a
  change Effect.append {} (p (a + 0)) = p a
  rw [Effect.nil_append, add_zero]

variable (env) in
def fieldParts (fs : List SampleField) : Part := Part.all (fs.map (·.part env))

/-- A sample consists of the fields that its type asks for. -/
theorem samplePart_eq : samplePart env = fieldParts env (presentFields env) := by
  have hall : ∀ xs : List (Nat × SampleField),
      Part.all (xs.map fun x => Part.onBit env.sampleType x.1 (x.2.part env)) =
        fieldParts env ((xs.filter fun x => bitAnd env.sampleType x.1).map (·.2)) := by
    intro xs
    induction xs with
    | nil => rfl
    | cons x xs ih =>
      rw [List.map_cons, Part.all, ih, List.filter_cons]
      by_cases hbit : bitAnd env.sampleType x.1 = true
      · rw [if_pos hbit, Part.onBit, if_pos hbit]
        rfl
      · rw [if_neg hbit, Part.onBit, if_neg hbit, Part.nil_seq]
  exact hall sampleFields

theorem fieldParts_cons (f : SampleField) (fs : List SampleField) :
    fieldParts env (f :: fs) = (f.part env).seq (fieldParts env fs) := rfl

theorem fieldParts_size (fs : List SampleField) (a : Int) :
    (fieldParts env fs a).size = totalLength env fs a := by
  induction fs generalizing a with
  | nil => rfl
  | cons f fs ih =>
    change (f.part env a).size + (fieldParts env fs (a + (f.part env a).size)).size = _
    rw [f.part_size, ih]
    rfl

theorem fieldParts_loops {P : Int → Prop} (fs : List SampleField) (a : Int) :
    (∀ n ∈ (fieldParts env fs a).loops, P n) ↔
      EachField env (fun f b => ∀ n ∈ f.counts env b, P n) fs a := by
  induction fs generalizing a with
  | nil => exact iff_true_intro (List.forall_mem_nil _)
  | cons f fs ih =>
    change (∀ n ∈ (f.part env a).loops ++ (fieldParts env fs (a + (f.part env a).size)).loops, P n) ↔ _
    rw [List.forall_mem_append, f.part_loops, f.part_size, ih]
    rfl

theorem fieldParts_inside (room : Int) (fs : List SampleField) (a : Int) :
    (fieldParts env fs).Inside room a ↔ EachField env (SampleField.Fits env room) fs a := by
  induction fs generalizing a with
  | nil => exact Part.inside_nil
  | cons f fs ih =>
    rw [fieldParts_cons, Part.inside_seq, f.part_inside, f.part_size, ih]
    rfl

/-! ## Records -/

theorem fieldsPart_size (fs : List (Nat × String)) (a : Int) :
    (fieldsPart env fs a).size = fieldsLength fs := by
  induction fs generalizing a with
  | nil => rfl
  | cons f fs ih =>
    change (f.1 : Int) + (fieldsPart env fs _).size = ((f.1 + fieldsLength fs : Nat) : Int)
    rw [ih]
    push_cast
    rfl

theorem fieldsPart_covers (fs : List (Nat × String)) (h : ∀ f ∈ fs, 0 < f.1) :
    Covers (fieldsPart env fs) (fieldsLength fs) := by
  induction fs with
  | nil => exact .nil
  | cons f fs ih =>
    obtain ⟨hf, hfs⟩ := List.forall_mem_cons.1 h
    exact (Covers.field f.1 f.2 hf).seq (ih hfs)

theorem fieldsPart_loopless (fs : List (Nat × String)) : Loopless (fieldsPart env fs) := by
  induction fs with
  | nil => exact .nil
  | cons f fs ih => exact (Loopless.field f.1 f.2).seq ih

/-- The text in a buffer ends before the buffer does when there is a zero in it. -/
theorem takeWhile_length_lt (bs : Bytes) : (bs.takeWhile (· ≠ 0)).length < bs.length ↔ 0 ∈ bs := by
  induction bs with
  | nil => simp
  | cons b bs ih =>
    rw [List.takeWhile_cons]
    by_cases hb : b = 0
    · simp [hb]
    · simp only [hb, ne_eq, not_false_eq_true, decide_true, if_true, List.length_cons,
        Nat.succ_lt_succ_iff, List.mem_cons, Ne.symm hb, false_or]
      exact ih

theorem string_inside (n : Int) (label : String) (room a : Int) :
    (Part.string env n label).Inside room a ↔ 0 ≤ n ∧ Within room a n ∧
      (env.quiet = false → 0 ∈ env.data.load a n.toNat) := by
  have hat : (Part.string env n label).Inside room a ↔ ((Part.copy n).seq (Part.unlessQuiet env
      (Part.text env n label (env.data.load a n.toNat)))).Inside room a := Part.inside_at
  have hlength : (env.data.load a n.toNat).length = n.toNat := by simp
  have htext := takeWhile_length_lt (env.data.load a n.toNat)
  rw [hlength] at htext
  refine hat.trans ?_
  rw [Part.inside_seq, copy_inside, and_assoc]
  apply and_congr_right
  intro hn
  apply and_congr_right
  intro _
  unfold Part.unlessQuiet
  cases hquiet : env.quiet with
  | true => exact iff_of_true (Part.inside_nil.2 trivial) fun h => by cases h
  | false =>
    have hread : (Part.text env n label (env.data.load a n.toNat)).Inside room (a + n) ↔
        ((env.data.load a n.toNat).takeWhile (· ≠ 0)).length < n.toNat := by
      unfold Part.Inside Part.text
      rw [List.forall_mem_singleton]
      unfold Access.Inside
      dsimp only
      omega
    rw [← htext]
    exact hread.trans ⟨fun h _ => h, fun h => h rfl⟩

theorem string_size (n : Int) (label : String) (a : Int) : (Part.string env n label a).size = n := by
  change n + (Part.unlessQuiet env (Part.text env n label _) _).size = n
  unfold Part.unlessQuiet
  split <;> exact add_zero n

/-- Fields and then a string that ends the record. -/
theorem stringArm_size (fs : List (Nat × String)) (evsize a : Int) (label : String) :
    8 + ((fieldsPart env fs).seq (Part.string env (evsize - (8 + fieldsLength fs)) label) a).size =
      evsize := by
  change 8 + ((fieldsPart env fs a).size + (Part.string env _ label _).size) = _
  rw [fieldsPart_size, string_size]
  omega

theorem stringArm_inside (fs : List (Nat × String)) (hpos : ∀ f ∈ fs, 0 < f.1)
    (hne : 0 < fieldsLength fs) (evsize room a : Int) (label : String) :
    Within room a 8 ∧ ((fieldsPart env fs).seq
      (Part.string env (evsize - (8 + fieldsLength fs)) label)).Inside room (a + 8) ↔
        (Within room a 8 ∧ 8 + fieldsLength fs ≤ evsize ∧ Within room a evsize) ∧
          (env.quiet = false → 0 ∈ env.data.load (a + 8 + fieldsLength fs)
            (evsize - (8 + fieldsLength fs)).toNat) := by
  rw [Part.inside_seq, (fieldsPart_covers fs hpos).inside_of_pos hne, fieldsPart_size, string_inside]
  unfold Within
  constructor
  · rintro ⟨hheader, hfields, hsize, hroom, htext⟩
    exact ⟨⟨hheader, by omega, by omega⟩, htext⟩
  · rintro ⟨⟨hheader, hsize, hroom⟩, htext⟩
    exact ⟨hheader, by omega, by omega, by omega, htext⟩

theorem stringArm_loopless (fs : List (Nat × String)) (n : Int) (label : String) :
    Loopless ((fieldsPart env fs).seq (Part.string env n label)) := by
  have htext : ∀ bs, Loopless (Part.unlessQuiet env (Part.text env n label bs)) := fun _ =>
    .unlessQuiet fun _ => rfl
  exact (fieldsPart_loopless fs).seq fun a => htext _ (a + n)

/-- An iteration moves by the length of the record. -/
theorem iterationPart_size (size a : Int) :
    (iterationPart env size a).size = recordLength env size a := by
  change 8 + (armPart env size (env.data.word 2 (a + 6)) (env.data.word 4 a) (a + 8)).size = _
  unfold armPart recordLength
  cases caseOf (env.data.word 4 a) with
  | none =>
    change 8 + (size - (a + 8)) = size - a
    omega
  | some t =>
    cases t with
    | comm => exact stringArm_size pidFields _ _ _
    | mmap => exact stringArm_size mmapFields _ _ _
    | mmap2 => exact stringArm_size mmap2Fields _ _ _
    | sample =>
      dsimp only
      rw [samplePart_eq, fieldParts_size]
    | lost | fork | exit | throttle | unthrottle | aux | itraceStart | lostSamples | switch
    | switchCpuWide | read | namespaces | ksymbol | bpfEvent | cgroup | textPoke | auxOutputHwId
    | callchainDeferred => exact congrArg (8 + ·) (fieldsPart_size _ _)

theorem iterationPart_eq (size a : Int) :
    iterationPart env size a = (headerPart env (env.data.word 4 a) (env.data.word 2 (a + 4))
      (env.data.word 2 (a + 6))).seq
        (armPart env size (env.data.word 2 (a + 6)) (env.data.word 4 a)) a := rfl

theorem header_seq_loops (type misc evsize : Nat) (q : Part) (a : Int) :
    ((headerPart env type misc evsize).seq q a).loops = (q (a + 8)).loops := rfl

theorem iterationPart_loops {P : Int → Prop} (size a : Int) :
    (∀ n ∈ (iterationPart env size a).loops, P n) ↔ RecordCounts env P a := by
  rw [iterationPart_eq, header_seq_loops]
  have hnone : ∀ {p : Part} {a : Int}, Loopless p → ((∀ n ∈ (p a).loops, P n) ↔ True) := by
    intro p a hp
    rw [hp]
    exact iff_true_intro (List.forall_mem_nil _)
  unfold armPart RecordCounts
  cases caseOf (env.data.word 4 a) with
  | none => exact iff_true_intro (List.forall_mem_nil _)
  | some t =>
    cases t with
    | comm | mmap | mmap2 => exact hnone (stringArm_loopless _ _ _)
    | sample =>
      dsimp only
      rw [samplePart_eq, fieldParts_loops]
    | lost | fork | exit | throttle | unthrottle | aux | itraceStart | lostSamples | switch
    | switchCpuWide | read | namespaces | ksymbol | bpfEvent | cgroup | textPoke | auxOutputHwId
    | callchainDeferred => exact hnone (fieldsPart_loopless _)

theorem header_inside (type misc evsize : Nat) (room a : Int) :
    (headerPart env type misc evsize).Inside room a ↔ Within room a 8 := by
  simp [Part.Inside, headerPart, Access.Inside, Within]

theorem iterationPart_inside (size room a : Int) :
    (iterationPart env size).Inside room a ↔ RecordInside env room a := by
  have hseq : (iterationPart env size).Inside room a ↔ Within room a 8 ∧
      (armPart env size (env.data.word 2 (a + 6)) (env.data.word 4 a)).Inside room (a + 8) := by
    have hheader : (headerPart env (env.data.word 4 a) (env.data.word 2 (a + 4))
        (env.data.word 2 (a + 6))).Inside room a ↔ Within room a 8 := header_inside _ _ _ _ _
    rw [← hheader, Part.Inside, iterationPart_eq]
    exact Part.inside_seq
  have hfixed : ∀ t, (∀ f ∈ fixedFields t, 0 < f.1) → 0 < fieldsLength (fixedFields t) →
      (Within room a 8 ∧ (fieldsPart env (fixedFields t)).Inside room (a + 8) ↔
        (Within room a 8 ∧ Within room a (8 + fieldsLength (fixedFields t))) ∧
          (env.quiet = false → True)) := by
    intro t hpos hne
    rw [(fieldsPart_covers _ hpos).inside_of_pos hne]
    unfold Within
    simp only [implies_true, and_true]
    omega
  have hstring : ∀ fs, (∀ f ∈ fs, 0 < f.1) → 0 < fieldsLength fs → ∀ label,
      (Within room a 8 ∧ ((fieldsPart env fs).seq (Part.string env
        ((env.data.word 2 (a + 6) : Int) - (8 + fieldsLength fs)) label)).Inside room (a + 8) ↔
      (Within room a 8 ∧ (8 + fieldsLength fs : Int) ≤ env.data.word 2 (a + 6) ∧
        Within room a (env.data.word 2 (a + 6))) ∧ (env.quiet = false →
          0 ∈ env.data.load (a + (8 + fieldsLength fs : Nat))
            ((env.data.word 2 (a + 6) : Int) - (8 + fieldsLength fs : Nat)).toNat)) := by
    intro fs hpos hne label
    rw [stringArm_inside fs hpos hne]
    push_cast
    rw [add_assoc]
  rw [hseq]
  unfold armPart RecordInside RecordFits Terminated
  cases hcase : caseOf (env.data.word 4 a) with
  | none =>
    simp only [implies_true, and_true]
    exact and_iff_left (List.forall_mem_nil _)
  | some t =>
    cases t with
    | comm => exact hstring pidFields (by decide) (by decide) _
    | mmap => exact hstring mmapFields (by decide) (by decide) _
    | mmap2 => exact hstring mmap2Fields (by decide) (by decide) _
    | sample =>
      dsimp only
      rw [samplePart_eq, fieldParts_inside]
      simp only [implies_true, and_true]
    | lost | fork | exit | throttle | unthrottle | aux | itraceStart | lostSamples | switch
    | switchCpuWide => exact hfixed _ (by decide) (by decide)
    | read | namespaces | ksymbol | bpfEvent | cgroup | textPoke | auxOutputHwId
    | callchainDeferred =>
      unfold caseOf at hcase
      split at hcase <;> cases hcase

/-- The positions that the loop comes to are those at which the records lie. -/
theorem reached_iff {size a : Int} : Reached env size a ↔ Comes env size a := by
  constructor
  · intro h
    induction h with
    | first => exact .first
    | next _ hlt ih => exact iterationPart_size size _ ▸ ih.next hlt
  · intro h
    induction h with
    | first => exact .first
    | @next b _ hlt ih =>
      have hsize : (iterationPart env size b).size = _ := iterationPart_size size b
      exact hsize ▸ ih.next hlt

end PerfEvent.ParseRecord
