import PerfEventTests.ParseRecord.Reader

/-!
# What each arm does at a position

A piece of the reader only adds to the decoder: it moves the offset and appends to what has been
printed, reported and accessed. What it adds depends on the data and on the offset alone, so a
piece is described by a `Part`, a function from positions to effects, and parts are put together
as the pieces are.
-/

namespace PerfEvent.ParseRecord

open ByteMemory

/-- What is added to a decoder. -/
@[ext] structure Effect where
  size : Int := 0
  printed : List Printed := []
  errors : List ValidateError := []
  accesses : List Access := []
  loops : List Int := []

namespace Effect

/-- One effect after the other. -/
def append (x y : Effect) : Effect where
  size := x.size + y.size
  printed := x.printed ++ y.printed
  errors := x.errors ++ y.errors
  accesses := x.accesses ++ y.accesses
  loops := x.loops ++ y.loops

theorem append_assoc (x y z : Effect) : (x.append y).append z = x.append (y.append z) := by
  simp [append, Int.add_assoc]

@[simp] theorem nil_append (x : Effect) : Effect.append {} x = x := by
  simp [append]

@[simp] theorem append_nil (x : Effect) : x.append {} = x := by
  simp [append]

end Effect

/-- The decoder with an effect added. -/
def Decoder.add (d : Decoder) (x : Effect) : Decoder where
  offset := d.offset + x.size
  printed := d.printed ++ x.printed
  errors := d.errors ++ x.errors
  accesses := d.accesses ++ x.accesses
  loops := d.loops ++ x.loops

theorem Decoder.add_append (d : Decoder) (x y : Effect) :
    d.add (x.append y) = (d.add x).add y := by
  simp [Decoder.add, Effect.append, add_assoc]

@[simp] theorem Decoder.add_nil (d : Decoder) : d.add {} = d := by
  simp [Decoder.add]

/-- A piece of the reader, as a function of the position it starts at. -/
abbrev Part := Int → Effect

namespace Part

def nil : Part := fun _ => {}

def seq (p q : Part) : Part := fun a => (p a).append (q (a + (p a).size))

/-- `n` parts in a row. -/
def times : Nat → (Nat → Part) → Part
  | 0, _ => nil
  | n + 1, p => (times n p).seq (p n)

def onBit (flags mask : Nat) (p : Part) : Part := if bitAnd flags mask then p else nil

end Part

/-- The piece `f` does what `p` says. -/
def Describes (p : Part) (f : Decoder → Decoder) : Prop := ∀ d, f d = d.add (p d.offset)

variable {env : Env} {p q : Part} {f g : Decoder → Decoder}

namespace Describes

theorem id : Describes Part.nil fun d => d := fun d => d.add_nil.symm

theorem comp (hf : Describes p f) (hg : Describes q g) : Describes (p.seq q) fun d => g (f d) := by
  intro d
  change g (f d) = _
  rw [hg, hf, Part.seq, Decoder.add_append]
  rfl

theorem onBit {flags mask : Nat} (h : Describes p f) :
    Describes (Part.onBit flags mask p) (ParseRecord.onBit flags mask f) := by
  intro d
  unfold Part.onBit ParseRecord.onBit
  split
  · exact h d
  · exact d.add_nil.symm

theorem loop {p : Nat → Part} {body : Nat → Decoder → Decoder} (h : ∀ i, Describes (p i) (body i))
    (n : Int) : Describes (Part.times n.toNat p) fun d => d.loop n body := by
  have hnat : ∀ (n : Nat) (d : Decoder), (List.range n).foldl (fun d i => body i d) d =
      d.add (Part.times n p d.offset) := by
    intro n d
    induction n with
    | zero => exact d.add_nil.symm
    | succ n ih =>
      rw [List.range_succ, List.foldl_append, ih]
      exact (h n _).trans (Decoder.add_append ..).symm
  exact fun d => hnat n.toNat d

end Describes

/-! ## The pieces that everything is made of -/

variable (env)

/-- The signed value of the `n` bytes at a position. -/
def Env.value (n : Nat) (a : Int) : Int := toSigned (8 * n) (env.data.word n a)

/-- What is printed unless the reader is quiet. -/
def Env.shown (p : Printed) : List Printed := if env.quiet then [] else [p]

namespace Part

def skip (n : Int) : Part := fun _ => { size := n }

def enter (n : Int) : Part := fun _ => { loops := [n] }

def enterWords (n : Int) : Part := fun _ => { loops := [n], accesses := [.counter (4 * n)] }

def check (f : ValidateValues → Option ValidateError) : Part :=
  fun _ => { errors := (env.validate.bind f).toList }

def look (n : Nat) (rel : Int) (label : String) : Part := fun a =>
  { printed := env.shown (.value label (env.value n (a + rel)))
    accesses := [.data (a + rel) n] }

def field (n : Nat) (label : String) : Part := fun a =>
  { size := n
    printed := env.shown (.value label (env.value n a))
    accesses := [.data a n] }

def named (label : String) (names : Nat → List String) : Part := fun a =>
  { size := 8
    printed := env.shown (.names label (names (env.data.word 8 a)))
    accesses := [.data a 8] }

/-- Names that are printed for what has been read. -/
def names (label : String) (xs : List String) : Part :=
  fun _ => { printed := env.shown (.names label xs) }

/-- Bytes that are copied into a buffer of their own. -/
def copy (n : Int) : Part := fun a =>
  { size := n
    accesses := [.data a n, .buffer n 0 n] }

/-- What is run only when the reader prints. -/
def unlessQuiet (p : Part) : Part := if env.quiet then nil else p

/-- The text in a buffer of `n` bytes, which is read up to its end. -/
def text (n : Int) (label : String) (bs : Bytes) : Part := fun _ =>
  { printed := env.shown (.text label bs)
    accesses := [.buffer n 0 ((bs.takeWhile (· ≠ 0)).length + 1)] }

def string (n : Int) (label : String) : Part := fun a =>
  ((copy n).seq (unlessQuiet env (text env n label (env.data.load a n.toNat)))) a

end Part

variable {env}

theorem Decoder.print_eq (d : Decoder) (x : Printed) :
    d.print env x = { d with printed := d.printed ++ env.shown x } := by
  unfold Decoder.print Env.shown
  split
  · rw [List.append_nil]
  · rfl

namespace Describes

theorem skip (n : Int) : Describes (Part.skip n) (·.skip n) := fun d => by
  simp [Decoder.add, Decoder.skip, Part.skip]

theorem enter (n : Int) : Describes (Part.enter n) (·.enter n) := fun d => by
  simp [Decoder.add, Decoder.enter, Part.enter]

theorem enterWords (n : Int) : Describes (Part.enterWords n) (·.enterWords n) := fun d => by
  simp [Decoder.add, Decoder.enterWords, Decoder.enter, Decoder.access, Part.enterWords]

theorem check (f : ValidateValues → Option ValidateError) :
    Describes (Part.check env f) (·.check env f) := fun d => by
  unfold Decoder.check Part.check
  cases env.validate.bind f <;> simp [Decoder.add, Decoder.error]

theorem look (n : Nat) (rel : Int) (label : String) :
    Describes (Part.look env n rel label) (·.look env n rel label) := fun d => by
  unfold Decoder.look
  dsimp only
  rw [Decoder.print_eq]
  simp [Decoder.add, Decoder.access, Part.look, Env.value]

theorem field (n : Nat) (label : String) :
    Describes (Part.field env n label) (·.field env n label) := fun d => by
  unfold Decoder.field Decoder.look
  dsimp only
  rw [Decoder.print_eq]
  simp [Decoder.add, Decoder.access, Decoder.skip, Part.field, Env.value]

theorem named (label : String) (names : Nat → List String) :
    Describes (Part.named env label names) (·.named env label names) := fun d => by
  unfold Decoder.named
  dsimp only
  rw [Decoder.print_eq]
  simp [Decoder.add, Decoder.access, Decoder.skip, Part.named]

theorem names (label : String) (xs : List String) :
    Describes (Part.names env label xs) (·.print env (.names label xs)) := fun d => by
  dsimp only
  rw [Decoder.print_eq]
  simp [Decoder.add, Part.names]

theorem unlessQuiet (h : Describes p f) :
    Describes (Part.unlessQuiet env p) fun d => if env.quiet then d else f d := fun d => by
  unfold Part.unlessQuiet
  dsimp only
  split
  · exact d.add_nil.symm
  · exact h d

theorem copy (n : Int) : Describes (Part.copy n) fun d =>
    ((d.access (.data d.offset n)).access (.buffer n 0 n)).skip n := fun d => by
  simp [Decoder.add, Decoder.access, Decoder.skip, Part.copy]

theorem string (n : Int) (label : String) :
    Describes (Part.string env n label) (·.string env n label) := fun d => by
  unfold Decoder.string Decoder.readText Part.string Part.unlessQuiet
  dsimp only
  rw [Decoder.print_eq]
  cases hquiet : env.quiet with
  | true =>
    simp [Decoder.add, Decoder.access, Decoder.skip, Part.seq, Part.copy, Part.nil, Env.shown, hquiet]
  | false =>
    simp [Decoder.add, Decoder.access, Decoder.skip, Part.seq, Part.copy, Part.text, Effect.append,
      Env.shown, hquiet]

/-- A value is read before the rest is run. -/
theorem value {n : Nat} {p : Int → Part} {f : Int → Decoder → Decoder}
    (h : ∀ v, Describes (p v) (f v)) :
    Describes (fun a => p (env.value n a) a) fun d => f (d.value env n) d :=
  fun d => h _ d

end Describes

/-! ## The arms -/

section Arms

variable (env : Env)

def readMemberPart : Part :=
  (Part.field env 8 "Value").seq (Part.onBit env.readFormat perfFormatId (Part.field env 8 "id"))

/-- The two times. -/
def timesPart : Part :=
  (Part.onBit env.readFormat perfFormatTotalTimeEnabled (Part.field env 8 "enabled")).seq
    (Part.onBit env.readFormat perfFormatTotalTimeRunning (Part.field env 8 "running"))

def wrongNumber (nr : Int) (v : ValidateValues) : Option ValidateError :=
  if v.events ≠ nr then some (.wrongNumberOfEvents v.events nr) else none

def groupPart (nr : Int) : Part :=
  ((Part.field env 8 "Number").seq (Part.check env (wrongNumber nr))).seq
    ((timesPart env).seq ((Part.enter nr).seq (Part.times nr.toNat fun _ => readMemberPart env)))

def singlePart : Part :=
  (Part.field env 8 "Value").seq
    ((timesPart env).seq (Part.onBit env.readFormat perfFormatId (Part.field env 8 "id")))

def readFormatPart : Part :=
  if bitAnd env.readFormat perfFormatGroup then fun a => groupPart env (env.value 8 a) a
  else singlePart env

def registerPart (i : Nat) : Part := fun a =>
  { printed := env.shown (.register i (env.value 8 a))
    accesses := [.data a 8] }

def printRegPart (i : Nat) : Part :=
  if env.regMask.getLsbD i then (Part.unlessQuiet env (registerPart env i)).seq (Part.skip 8)
  else Part.nil

def regMaskPart : Part := fun _ => { printed := env.shown (.value "Reg mask" env.regMask.toNat) }

def printRegsPart : Part := (regMaskPart env).seq (Part.times 64 (printRegPart env))

/-- The length is an `int`, and it is added only when it is not negative. -/
def sampleReadPart : Part := fun a =>
  { readFormatPart env a with size := max (toInt32 (readFormatPart env a).size) 0 }

def callchainPart (nr : Int) : Part :=
  (Part.field env 8 "callchain length").seq
    ((Part.enter nr).seq (Part.times nr.toNat fun _ => Part.field env 8 "ip"))

def rawBytePart (i : Nat) : Part := fun a =>
  { printed := env.shown (.value "raw" (env.data.word 1 (a + i)))
    accesses := [.data (a + i) 1] }

def rawBytesPart (size : Int) : Part :=
  (Part.enter size).seq (Part.times size.toNat (rawBytePart env))

def rawIbsFetchPart (size : Int) : Part :=
  (Part.look env 4 0 "Header").seq ((Part.look env 8 4 "MSR IBS_FETCH_CONTROL").seq
    ((Part.look env 8 12 "MSR IBS_FETCH_LINEAR_ADDRESS").seq
      ((Part.look env 8 20 "MSR IBS_FETCH_PHYSICAL_ADDRESS").seq
        (if size > 24 then Part.look env 8 28 "MSR IBS_BRTARGET" else Part.nil))))

/-- The addresses are there when the fifth register says so. -/
def rawIbsOpLooks (size : Int) (data3 : Nat) : Part :=
  (Part.look env 4 0 "Header").seq ((Part.look env 8 4 "MSR IBS_EXECUTION_CONTROL").seq
    ((Part.look env 8 12 "MSR IBS_OP_LOGICAL_ADDRESS").seq
      ((Part.look env 8 20 "MSR IBS_OP_DATA").seq ((Part.look env 8 28 "MSR IBS_OP_DATA2").seq
        ((Part.look env 8 36 "MSR IBS_OP_DATA3").seq
          ((Part.onBit data3 (1 <<< 17) (Part.look env 8 44 "MSR IBS_DC_LINEAR_ADDRESS")).seq
            ((Part.onBit data3 (1 <<< 18) (Part.look env 8 52 "MSR IBS_DC_PHYSICAL_ADDRESS")).seq
              (if size > 64 then Part.look env 8 60 "MSR IBS_OP_DATA4" else Part.nil))))))))

def rawIbsOpPart (size : Int) : Part := fun a =>
  rawIbsOpLooks env size (env.data.word 8 (a + 36)) a

def dumpRawPart (size : Int) : Part :=
  if env.rawType = rawIbsFetch then rawIbsFetchPart env size
  else if env.rawType = rawIbsOp then rawIbsOpPart env size
  else rawBytesPart env size

def rawPart (size : Int) : Part :=
  (Part.field env 4 "Raw length").seq
    ((Part.unlessQuiet env (dumpRawPart env size)).seq (Part.skip size))

def outOfBounds (from_ : Nat) (v : ValidateValues) : Option ValidateError :=
  if from_ < v.branchLow then some .branchOutOfBounds else none

def branchFieldsPart (from_ : Nat) : Part :=
  (Part.field env 8 "from").seq ((Part.check env (outOfBounds from_)).seq
    ((Part.field env 8 "to").seq (Part.named env "flags" branchFlagNames)))

def branchEntryPart : Part := fun a => branchFieldsPart env (env.data.word 8 a) a

def branchStackPart (bnr : Int) : Part :=
  (Part.field env 8 "branch_stack entries").seq
    ((Part.enter bnr).seq (Part.times bnr.toNat fun _ => branchEntryPart env))

def regsPart (label : String) : Part :=
  (Part.named env label regsAbiNames).seq (printRegsPart env)

/-- The number of words that the loop over the stack comes to. -/
def stackWords (dynSize : Int) : Int := (dynSize + 3) / 4

def stackWordPart (stackData : Mem) (size : Int) (k : Nat) : Part := fun _ =>
  { printed := env.shown (.value "stack" (stackData.word 4 (4 * (4 * k))))
    accesses := [.buffer size (4 * (4 * k)) 4] }

def dumpStackPart (stackData : Mem) (size dynSize : Int) : Part :=
  (Part.enterWords (stackWords dynSize)).seq (Part.unlessQuiet env
    (Part.times (stackWords dynSize).toNat (stackWordPart env stackData size)))

/-- The part of the stack behind the copy. -/
def dynSizePart (stackData : Mem) (size dynSize : Int) : Part :=
  (Part.field env 8 "Dynamic (used) size").seq (dumpStackPart env stackData size dynSize)

/-- The copy of the stack, and the rest. -/
def stackCopiedPart (stackData : Mem) (size : Int) : Part :=
  (Part.copy size).seq fun b => dynSizePart env stackData size (env.value 8 b) b

def stackCopyPart (size : Int) : Part := fun a =>
  stackCopiedPart env (env.stackData a size) size a

def stackUserPart (size : Int) : Part :=
  (Part.field env 8 "Requested size").seq (stackCopyPart env size)

def pidWrong (pid : Int) (v : ValidateValues) : Option ValidateError :=
  if v.pid ≠ pid then some (.pid v.pid pid) else none

def tidPart (pid : Int) : Part :=
  (Part.check env (pidWrong pid)).seq
    (((Part.look env 4 0 "pid").seq (Part.look env 4 4 "tid")).seq (Part.skip 8))

def cpuPart : Part :=
  ((Part.look env 4 0 "cpu").seq (Part.look env 4 4 "res")).seq (Part.skip 8)

def dataSrcPart (src : Nat) : Part :=
  (Part.field env 8 "Raw").seq (Part.names env "PERF_SAMPLE_DATA_SRC" (dataSrcNames src))

/-- The pieces of a sample in the order of the arm, each behind its bit. -/
def sampleParts : List (Nat × Part) := [
  (perfSampleIp, Part.field env 8 "IP"),
  (perfSampleTid, fun a => tidPart env (env.value 4 a) a),
  (perfSampleTime, Part.field env 8 "time"),
  (perfSampleAddr, Part.field env 8 "addr"),
  (perfSampleId, Part.field env 8 "sample_id"),
  (perfSampleStreamId, Part.field env 8 "sample_stream_id"),
  (perfSampleCpu, cpuPart env),
  (perfSamplePeriod, Part.field env 8 "period"),
  (perfSampleRead, sampleReadPart env),
  (perfSampleCallchain, fun a => callchainPart env (env.value 8 a) a),
  (perfSampleRaw, fun a => rawPart env (env.value 4 a) a),
  (perfSampleBranchStack, fun a => branchStackPart env (env.value 8 a) a),
  (perfSampleRegsUser, regsPart env "PERF_SAMPLE_REGS_USER"),
  (perfSampleRegsIntr, regsPart env "PERF_SAMPLE_REGS_INTR"),
  (perfSampleStackUser, fun a => stackUserPart env (env.value 8 a) a),
  (perfSampleWeight, Part.field env 8 "Weight"),
  (perfSampleDataSrc, fun a => dataSrcPart env (env.data.word 8 a) a),
  (perfSampleIdentifier, Part.field env 8 "PERF_SAMPLE_IDENTIFIER"),
  (perfSampleTransaction, Part.field env 8 "PERF_SAMPLE_TRANSACTION")]

/-- Parts one after the other. -/
def Part.all : List Part → Part
  | [] => Part.nil
  | p :: ps => p.seq (Part.all ps)

def samplePart : Part :=
  Part.all ((sampleParts env).map fun x => Part.onBit env.sampleType x.1 x.2)

end Arms

theorem readMember_describes : Describes (readMemberPart env) (readMember env) :=
  (Describes.field 8 "Value").comp (Describes.field 8 "id").onBit

theorem handleStructReadFormat_describes :
    Describes (readFormatPart env) (handleStructReadFormat env) := by
  have htimes : Describes (timesPart env) fun d =>
      onBit env.readFormat perfFormatTotalTimeRunning (·.field env 8 "running")
        (onBit env.readFormat perfFormatTotalTimeEnabled (·.field env 8 "enabled") d) :=
    (Describes.field 8 "enabled").onBit.comp (Describes.field 8 "running").onBit
  intro d
  unfold handleStructReadFormat readFormatPart
  split
  · exact Describes.value (n := 8) (fun nr => (((Describes.field 8 "Number").comp
      (Describes.check (wrongNumber nr))).comp (htimes.comp ((Describes.enter nr).comp
        (Describes.loop (fun _ => readMember_describes) nr))))) d
  · exact ((Describes.field 8 "Value").comp (htimes.comp (Describes.field 8 "id").onBit)) d

theorem printReg_describes (i : Nat) : Describes (printRegPart env i) (printReg env i) := by
  intro d
  unfold printRegPart printReg
  split
  · have hregister : Describes (registerPart env i) fun d =>
        (d.access (.data d.offset 8)).print env (.register i (d.value env 8)) := fun d => by
      dsimp only
      rw [Decoder.print_eq]
      simp [Decoder.add, Decoder.access, registerPart, Env.value, Decoder.value]
    exact (hregister.unlessQuiet.comp (Describes.skip 8)) d
  · exact d.add_nil.symm

theorem printRegs_describes (abi : Int) : Describes (printRegsPart env) (printRegs env abi) := by
  have hprint : Describes (regMaskPart env)
      (·.print env (.value "Reg mask" env.regMask.toNat)) := fun d => by
    dsimp only
    rw [Decoder.print_eq]
    simp [Decoder.add, regMaskPart]
  exact hprint.comp (Describes.loop printReg_describes 64)

theorem sampleRead_describes : Describes (sampleReadPart env) (sampleRead env) := by
  intro d
  unfold sampleRead sampleReadPart
  dsimp only
  rw [handleStructReadFormat_describes d]
  have hsize : (d.add (readFormatPart env d.offset)).offset - d.offset =
      (readFormatPart env d.offset).size := by
    exact add_sub_cancel_left _ _
  rw [hsize, Decoder.add, Decoder.add]
  congr 1
  dsimp only
  split <;> omega

theorem sampleCallchain_describes :
    Describes (fun a => callchainPart env (env.value 8 a) a) (sampleCallchain env) := by
  intro d
  have hfield : ∀ label, Describes (Part.field env 8 label) (·.field env 8 label) := fun label =>
    .field 8 label
  have h := ((hfield "callchain length").comp ((Describes.enter (d.value env 8)).comp
    (Describes.loop (fun _ => hfield "ip") (d.value env 8)))) d
  unfold sampleCallchain
  exact h

theorem describes_ite {c : Prop} [Decidable c] (hf : Describes p f) :
    Describes (if c then p else Part.nil) fun d => if c then f d else d := by
  intro d
  dsimp only
  split
  · exact hf d
  · exact d.add_nil.symm

theorem rawByte_describes (i : Nat) : Describes (rawBytePart env i) (rawByte env i) := fun d => by
  unfold rawByte
  rw [Decoder.print_eq]
  simp [Decoder.add, Decoder.access, rawBytePart]

theorem dumpRaw_describes (size : Int) : Describes (dumpRawPart env size) (dumpRaw env size) := by
  intro d
  unfold dumpRawPart dumpRaw
  split
  · exact ((Describes.look 4 0 "Header").comp ((Describes.look 8 4 "MSR IBS_FETCH_CONTROL").comp
      ((Describes.look 8 12 "MSR IBS_FETCH_LINEAR_ADDRESS").comp
        ((Describes.look 8 20 "MSR IBS_FETCH_PHYSICAL_ADDRESS").comp
          (describes_ite (Describes.look 8 28 "MSR IBS_BRTARGET")))))) d
  · split
    · exact ((Describes.look 4 0 "Header").comp
        ((Describes.look 8 4 "MSR IBS_EXECUTION_CONTROL").comp
        ((Describes.look 8 12 "MSR IBS_OP_LOGICAL_ADDRESS").comp
        ((Describes.look 8 20 "MSR IBS_OP_DATA").comp ((Describes.look 8 28 "MSR IBS_OP_DATA2").comp
        ((Describes.look 8 36 "MSR IBS_OP_DATA3").comp
        ((Describes.look 8 44 "MSR IBS_DC_LINEAR_ADDRESS").onBit.comp
        ((Describes.look 8 52 "MSR IBS_DC_PHYSICAL_ADDRESS").onBit.comp
        (describes_ite (Describes.look 8 60 "MSR IBS_OP_DATA4")))))))))) d
    · exact ((Describes.enter size).comp (Describes.loop rawByte_describes size)) d

theorem sampleRaw_describes :
    Describes (fun a => rawPart env (env.value 4 a) a) (sampleRaw env) := by
  intro d
  unfold sampleRaw
  exact ((Describes.field 4 "Raw length").comp
    ((dumpRaw_describes (d.value env 4)).unlessQuiet.comp (Describes.skip (d.value env 4)))) d

theorem branchEntry_describes : Describes (branchEntryPart env) (branchEntry env) := fun d =>
  ((Describes.field 8 "from").comp ((Describes.check (outOfBounds (env.data.word 8 d.offset))).comp
    ((Describes.field 8 "to").comp (Describes.named "flags" branchFlagNames)))) d

theorem sampleBranchStack_describes :
    Describes (fun a => branchStackPart env (env.value 8 a) a) (sampleBranchStack env) := by
  intro d
  unfold sampleBranchStack
  exact ((Describes.field 8 "branch_stack entries").comp
    ((Describes.enter (d.value env 8)).comp
      (Describes.loop (fun _ => branchEntry_describes) (d.value env 8)))) d

theorem sampleRegs_describes (label : String) :
    Describes (regsPart env label) (sampleRegs env label) := fun d =>
  ((Describes.named label regsAbiNames).comp (printRegs_describes (d.value env 8))) d

theorem dumpStack_describes (stackData : Mem) (size dynSize : Int) :
    Describes (dumpStackPart env stackData size dynSize) (dumpStack env stackData size dynSize) := by
  have hword : ∀ k : Nat, Describes (stackWordPart env stackData size k) fun d =>
      (d.access (.buffer size (4 * (4 * k)) 4)).print env
        (.value "stack" (stackData.word 4 (4 * (4 * k)))) := fun k d => by
    dsimp only
    rw [Decoder.print_eq]
    simp [Decoder.add, Decoder.access, stackWordPart]
  exact (Describes.enterWords _).comp (Describes.loop hword _).unlessQuiet

theorem sampleStackUser_describes :
    Describes (fun a => stackUserPart env (env.value 8 a) a) (sampleStackUser env) := by
  have hdyn : ∀ stackData size, Describes (fun a => dynSizePart env stackData size (env.value 8 a) a)
      fun d => dumpStack env stackData size (d.value env 8)
        (d.field env 8 "Dynamic (used) size") := fun stackData size d =>
    ((Describes.field 8 "Dynamic (used) size").comp
      (dumpStack_describes stackData size (d.value env 8))) d
  have hcopy : ∀ size, Describes (stackCopyPart env size) fun d =>
      let d' := ((d.access (.data d.offset size)).access (.buffer size 0 size)).skip size
      dumpStack env (env.stackData d.offset size) size (d'.value env 8)
        (d'.field env 8 "Dynamic (used) size") := fun size d =>
    ((Describes.copy size).comp (hdyn (env.stackData d.offset size) size)) d
  intro d
  unfold sampleStackUser
  exact ((Describes.field 8 "Requested size").comp (hcopy (d.value env 8))) d

theorem sampleTid_describes :
    Describes (fun a => tidPart env (env.value 4 a) a) (sampleTid env) := by
  intro d
  unfold sampleTid
  exact ((Describes.check (pidWrong (d.value env 4))).comp
    (((Describes.look 4 0 "pid").comp (Describes.look 4 4 "tid")).comp (Describes.skip 8))) d

theorem sampleCpu_describes : Describes (cpuPart env) (sampleCpu env) :=
  ((Describes.look 4 0 "cpu").comp (Describes.look 4 4 "res")).comp (Describes.skip 8)

theorem sampleDataSrc_describes :
    Describes (fun a => dataSrcPart env (env.data.word 8 a) a) (sampleDataSrc env) := fun d =>
  ((Describes.field 8 "Raw").comp
    (Describes.names "PERF_SAMPLE_DATA_SRC" (dataSrcNames (env.data.word 8 d.offset)))) d

theorem sample_describes : Describes (samplePart env) (sample env) := by
  intro d
  unfold sample sampleTail sampleBody sampleHead
  exact ((Describes.field 8 "IP").onBit.comp (sampleTid_describes.onBit.comp
    ((Describes.field 8 "time").onBit.comp ((Describes.field 8 "addr").onBit.comp
    ((Describes.field 8 "sample_id").onBit.comp ((Describes.field 8 "sample_stream_id").onBit.comp
    (sampleCpu_describes.onBit.comp ((Describes.field 8 "period").onBit.comp
    (sampleRead_describes.onBit.comp (sampleCallchain_describes.onBit.comp
    (sampleRaw_describes.onBit.comp (sampleBranchStack_describes.onBit.comp
    ((sampleRegs_describes "PERF_SAMPLE_REGS_USER").onBit.comp
    ((sampleRegs_describes "PERF_SAMPLE_REGS_INTR").onBit.comp
    (sampleStackUser_describes.onBit.comp ((Describes.field 8 "Weight").onBit.comp
    (sampleDataSrc_describes.onBit.comp
    ((Describes.field 8 "PERF_SAMPLE_IDENTIFIER").onBit.comp
    ((Describes.field 8 "PERF_SAMPLE_TRANSACTION").onBit.comp Describes.id))))))))))))))))))) d

end PerfEvent.ParseRecord
