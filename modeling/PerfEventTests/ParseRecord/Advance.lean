import PerfEventTests.ParseRecord.Reader

/-!
# How far each arm advances

`Moves n f` says that a part of an arm advances by `n` whatever the data; `Consumes env bs f` says
that it advances by exactly the bytes `bs` when these stand at the offset. Parts of fixed size
move, parts whose size is read from the data consume, and both compose along an encoding.
-/

namespace PerfEvent.ParseRecord

open ByteMemory

namespace Decoder

variable (env : Env) (d : Decoder)

@[simp] theorem skip_offset (n : Int) : (d.skip n).offset = d.offset + n := rfl

@[simp] theorem access_offset (x : Access) : (d.access x).offset = d.offset := rfl

@[simp] theorem enter_offset (n : Int) : (d.enter n).offset = d.offset := rfl

@[simp] theorem enterWords_offset (n : Int) : (d.enterWords n).offset = d.offset := rfl

@[simp] theorem error_offset (e : ValidateError) : (d.error e).offset = d.offset := rfl

@[simp] theorem check_offset (f : ValidateValues → Option ValidateError) :
    (d.check env f).offset = d.offset := by
  unfold check
  split <;> rfl

@[simp] theorem print_offset (p : Printed) : (d.print env p).offset = d.offset := by
  unfold print
  split <;> rfl

@[simp] theorem look_offset (n : Nat) (rel : Int) (label : String) :
    (d.look env n rel label).offset = d.offset := by
  simp [look]

@[simp] theorem field_offset (n : Nat) (label : String) :
    (d.field env n label).offset = d.offset + n := by
  simp [field]

@[simp] theorem named_offset (label : String) (names : Nat → List String) :
    (d.named env label names).offset = d.offset + 8 := by
  simp [named]

@[simp] theorem readText_offset (n : Int) (bs : Bytes) :
    (d.readText env n bs).offset = d.offset := by
  unfold readText
  split <;> rfl

@[simp] theorem string_offset (n : Int) (label : String) :
    (d.string env n label).offset = d.offset + n := by
  simp [string]

/-- The loop of C runs its body for `0, 1, ..., n - 1`. -/
theorem loop_succ (n : Nat) (body : Nat → Decoder → Decoder) :
    d.loop ((n + 1 : Nat) : Int) body = body n (d.loop (n : Int) body) := by
  simp [loop, List.range_succ]

end Decoder

/-- `f` advances by `n`, whatever the data are. -/
def Moves (n : Nat) (f : Decoder → Decoder) : Prop := ∀ d, (f d).offset = d.offset + n

/-- `f` advances by the bytes `bs` when it starts on them. -/
def Consumes (env : Env) (bs : Bytes) (f : Decoder → Decoder) : Prop :=
  ∀ d, env.data.Holds d.offset bs → (f d).offset = d.offset + bs.length

variable {env : Env}

theorem Moves.consumes {n : Nat} {bs : Bytes} {f : Decoder → Decoder} (h : Moves n f)
    (hn : bs.length = n) : Consumes env bs f := by
  intro d _
  rw [h d, hn]

theorem Moves.id : Moves 0 fun d => d := fun d => by simp

theorem Moves.comp {m n : Nat} {f g : Decoder → Decoder} (hf : Moves m f) (hg : Moves n g) :
    Moves (m + n) fun d => g (f d) := by
  intro d
  rw [hg, hf]
  push_cast
  ring

theorem Moves.onBit {n flags mask : Nat} {f : Decoder → Decoder} (h : Moves n f) :
    Moves (if bitAnd flags mask then n else 0) (onBit flags mask f) := by
  intro d
  unfold ParseRecord.onBit
  split
  · exact h d
  · simp

theorem Moves.loop {c : Nat} {body : Nat → Decoder → Decoder} (h : ∀ i, Moves c (body i))
    (n : Nat) : Moves (n * c) fun d => d.loop (n : Int) body := by
  intro d
  induction n with
  | zero => simp [Decoder.loop]
  | succ n ih =>
    simp only [Decoder.loop_succ] at ih ⊢
    rw [h n, ih]
    push_cast
    ring

theorem Moves.field (env : Env) (n : Nat) (label : String) : Moves n (·.field env n label) :=
  fun d => d.field_offset env n label

theorem Consumes.comp {xs ys : Bytes} {f g : Decoder → Decoder} (hf : Consumes env xs f)
    (hg : Consumes env ys g) : Consumes env (xs ++ ys) fun d => g (f d) := by
  intro d h
  obtain ⟨hx, hy⟩ := Mem.holds_append.1 h
  have hfd := hf d hx
  rw [hg (f d) (by rw [hfd]; exact hy), hfd, List.length_append]
  push_cast
  ring

/-- An optional field is consumed by the code that tests the same bit. -/
theorem Consumes.onBit {flags mask : Nat} {bs : Bytes} {f : Decoder → Decoder}
    (h : bitAnd flags mask = true → Consumes env bs f) :
    Consumes env (opt (bitAnd flags mask) bs) (onBit flags mask f) := by
  intro d hd
  unfold ParseRecord.onBit
  cases hb : bitAnd flags mask with
  | true =>
    rw [hb] at hd
    simpa [opt] using h hb d hd
  | false => simp [opt]

/-- A count at the offset is read back as the number that was stored. -/
theorem value_eq_of_holds {d : Decoder} {n v : Nat} {bs : Bytes}
    (h : env.data.Holds d.offset (le n v ++ bs)) (hv : 2 * v < 2 ^ (8 * n)) :
    d.value env n = v := by
  have hpow : (256 : Nat) ^ n = 2 ^ (8 * n) := by rw [pow_mul]; rfl
  have hcast : ((2 : Int) ^ (8 * n)) = (((2 : Nat) ^ (8 * n) : Nat) : Int) := by push_cast; rfl
  rw [Decoder.value, h.word_eq (by omega)]
  apply toSigned_of_range
  · rw [hcast]; omega
  · rw [hcast]; exact_mod_cast hv

/-- The counts of a record are far below the range of their types. -/
theorem count_eq_of_holds {d : Decoder} {n v : Nat} {bs : Bytes}
    (h : env.data.Holds d.offset (le n v ++ bs)) (hn : 4 ≤ n) (hv : v < 65536) :
    d.value env n = v := by
  have hpow : 2 ^ 32 ≤ 2 ^ (8 * n) := Nat.pow_le_pow_right (by omega) (by omega)
  exact value_eq_of_holds h (by omega)

/-! ## Parts of a sample -/

theorem readMember_moves :
    Moves (8 + if bitAnd env.readFormat perfFormatId then 8 else 0) (readMember env) :=
  (Moves.field env 8 "Value").comp (Moves.field env 8 "id").onBit

/-- Without the group format the length depends on the format alone. -/
theorem handleStructReadFormat_moves (h : bitAnd env.readFormat perfFormatGroup = false) :
    Moves (8 + (if bitAnd env.readFormat perfFormatTotalTimeEnabled then 8 else 0) +
      (if bitAnd env.readFormat perfFormatTotalTimeRunning then 8 else 0) +
      (if bitAnd env.readFormat perfFormatId then 8 else 0)) (handleStructReadFormat env) := by
  intro d
  unfold handleStructReadFormat
  simp only [h, Bool.false_eq_true, if_false]
  exact ((((Moves.field env 8 "Value").comp (Moves.field env 8 "enabled").onBit).comp
    (Moves.field env 8 "running").onBit).comp (Moves.field env 8 "id").onBit) d

theorem length_readMembers {a : PerfEventAttr} (ms : List ReadMember) :
    (ms.flatMap (ReadMember.encode a)).length = ms.length *
      (8 + (if bitAnd a.readFormat.toNat perfFormatId then 8 else 0) +
        (if bitAnd a.readFormat.toNat perfFormatLost then 8 else 0)) := by
  induction ms with
  | nil => simp
  | cons m ms ih =>
    rw [List.flatMap_cons, List.length_append, ih, List.length_cons, Nat.succ_mul]
    simp only [ReadMember.encode, List.length_append, length_u64, length_opt]
    omega

/-- A read value without lost counts, of a size an `int` holds. -/
theorem sampleRead_consumes {a : PerfEventAttr} {r : ReadValues}
    (hf : env.readFormat = a.readFormat.toNat)
    (hlost : bitAnd a.readFormat.toNat perfFormatLost = false)
    (hlt : (r.encode a).length < 65536) :
    Consumes env (r.encode a) (sampleRead env) := by
  intro d hd
  have hlen : (handleStructReadFormat env d).offset = d.offset + (r.encode a).length := by
    cases hg : bitAnd env.readFormat perfFormatGroup with
    | false =>
      rw [handleStructReadFormat_moves hg d]
      rw [hf] at hg ⊢
      simp [ReadValues.encode, hg, hlost]
      ring
    | true =>
      have hgroup := hg
      rw [hf] at hgroup
      have hmem := length_readMembers (a := a) r.cntr
      simp only [hlost, Bool.false_eq_true, if_false, Nat.add_zero] at hmem
      have hval : d.value env 8 = r.cntr.length := by
        have hcnt : r.cntr.length ≤ (r.cntr.flatMap (ReadMember.encode a)).length := by
          rw [hmem]
          exact Nat.le_mul_of_pos_right _ (by omega)
        simp only [ReadValues.encode, hgroup, if_true, List.append_assoc] at hd hlt
        simp only [List.length_append] at hlt
        exact count_eq_of_holds hd (by omega) (by omega)
      unfold handleStructReadFormat
      simp only [hg, if_true, hval]
      rw [Moves.loop (fun _ => readMember_moves) r.cntr.length, Decoder.enter_offset, (Moves.field env 8 "running").onBit,
        (Moves.field env 8 "enabled").onBit, Decoder.check_offset, Decoder.field_offset]
      simp only [ReadValues.encode, hgroup, if_true, List.length_append, length_le, length_opt,
        length_u64, hmem, hf]
      push_cast
      ring
  have hint : toInt32 ((handleStructReadFormat env d).offset - d.offset) = (r.encode a).length := by
    rw [hlen, toInt32_of_range] <;> omega
  simp only [sampleRead, hint]
  rw [if_pos (by omega)]

theorem sampleCallchain_consumes {ips : List UInt64} (h : ips.length < 65536) :
    Consumes env (le 8 ips.length ++ u64s ips) (sampleCallchain env) := by
  intro d hd
  have hval : d.value env 8 = ips.length := count_eq_of_holds hd (by omega) (by omega)
  have hloop := Moves.loop (fun _ => Moves.field env 8 "ip") ips.length
  simp only [sampleCallchain, hval]
  rw [hloop ((d.field env 8 "callchain length").enter _), Decoder.enter_offset,
    Decoder.field_offset]
  simp only [List.length_append, length_le, length_u64s]
  push_cast
  ring

@[simp] theorem rawByte_offset (i : Nat) (d : Decoder) : (rawByte env i d).offset = d.offset := by
  simp [rawByte]

@[simp] theorem dumpRaw_offset (size : Int) (d : Decoder) : (dumpRaw env size d).offset = d.offset := by
  have hloop : ∀ (n : Nat) (d : Decoder),
      ((List.range n).foldl (fun d i => rawByte env i d) d).offset = d.offset := by
    intro n d
    induction n with
    | zero => rfl
    | succ n ih => simp [List.range_succ, ih]
  unfold dumpRaw
  split
  · unfold dumpRawIbsFetch
    split <;> simp
  · split
    · unfold dumpRawIbsOp
      dsimp only
      split <;> split <;> split <;> simp
    · exact hloop _ (d.enter size)

theorem sampleRaw_consumes {raw : Bytes} (h : raw.length < 65536) :
    Consumes env (le 4 raw.length ++ raw) (sampleRaw env) := by
  intro d hd
  have hval : d.value env 4 = raw.length := count_eq_of_holds hd (by omega) (by omega)
  simp only [sampleRaw, hval, Decoder.skip_offset, List.length_append, length_le]
  split <;> simp <;> ring

theorem branchEntry_moves : Moves 24 (branchEntry env) := by
  intro d
  unfold branchEntry
  simp only [Decoder.named_offset, Decoder.field_offset, Decoder.check_offset]
  push_cast
  ring

theorem length_branchEntries (lbr : List BranchEntry) :
    (lbr.flatMap BranchEntry.encode).length = lbr.length * 24 := by
  induction lbr with
  | nil => rfl
  | cons b lbr ih =>
    rw [List.flatMap_cons, List.length_append, ih, List.length_cons]
    simp only [BranchEntry.encode, List.length_append, length_u64]
    omega

/-- A branch stack that is its entries alone. -/
theorem sampleBranchStack_consumes {lbr : List BranchEntry} (h : lbr.length < 65536) :
    Consumes env (le 8 lbr.length ++ lbr.flatMap BranchEntry.encode) (sampleBranchStack env) := by
  intro d hd
  have hval : d.value env 8 = lbr.length := count_eq_of_holds hd (by omega) (by omega)
  have hloop := Moves.loop (fun _ => (branchEntry_moves : Moves 24 (branchEntry env))) lbr.length
  simp only [sampleBranchStack, hval]
  rw [hloop ((d.field env 8 "branch_stack entries").enter _), Decoder.enter_offset,
    Decoder.field_offset]
  simp only [List.length_append, length_le, length_branchEntries]
  push_cast
  ring

theorem printReg_offset (i : Nat) (d : Decoder) :
    (printReg env i d).offset = d.offset + if env.regMask.getLsbD i then 8 else 0 := by
  unfold printReg
  split
  · cases env.quiet <;> simp
  · simp

/-- `print_regs` always moves over the registers of the mask. -/
theorem printRegs_moves (abi : Int) : Moves (8 * weight env.regMask) (printRegs env abi) := by
  intro d
  have hloop : ∀ (n : Nat) (d : Decoder), (d.loop (n : Int) (printReg env)).offset =
      d.offset + 8 * ((List.range n).countP fun i => env.regMask.getLsbD i : Nat) := by
    intro n d
    induction n with
    | zero => simp [Decoder.loop]
    | succ n ih =>
      rw [Decoder.loop_succ, printReg_offset, ih, List.range_succ, List.countP_append]
      simp only [List.countP_singleton]
      split <;> push_cast <;> ring
  unfold printRegs weight
  rw [show (64 : Int) = ((64 : Nat) : Int) from rfl, hloop, Decoder.print_offset]
  push_cast
  ring

theorem sampleRegs_moves (label : String) :
    Moves (8 + 8 * weight env.regMask) (sampleRegs env label) := by
  intro d
  unfold sampleRegs
  rw [printRegs_moves _ _, Decoder.named_offset]
  push_cast
  ring

theorem sampleDataSrc_moves : Moves 8 (sampleDataSrc env) := by
  intro d
  simp [sampleDataSrc]

@[simp] theorem dumpStack_offset (stackData : Mem) (size dynSize : Int) (d : Decoder) :
    (dumpStack env stackData size dynSize d).offset = d.offset := by
  have hloop : ∀ (n : Nat) (d : Decoder),
      ((List.range n).foldl (fun d k => (d.access (.buffer size (4 * (4 * (k : Int))) 4)).print env
        (.value "stack" (stackData.word 4 (4 * (4 * (k : Int)))))) d).offset = d.offset := by
    intro n d
    induction n with
    | zero => rfl
    | succ n ih => simp [List.range_succ, ih]
  unfold dumpStack
  dsimp only
  split
  · rfl
  · exact hloop _ (d.enterWords _)

/-- A stack dump that is not empty. -/
theorem sampleStackUser_consumes {stack : Bytes} {dynSize : UInt64} (h : stack.length < 65536) :
    Consumes env (le 8 stack.length ++ stack ++ u64 dynSize) (sampleStackUser env) := by
  intro d hd
  rw [List.append_assoc] at hd
  have hval : d.value env 8 = stack.length := count_eq_of_holds hd (by omega) (by omega)
  simp only [sampleStackUser, hval, dumpStack_offset, Decoder.field_offset, Decoder.skip_offset,
    Decoder.access_offset, List.length_append, length_le, length_u64]
  push_cast
  ring

end PerfEvent.ParseRecord
