import Mathlib.Algebra.Group.Int.Defs
import Mathlib.Algebra.Group.Nat.Defs
import Mathlib.Data.Nat.Bits

/-!
# Integer expressions of C

Values with the types that C gives them, where `long` has 64 bits, and the evaluation of a list of
tokens with names, integer constants, unary minus, `<<`, `|` and parentheses. The evaluation goes
over the tokens once: a frame for each open parenthesis has the operands that still wait for an
operator of lower precedence. `Operand` and `Sums` say what tokens are worth wherever they stand.
-/

namespace CExpressions

/-! ## Values -/

inductive CType where
  | int
  | unsigned
  | long
  | unsignedLong
  deriving DecidableEq

/-- The usual arithmetic conversions. -/
def CType.common : CType → CType → CType
  | .unsignedLong, _ | _, .unsignedLong => .unsignedLong
  | .long, _ | _, .long => .long
  | .unsigned, _ | _, .unsigned => .unsigned
  | .int, .int => .int

/-- The bits of the values that are not negative. -/
def CType.digits : CType → Nat
  | .int => 31
  | .unsigned => 32
  | .long => 63
  | .unsignedLong => 64

/-- A value in 64 bits: signed values are extended by their sign, unsigned ones by zeros. -/
structure Value where
  type : CType
  bits : BitVec 64
  deriving DecidableEq

namespace Value

/-- The bits behind a conversion to a type of the same or of a higher rank. -/
def convert (v : Value) : CType → BitVec 64
  | .unsigned => (v.bits.setWidth 32).setWidth 64
  | _ => v.bits

def or (a b : Value) : Value :=
  let t := a.type.common b.type
  ⟨t, a.convert t ||| b.convert t⟩

/-- `-v`, when it does not overflow. -/
def neg (v : Value) : Option Value :=
  match v.type with
  | .int => if v.bits.toInt = -2 ^ 31 then none else some ⟨.int, -v.bits⟩
  | .long => if v.bits.toInt = -2 ^ 63 then none else some ⟨.long, -v.bits⟩
  | .unsigned => some ⟨.unsigned, (-v.bits.setWidth 32).setWidth 64⟩
  | .unsignedLong => some ⟨.unsignedLong, -v.bits⟩

/-- `a << b`, when it is defined: the left operand has the type of the result. -/
def shl (a b : Value) : Option Value :=
  let n := b.bits.toNat
  match a.type with
  | .int => if a.bits.toInt < 0 ∨ 32 ≤ n ∨ 2 ^ 31 ≤ a.bits.toNat * 2 ^ n then none
    else some ⟨.int, a.bits <<< n⟩
  | .long => if a.bits.toInt < 0 ∨ 64 ≤ n ∨ 2 ^ 63 ≤ a.bits.toNat * 2 ^ n then none
    else some ⟨.long, a.bits <<< n⟩
  | .unsigned => if 32 ≤ n then none
    else some ⟨.unsigned, ((a.bits <<< n).setWidth 32).setWidth 64⟩
  | .unsignedLong => if 64 ≤ n then none else some ⟨.unsignedLong, a.bits <<< n⟩

/-- The value is not negative, and its type has it. -/
def Plain (v : Value) : Prop := v.bits.toNat < 2 ^ v.type.digits

end Value

/-! ## Tokens -/

inductive Radix where
  | decimal
  | hexadecimal
  deriving DecidableEq

/-- An integer constant with or without the suffix `ULL`: its type is the first that has the
value. -/
def constant (r : Radix) (ull : Bool) (n : Nat) : Option Value :=
  if 2 ^ 64 ≤ n then none
  else if ull then some ⟨.unsignedLong, BitVec.ofNat 64 n⟩
  else if n < 2 ^ 31 then some ⟨.int, BitVec.ofNat 64 n⟩
  else if r = .hexadecimal ∧ n < 2 ^ 32 then some ⟨.unsigned, BitVec.ofNat 64 n⟩
  else if n < 2 ^ 63 then some ⟨.long, BitVec.ofNat 64 n⟩
  else if r = .hexadecimal then some ⟨.unsignedLong, BitVec.ofNat 64 n⟩
  else none

section Constant

variable {r : Radix} {n : Nat}

theorem constant_ull (h : n < 2 ^ 64) :
    constant r true n = some ⟨.unsignedLong, BitVec.ofNat 64 n⟩ := by
  rw [constant, if_neg (Nat.not_le.2 h)]
  exact if_pos rfl

theorem constant_int (h : n < 2 ^ 31) : constant r false n = some ⟨.int, BitVec.ofNat 64 n⟩ := by
  rw [constant, if_neg (by omega), if_neg Bool.false_ne_true]
  exact if_pos h

theorem constant_unsigned (h : ¬ n < 2 ^ 31) (hlt : n < 2 ^ 32) :
    constant .hexadecimal false n = some ⟨.unsigned, BitVec.ofNat 64 n⟩ := by
  rw [constant, if_neg (by omega), if_neg Bool.false_ne_true, if_neg h]
  exact if_pos ⟨rfl, hlt⟩

theorem constant_long (h : ¬ n < 2 ^ 31) (hlt : n < 2 ^ 63) :
    constant .decimal false n = some ⟨.long, BitVec.ofNat 64 n⟩ := by
  rw [constant, if_neg (by omega), if_neg Bool.false_ne_true, if_neg h, if_neg (by simp)]
  exact if_pos hlt

end Constant

inductive Token (ν : Type) where
  | name (n : ν)
  | constant (r : Radix) (ull : Bool) (n : Nat)
  | minus
  | shl
  | bar
  | lpar
  | rpar
  deriving DecidableEq

/-! ## Evaluation -/

/-- What is known between two parentheses: the operands of `|` so far, the left operand of a `<<`,
whether there was a minus, and the operand that has just ended. -/
structure Frame where
  ored : Option Value := none
  shifted : Option Value := none
  negated : Bool := false
  current : Option Value := none

/-- `a | v` behind `a`, or `v` alone. -/
def orInto : Option Value → Value → Value
  | none, v => v
  | some a, v => a.or v

/-- An operand ends: a minus is applied to it first, and then a shift. -/
def Frame.operand (f : Frame) (v : Value) : Option Frame :=
  if f.current.isSome then none
  else do
    let v ← if f.negated then v.neg else some v
    let v ← match f.shifted with
      | some a => a.shl v
      | none => some v
    return { ored := f.ored, current := some v }

abbrev Stack := Frame × List Frame

variable {ν : Type} (names : ν → Option Value)

def step : Stack → Token ν → Option Stack
  | (f, fs), .name n => (names n).bind fun v => (f.operand v).map (·, fs)
  | (f, fs), .constant r ull n => (constant r ull n).bind fun v => (f.operand v).map (·, fs)
  | (f, fs), .minus =>
    if f.current.isSome ∨ f.negated then none else some ({ f with negated := true }, fs)
  | (f, fs), .shl => f.current.map fun v => ({ ored := f.ored, shifted := some v }, fs)
  | (f, fs), .bar => f.current.map fun v => ({ ored := some (orInto f.ored v) }, fs)
  | (f, fs), .lpar => if f.current.isSome then none else some ({}, f :: fs)
  | (f, g :: fs), .rpar => f.current.bind fun v => (g.operand (orInto f.ored v)).map (·, fs)
  | (_, []), .rpar => none

def run (ts : List (Token ν)) (s : Stack) : Option Stack := ts.foldlM (step names) s

/-- The value of an expression. -/
def evaluate (ts : List (Token ν)) : Option Value :=
  match run names ts ({}, []) with
  | some (f, []) => f.current.map (orInto f.ored)
  | _ => none

/-! ## Values that are not negative -/

namespace Value

theorem digits_le_common (a b : CType) :
    a.digits ≤ (a.common b).digits ∧ b.digits ≤ (a.common b).digits := by
  cases a <;> cases b <;> decide

theorem convert_of_plain {v : Value} (h : v.Plain) {t : CType} (hle : v.type.digits ≤ t.digits) :
    v.convert t = v.bits := by
  cases t with
  | int | long | unsignedLong => rfl
  | unsigned =>
    have hlt : v.bits.toNat < 2 ^ 32 := Nat.lt_of_lt_of_le h (Nat.pow_le_pow_right (by decide) hle)
    apply BitVec.eq_of_toNat_eq
    change ((v.bits.setWidth 32).setWidth 64).toNat = _
    rw [BitVec.toNat_setWidth, BitVec.toNat_setWidth, Nat.mod_eq_of_lt hlt,
      Nat.mod_eq_of_lt v.bits.isLt]

/-- `|` works on the bits. -/
theorem or_bits {a b : Value} (ha : a.Plain) (hb : b.Plain) : (a.or b).bits = a.bits ||| b.bits := by
  obtain ⟨hleft, hright⟩ := digits_le_common a.type b.type
  unfold or
  dsimp only
  rw [convert_of_plain ha hleft, convert_of_plain hb hright]

theorem or_plain {a b : Value} (ha : a.Plain) (hb : b.Plain) : (a.or b).Plain := by
  obtain ⟨hleft, hright⟩ := digits_le_common a.type b.type
  have htype : (a.or b).type = a.type.common b.type := rfl
  unfold Plain
  rw [htype, or_bits ha hb, BitVec.toNat_or]
  apply Nat.or_lt_two_pow
  · exact Nat.lt_of_lt_of_le ha (Nat.pow_le_pow_right (by decide) hleft)
  · exact Nat.lt_of_lt_of_le hb (Nat.pow_le_pow_right (by decide) hright)

end Value

/-! ## Tokens in their place -/

variable {names} {ts us : List (Token ν)} {v w : Value} {o : Option Value}

theorem run_append (ts us : List (Token ν)) (s : Stack) :
    run names (ts ++ us) s = (run names ts s).bind (run names us) :=
  List.foldlM_append

theorem run_cons (t : Token ν) (ts : List (Token ν)) (s : Stack) :
    run names (t :: ts) s = (step names s t).bind (run names ts) :=
  List.foldlM_cons

/-- The tokens are an operand with this value. -/
def Operand (names : ν → Option Value) (ts : List (Token ν)) (v : Value) : Prop :=
  ∀ o fs, run names ts ({ ored := o }, fs) = some ({ ored := o, current := some v }, fs)

/-- Behind the operands `o`, the tokens are operands of `|`, and the whole has this value. -/
def Sums (names : ν → Option Value) (o : Option Value) (ts : List (Token ν)) (v : Value) : Prop :=
  ∀ fs, ∃ o' w, run names ts ({ ored := o }, fs) = some ({ ored := o', current := some w }, fs) ∧
    orInto o' w = v

theorem operand_name {n : ν} (h : names n = some v) : Operand names [.name n] v := by
  intro o fs
  simp [run, step, h, Frame.operand]

theorem operand_constant {r : Radix} {ull : Bool} {n : Nat} (h : constant r ull n = some v) :
    Operand names [.constant r ull n] v := by
  intro o fs
  simp [run, step, h, Frame.operand]

theorem operand_minus {r : Radix} {ull : Bool} {n : Nat} (h : constant r ull n = some v)
    (hneg : v.neg = some w) : Operand names [.minus, .constant r ull n] w := by
  intro o fs
  simp [run, step, h, hneg, Frame.operand]

/-- A shift by a constant. -/
theorem Operand.shl (h : Operand names ts v) {r : Radix} {ull : Bool} {n : Nat} {c : Value}
    (hc : constant r ull n = some c) (hshl : v.shl c = some w) :
    Operand names (ts ++ [.shl, .constant r ull n]) w := by
  intro o fs
  rw [run_append, h]
  simp [run, step, hc, hshl, Frame.operand]

theorem Operand.sums (h : Operand names ts v) (o : Option Value) :
    Sums names o ts (orInto o v) :=
  fun fs => ⟨o, v, h o fs, rfl⟩

/-- One operand more. -/
theorem Operand.bar (h : Operand names ts v) (hrest : Sums names (some (orInto o v)) us w) :
    Sums names o (ts ++ .bar :: us) w := by
  intro fs
  obtain ⟨o', w', hrun, hvalue⟩ := hrest fs
  refine ⟨o', w', ?_, hvalue⟩
  rw [run_append, h, Option.bind_some, run_cons]
  exact hrun

theorem Sums.paren (h : Sums names none ts v) : Operand names (.lpar :: (ts ++ [.rpar])) v := by
  intro o fs
  obtain ⟨o', w, hrun, rfl⟩ := h ({ ored := o } :: fs)
  rw [run_cons]
  change run names (ts ++ [.rpar]) ({}, { ored := o } :: fs) = _
  rw [run_append, hrun]
  simp [run, step, Frame.operand]

theorem Sums.evaluate (h : Sums names none ts v) : evaluate names ts = some v := by
  obtain ⟨o, w, hrun, rfl⟩ := h []
  unfold CExpressions.evaluate
  rw [hrun]
  rfl

theorem Operand.evaluate (h : Operand names ts v) : CExpressions.evaluate names ts = some v :=
  (h.sums none).evaluate

/-! ## Bits -/

/-- Wherever the tokens stand behind operands that are not negative, they are operands of `|` that
add the bits `v`. -/
def Bars (names : ν → Option Value) (ts : List (Token ν)) (v : BitVec 64) : Prop :=
  ∀ o : Option Value, (∀ a ∈ o, a.Plain) →
    ∃ x, Sums names o ts x ∧ x.Plain ∧ x.bits = (o.elim 0 Value.bits) ||| v

theorem orInto_bits {o : Option Value} (ho : ∀ a ∈ o, a.Plain) (hv : v.Plain) :
    (orInto o v).Plain ∧ (orInto o v).bits = (o.elim 0 Value.bits) ||| v.bits := by
  cases o with
  | none =>
    refine ⟨hv, ?_⟩
    simp [orInto]
  | some a =>
    have ha : a.Plain := ho a rfl
    exact ⟨Value.or_plain ha hv, Value.or_bits ha hv⟩

theorem Operand.bars (h : Operand names ts v) (hv : v.Plain) : Bars names ts v.bits := by
  intro o ho
  exact ⟨orInto o v, h.sums o, orInto_bits ho hv⟩

theorem Operand.bar_bars (h : Operand names ts v) (hv : v.Plain) {x : BitVec 64}
    (hrest : Bars names us x) : Bars names (ts ++ .bar :: us) (v.bits ||| x) := by
  intro o ho
  obtain ⟨hplain, hbits⟩ := orInto_bits ho hv
  obtain ⟨y, hsums, hy, hybits⟩ := hrest (some (orInto o v)) (by simpa using hplain)
  refine ⟨y, h.bar hsums, hy, ?_⟩
  rw [hybits, ← BitVec.or_assoc, ← hbits]
  rfl

/-- Operands of `|` that start an expression. -/
theorem Bars.value {x : BitVec 64} (h : Bars names ts x) :
    ∃ v, Sums names none ts v ∧ v.Plain ∧ v.bits = x := by
  obtain ⟨v, hsums, hplain, hbits⟩ := h none (by simp)
  refine ⟨v, hsums, hplain, ?_⟩
  simpa using hbits

theorem Bars.evaluate {x : BitVec 64} (h : Bars names ts x) :
    ∃ v, CExpressions.evaluate names ts = some v ∧ v.bits = x := by
  obtain ⟨v, hsums, -, hbits⟩ := h.value
  exact ⟨v, hsums.evaluate, hbits⟩

end CExpressions
