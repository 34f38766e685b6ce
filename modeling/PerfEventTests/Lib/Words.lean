import Mathlib.Tactic.Ring
import Mathlib.Tactic.Linarith

/-!
# Words in byte memory

Little-endian words, byte memories addressed by integers, and the two's-complement
conversions of C. `Mem.Holds m a bs` is the one predicate used to say what a memory contains:
it splits over `++`, so a reader that walks over a concatenation consumes it piece by piece.
-/

namespace ByteMemory

/-- The `n` little-endian bytes of `v`; bits above `8 * n` are dropped. -/
def le : Nat → Nat → List UInt8
  | 0, _ => []
  | n + 1, v => UInt8.ofNat (v % 256) :: le n (v / 256)

/-- The natural number with the given little-endian bytes. -/
def ofLe : List UInt8 → Nat
  | [] => 0
  | b :: bs => b.toNat + 256 * ofLe bs

@[simp] theorem length_le (n v : Nat) : (le n v).length = n := by
  induction n generalizing v with
  | zero => rfl
  | succ n ih => simp only [le, List.length_cons, ih]

theorem ofLe_le (n v : Nat) : ofLe (le n v) = v % 256 ^ n := by
  induction n generalizing v with
  | zero => simp [le, ofLe, Nat.mod_one]
  | succ n ih =>
    have hb : (UInt8.ofNat (v % 256)).toNat = v % 256 := by
      rw [UInt8.toNat_ofNat', Nat.mod_eq_of_lt (by omega)]
    rw [le, ofLe, ih, hb, pow_succ', Nat.mod_mul]

theorem ofLe_le_of_lt {n v : Nat} (h : v < 256 ^ n) : ofLe (le n v) = v := by
  rw [ofLe_le, Nat.mod_eq_of_lt h]

/-- A byte memory. Addresses are integers, so that a reader that runs off either end of a
buffer still reads something. -/
abbrev Mem := Int → UInt8

namespace Mem

variable {m : Mem} {a : Int} {xs ys : List UInt8}

/-- The `n` bytes at address `a`. -/
def load (m : Mem) (a : Int) (n : Nat) : List UInt8 :=
  (List.range n).map fun k : Nat => m (a + (k : Int))

/-- The unsigned little-endian word of `n` bytes at address `a`. -/
def word (m : Mem) (n : Nat) (a : Int) : Nat := ofLe (m.load a n)

/-- The bytes `bs` stand at address `a`. -/
def Holds (m : Mem) (a : Int) (bs : List UInt8) : Prop :=
  ∀ k (h : k < bs.length), m (a + k) = bs.get ⟨k, h⟩

@[simp] theorem length_load (n : Nat) : (m.load a n).length = n := by
  simp [load]

@[simp] theorem holds_nil : m.Holds a [] := by
  intro k hk
  exact absurd hk (by simp)

/-- A memory holds a concatenation exactly when it holds the two parts one after the other. -/
theorem holds_append :
    m.Holds a (xs ++ ys) ↔ m.Holds a xs ∧ m.Holds (a + xs.length) ys := by
  constructor
  · intro h
    refine ⟨fun k hk => ?_, fun k hk => ?_⟩
    · have hk' : k < (xs ++ ys).length := by simp; omega
      have := h k hk'
      simpa [List.getElem_append_left hk] using this
    · have hk' : xs.length + k < (xs ++ ys).length := by simp; omega
      have := h (xs.length + k) hk'
      simpa [add_assoc] using this
  · rintro ⟨hx, hy⟩ k hk
    by_cases hl : k < xs.length
    · simpa [List.getElem_append_left hl] using hx k hl
    · have hk' : k - xs.length < ys.length := by simp at hk; omega
      have hadd : a + (xs.length : Int) + ((k - xs.length : Nat) : Int) = a + k := by omega
      have := hy (k - xs.length) hk'
      rw [hadd] at this
      simpa [List.getElem_append_right (Nat.le_of_not_lt hl)] using this

theorem Holds.load_eq (h : m.Holds a xs) : m.load a xs.length = xs := by
  apply List.ext_getElem (by simp)
  intro k _ hk
  simpa [load] using h k hk

/-- The word read at the head of a little-endian field is the field's value. -/
theorem Holds.word_eq {n v : Nat} (h : m.Holds a (le n v ++ ys)) (hv : v < 256 ^ n) :
    m.word n a = v := by
  have hl := (holds_append.1 h).1.load_eq
  rw [length_le] at hl
  rw [word, hl, ofLe_le_of_lt hv]

/-- The memory with the bytes `bs` at address 0 and zeros elsewhere. -/
def ofList (bs : List UInt8) : Mem := fun i => bs.getD i.toNat 0

theorem ofList_holds (bs : List UInt8) : (ofList bs).Holds 0 bs := by
  intro k hk
  simp [ofList, hk]

end Mem

/-! ## Two's-complement conversions -/

/-- Conversion of an integer to a signed type of `w` bits. -/
def toSigned (w : Nat) (x : Int) : Int := Int.bmod x (2 ^ w)

/-- Conversion of an integer to an unsigned type of `w` bits. -/
def toUnsigned (w : Nat) (x : Int) : Int := x % 2 ^ w

theorem toSigned_of_range {w : Nat} {x : Int} (hlo : -(2 ^ w : Int) ≤ 2 * x)
    (hhi : 2 * x < 2 ^ w) : toSigned w x = x := by
  unfold toSigned
  have hm : ((2 ^ w : Nat) : Int) = 2 ^ w := by push_cast; rfl
  apply Int.bmod_eq_of_le_mul_two
  · rw [hm]; linarith
  · rw [hm]; linarith

theorem toUnsigned_of_range {w : Nat} {x : Int} (hlo : 0 ≤ x) (hhi : x < 2 ^ w) : toUnsigned w x = x :=
  Int.emod_eq_of_lt hlo hhi

theorem toUnsigned_natCast {w n : Nat} (h : n < 2 ^ w) : toUnsigned w n = n :=
  toUnsigned_of_range (Int.natCast_nonneg n) (by exact_mod_cast h)

/-- A C `int`. -/
abbrev toInt32 (x : Int) : Int := toSigned 32 x

/-- A C `long long`. -/
abbrev toInt64 (x : Int) : Int := toSigned 64 x

theorem toInt32_of_range {x : Int} (hlo : -2 ^ 31 ≤ x) (hhi : x < 2 ^ 31) : toInt32 x = x :=
  toSigned_of_range (by omega) (by omega)

theorem toInt64_of_range {x : Int} (hlo : -2 ^ 63 ≤ x) (hhi : x < 2 ^ 63) : toInt64 x = x :=
  toSigned_of_range (by omega) (by omega)

theorem toSigned_lt {w : Nat} (hw : 0 < w) (x : Int) : toSigned w x < 2 ^ (w - 1) := by
  obtain ⟨k, rfl⟩ : ∃ k, w = k + 1 := ⟨w - 1, by omega⟩
  have hpos : 0 < 2 ^ (k + 1) := Nat.two_pow_pos _
  have h := Int.bmod_lt (x := x) hpos
  have hhalf : (((2 ^ (k + 1) : Nat) : Int) + 1) / 2 = 2 ^ k := by
    push_cast
    rw [pow_succ]
    omega
  rw [hhalf] at h
  exact h

end ByteMemory
