import Mathlib.Data.BitVec

/-!
# Draws from an unread stream

Everything a program does not decide itself is read from a stream of answers: random numbers,
results of system calls, whether a signal arrives. A statement about every stream is a statement
about every behaviour of the environment.
-/

namespace Draws

/-- A computation that reads answers: its result, and how many it has read. -/
def Draw (α : Type) : Type := (Nat → Int) → α × Nat

/-- What is left of the answers when `k` of them have been read. -/
def unread (answers : Nat → Int) (k : Nat) : Nat → Int := fun n => answers (n + k)

theorem unread_add (answers : Nat → Int) (k j : Nat) :
    unread answers (k + j) = unread (unread answers k) j := by
  funext n
  show answers (n + (k + j)) = answers (n + j + k)
  rw [Nat.add_assoc, Nat.add_comm j k]

instance : Monad Draw where
  pure a := fun _ => (a, 0)
  bind m f := fun answers =>
    match m answers with
    | (a, k) =>
      match f a (unread answers k) with
      | (b, j) => (b, k + j)

theorem bind_fst {α β : Type} (m : Draw α) (f : α → Draw β) (answers : Nat → Int) :
    ((m >>= f) answers).1 = (f (m answers).1 (unread answers (m answers).2)).1 := rfl

/-- The next answer. -/
def next : Draw Int := fun answers => (answers 0, 1)

/-- `rand()`, from 0 to `RAND_MAX`. -/
def rand : Draw Nat := do return (← next).toNat % 2 ^ 31

/-- An arbitrary word of `w` bits. -/
def word (w : Nat) : Draw (BitVec w) := do return BitVec.ofInt w (← next)

/-! ## What holds for all answers -/

section Always

variable {α β : Type} {m : Draw α} {f : α → Draw β} {P : α → Prop} {Q : β → Prop}

/-- Whatever the answers, the result of `m` satisfies `P`. -/
def Always (m : Draw α) (P : α → Prop) : Prop := ∀ answers, P (m answers).1

theorem always_pure {a : α} (h : P a) : Always (pure a) P := fun _ => h

theorem always_bind (hm : Always m P) (hf : ∀ a, P a → Always (f a) Q) : Always (m >>= f) Q :=
  fun answers => hf _ (hm answers) _

/-- A draw whose result does not matter. -/
theorem always_bind_any (hf : ∀ a, Always (f a) Q) : Always (m >>= f) Q :=
  fun _ => hf _ _

theorem always_ite {c : Prop} [Decidable c] {m' : Draw α} (h : c → Always m P)
    (h' : ¬c → Always m' P) : Always (if c then m else m') P := by
  by_cases hc : c
  · rw [if_pos hc]
    exact h hc
  · rw [if_neg hc]
    exact h' hc

end Always

end Draws
