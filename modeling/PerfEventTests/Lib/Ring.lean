import Mathlib.Logic.Function.Basic
import Mathlib.Data.Nat.ModEq

/-!
# A stream in a circular buffer

A producer writes the elements of a stream one after the other into a buffer of `n` cells,
position `p` of the stream into cell `p % n`. As long as it stays within `n` positions of `lo`,
the cells of the positions from `lo` on show the stream.
-/

namespace CircularBuffer

variable {α : Type*} {n : Nat} {cells : Int → α} {xs : List α} {lo lo' p q : Nat} {x : α}

/-- The cell of position `p` of the stream. -/
def slot (n p : Nat) : Int := ((p % n : Nat) : Int)

/-- Positions less than `n` apart have different cells. -/
theorem slot_ne (hpq : p < q) (hq : q < p + n) : slot n p ≠ slot n q := by
  intro h
  have hmod : p ≡ q [MOD n] := Int.natCast_inj.1 h
  have hdvd : n ∣ q - p := (Nat.modEq_iff_dvd' hpq.le).1 hmod
  have := Nat.le_of_dvd (by omega) hdvd
  omega

/-- The buffer after `x` was written at position `p`. -/
def push (n : Nat) (cells : Int → α) (p : Nat) (x : α) : Int → α :=
  Function.update cells (slot n p) x

/-- The cells show the elements of the stream `xs` from position `lo` on. -/
def Shows (n : Nat) (cells : Int → α) (xs : List α) (lo : Nat) : Prop :=
  ∀ p (h : p < xs.length), lo ≤ p → cells (slot n p) = xs.get ⟨p, h⟩

theorem shows_nil : Shows n cells [] lo := by
  intro p h
  exact absurd h (by simp)

theorem Shows.mono (h : Shows n cells xs lo) (hle : lo ≤ lo') : Shows n cells xs lo' :=
  fun p hp hlo => h p hp (hle.trans hlo)

theorem Shows.push (h : Shows n cells xs lo) (hroom : xs.length < lo + n) :
    Shows n (push n cells xs.length x) (xs ++ [x]) lo := by
  intro p hp hlo
  rw [List.length_append, List.length_singleton] at hp
  by_cases hlast : p = xs.length
  · subst hlast
    simp [CircularBuffer.push]
  · have hlt : p < xs.length := by omega
    have hne : slot n p ≠ slot n xs.length := slot_ne hlt (by omega)
    have hget := h p hlt hlo
    simpa [CircularBuffer.push, Function.update_of_ne hne, List.getElem_append_left hlt] using hget

end CircularBuffer
