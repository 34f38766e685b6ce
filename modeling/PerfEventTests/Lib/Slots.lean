import Mathlib.Data.Nat.Count

/-!
# Tables of slots with a counter

A slot is free while it has the value `o`, and a counter next to the table says how many of the first
`n` slots are taken. As long as the counter is right, a counter below `n` promises a free slot, and a
search for the first one stays below `n`, however far it may go.
-/

namespace Slots

variable {α : Type*} {o v : α} {t : Nat → α} {n k : Nat}

def put (t : Nat → α) (k : Nat) (v : α) : Nat → α := fun j => if j = k then v else t j

@[simp] theorem put_self : put t k v k = v := if_pos rfl

theorem put_other {j : Nat} (h : j ≠ k) : put t k v j = t j := if_neg h

variable [DecidableEq α]

def taken (o : α) (t : Nat → α) (n : Nat) : Nat := Nat.count (fun k => t k ≠ o) n

/-- The first free slot below the bound, or the bound. -/
def firstFree (o : α) (t : Nat → α) (bound : Nat) : Nat :=
  ((List.range bound).find? fun k => t k = o).getD bound

theorem taken_succ : taken o t (n + 1) = taken o t n + if t n ≠ o then 1 else 0 :=
  Nat.count_succ _ n

theorem exists_free (h : taken o t n < n) : ∃ k < n, t k = o := by
  by_contra hall
  push Not at hall
  have hfull : taken o t n = n := Nat.count_iff_forall.2 hall
  omega

theorem taken_put_of_le (h : n ≤ k) : taken o (put t k v) n = taken o t n := by
  induction n with
  | zero => rfl
  | succ n ih => rw [taken_succ, taken_succ, ih (by omega), put_other (by omega)]

/-- A new value in a slot changes the number by what the slot adds to it. -/
theorem taken_put (h : k < n) : taken o (put t k v) n + (if t k ≠ o then 1 else 0) =
    taken o t n + if v ≠ o then 1 else 0 := by
  induction n with
  | zero => exact absurd h (Nat.not_lt_zero k)
  | succ n ih =>
    rw [taken_succ, taken_succ]
    obtain hlt | rfl := Nat.lt_succ_iff_lt_or_eq.1 h
    · rw [put_other (by omega)]
      have := ih hlt
      omega
    · rw [taken_put_of_le (Nat.le_refl _), put_self]
      omega

theorem taken_fill (h : k < n) (hfree : t k = o) (hv : v ≠ o) :
    taken o (put t k v) n = taken o t n + 1 := by
  have hput := taken_put (o := o) (v := v) (t := t) h
  rwa [if_neg (not_not.2 hfree), if_pos hv] at hput

theorem taken_clear (h : k < n) (htaken : t k ≠ o) : taken o (put t k o) n + 1 = taken o t n := by
  have hput := taken_put (o := o) (v := o) (t := t) h
  rwa [if_pos htaken, if_neg (not_not.2 rfl)] at hput

theorem firstFree_spec {bound : Nat} (hfree : ∃ k < n, t k = o) (hn : n ≤ bound) :
    firstFree o t bound < n ∧ t (firstFree o t bound) = o := by
  obtain ⟨k, hk, htk⟩ := hfree
  unfold firstFree
  cases hfind : (List.range bound).find? fun k => t k = o with
  | none =>
    have hnone := List.find?_eq_none.1 hfind k (List.mem_range.2 (Nat.lt_of_lt_of_le hk hn))
    exact absurd htk (by simpa using hnone)
  | some j =>
    obtain ⟨hj, -, hbefore⟩ := List.find?_range_eq_some.1 hfind
    rw [Option.getD_some]
    refine ⟨?_, by simpa using hj⟩
    by_contra hle
    have hk' := hbefore k (by omega)
    exact absurd htk (by simpa using hk')

end Slots
