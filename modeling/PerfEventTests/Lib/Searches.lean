import Mathlib.Data.Nat.Count
import PerfEventTests.Lib.Programs

/-!
# Searches over an index range

The first index that passes a test, and the index at a given place among those that pass. The test
is a program: the table it reads may change while the search goes on.
-/

namespace Programs

variable {σ : Type}

/-- The first of the `n` indices from `i` on that passes the test, or -1. -/
def findRange (test : Nat → Prog σ Bool) : Nat → Nat → Prog σ Int
  | 0, _ => pure (-1)
  | n + 1, i => do
    if ← test i then pure i else findRange test n (i + 1)

/-- The index at place `x` among the `n` indices from `i` on that pass the test, or -1. -/
def nthRange (test : Nat → Prog σ Bool) : Nat → Nat → Nat → Prog σ Int
  | 0, _, _ => pure (-1)
  | n + 1, i, x => do
    if ← test i then
      match x with
      | 0 => pure i
      | x + 1 => nthRange test n (i + 1) x
    else nthRange test n (i + 1) x

variable {P B : σ → Prop} {E : σ → Prop}

/-- What a search finds has passed the test since. -/
theorem triple_findRange {test : Nat → Prog σ Bool} {S : Nat → σ → Prop} (n i : Nat)
    (h : ∀ k, i ≤ k → k < i + n →
      Triple P (test k) (fun b s => P s ∧ (b = true → S k s)) E) :
    Triple P (findRange test n i)
      (fun r s => P s ∧ (r = -1 ∨ ∃ k : Nat, r = k ∧ i ≤ k ∧ k < i + n ∧ S k s)) E := by
  induction n generalizing i with
  | zero => exact triple_pure fun s hs => ⟨hs, .inl rfl⟩
  | succ n ih =>
    have ih := ih (i + 1) fun k hlo hhi => h k (by omega) (by omega)
    refine triple_bind (h i le_rfl (by omega)) fun b => triple_ite (fun hb => ?_) fun hb => ?_
    · exact triple_pure fun s hs => ⟨hs.1, .inr ⟨i, rfl, le_rfl, by omega, hs.2 hb⟩⟩
    · refine (ih.weaken_pre fun s hs => hs.1).strengthen_post fun r s hs => ⟨hs.1, ?_⟩
      rcases hs.2 with hr | ⟨k, hr, hlo, hhi, hk⟩
      · exact .inl hr
      · exact .inr ⟨k, hr, by omega, by omega, hk⟩

theorem triple_nthRange {test : Nat → Prog σ Bool} {S : Nat → σ → Prop} (n i x : Nat)
    (h : ∀ k, i ≤ k → k < i + n →
      Triple P (test k) (fun b s => P s ∧ (b = true → S k s)) E) :
    Triple P (nthRange test n i x)
      (fun r s => P s ∧ (r = -1 ∨ ∃ k : Nat, r = k ∧ i ≤ k ∧ k < i + n ∧ S k s)) E := by
  induction n generalizing i x with
  | zero => exact triple_pure fun s hs => ⟨hs, .inl rfl⟩
  | succ n ih =>
    have hnext : ∀ x, Triple P (nthRange test n (i + 1) x)
        (fun r s => P s ∧ (r = -1 ∨ ∃ k : Nat, r = k ∧ i ≤ k ∧ k < i + (n + 1) ∧ S k s)) E := by
      intro x
      refine (ih (i + 1) x fun k hlo hhi => h k (by omega) (by omega)).strengthen_post
        fun r s hs => ⟨hs.1, ?_⟩
      rcases hs.2 with hr | ⟨k, hr, hlo, hhi, hk⟩
      · exact .inl hr
      · exact .inr ⟨k, hr, by omega, by omega, hk⟩
    refine triple_bind (h i le_rfl (by omega)) fun b => triple_ite (fun hb => ?_) fun hb => ?_
    · cases x with
      | zero => exact triple_pure fun s hs => ⟨hs.1, .inr ⟨i, rfl, le_rfl, by omega, hs.2 hb⟩⟩
      | succ x => exact (hnext x).weaken_pre fun s hs => hs.1
    · exact (hnext x).weaken_pre fun s hs => hs.1

/-! ## A table that stays as it was

`T` is the table at the start. Either a search sees that table, or `B` holds from the change on. -/

section Table

variable {T : Nat → Prop} {test : Nat → Prog σ Bool}

theorem triple_findRange_table
    (h : ∀ i, Triple P (test i) (fun b s => P s ∧ (b = true ↔ T i) ∨ B s) E)
    (hB : ∀ i, Keeps B (test i) E) (n i : Nat) :
    Triple P (findRange test n i)
      (fun r s => P s ∧ (r = -1 → ∀ k, i ≤ k → k < i + n → ¬T k) ∨ B s) E := by
  have hlost : ∀ n i, Triple B (findRange test n i) (fun _ s => B s) E := by
    intro n
    induction n with
    | zero => exact fun i => keeps_pure
    | succ n ih =>
      refine fun i => triple_bind (hB i) fun b => triple_ite (fun _ => ?_) fun _ => ih (i + 1)
      exact keeps_pure
  induction n generalizing i with
  | zero => exact triple_pure fun s hs => .inl ⟨hs, fun _ k hlo hhi => by omega⟩
  | succ n ih =>
    refine triple_bind (h i) fun b => triple_ite (fun hb => ?_) fun hb => ?_
    · refine triple_pure fun s hs => hs.imp (fun hs => ⟨hs.1, fun hr => ?_⟩) id
      omega
    · by_cases hT : T i
      · refine (hlost n (i + 1)).consequence (fun s hs => ?_) (fun _ _ => .inr) fun _ => id
        exact hs.resolve_left fun hs => hb (hs.2.2 hT)
      · refine (triple_or (ih (i + 1)) (hlost n (i + 1))).consequence
          (fun s hs => hs.imp (fun hs => hs.1) id) (fun r s hs => ?_) fun _ => id
        rcases hs with (hs | hs) | hs
        · refine .inl ⟨hs.1, fun hr k hlo hhi => ?_⟩
          rcases eq_or_ne k i with rfl | hki
          · exact hT
          · exact hs.2 hr k (by omega) (by omega)
        · exact .inr hs
        · exact .inr hs

theorem triple_nthRange_table [DecidablePred T]
    (h : ∀ i, Triple P (test i) (fun b s => P s ∧ (b = true ↔ T i) ∨ B s) E)
    (hB : ∀ i, Keeps B (test i) E) (n i x : Nat) :
    Triple P (nthRange test n i x)
      (fun r s => P s ∧ (r = -1 → Nat.count (fun k => T (i + k)) n ≤ x) ∨ B s) E := by
  have hlost : ∀ n i x, Triple B (nthRange test n i x) (fun _ s => B s) E := by
    intro n
    induction n with
    | zero => exact fun i x => keeps_pure
    | succ n ih =>
      refine fun i x => triple_bind (hB i) fun b => triple_ite (fun _ => ?_) fun _ => ih (i + 1) x
      cases x with
      | zero => exact keeps_pure
      | succ x => exact ih (i + 1) x
  have hcount : ∀ n i, Nat.count (fun k => T (i + k)) (n + 1) =
      Nat.count (fun k => T (i + 1 + k)) n + if T i then 1 else 0 := by
    intro n i
    rw [Nat.count_succ']
    simp only [Nat.add_zero, Nat.add_comm, Nat.add_left_comm]
  induction n generalizing i x with
  | zero => exact triple_pure fun s hs => .inl ⟨hs, fun _ => by simp⟩
  | succ n ih =>
    rw [hcount]
    refine triple_bind (h i) fun b => triple_ite (fun hb => ?_) fun hb => ?_
    · cases x with
      | zero =>
        refine triple_pure fun s hs => hs.imp (fun hs => ⟨hs.1, fun hr => ?_⟩) id
        omega
      | succ x =>
        refine (triple_or (ih (i + 1) x) (hlost n (i + 1) x)).consequence
          (fun s hs => hs.imp (fun hs => hs.1) id) (fun r s hs => ?_) fun _ => id
        rcases hs with (hs | hs) | hs
        · refine .inl ⟨hs.1, fun hr => ?_⟩
          have := hs.2 hr
          split <;> omega
        · exact .inr hs
        · exact .inr hs
    · by_cases hT : T i
      · refine (hlost n (i + 1) x).consequence (fun s hs => ?_) (fun _ _ => .inr) fun _ => id
        exact hs.resolve_left fun hs => hb (hs.2.2 hT)
      · rw [if_neg hT]
        refine (triple_or (ih (i + 1) x) (hlost n (i + 1) x)).consequence
          (fun s hs => hs.imp (fun hs => hs.1) id) (fun r s hs => ?_) fun _ => id
        rcases hs with (hs | hs) | hs
        · exact .inl hs
        · exact .inr hs
        · exact .inr hs

end Table

/-! ## How many places pass -/

section Counts

variable {p q : Nat → Prop} [DecidablePred p] [DecidablePred q]

theorem count_congr {n : Nat} (h : ∀ k < n, (p k ↔ q k)) : Nat.count p n = Nat.count q n :=
  le_antisymm (Nat.count_mono_left fun k hk => (h k hk).1)
    (Nat.count_mono_left fun k hk => (h k hk).2)

/-- A place that passes no more. -/
theorem count_remove {n i : Nat} (hi : i < n) (hp : p i) (hq : ¬q i)
    (h : ∀ k < n, k ≠ i → (p k ↔ q k)) : Nat.count p n = Nat.count q n + 1 := by
  induction n with
  | zero => omega
  | succ n ih =>
    rw [Nat.count_succ, Nat.count_succ]
    rcases eq_or_ne i n with rfl | hin
    · rw [if_pos hp, if_neg hq, count_congr fun k hk => h k (by omega) (by omega)]
    · rw [ih (by omega) fun k hk => h k (by omega)]
      simp only [h n (by omega) (Ne.symm hin)]
      omega

end Counts

end Programs
