import Mathlib.Data.List.Basic
import PerfEventTests.Lib.Runs

/-!
# Two machines over one input

A machine that always makes its step stands beside one that may get stuck. Each step puts something
out. The second machine copies the first when it never gets stuck and puts out at every action what
the first one does.
-/

namespace Lockstep

variable {σ τ α ω : Type*} {step : σ → α → σ × ω} {step? : τ → α → Option (τ × ω)}
  {A : α → Prop} {R : σ → τ → Prop} {C : α → σ → τ → Prop} {s : σ} {t t' : τ} {as : List α}

/-- What the steps of a run put out. -/
def outputs (step : σ → α → σ × ω) : σ → List α → List ω
  | _, [] => []
  | s, a :: as => (step s a).2 :: outputs step (step s a).1 as

def final (step : σ → α → σ × ω) (s : σ) (as : List α) : σ := as.foldl (fun s a => (step s a).1) s

/-- The same for a machine that may get stuck, with the state at the end. -/
def run? (step? : τ → α → Option (τ × ω)) : τ → List α → Option (τ × List ω)
  | t, [] => some (t, [])
  | t, a :: as => (step? t a).bind fun r => (run? step? r.1 as).map fun q => (q.1, r.2 :: q.2)

/-- The second machine gets to the end, and has put out the same. -/
def Copies (step : σ → α → σ × ω) (step? : τ → α → Option (τ × ω)) (s : σ) (t : τ)
    (as : List α) : Prop :=
  ∃ t', run? step? t as = some (t', outputs step s as)

/-- At each step of the two machines, as long as the second one goes on, `C` is met. -/
def Along (step : σ → α → σ × ω) (step? : τ → α → Option (τ × ω)) (C : α → σ → τ → Prop) :
    σ → τ → List α → Prop
  | _, _, [] => True
  | s, t, a :: as => C a s t ∧ ∀ r, step? t a = some r → Along step step? C (step s a).1 r.1 as

theorem run?_cons {a : α} {as : List α} {r : τ × List ω} :
    run? step? t (a :: as) = some r ↔
      ∃ q, step? t a = some q ∧ ∃ ws, run? step? q.1 as = some (r.1, ws) ∧ r.2 = q.2 :: ws := by
  simp only [run?, Option.bind_eq_some_iff, Option.map_eq_some_iff, Prod.exists]
  constructor
  · rintro ⟨u, w, hstep, v, ws, hrun, rfl⟩
    exact ⟨u, w, hstep, ws, hrun, rfl⟩
  · rintro ⟨u, w, hstep, ws, hrun, hws⟩
    exact ⟨u, w, hstep, r.1, ws, hrun, by rw [← hws]⟩

/-- One action more in front. -/
theorem copies_cons {a : α} {as : List α} : Copies step step? s t (a :: as) ↔
    ∃ u, step? t a = some (u, (step s a).2) ∧ Copies step step? (step s a).1 u as := by
  constructor
  · rintro ⟨t', hrun⟩
    obtain ⟨q, hstep, ws, hrest, hws⟩ := run?_cons.1 hrun
    obtain ⟨hw, rfl⟩ := List.cons.inj hws
    refine ⟨q.1, ?_, t', hrest⟩
    rw [hstep, hw]
  · rintro ⟨u, hstep, t', hrest⟩
    exact ⟨t', run?_cons.2 ⟨_, hstep, _, hrest, rfl⟩⟩

/-- An initial part of a copied run is copied. -/
theorem Copies.take (h : Copies step step? s t as) (n : Nat) :
    Copies step step? s t (as.take n) := by
  induction as generalizing s t n with
  | nil =>
    rw [List.take_nil]
    exact h
  | cons a as ih =>
    cases n with
    | zero => exact ⟨t, rfl⟩
    | succ n =>
      obtain ⟨u, hstep, hrest⟩ := copies_cons.1 h
      exact copies_cons.2 ⟨u, hstep, ih hrest n⟩

/-- Where a step puts out what it changes, a run is copied once the two states look the same after
each initial part of it. -/
theorem copies_of_look {ν : Type*} (look : σ → ν) (look? : τ → ν)
    (hout : ∀ s t a r, look? t = look s → step? t a = some r → look? r.1 = look (step s a).1 →
      r.2 = (step s a).2)
    (hsame : ∀ n, ∃ r, run? step? t (as.take n) = some r ∧
      look? r.1 = look (final step s (as.take n))) : Copies step step? s t as := by
  induction as generalizing s t with
  | nil => exact ⟨t, rfl⟩
  | cons a as ih =>
    have hnow : look? t = look s := by
      obtain ⟨r, hrun, hlook⟩ := hsame 0
      cases hrun
      exact hlook
    have hone : ∃ r, step? t a = some r ∧ look? r.1 = look (step s a).1 := by
      obtain ⟨r, hrun, hlook⟩ := hsame 1
      obtain ⟨q, hstep, ws, hnil, -⟩ := run?_cons.1 hrun
      obtain ⟨hq, -⟩ := Prod.mk.inj (Option.some.inj hnil)
      exact ⟨q, hstep, (congrArg look? hq).trans hlook⟩
    obtain ⟨r, hstep, hlook⟩ := hone
    refine copies_cons.2 ⟨r.1, ?_, ih fun n => ?_⟩
    · rw [hstep, ← hout s t a r hnow hstep hlook]
    · obtain ⟨r', hrun, hlook'⟩ := hsame (n + 1)
      obtain ⟨q, hq, ws, hws, -⟩ := run?_cons.1 hrun
      obtain rfl := Option.some.inj (hstep.symm.trans hq)
      exact ⟨_, hws, hlook'⟩

/-- A relation under which a step is copied exactly when `C` is met, and which copied steps keep, as
far as the actions in `A` go. -/
structure Simulates (step : σ → α → σ × ω) (step? : τ → α → Option (τ × ω)) (A : α → Prop)
    (R : σ → τ → Prop) (C : α → σ → τ → Prop) : Prop where
  copied : ∀ s t a, A a → R s t → ((∃ u, step? t a = some (u, (step s a).2)) ↔ C a s t)
  keeps : ∀ s t a u, A a → R s t → step? t a = some (u, (step s a).2) → R (step s a).1 u

namespace Simulates

/-- A run is copied exactly when each of its steps meets the condition. -/
theorem copies_iff (h : Simulates step step? A R C) (hst : R s t) (has : ∀ a ∈ as, A a) :
    Copies step step? s t as ↔ Along step step? C s t as := by
  induction as generalizing s t with
  | nil => exact iff_of_true ⟨t, rfl⟩ trivial
  | cons a as ih =>
    obtain ⟨ha, has⟩ := List.forall_mem_cons.1 has
    rw [copies_cons]
    constructor
    · rintro ⟨u, hstep, hrest⟩
      refine ⟨(h.copied s t a ha hst).1 ⟨u, hstep⟩, fun r hr => ?_⟩
      rw [hstep] at hr
      cases hr
      exact (ih (h.keeps s t a u ha hst hstep) has).1 hrest
    · rintro ⟨hc, hrest⟩
      obtain ⟨u, hstep⟩ := (h.copied s t a ha hst).2 hc
      exact ⟨u, hstep, (ih (h.keeps s t a u ha hst hstep) has).2 (hrest _ hstep)⟩

/-- At the end of a copied run the two states are related. -/
theorem final_related (h : Simulates step step? A R C) (hst : R s t) (has : ∀ a ∈ as, A a)
    (hrun : run? step? t as = some (t', outputs step s as)) : R (final step s as) t' := by
  induction as generalizing s t with
  | nil =>
    cases hrun
    exact hst
  | cons a as ih =>
    obtain ⟨ha, has⟩ := List.forall_mem_cons.1 has
    obtain ⟨u, hstep, hrest⟩ := copies_cons.1 ⟨t', hrun⟩
    obtain ⟨q, hq, ws, hws, hout⟩ := run?_cons.1 hrun
    rw [hstep] at hq
    cases hq
    obtain ⟨-, rfl⟩ := List.cons.inj hout
    exact ih (h.keeps s t a u ha hst hstep) has hws

/-- Where a condition on the first machine alone is met throughout, and it is enough under a
relation `Q` that it keeps, the run is copied. -/
theorem copies_of_throughout (h : Simulates step step? A R C) {Q : σ → τ → Prop}
    {G : α → σ → Prop} (hC : ∀ s t a, R s t → Q s t → G a s → C a s t)
    (hkeep : ∀ s t a u, A a → R s t → Q s t → G a s → step? t a = some (u, (step s a).2) →
      Q (step s a).1 u) (hst : R s t) (hq : Q s t) (has : ∀ a ∈ as, A a)
    (hG : Runs.Throughout (fun s a => (step s a).1) G s as) : Copies step step? s t as := by
  induction as generalizing s t with
  | nil => exact ⟨t, rfl⟩
  | cons a as ih =>
    obtain ⟨ha, has⟩ := List.forall_mem_cons.1 has
    obtain ⟨hg, hrest⟩ := hG
    obtain ⟨u, hstep⟩ := (h.copied s t a ha hst).2 (hC s t a hst hq hg)
    refine copies_cons.2 ⟨u, hstep, ih (h.keeps s t a u ha hst hstep) ?_ has hrest⟩
    exact hkeep s t a u ha hst hq hg hstep

end Simulates

end Lockstep
