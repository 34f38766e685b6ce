import Mathlib.Logic.Relation

/-!
# Runs of a partial step function

A machine is a step function `step : σ → α → Option σ` that says, for a state and an action,
whether the action is possible and what it leads to. A run is a list of actions. An invariant
that one step keeps holds after every run.
-/

namespace Runs

variable {σ α : Type*} {step : σ → α → Option σ} {Inv : σ → Prop} {s s' t : σ} {as bs : List α}

/-- The state after the actions `as`, when all of them are possible. -/
def run (step : σ → α → Option σ) : σ → List α → Option σ
  | s, [] => some s
  | s, a :: as => (step s a).bind fun s' => run step s' as

@[simp] theorem run_nil : run step s [] = some s := rfl

theorem run_cons {a : α} :
    run step s (a :: as) = some t ↔ ∃ s', step s a = some s' ∧ run step s' as = some t := by
  simp [run, Option.bind_eq_some_iff]

theorem run_append :
    run step s (as ++ bs) = some t ↔ ∃ s', run step s as = some s' ∧ run step s' bs = some t := by
  induction as generalizing s with
  | nil => simp
  | cons a as ih =>
    rw [List.cons_append, run_cons]
    constructor
    · rintro ⟨s₁, h₁, h₂⟩
      obtain ⟨s', h₃, h₄⟩ := ih.1 h₂
      exact ⟨s', run_cons.2 ⟨s₁, h₁, h₃⟩, h₄⟩
    · rintro ⟨s', h₁, h₂⟩
      obtain ⟨s₁, h₃, h₄⟩ := run_cons.1 h₁
      exact ⟨s₁, h₃, ih.2 ⟨s', h₄, h₂⟩⟩

/-- What every step keeps, every run keeps. -/
theorem run_invariant (hstep : ∀ s a s', Inv s → step s a = some s' → Inv s') (hs : Inv s)
    (h : run step s as = some t) : Inv t := by
  induction as generalizing s with
  | nil =>
    cases h
    exact hs
  | cons a as ih =>
    obtain ⟨s', ha, h'⟩ := run_cons.1 h
    exact ih (hstep s a s' hs ha) h'

/-! ## Total steps -/

section Total

variable {step : σ → α → σ} {C D : α → σ → Prop}

/-- Every step of the run from `s` is made in a state that meets `C`. -/
def Throughout (step : σ → α → σ) (C : α → σ → Prop) : σ → List α → Prop
  | _, [] => True
  | s, a :: as => C a s ∧ Throughout step C (step s a) as

/-- What holds of each step that meets `C` under the invariant holds throughout. -/
theorem throughout_of_invariant (hstep : ∀ s a, Inv s → C a s → Inv (step s a) ∧ D a s)
    (hs : Inv s) (h : Throughout step C s as) : Throughout step D s as := by
  induction as generalizing s with
  | nil => exact trivial
  | cons a as ih =>
    obtain ⟨ha, h⟩ := h
    obtain ⟨hinv, hd⟩ := hstep s a hs ha
    exact ⟨hd, ih hinv h⟩

/-- A property that is lost for good as soon as a step does not meet `C`. -/
theorem foldl_iff_throughout_of_invariant {J : σ → Prop} (hJ : ∀ s a, J s → J (step s a))
    (hstep : ∀ s a, J s → (Inv (step s a) ↔ Inv s ∧ C a s)) (hs : J s) :
    Inv (as.foldl step s) ↔ Inv s ∧ Throughout step C s as := by
  induction as generalizing s with
  | nil => exact (and_iff_left trivial).symm
  | cons a as ih =>
    rw [List.foldl_cons, ih (hJ s a hs), hstep s a hs, and_assoc]
    rfl

theorem foldl_iff_throughout (hstep : ∀ s a, Inv (step s a) ↔ Inv s ∧ C a s) :
    Inv (as.foldl step s) ↔ Inv s ∧ Throughout step C s as :=
  foldl_iff_throughout_of_invariant (J := fun _ => True) (fun _ _ _ => trivial)
    (fun s a _ => hstep s a) trivial

/-- A relation between the state and the actions so far holds after every part of a run exactly
when each action meets the condition under which one step keeps it. -/
theorem forall_prefix_iff_throughout {R : σ → List α → Prop} {past : List α}
    (hstep : ∀ s past a, R s past → (R (step s a) (past ++ [a]) ↔ C a s)) (hs : R s past) :
    (∀ bs, bs <+: as → R (bs.foldl step s) (past ++ bs)) ↔ Throughout step C s as := by
  induction as generalizing s past with
  | nil =>
    refine iff_of_true (fun bs hbs => ?_) trivial
    rw [List.prefix_nil.1 hbs, List.append_nil]
    exact hs
  | cons a as ih =>
    constructor
    · intro h
      have ha : R (step s a) (past ++ [a]) := h [a] (by simp)
      refine ⟨(hstep s past a hs).1 ha, (ih ha).1 fun bs hbs => ?_⟩
      have hb := h (a :: bs) ((List.prefix_cons_inj a).2 hbs)
      rwa [List.foldl_cons, List.append_cons] at hb
    · rintro ⟨hc, hrest⟩ bs hbs
      have ha : R (step s a) (past ++ [a]) := (hstep s past a hs).2 hc
      obtain rfl | ⟨cs, rfl, hcs⟩ := List.prefix_cons_iff.1 hbs
      · rwa [List.append_nil]
      · rw [List.foldl_cons, List.append_cons]
        exact (ih ha).2 hrest cs hcs

/-- The same for a property of the state alone. -/
theorem forall_prefix_inv_iff_throughout (hstep : ∀ s a, Inv s → (Inv (step s a) ↔ C a s))
    (hs : Inv s) : (∀ bs, bs <+: as → Inv (bs.foldl step s)) ↔ Throughout step C s as :=
  @forall_prefix_iff_throughout _ _ s as step C (fun s _ => Inv s) [] (fun s _ a => hstep s a) hs

end Total

/-! ## The past of a run -/

section Since

variable {P Q : α → Prop}

/-- An element of the list meets `Q`, and none behind it meets `P`. -/
def Since (P Q : α → Prop) (as : List α) : Prop :=
  ∃ before a after, as = before ++ a :: after ∧ Q a ∧ ∀ x ∈ after, ¬P x

theorem not_since_nil : ¬Since P Q [] := by
  rintro ⟨before, a, after, h, -⟩
  simp at h

theorem since_append_singleton (a : α) :
    Since P Q (as ++ [a]) ↔ Q a ∨ ¬P a ∧ Since P Q as := by
  constructor
  · rintro ⟨before, b, after, h, hb, hafter⟩
    rcases List.eq_nil_or_concat after with rfl | ⟨after, c, rfl⟩
    · obtain ⟨-, hab⟩ := List.append_inj' h rfl
      cases hab
      exact .inl hb
    · rw [List.concat_eq_append] at h hafter
      rw [← List.cons_append, ← List.append_assoc] at h
      obtain ⟨has, hac⟩ := List.append_inj' h rfl
      cases hac
      refine .inr ⟨hafter a (by simp), before, b, after, has, hb, fun x hx => ?_⟩
      exact hafter x (List.mem_append_left _ hx)
  · rintro (ha | ⟨ha, before, b, after, rfl, hb, hafter⟩)
    · exact ⟨as, a, [], rfl, ha, by simp⟩
    · refine ⟨before, b, after ++ [a], by simp, hb, fun x hx => ?_⟩
      rcases List.mem_append.1 hx with hx | hx
      · exact hafter x hx
      · rwa [List.mem_singleton.1 hx]

end Since

end Runs
