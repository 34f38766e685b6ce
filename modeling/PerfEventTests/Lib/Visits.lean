import Mathlib.Order.Basic
import Mathlib.Order.Lattice

/-!
# Two loops over positions

A loop goes from state to state while the position of the state is below a bound, and notes where it
was. Two loops whose states are related go through the same positions exactly if the first of them comes
to no state at which they part.
-/

namespace Visits

variable {σ τ : Type*}

/-- The last state and the positions before it, within a number of turns; there is no result if a step
has none. -/
def visits (pos : σ → Int) (step : σ → Option σ) (bound : Int) : Nat → σ → Option (σ × List Int)
  | fuel, s =>
    if pos s < bound then
      match fuel with
      | 0 => none
      | fuel + 1 => do
        let s' ← step s
        let (last, ps) ← visits pos step bound fuel s'
        return (last, pos s :: ps)
    else some (s, [])

/-- The states at which a turn starts, and the last one. -/
inductive Comes (pos : σ → Int) (step : σ → Option σ) (bound : Int) : σ → σ → Prop
  | here (s : σ) : Comes pos step bound s s
  | later {s s' u : σ} : pos s < bound → step s = some s' → Comes pos step bound s' u →
      Comes pos step bound s u

section One

variable {pos : σ → Int} {step : σ → Option σ} {bound : Int} {s s' u : σ} {fuel : Nat}

theorem visits_of_le (h : bound ≤ pos s) : visits pos step bound fuel s = some (s, []) := by
  unfold visits
  rw [if_neg h.not_gt]

theorem visits_zero (h : pos s < bound) : visits pos step bound 0 s = none := by
  unfold visits
  rw [if_pos h]

theorem visits_succ (h : pos s < bound) (hstep : step s = some s') :
    visits pos step bound (fuel + 1) s =
      (visits pos step bound fuel s').map fun r => (r.1, pos s :: r.2) := by
  rw [visits, if_pos h]
  simp only [hstep, Option.bind_eq_bind, Option.bind_some]
  cases visits pos step bound fuel s' <;> rfl

theorem visits_succ_none (h : pos s < bound) (hstep : step s = none) :
    visits pos step bound (fuel + 1) s = none := by
  rw [visits, if_pos h]
  simp only [hstep, Option.bind_eq_bind, Option.bind_none]

/-- A loop that has ended below the bound has taken a step. -/
theorem visits_inv {last : σ} {ps : List Int} (h : pos s < bound)
    (hv : visits pos step bound fuel s = some (last, ps)) : ∃ fuel' s' ps', fuel = fuel' + 1 ∧
      step s = some s' ∧ visits pos step bound fuel' s' = some (last, ps') ∧ ps = pos s :: ps' := by
  cases fuel with
  | zero => rw [visits_zero h] at hv; cases hv
  | succ fuel =>
    cases hstep : step s with
    | none => rw [visits_succ_none h hstep] at hv; cases hv
    | some s' =>
      rw [visits_succ h hstep] at hv
      obtain ⟨⟨last', ps'⟩, hv', heq⟩ := Option.map_eq_some_iff.1 hv
      cases heq
      exact ⟨fuel, s', ps', rfl, rfl, hv', rfl⟩

theorem Comes.snoc (h : Comes pos step bound s s') (hlt : pos s' < bound) (hstep : step s' = some u) :
    Comes pos step bound s u := by
  induction h with
  | here => exact .later hlt hstep (.here u)
  | later hlt' hstep' _ ih => exact .later hlt' hstep' (ih hlt hstep)

/-- A loop whose steps stay where they are does not end. -/
theorem visits_stuck {P : σ → Prop} (hlt : ∀ s, P s → pos s < bound)
    (hstay : ∀ s s', P s → step s = some s' → P s') (hs : P s) :
    visits pos step bound fuel s = none := by
  induction fuel generalizing s with
  | zero => exact visits_zero (hlt s hs)
  | succ fuel ih =>
    cases hstep : step s with
    | none => exact visits_succ_none (hlt s hs) hstep
    | some s' => rw [visits_succ (hlt s hs) hstep, ih (hstay s s' hs hstep), Option.map_none]

end One

variable {pos : σ → Int} {step : σ → Option σ} {pos' : τ → Int} {step' : τ → Option τ} {bound : Int}

/-- What two loops have to do with each other: from related states they go to related states if the
first state is good, and otherwise the second loop has no next state, or one at another position, or the
first loop does not end. -/
structure Lockstep (pos : σ → Int) (step : σ → Option σ) (pos' : τ → Int) (step' : τ → Option τ)
    (bound : Int) (R : σ → τ → Prop) (Good : σ → Prop) : Prop where
  together : ∀ s t, R s t → min (pos s) bound = min (pos' t) bound
  keeps : ∀ s t, R s t → pos s < bound → Good s →
    ∃ s' t', step s = some s' ∧ step' t = some t' ∧ R s' t' ∧ pos s < pos s'
  parts : ∀ s t s' t', R s t → pos s < bound → ¬ Good s → step s = some s' → step' t = some t' →
    min (pos s') bound ≠ min (pos' t') bound ∨ ∀ fuel, visits pos step bound fuel s' = none

variable {R : σ → τ → Prop} {Good : σ → Prop} {s : σ} {t : τ}

theorem lt_of_together (h : min (pos s) bound = min (pos' t) bound) (hlt : pos s < bound) :
    pos' t = pos s := by
  omega

/-- Loops that go through the same positions are at the same position, or have both ended. -/
theorem together_of_visits {fuel : Nat} {last : σ} {last' : τ} {ps : List Int}
    (h : visits pos step bound fuel s = some (last, ps))
    (h' : visits pos' step' bound fuel t = some (last', ps)) :
    min (pos s) bound = min (pos' t) bound := by
  by_cases hlt : pos s < bound
  · obtain ⟨_, _, ps', -, -, -, rfl⟩ := visits_inv hlt h
    by_cases hlt' : pos' t < bound
    · obtain ⟨_, _, ps'', -, -, -, heq⟩ := visits_inv hlt' h'
      rw [(List.cons.inj heq).1]
    · rw [visits_of_le (not_lt.1 hlt')] at h'
      cases h'
  · rw [visits_of_le (not_lt.1 hlt)] at h
    cases h
    by_cases hlt' : pos' t < bound
    · obtain ⟨_, _, ps'', -, -, -, heq⟩ := visits_inv hlt' h'
      cases heq
    · rw [min_eq_right (not_lt.1 hlt), min_eq_right (not_lt.1 hlt')]

/-- The two loops end after the same positions. -/
def Same (pos : σ → Int) (step : σ → Option σ) (pos' : τ → Int) (step' : τ → Option τ) (bound : Int)
    (s : σ) (t : τ) (Q : σ → τ → Prop) : Prop :=
  ∃ fuel last last' ps, visits pos step bound fuel s = some (last, ps) ∧
    visits pos' step' bound fuel t = some (last', ps) ∧ Q last last'

namespace Lockstep

variable (h : Lockstep pos step pos' step' bound R Good)

include h

theorem good_of_visits {fuel : Nat} {last : σ} {last' : τ} {ps : List Int} (hR : R s t)
    (hv : visits pos step bound fuel s = some (last, ps))
    (hv' : visits pos' step' bound fuel t = some (last', ps)) {u : σ}
    (hu : Comes pos step bound s u) (hlt : pos u < bound) : Good u := by
  have hgood {s : σ} {t : τ} {fuel : Nat} {ps : List Int} (hR : R s t) (hlt : pos s < bound)
      (hv : visits pos step bound fuel s = some (last, ps))
      (hv' : visits pos' step' bound fuel t = some (last', ps)) : Good s := by
    by_contra hbad
    have hpos := lt_of_together (h.together s t hR) hlt
    obtain ⟨fuel, s', ps', rfl, hstep, hrest, rfl⟩ := visits_inv hlt hv
    obtain ⟨fuel', t', ps'', hfuel, hstep', hrest', hps⟩ := visits_inv (hpos.trans_lt hlt) hv'
    obtain rfl := Nat.succ.inj hfuel
    obtain rfl := (List.cons.inj hps).2
    rcases h.parts s t s' t' hR hlt hbad hstep hstep' with hne | hstuck
    · exact hne (together_of_visits hrest hrest')
    · rw [hstuck] at hrest
      cases hrest
  induction hu generalizing t fuel ps with
  | here s => exact hgood hR hlt hv hv'
  | @later s s' u hlts hstep hcomes ih =>
    obtain ⟨s'', t', hs'', ht', hR', -⟩ := h.keeps s t hR hlts (hgood hR hlts hv hv')
    rw [hstep] at hs''
    cases hs''
    have hpos := lt_of_together (h.together s t hR) hlts
    obtain ⟨fuel, s'', ps', rfl, hs'', hrest, rfl⟩ := visits_inv hlts hv
    rw [hstep] at hs''
    cases hs''
    obtain ⟨fuel', t'', ps'', hfuel, ht'', hrest', hps⟩ := visits_inv (hpos.trans_lt hlts) hv'
    rw [ht'] at ht''
    cases ht''
    obtain rfl := Nat.succ.inj hfuel
    obtain rfl := (List.cons.inj hps).2
    exact ih hR' hrest hrest' hlt

theorem same_of_good (hR : R s t)
    (hgood : ∀ u, Comes pos step bound s u → pos u < bound → Good u) :
    Same pos step pos' step' bound s t R := by
  induction hleft : (bound - pos s).toNat using Nat.strong_induction_on generalizing s t with
  | h left ih =>
    by_cases hlt : pos s < bound
    · obtain ⟨s', t', hs', ht', hR', hmove⟩ := h.keeps s t hR hlt (hgood s (.here s) hlt)
      have hcloser : (bound - pos s').toNat < left := by omega
      obtain ⟨fuel, last, last', ps, hv, hv', hlast⟩ := ih _ hcloser hR'
        (fun u hu hltu => hgood u (.later hlt hs' hu) hltu) rfl
      have hpos := lt_of_together (h.together s t hR) hlt
      refine ⟨fuel + 1, last, last', pos s :: ps, ?_, ?_, hlast⟩
      · rw [visits_succ hlt hs', hv, Option.map_some]
      · rw [visits_succ (hpos.trans_lt hlt) ht', hv', Option.map_some, hpos]
    · have hend : bound ≤ pos' t := by
        have htogether := h.together s t hR
        omega
      exact ⟨0, s, t, [], visits_of_le (not_lt.1 hlt), visits_of_le hend, hR⟩

/-- The loops end after the same positions, and in related states, exactly if the first one comes to
good states only. -/
theorem same_iff {Q : σ → τ → Prop} (hQ : ∀ s t, R s t → Q s t) (hR : R s t) :
    Same pos step pos' step' bound s t Q ↔
      ∀ u, Comes pos step bound s u → pos u < bound → Good u := by
  constructor
  · rintro ⟨fuel, last, last', ps, hv, hv', -⟩ u hu hlt
    exact h.good_of_visits hR hv hv' hu hlt
  · intro hgood
    obtain ⟨fuel, last, last', ps, hv, hv', hlast⟩ := h.same_of_good hR hgood
    exact ⟨fuel, last, last', ps, hv, hv', hQ _ _ hlast⟩

end Lockstep

end Visits
