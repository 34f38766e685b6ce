import PerfEventTests.Lib.Draws

/-!
# Programs with an environment

A program reads and writes a state, draws answers from its environment and may stop for good
before it returns. `Triple P m Q E` says that a run of `m` from a state with `P` ends with `Q` of
the result and the state when it returns, and with `E` of the state when it stops. The answers
are not part of an assertion, so a triple holds whatever the environment answers.
-/

namespace Programs

open Draws

/-- A state and the answers that are still unread. -/
structure World (σ : Type) where
  answers : Nat → Int
  state : σ

/-- A program: its result, `none` for a run that has stopped, with the number of answers that it
has read and the state at its end. -/
def Prog (σ α : Type) : Type := (Nat → Int) → σ → Option α × Nat × σ

variable {σ α β : Type}

instance : Monad (Prog σ) where
  pure a := fun _ s => (some a, 0, s)
  bind m f := fun answers s =>
    match m answers s with
    | (some a, k, s') =>
      match f a (unread answers k) s' with
      | (b, j, s'') => (b, k + j, s'')
    | (none, k, s') => (none, k, s')

def exec (m : Prog σ α) (w : World σ) : Option α × World σ :=
  match m w.answers w.state with
  | (a, k, s) => (a, ⟨unread w.answers k, s⟩)

def draw (d : Draw α) : Prog σ α := fun answers s =>
  match d answers with
  | (a, k) => (some a, k, s)

def getState : Prog σ σ := fun _ s => (some s, 0, s)

def update (f : σ → σ) : Prog σ Unit := fun _ s => (some (), 0, f s)

def stop : Prog σ α := fun _ s => (none, 0, s)

/-- A statement behind a condition. -/
def whenever (c : Prop) [Decidable c] (m : Prog σ Unit) : Prog σ Unit := if c then m else pure ()

/-! ## Loops -/

/-- The body for each of the `n` indices from `i` on. -/
def forRange (body : Nat → Prog σ Unit) : Nat → Nat → Prog σ Unit
  | 0, _ => pure ()
  | n + 1, i => do
    body i
    forRange body n (i + 1)

/-! ## Triples -/

def Triple (P : σ → Prop) (m : Prog σ α) (Q : α → σ → Prop) (E : σ → Prop) : Prop :=
  ∀ w, P w.state →
    match exec m w with
    | (some a, w') => Q a w'.state
    | (none, w') => E w'.state

variable {P P' R : σ → Prop} {m : Prog σ α} {f : α → Prog σ β} {Q Q' : α → σ → Prop}
  {T : β → σ → Prop} {E E' : σ → Prop}

theorem exec_bind (m : Prog σ α) (f : α → Prog σ β) (w : World σ) :
    exec (m >>= f) w =
      match exec m w with
      | (some a, w') => exec (f a) w'
      | (none, w') => (none, w') := by
  have hbind : (m >>= f) w.answers w.state =
      match m w.answers w.state with
      | (some a, k, s') =>
        match f a (unread w.answers k) s' with
        | (b, j, s'') => (b, k + j, s'')
      | (none, k, s') => (none, k, s') := rfl
  unfold exec
  rw [hbind]
  rcases m w.answers w.state with ⟨_ | a, k, s'⟩
  · rfl
  · dsimp only
    rcases f a (unread w.answers k) s' with ⟨b, j, s''⟩
    rw [unread_add]

theorem exec_step {w w' : World σ} {a : α} (h : exec m w = (some a, w')) :
    exec (m >>= f) w = exec (f a) w' := by
  rw [exec_bind, h]

theorem bind_bind {γ : Type} (m : Prog σ α) (f : α → Prog σ β) (g : β → Prog σ γ) :
    m >>= f >>= g = m >>= fun a => f a >>= g := by
  funext answers s
  have hleft : (m >>= f >>= g) answers s =
      match (m >>= f) answers s with
      | (some b, k, s') =>
        match g b (unread answers k) s' with
        | (c, j, s'') => (c, k + j, s'')
      | (none, k, s') => (none, k, s') := rfl
  have hright : (m >>= fun a => f a >>= g) answers s =
      match m answers s with
      | (some a, k, s') =>
        match (f a >>= g) (unread answers k) s' with
        | (c, j, s'') => (c, k + j, s'')
      | (none, k, s') => (none, k, s') := rfl
  have hinner : (m >>= f) answers s =
      match m answers s with
      | (some a, k, s') =>
        match f a (unread answers k) s' with
        | (b, j, s'') => (b, k + j, s'')
      | (none, k, s') => (none, k, s') := rfl
  rw [hleft, hright, hinner]
  rcases m answers s with ⟨_ | a, k, s'⟩
  · rfl
  dsimp only
  have hrest : (f a >>= g) (unread answers k) s' =
      match f a (unread answers k) s' with
      | (some b, j, s'') =>
        match g b (unread (unread answers k) j) s'' with
        | (c, l, s₃) => (c, j + l, s₃)
      | (none, j, s'') => (none, j, s'') := rfl
  rw [hrest]
  rcases f a (unread answers k) s' with ⟨_ | b, j, s''⟩
  · rfl
  dsimp only
  rw [unread_add]
  rcases g b (unread (unread answers k) j) s'' with ⟨c, l, s₃⟩
  dsimp only
  rw [Nat.add_assoc]

instance : LawfulMonad (Prog σ) := by
  refine LawfulMonad.mk' (Prog σ) (fun m => ?_) (fun a f => ?_) bind_bind
  · funext answers s
    have hmap : (id <$> m) answers s =
        match m answers s with
        | (some a, k, s') => (some a, k + 0, s')
        | (none, k, s') => (none, k, s') := rfl
    rw [hmap]
    rcases m answers s with ⟨_ | a, k, s'⟩
    · rfl
    · rfl
  · funext answers s
    have hbind : ((pure a : Prog σ _) >>= f) answers s =
        match f a (unread answers 0) s with
        | (b, j, s'') => (b, 0 + j, s'') := rfl
    have hunread : unread answers 0 = answers := rfl
    rw [hbind, hunread]
    rcases f a answers s with ⟨b, j, s'⟩
    dsimp only
    rw [Nat.zero_add]

theorem exec_map (g : α → β) (m : Prog σ α) (w : World σ) :
    exec (g <$> m) w = ((exec m w).1.map g, (exec m w).2) := by
  rw [map_eq_pure_bind, exec_bind]
  rcases exec m w with ⟨_ | a, w'⟩
  · rfl
  · rfl

/-- The outcome of a run that is known to return. -/
theorem exec_eq {answers : Nat → Int} {s : σ} {a : α} {k : Nat} (h : (m answers s).1 = some a)
    (hk : (m answers s).2.1 = k) :
    exec m ⟨answers, s⟩ = (some a, ⟨unread answers k, (m answers s).2.2⟩) := by
  subst hk
  unfold exec
  revert h
  rcases m answers s with ⟨b, j, s'⟩
  rintro rfl
  rfl

/-- How an outcome is judged. -/
def Ends (Q : α → σ → Prop) (E : σ → Prop) : Option α × World σ → Prop
  | (some a, w) => Q a w.state
  | (none, w) => E w.state

theorem triple_iff : Triple P m Q E ↔ ∀ w, P w.state → Ends Q E (exec m w) := by
  constructor <;> intro h w hw <;> have := h w hw <;> revert this <;>
    rcases exec m w with ⟨_ | a, w'⟩ <;> exact id

theorem Triple.consequence (h : Triple P m Q E) (hpre : ∀ s, P' s → P s)
    (hpost : ∀ a s, Q a s → Q' a s) (hstop : ∀ s, E s → E' s) : Triple P' m Q' E' := by
  rw [triple_iff] at h ⊢
  intro w hw
  have := h w (hpre _ hw)
  revert this
  rcases exec m w with ⟨_ | a, w'⟩
  · exact hstop _
  · exact hpost _ _

theorem Triple.weaken_pre (h : Triple P m Q E) (hpre : ∀ s, P' s → P s) : Triple P' m Q E :=
  h.consequence hpre (fun _ _ h => h) fun _ h => h

theorem Triple.strengthen_post {S : α → σ → Prop} (h : Triple P m Q E)
    (hpost : ∀ a s, Q a s → S a s) : Triple P m S E :=
  h.consequence (fun _ h => h) hpost fun _ h => h

theorem triple_bind (hm : Triple P m Q E) (hf : ∀ a, Triple (Q a) (f a) T E) :
    Triple P (m >>= f) T E := by
  rw [triple_iff] at hm ⊢
  intro w hw
  rw [exec_bind]
  have := hm w hw
  revert this
  rcases exec m w with ⟨_ | a, w'⟩
  · exact id
  · exact triple_iff.1 (hf a) w'

theorem triple_pure {a : α} (h : ∀ s, P s → Q a s) : Triple P (pure a) Q E :=
  fun w hw => h w.state hw

theorem triple_draw {d : Draw α} (h : ∀ a s, P s → Q a s) : Triple P (draw d) Q E :=
  fun w hw => h _ w.state hw

theorem triple_getState {Q : σ → σ → Prop} (h : ∀ s, P s → Q s s) : Triple P getState Q E :=
  fun w hw => h w.state hw

theorem triple_update {g : σ → σ} {Q : Unit → σ → Prop} (h : ∀ s, P s → Q () (g s)) :
    Triple P (update g) Q E :=
  fun w hw => h w.state hw

theorem triple_stop (h : ∀ s, P s → E s) : Triple P (stop : Prog σ α) Q E :=
  fun w hw => h w.state hw

theorem triple_ite {c : Prop} [Decidable c] {m' : Prog σ α} (h : c → Triple P m Q E)
    (h' : ¬c → Triple P m' Q E) : Triple P (if c then m else m') Q E := by
  by_cases hc : c
  · rw [if_pos hc]
    exact h hc
  · rw [if_neg hc]
    exact h' hc

theorem triple_whenever {c : Prop} [Decidable c] {m : Prog σ Unit} {Q : Unit → σ → Prop}
    (h : c → Triple P m Q E) (h' : ¬c → ∀ s, P s → Q () s) : Triple P (whenever c m) Q E :=
  triple_ite h fun hc => triple_pure (h' hc)

theorem triple_of_pure_right {p : Prop} (h : p → Triple P m Q E) :
    Triple (fun s => P s ∧ p) m Q E :=
  fun w hw => h hw.2 w hw.1

/-- What holds of a draw whatever the answers. -/
theorem triple_draw_always {d : Draw α} {R : α → Prop} (h : Always d R) :
    Triple P (draw d) (fun a s => P s ∧ R a) E :=
  fun w hw => ⟨hw, h w.answers⟩

theorem triple_or {Q' : α → σ → Prop} (h : Triple P m Q E) (h' : Triple P' m Q' E) :
    Triple (fun s => P s ∨ P' s) m (fun a s => Q a s ∨ Q' a s) E := by
  rw [triple_iff] at h h' ⊢
  rintro w (hw | hw)
  · have := h w hw
    revert this
    rcases exec m w with ⟨_ | a, w'⟩
    exacts [id, Or.inl]
  · have := h' w hw
    revert this
    rcases exec m w with ⟨_ | a, w'⟩
    exacts [id, Or.inr]

theorem triple_and {Q' : α → σ → Prop} (h : Triple P m Q E) (h' : Triple P' m Q' E') :
    Triple (fun s => P s ∧ P' s) m (fun a s => Q a s ∧ Q' a s) (fun s => E s ∧ E' s) := by
  rw [triple_iff] at h h' ⊢
  intro w hw
  have hm := h w hw.1
  have hm' := h' w hw.2
  revert hm hm'
  rcases exec m w with ⟨_ | a, w'⟩
  · exact And.intro
  · exact And.intro

/-- The start may be remembered. -/
theorem triple_from (h : ∀ s₀, P s₀ → Triple (fun s => s = s₀) m Q E) : Triple P m Q E :=
  fun w hw => h w.state hw w rfl

/-! ### What a program keeps -/

/-- The assertion holds at the end if it held at the start. -/
def Keeps (P : σ → Prop) (m : Prog σ α) (E : σ → Prop) : Prop := Triple P m (fun _ => P) E

theorem keeps_bind (hm : Keeps P m E) (hf : ∀ a, Keeps P (f a) E) : Keeps P (m >>= f) E :=
  triple_bind hm hf

theorem keeps_pure {a : α} : Keeps P (pure a) E := triple_pure fun _ h => h

theorem keeps_draw {d : Draw α} : Keeps P (draw d) E := triple_draw fun _ _ h => h

theorem keeps_whenever {c : Prop} [Decidable c] {m : Prog σ Unit} (h : c → Keeps P m E) :
    Keeps P (whenever c m) E :=
  triple_whenever h fun _ _ h => h

/-- A loop whose invariant counts the rounds. -/
theorem triple_forRange {I : Nat → σ → Prop} {body : Nat → Prog σ Unit} (n i : Nat)
    (h : ∀ k, i ≤ k → k < i + n → Triple (I k) (body k) (fun _ => I (k + 1)) E) :
    Triple (I i) (forRange body n i) (fun _ => I (i + n)) E := by
  induction n generalizing i with
  | zero => exact triple_pure fun _ hs => hs
  | succ n ih =>
    have ih := ih (i + 1) fun k hlo hhi => h k (by omega) (by omega)
    rw [show i + 1 + n = i + (n + 1) by omega] at ih
    exact triple_bind (h i le_rfl (by omega)) fun _ => ih

/-- The body may know that its index is one of those of the loop. -/
theorem keeps_forRange {body : Nat → Prog σ Unit} (n i : Nat)
    (h : ∀ k, i ≤ k → k < i + n → Keeps P (body k) E) : Keeps P (forRange body n i) E :=
  triple_forRange (I := fun _ => P) n i h

/-! ## Runs whose answers are all the same

`Settles a P m Q` says that `m` returns, with `Q`, from a state with `P` when every answer is `a`. -/

def Settles (a : Int) (P : σ → Prop) (m : Prog σ α) (Q : α → σ → Prop) : Prop :=
  ∀ s, P s → ∃ x k s', m (fun _ => a) s = (some x, k, s') ∧ Q x s'

section Settles

variable {a : Int}

/-- What it says about a run that has come to the point where all answers are the same. -/
theorem Settles.exec (h : Settles a P m Q) {w : World σ} (hanswers : ∀ n, w.answers n = a)
    (hw : P w.state) :
    ∃ x s', exec m w = (some x, ⟨w.answers, s'⟩) ∧ Q x s' := by
  have hall : w.answers = fun _ => a := funext hanswers
  obtain ⟨x, k, s', hrun, hq⟩ := h w.state hw
  refine ⟨x, s', ?_, hq⟩
  unfold Programs.exec
  rw [hall, hrun]
  rfl

theorem Settles.consequence (h : Settles a P m Q) (hpre : ∀ s, P' s → P s)
    (hpost : ∀ x s, Q x s → Q' x s) : Settles a P' m Q' := by
  intro s hs
  obtain ⟨x, k, s', hrun, hq⟩ := h s (hpre s hs)
  exact ⟨x, k, s', hrun, hpost x s' hq⟩

theorem settles_bind (hm : Settles a P m Q) (hf : ∀ x, Settles a (Q x) (f x) T) :
    Settles a P (m >>= f) T := by
  intro s hs
  obtain ⟨x, k, s', hrun, hq⟩ := hm s hs
  obtain ⟨y, j, s'', hrun', ht⟩ := hf x s' hq
  refine ⟨y, k + j, s'', ?_, ht⟩
  have hbind : (m >>= f) (fun _ => a) s =
      match m (fun _ => a) s with
      | (some x, k, s') =>
        match f x (unread (fun _ => a) k) s' with
        | (b, j, s'') => (b, k + j, s'')
      | (none, k, s') => (none, k, s') := rfl
  have hunread : unread (fun _ => a) k = fun _ => a := rfl
  rw [hbind, hrun]
  dsimp only
  rw [hunread, hrun']

theorem settles_pure {x : α} (h : ∀ s, P s → Q x s) : Settles a P (pure x) Q :=
  fun s hs => ⟨x, 0, s, rfl, h s hs⟩

theorem settles_draw {d : Draw α} (h : ∀ s, P s → Q (d fun _ => a).1 s) : Settles a P (draw d) Q :=
  fun s hs => ⟨_, _, s, rfl, h s hs⟩

theorem settles_getState {Q : σ → σ → Prop} (h : ∀ s, P s → Q s s) : Settles a P getState Q :=
  fun s hs => ⟨s, 0, s, rfl, h s hs⟩

theorem settles_update {g : σ → σ} {Q : Unit → σ → Prop} (h : ∀ s, P s → Q () (g s)) :
    Settles a P (update g) Q :=
  fun s hs => ⟨(), 0, g s, rfl, h s hs⟩

theorem settles_ite {c : Prop} [Decidable c] {m' : Prog σ α} (h : c → Settles a P m Q)
    (h' : ¬c → Settles a P m' Q) : Settles a P (if c then m else m') Q := by
  by_cases hc : c
  · rw [if_pos hc]
    exact h hc
  · rw [if_neg hc]
    exact h' hc

theorem settles_whenever {c : Prop} [Decidable c] {m : Prog σ Unit} {Q : Unit → σ → Prop}
    (h : c → Settles a P m Q) (h' : ¬c → ∀ s, P s → Q () s) : Settles a P (whenever c m) Q :=
  settles_ite h fun hc => settles_pure (h' hc)

theorem settles_of_pure {p : Prop} (h : p → Settles a P m Q) :
    Settles a (fun s => P s ∧ p) m Q :=
  fun s hs => h hs.2 s hs.1

theorem settles_forRange {I : Nat → σ → Prop} {f : Nat → Prog σ Unit} (n i : Nat)
    (h : ∀ k, i ≤ k → k < i + n → Settles a (I k) (f k) (fun _ => I (k + 1))) :
    Settles a (I i) (forRange f n i) (fun _ => I (i + n)) := by
  induction n generalizing i with
  | zero => exact settles_pure fun _ hs => hs
  | succ n ih =>
    have ih := ih (i + 1) fun k hlo hhi => h k (by omega) (by omega)
    rw [show i + 1 + n = i + (n + 1) by omega] at ih
    exact settles_bind (h i le_rfl (by omega)) fun _ => ih

end Settles

end Programs
