import PerfEventTests.Fuzzer.BookedOps
import PerfEventTests.Fuzzer.Indices

/-!
# The counters at the top of the main loop

A run in which `sigio_handler` never does the work that the interrupted operation is about to do
as well finds both counters equal to what the tables hold, each time it comes back to the top of
the loop.
-/

namespace PerfEvent.Fuzzer

open Draws Programs

def countActiveMmaps (s : St) : Nat := Nat.count (fun k : Nat => (s.mmaps k).active = true) maxMmaps

/-- The counters are what the tables hold. -/
def Counted (s : St) : Prop :=
  s.activeEvents = countActive s ∧ s.activeMmaps = countActiveMmaps s

/-- `sigio_handler` strikes only where it does no harm. -/
def harmlessSigio : Rules where
  delivers loc s := Harmless loc s

theorem kept_harmlessSigio : Kept harmlessSigio False :=
  ⟨fun _ _ _ => id, fun _ _ h => of_decide_eq_true h⟩

theorem Books.counted {F : Prop} {s : St} (h : Books F 0 0 none s) : Counted s := by
  refine ⟨h.events.trans (Int.add_zero _), ?_⟩
  have hcount : countActiveMmaps s = countLive s := by
    unfold countActiveMmaps countLive
    exact count_congr fun k _ => by rw [(h.settled k nofun).1]
  rw [hcount]
  exact h.live.trans (Int.add_zero _)

/-! ## The start -/

theorem books_startState (F : Prop) (c : Config) : Books F 0 0 none (startState c) := by
  have hactive : countActive (startState c) = 0 := by
    unfold countActive countSlots
    exact Nat.count_iff_forall_not.2 fun k _ => Bool.false_ne_true
  have hlive : countLive (startState c) = 0 := by
    unfold countLive
    exact Nat.count_iff_forall_not.2 fun k _ => Bool.false_ne_true
  refine ⟨by rw [hactive]; rfl, by rw [hlive]; rfl, fun _ h => absurd h Bool.false_ne_true,
    fun _ h => absurd h Bool.false_ne_true, fun _ _ => ⟨rfl, rfl⟩, fun _ => ?_⟩
  refine ⟨fun _ h => absurd h Bool.false_ne_true, fun _ _ h => absurd h Bool.false_ne_true,
    fun fd n h => ?_, fun _ h => absurd rfl h, fun _ _ h => absurd rfl h, fun _ h => nomatch h⟩
  simp only [startState] at h
  split at h <;> split at h <;> exact nomatch h

/-! ## The search -/

section Search

variable {c : Config} {r : Rules} {F : Prop}

/-- All slots are as they were, or no event is left. -/
theorem slotTest_books (hk : Kept r F) (t : St) (i : Nat) :
    Triple (fun s => Books F 0 0 none s ∧ ∀ k, (s.eventData k).active = (t.eventData k).active)
      (slotTest (c.env r) EventData.active i)
      (fun b s => (Books F 0 0 none s ∧ ∀ k, (s.eventData k).active = (t.eventData k).active) ∧
        (b = true ↔ (t.eventData i).active = true) ∨
          Books F 0 0 none s ∧ ∀ k : Nat, k < numEvents → (s.eventData k).active = false)
      (Owns F) := by
  refine triple_bind (triple_point (Q := fun s =>
    (Books F 0 0 none s ∧ ∀ k, (s.eventData k).active = (t.eventData k).active) ∨
      Books F 0 0 none s ∧ ∀ k : Nat, k < numEvents → (s.eventData k).active = false) hk
    (fun _ hs => hs.1.owned) fun s s' hs h _ => ?_) fun _ => triple_bind (triple_getEvent
      (.inr (freeIndex_of_still (F := F) fun s s' h hs => ?_))) fun ev => triple_pure fun s hs => ?_
  · rcases h.fate with hsame | hnone
    · exact .inl ⟨hs.1.swept h, fun k => (hsame k).trans (hs.2 k)⟩
    · exact .inr ⟨hs.1.swept h, hnone⟩
  · refine hs.imp (fun hs => ⟨hs.1.still h, fun k => (h.active k).trans (hs.2 k)⟩)
      fun hs => ⟨hs.1.still h, fun k hk => (h.active k).trans (hs.2 k hk)⟩
  · refine hs.1.imp (fun hb => ⟨hb, ?_⟩) id
    rw [hs.2, hb.2]

theorem slotTest_none (hk : Kept r F) (i : Nat) :
    Keeps (fun s => Books F 0 0 none s ∧ ∀ k : Nat, k < numEvents → (s.eventData k).active = false)
      (slotTest (c.env r) EventData.active i) (Owns F) := by
  refine keeps_bind (keeps_point hk (fun _ hs => hs.1.owned) (fun s s' hs h =>
    ⟨hs.1.swept h, fun k hlt => ?_⟩) _) fun _ => keeps_bind (keeps_getEvent
      (.inr (freeIndex_of_still (F := F) fun s s' h hs =>
        ⟨hs.1.still h, fun k hlt => (h.active k).trans (hs.2 k hlt)⟩))) fun _ => keeps_pure
  have hoff := hs.2 k hlt
  rw [← Bool.not_eq_true] at hoff ⊢
  exact fun hon => hoff (h.active k hon)

theorem Books.inactive {F : Prop} {s : St} (h : Books F 0 0 none s)
    (hnone : ∀ k : Nat, k < numEvents → (s.eventData k).active = false) (i : Int) :
    (s.eventData i).active = false := by
  rw [← Bool.not_eq_true]
  intro hi
  obtain ⟨h0, hlt⟩ := h.eventRange i hi
  obtain ⟨n, rfl⟩ := Int.eq_ofNat_of_zero_le h0
  exact Bool.false_ne_true ((hnone n (Int.ofNat_lt.1 hlt)).symm.trans hi)

/-- The position that is drawn is one of those of the active events. -/
theorem triple_position_lt {P E : St → Prop} {n : Nat} (hstop : ∀ s, P s → E s) :
    Triple P (position n) (fun x s => P s ∧ x < n) E := by
  refine triple_ite (fun _ => triple_stop hstop) fun hn => triple_bind keeps_rand fun x => ?_
  refine triple_pure fun s hs => ⟨hs, ?_⟩
  have hmod : Int.tmod (x : Int) (n : Int) = ((x % n : Nat) : Int) := Int.ofNat_tmod x n |>.symm
  rw [hmod, Int.toNat_natCast]
  exact Nat.mod_lt _ (Nat.pos_of_ne_zero fun h => hn (by rw [h]; rfl))

theorem findRandomActiveEvent_books (hk : Kept r F) :
    Triple (Books F 0 0 none) (findRandomActiveEvent (c.env r))
      (fun found s => Books F 0 0 none s ∧
        (found.index = -1 → ∀ i, (s.eventData i).active = false)) (Owns F) := by
  refine triple_bind (triple_getState (Q := fun s' s => Books F 0 0 none s ∧ s' = s)
    fun _ hs => ⟨hs, rfl⟩) fun s' => triple_ite (fun hfew => ?_) fun _ => ?_
  · refine triple_pure fun s hs => ⟨hs.1, fun _ => hs.1.inactive ?_⟩
    obtain ⟨hs, rfl⟩ := hs
    have hzero : countActive s' = 0 := by
      have := hs.events
      omega
    unfold countActive countSlots at hzero
    have hnone := Nat.count_iff_forall_not.1 hzero
    exact fun k hlt => Bool.eq_false_of_not_eq_true (hnone k hlt)
  refine triple_bind (Q := fun _ => Books F 0 0 none) ((keeps_point hk (fun _ hs => hs.owned)
    (fun _ _ hs h => hs.swept h) _).weaken_pre fun _ hs => hs.1) fun _ => ?_
  refine triple_bind (triple_getState (Q := fun s' s => Books F 0 0 none s ∧ s' = s)
    fun _ hs => ⟨hs, rfl⟩) fun t => triple_from fun s hs => ?_
  obtain ⟨hbooks, rfl⟩ := hs
  obtain ⟨n, hn⟩ : ∃ n, countActive t = n := ⟨_, rfl⟩
  have hactive : t.activeEvents = n := by rw [hbooks.events, hn, Int.add_zero]
  rw [hactive]
  have hstop : ∀ s, s = t → Owns F s := fun s hs => by rw [hs]; exact hbooks.owned
  refine triple_bind (triple_position_lt hstop) fun x => triple_of_pure_right fun hx => ?_
  refine triple_bind ((triple_nthRange_table (T := fun k => (t.eventData k).active = true)
    (slotTest_books hk t) (slotTest_none hk) numEvents 0 x).weaken_pre
      fun s hs => ?_) fun i => ?_
  · rw [hs]
    exact ⟨hbooks, fun _ => rfl⟩
  refine triple_bind (triple_getState (Q := fun _ s => Books F 0 0 none s ∧
    (i = -1 → ∀ i, (s.eventData i).active = false)) fun s hs => ?_) fun _ =>
      triple_pure fun _ hs => hs
  rcases hs with ⟨hs, hfound⟩ | hs
  · refine ⟨hs.1, fun hi => ?_⟩
    have hle := hfound hi
    simp only [Nat.zero_add] at hle
    have hle : countActive t ≤ x := hle
    exact absurd hx (not_lt.2 (hn ▸ hle))
  · exact ⟨hs.1, fun _ => hs.1.inactive hs.2⟩

end Search

/-! ## Runs -/

theorem mainLoop_books {c : Config} {r : Rules} {F : Prop} (hk : Kept r F) (n : Nat) :
    Keeps (Books F 0 0 none) (mainLoop (c.env r) n) (Owns F) :=
  (steady_books hk).mainLoop (calm_env c r) (openRandomEvent_books hk) (closeRandomEvent_books hk)
    (mmapRandomEvent_books hk) n

/-- Each time a run comes back to the top of the loop the counters agree with the tables, and a
search for an active event fails only when there is none. -/
theorem mainLoop_counted (c : Config) (answers : Nat → Int) (n : Nat) :
    Ends (fun _ s => Counted s ∧ ∀ more : Nat → Int,
        Ends (fun found s' => found.index = -1 → ∀ i, (s'.eventData i).active = false)
          (fun _ => True) (exec (findRandomActiveEvent (c.env harmlessSigio)) ⟨more, s⟩))
      (fun _ => True) (exec (mainLoop (c.env harmlessSigio) n) ⟨answers, startState c⟩) := by
  have hrun := (mainLoop_books (c := c) kept_harmlessSigio n).strengthen_post
    (S := fun _ s => Counted s ∧ ∀ more : Nat → Int,
        Ends (fun found s' => found.index = -1 → ∀ i, (s'.eventData i).active = false)
          (fun _ => True) (exec (findRandomActiveEvent (c.env harmlessSigio)) ⟨more, s⟩))
    fun _ s hs => ⟨hs.counted, fun more => triple_iff.1 ((findRandomActiveEvent_books
      kept_harmlessSigio).consequence (fun _ h => h) (fun _ _ h => h.2) fun _ _ => trivial) _ hs⟩
  exact triple_iff.1 (hrun.consequence (fun _ h => h) (fun _ _ h => h) fun _ _ => trivial) _
    (books_startState False c)

/-! ## An event that is closed twice

`close_event` never brings `active_events` back up, so a signal between the choice of an event and
its closing leaves the counter below zero. -/

/-- No signal arrives while all answers are 0. -/
def Idle (e : Env) : Prop := ∀ (P : St → Prop) loc, Settles 0 P (e.pt loc) fun _ => P

theorem idle_pointInSigio (c : Config) : Idle ⟨c, pointInSigio c anyRun⟩ :=
  fun _ _ s hs => ⟨(), _, s, rfl, hs⟩

theorem idle_env (c : Config) : Idle (c.env anyRun) := fun _ _ s hs => ⟨(), _, s, rfl, hs⟩

section ClosedTwice

variable {e : Env} {b : Int} {P : St → Prop}

theorem settles_getEvent {i : Int} (h : ∀ s, P s → P (s.checkEvent i)) :
    Settles 0 P (getEvent i) fun ev s => P s ∧ ∃ s', P s' ∧ s = s'.checkEvent i ∧
      ev = s'.eventData i := by
  intro s hs
  exact ⟨_, _, s.checkEvent i, rfl, h s hs, s, hs, rfl, by rw [checkEvent_eventData]⟩

def Below (b : Int) (s : St) : Prop := s.activeEvents ≤ b

theorem below_checkEvent {i : Int} {s : St} (h : Below b s) : Below b (s.checkEvent i) := by
  unfold St.checkEvent
  split <;> exact h

theorem below_checkMmap {i : Int} {s : St} (h : Below b s) : Below b (s.checkMmap i) := by
  unfold St.checkMmap
  split <;> exact h

theorem getEvent_below (i : Int) : Settles 0 (Below b) (getEvent i) fun _ => Below b :=
  (settles_getEvent fun _ => below_checkEvent).consequence (fun _ h => h) fun _ _ h => h.1

theorem getMmap_below (i : Int) : Settles 0 (Below b) (getMmap i) fun _ => Below b :=
  settles_bind (Q := fun _ => Below b) (settles_update fun _ => below_checkMmap) fun _ =>
    settles_bind (Q := fun _ => Below b) (settles_getState fun _ h => h) fun _ =>
      settles_pure fun _ h => h

theorem setMmap_below (i : Int) (f : MmapEntry → MmapEntry) :
    Settles 0 (Below b) (setMmap i f) fun _ => Below b :=
  settles_update fun _ h => below_checkMmap (i := i) h

theorem setEvent_below (i : Int) (f : EventData → EventData) :
    Settles 0 (Below b) (setEvent i f) fun _ => Below b :=
  settles_update fun _ h => below_checkEvent (i := i) h

theorem logLine_below (letter : Char) (text : Text.Str) :
    Settles 0 (Below b) (logLine e letter text) fun _ => Below b :=
  settles_whenever (fun _ => settles_update fun _ h => h) fun _ _ h => h

theorem unmapOf_below (he : Idle e) (i : Int) (fromSigio : Bool) :
    Settles 0 (Below b) (unmapOf e i fromSigio) fun _ => Below b := by
  refine settles_bind (getEvent_below i) fun ev => settles_bind (he (Below b) _) fun _ =>
    settles_bind (getMmap_below ev.mmap) fun m => settles_whenever (fun _ => ?_) fun _ _ h => h
  refine settles_bind (he (Below b) _) fun _ => settles_bind (setMmap_below _ _) fun _ =>
    settles_bind (he (Below b) _) fun _ => settles_bind (Q := fun _ => Below b) ?_ fun result => ?_
  · refine settles_bind (getMmap_below _) fun m => settles_ite (fun _ => settles_pure fun _ h => h)
      fun _ => settles_bind (setMmap_below _ _) fun _ => settles_pure fun _ h => h
  · refine settles_bind (he (Below b) _) fun _ => settles_bind (Q := fun _ => Below b)
      (settles_whenever (fun _ => ?_) fun _ _ h => h) fun _ => ?_
    · exact settles_bind (getMmap_below _) fun m => settles_bind (logLine_below _ _) fun _ =>
        he (Below b) _
    · refine settles_bind (setMmap_below _ _) fun _ => settles_bind (he (Below b) _) fun _ => ?_
      exact settles_whenever (fun _ => settles_update fun _ h => h) fun _ _ h => h

theorem closeActive_below (he : Idle e) (i : Int) (fromSigio : Bool) :
    Settles 0 (Below b) (closeActive e i fromSigio) fun _ => Below (b - 1) := by
  refine settles_bind (Q := fun _ => Below b) (settles_draw fun _ h => h) fun r =>
    settles_bind (he (Below b) _) fun _ => settles_bind (setEvent_below i _) fun _ => ?_
  refine settles_bind (he (Below b) _) fun _ => settles_bind (Q := fun _ => Below b)
    (settles_whenever (fun _ => unmapOf_below he i fromSigio) fun _ _ h => h) fun _ => ?_
  refine settles_bind (he (Below b) _) fun _ => settles_bind (Q := fun _ => Below b) ?_ fun _ => ?_
  · refine settles_bind (getEvent_below i) fun ev => settles_bind (Q := fun _ => Below b)
      (settles_update fun _ h => h) fun _ => settles_bind (Q := fun _ => Below b) ?_ fun _ =>
        settles_pure fun _ h => h
    exact settles_bind (Q := fun _ => Below b) (settles_getState fun _ h => h) fun _ =>
      settles_bind (Q := fun _ => Below b) (settles_update fun _ h => h) fun _ =>
        settles_pure fun _ h => h
  refine settles_bind (he (Below b) _) fun _ => settles_bind (Q := fun _ => Below b)
    (settles_whenever (fun _ => ?_) fun _ _ h => h) fun _ => ?_
  · exact settles_bind (getEvent_below i) fun ev => settles_bind (logLine_below _ _) fun _ =>
      he (Below b) _
  · refine settles_bind (Q := fun _ => Below b) (settles_whenever (fun _ =>
      unmapOf_below he i fromSigio) fun _ _ h => h) fun _ => settles_bind (he (Below b) _) fun _ =>
        settles_update fun s h => ?_
    exact Int.sub_le_sub_right h 1

theorem closeIfActive_below (he : Idle e) (i : Int) :
    Settles 0 (Below b) (closeIfActive e i) fun _ => Below b := by
  refine settles_bind (he (Below b) _) fun _ => settles_bind (getEvent_below i) fun ev =>
    settles_whenever (fun _ => settles_whenever (fun _ => ?_) fun _ _ h => h) fun _ _ h => h
  refine settles_bind (he (Below b) _) fun _ => (closeActive_below he i true).consequence
    (fun _ h => h) fun _ s h => ?_
  have : s.activeEvents ≤ b - 1 := h
  show s.activeEvents ≤ b
  omega

/-- The handler takes one off for the event in slot 0. -/
theorem sweep_below (he : Idle e) :
    Settles 0 (fun s => Below b s ∧ (s.eventData 0).active = true)
      (forRange (fun i => closeIfActive e i) numEvents 0) fun _ => Below (b - 1) := by
  have hloop := settles_forRange (a := 0)
    (I := fun n s => if n = 0 then Below b s ∧ (s.eventData 0).active = true else Below (b - 1) s)
    (f := fun i => closeIfActive e i) numEvents 0 fun n _ _ => ?_
  · refine hloop.consequence (fun s hs => by rw [if_pos rfl]; exact hs) fun _ s hs => ?_
    rwa [if_neg (by have := numEvents_pos; omega)] at hs
  rcases Nat.eq_zero_or_pos n with rfl | hn
  · simp only [Nat.add_one_ne_zero, if_true, if_false, Nat.cast_zero]
    refine settles_bind (he (fun s => Below b s ∧ (s.eventData 0).active = true) _) fun _ => ?_
    refine settles_bind (settles_getEvent fun s h => ⟨below_checkEvent h.1, ?_⟩) fun ev => ?_
    · rw [checkEvent_eventData]
      exact h.2
    · refine Settles.consequence (P := fun s => Below b s ∧ ev.active = true) ?_
        (fun s ⟨hs, s', hs', _, hev⟩ => ⟨hs.1, by rw [hev]; exact hs'.2⟩) fun _ _ h => h
      refine settles_of_pure fun hactive => settles_whenever (fun _ => settles_whenever (fun _ => ?_)
        fun h => absurd (le_refl _) h) fun h => absurd hactive h
      exact settles_bind (he (Below b) _) fun _ => closeActive_below he _ true
  · simp only [Nat.add_one_ne_zero, if_false, if_neg (show ¬n = 0 by omega)]
    exact closeIfActive_below he n

/-- What a round does after its operation. -/
def endRound (e : Env) : Fuzz Unit := do
  e.pt .elsewhere
  let _ ← rand
  let _ ← draw randRefresh
  pure ()

/-- Then the operation takes one off. -/
theorem settles_closing (he : Idle e) :
    Settles 0 (Below b) (closeActive e 0 false >>= fun _ => endRound e) fun _ => Below (b - 1) := by
  refine settles_bind (closeActive_below he 0 false) fun _ =>
    settles_bind (he (Below _) _) fun _ => ?_
  exact settles_bind (Q := fun _ => Below (b - 1)) (settles_draw fun _ h => h) fun _ =>
    settles_bind (Q := fun _ => Below (b - 1)) (settles_draw fun _ h => h) fun _ =>
      settles_pure fun _ h => h

end ClosedTwice

section Steps

theorem exec_arrivals {answers : Nat → Int} {s : St} {k : Nat} (h : answers 0 = (k * 2 ^ 32 : Nat)) :
    exec arrivals ⟨answers, s⟩ = (some k, ⟨unread answers 1, s⟩) := by
  have hstep : exec answer ⟨answers, s⟩ = (some (answers 0), ⟨unread answers 1, s⟩) := rfl
  unfold arrivals
  rw [exec_step hstep, h, if_neg (by omega)]
  have hk : (((k * 2 ^ 32 : Nat) : Int) / 2 ^ 32).toNat = k := by omega
  rw [hk]
  rfl

theorem exec_answer {answers : Nat → Int} {s : St} {v : Int} (h : answers 0 = v) :
    exec answer ⟨answers, s⟩ = (some v, ⟨unread answers 1, s⟩) := by
  subst h
  rfl

theorem exec_rand {answers : Nat → Int} {s : St} {v : Nat} (h : (answers 0).toNat % 2 ^ 31 = v) :
    exec rand ⟨answers, s⟩ = (some v, ⟨unread answers 1, s⟩) := by
  subst h
  rfl

theorem mainLoop_two (e : Env) :
    mainLoop e 2 = iteration e >>= fun _ => iteration e >>= fun _ => pure () := rfl

theorem iteration_eq (e : Env) :
    iteration e = rand >>= fun r => operation e (r % 13) >>= fun _ => endRound e := rfl

theorem operation_close {e : Env} (h : e.enabled .close = true) :
    operation e (1 % 13) = findRandomActiveEvent e >>= fun i => closeEvent e i.index false :=
  if_pos h

theorem closeEvent_zero (e : Env) :
    closeEvent e 0 false = e.pt (.closing 0) >>= fun _ => closeActive e 0 false := rfl

theorem env_pt (c : Config) (r : Rules) (loc : Loc) : (c.env r).pt loc =
    passPoint r loc >>= fun _ => arrivals >>= fun n => forRange (fun _ => deliver c r loc) n 0 := rfl

theorem exec_deliver {c : Config} {loc : Loc} {answers : Nat → Int} {s : St}
    (hfd : answers 0 < 0) : exec (deliver c anyRun loc) ⟨answers, s⟩ =
      exec (sigioHandler ⟨c, pointInSigio c anyRun⟩) ⟨unread answers 1, s⟩ := by
  have hstate : exec getState ⟨unread answers 1, s⟩ = (some s, ⟨unread answers 1, s⟩) := rfl
  unfold deliver
  rw [exec_step (exec_answer rfl), if_pos hfd]
  unfold deliverSigio
  rw [exec_step hstate]
  exact congrArg (fun m => exec m _) (if_pos rfl)

theorem sigioHandler_eq (e : Env) : sigioHandler e = answer >>= fun siKernel =>
    whenever (siKernel ≠ 0) (update (fun s => { s with storms := s.storms + 1 }) >>= fun _ =>
      forRange (fun i => closeIfActive e i) numEvents 0) := rfl

end Steps

/-- A round that chooses slot 0 and is struck by one signal. -/
theorem closing_round {c : Config} {answers : Nat → Int} {s s' : St} {found : Found}
    (henabled : (c.env anyRun).enabled .close = true) (h0 : answers 0 = 1)
    (hfind : exec (findRandomActiveEvent (c.env anyRun)) ⟨unread answers 1, s⟩ =
      (some found, ⟨unread answers 4, s'⟩)) (hfound : found.index = 0)
    (h4 : answers 4 = (1 * 2 ^ 32 : Nat)) (h5 : answers 5 = -1) (h6 : answers 6 = 1)
    (hzero : ∀ n, unread answers 7 n = 0) (hactive : (s'.eventData 0).active = true) :
    ∃ w, exec (iteration (c.env anyRun)) ⟨answers, s⟩ = (some (), w) ∧
      Below (s'.activeEvents - 1 - 1) w.state := by
  have hnext : ∀ k, unread (unread answers k) 1 = unread answers (k + 1) :=
    fun k => (unread_add answers k 1).symm
  have hhere : ∀ k, unread answers k 0 = answers k := fun k => congrArg answers (Nat.zero_add k)
  -- from the arrival of the signal on all answers are 0
  obtain ⟨_, s₁, hsweep, hlow⟩ := (sweep_below (idle_pointInSigio c)).exec
    (w := ⟨unread answers 7, { s' with storms := s'.storms + 1 }⟩) hzero
    ⟨le_refl s'.activeEvents, hactive⟩
  obtain ⟨_, s₂, hclose, hbelow⟩ := (settles_closing (idle_env c)).exec
    (w := ⟨unread answers 7, s₁⟩) hzero hlow
  refine ⟨⟨unread answers 7, s₂⟩, ?_, hbelow⟩
  have hrand : exec rand ⟨answers, s⟩ = (some 1, ⟨unread answers 1, s⟩) :=
    exec_rand (v := 1) (by rw [h0]; rfl)
  have hpass : exec (passPoint anyRun (.closing 0)) ⟨unread answers 4, s'⟩ =
      (some (), ⟨unread answers 4, s'⟩) := rfl
  have harrive : exec arrivals ⟨unread answers 4, s'⟩ = (some 1, ⟨unread answers 5, s'⟩) := by
    rw [exec_arrivals ((hhere 4).trans h4), hnext]
  have hstorm : exec (update fun s : St => { s with storms := s.storms + 1 })
      ⟨unread answers 7, s'⟩ =
      (some (), ⟨unread answers 7, { s' with storms := s'.storms + 1 }⟩) := rfl
  have hsi : exec answer ⟨unread answers 6, s'⟩ = (some 1, ⟨unread answers 7, s'⟩) := by
    rw [exec_answer ((hhere 6).trans h6), hnext]
  have hsigio : exec (sigioHandler ⟨c, pointInSigio c anyRun⟩) ⟨unread answers 6, s'⟩ =
      (some (), ⟨unread answers 7, s₁⟩) := by
    rw [sigioHandler_eq, exec_step hsi, whenever, if_pos one_ne_zero, exec_step hstorm, hsweep]
  have hdeliver : exec (deliver c anyRun (.closing 0)) ⟨unread answers 5, s'⟩ =
      (some (), ⟨unread answers 7, s₁⟩) := by
    rw [exec_deliver (by rw [hhere 5, h5]; exact neg_one_lt_zero), hnext, hsigio]
  have hloop : exec (forRange (fun _ => deliver c anyRun (.closing 0)) 1 0) ⟨unread answers 5, s'⟩ =
      (some (), ⟨unread answers 7, s₁⟩) :=
    (exec_step hdeliver).trans rfl
  rw [iteration_eq, exec_step hrand, operation_close henabled, bind_bind, exec_step hfind, hfound,
    closeEvent_zero, bind_bind, env_pt, bind_bind, exec_step hpass, bind_bind, exec_step harrive,
    exec_step hloop, hclose]

/-- The run from an opening that has read `k` answers. -/
theorem mainLoop_closing {c : Config} {answers : Nat → Int} {s : St} (k : Nat)
    (henabled : (c.env anyRun).enabled .close = true)
    (hopened : ∃ s₁,
      exec (iteration (c.env anyRun)) ⟨answers, s⟩ = (some (), ⟨unread answers k, s₁⟩) ∧
      ∃ found s₂, exec (findRandomActiveEvent (c.env anyRun)) ⟨unread answers (k + 1), s₁⟩ =
        (some found, ⟨unread answers (k + 4), s₂⟩) ∧
      found.index = 0 ∧ s₂.activeEvents = 1 ∧ (s₂.eventData 0).active = true)
    (h0 : answers k = 1) (h4 : answers (k + 4) = (1 * 2 ^ 32 : Nat)) (h5 : answers (k + 5) = -1)
    (h6 : answers (k + 6) = 1) (hzero : ∀ n, unread answers (k + 7) n = 0) :
    ¬Ends (fun _ => Counted) (fun _ => True) (exec (mainLoop (c.env anyRun) 2) ⟨answers, s⟩) := by
  obtain ⟨s₁, hopen, found, s₂, hfind, hfound, hevents, hactive⟩ := hopened
  have hhere : ∀ j, unread answers k j = answers (k + j) := fun j =>
    congrArg answers (Nat.add_comm j k)
  rw [unread_add _ k 1, unread_add _ k 4] at hfind
  rw [unread_add _ k 7] at hzero
  obtain ⟨w, hround, hbelow⟩ := closing_round henabled ((hhere 0).trans h0) hfind hfound
    ((hhere 4).trans h4) ((hhere 5).trans h5) ((hhere 6).trans h6) hzero hactive
  have hmain : exec (mainLoop (c.env anyRun) 2) ⟨answers, s⟩ = (some (), w) := by
    rw [mainLoop_two, exec_step hopen, exec_step hround]
    rfl
  rw [hmain]
  intro hcounted
  have hcount := hcounted.1
  have hlow : w.state.activeEvents ≤ s₂.activeEvents - 1 - 1 := hbelow
  omega

/-- An event is opened; then it is chosen to be closed, and one signal arrives. -/
def closedTwiceAnswers : List (Nat × Int) :=
  [(11, 1), (12, 5), (15, 7), (116, 5), (159, 1), (163, 2 ^ 32), (164, -1), (165, 1)]

theorem scripted_zero {l : List (Nat × Int)} {k : Nat} (h : ∀ p ∈ l, p.1 < k) (n : Nat) :
    unread (scripted l) k n = 0 := by
  have hnone : l.lookup (n + k) = none := by
    rw [List.lookup_eq_none_iff]
    intro p hp
    have := h p hp
    simp only [bne_iff_ne, ne_eq]
    omega
  show (l.lookup (n + k)).getD 0 = 0
  rw [hnone]
  rfl

/-- The first round opens the event. -/
theorem closedTwice_open : ∃ s,
    exec (iteration (fullConfig.env anyRun)) ⟨scripted closedTwiceAnswers, startState fullConfig⟩ =
      (some (), ⟨unread (scripted closedTwiceAnswers) 159, s⟩) ∧
    ∃ found s', exec (findRandomActiveEvent (fullConfig.env anyRun))
      ⟨unread (scripted closedTwiceAnswers) 160, s⟩ =
      (some found, ⟨unread (scripted closedTwiceAnswers) 163, s'⟩) ∧
    found.index = 0 ∧ s'.activeEvents = 1 ∧ (s'.eventData 0).active = true := by
  refine ⟨_, exec_eq (by decide +kernel) (by decide +kernel), ?_⟩
  have hindex : ((findRandomActiveEvent (fullConfig.env anyRun)
      (unread (scripted closedTwiceAnswers) 160) (iteration (fullConfig.env anyRun)
        (scripted closedTwiceAnswers) (startState fullConfig)).2.2).1.map Found.index) = some 0 := by
    decide +kernel
  obtain ⟨found, hfound, h0⟩ := Option.map_eq_some_iff.1 hindex
  exact ⟨found, _, exec_eq hfound (by decide +kernel), h0, by decide +kernel, by decide +kernel⟩

/-- Both `sigio_handler` and the operation that it interrupts close the only event. -/
theorem closeRandomEvent_not_counted :
    ¬Ends (fun _ => Counted) (fun _ => True) (exec (mainLoop (fullConfig.env anyRun) 2)
      ⟨scripted closedTwiceAnswers, startState fullConfig⟩) :=
  mainLoop_closing 159 rfl closedTwice_open (by decide +kernel) (by decide +kernel)
    (by decide +kernel) (by decide +kernel) (scripted_zero (by decide))

end PerfEvent.Fuzzer
