import PerfEventTests.Fuzzer.GroupOps
import PerfEventTests.Lib.Runs

/-!
# The sizes of groups over a run

A run is a sequence of rounds of the main loop. `our_handler` may run at every point of it, and
`sigio_handler` between two rounds.
-/

namespace PerfEvent.Fuzzer

open Draws Programs Runs

/-- No event is closed by `our_handler`, and `sigio_handler` waits for the end of the round. -/
def overflowOnly : Rules where
  passes
    | .storm _, _ => false
    | _, _ => true
  delivers _ _ := false

theorem kept_overflowOnly : Kept overflowOnly True :=
  ⟨fun _ _ h => absurd h Bool.false_ne_true, fun _ _ h => absurd h Bool.false_ne_true⟩

inductive Turn where
  | round
  | sigio

def Turn.program (c : Config) : Turn → Fuzz Unit
  | .round => iteration (c.env overflowOnly)
  | .sigio => sigioHandler ⟨c, pointInSigio c overflowOnly⟩

/-- A run that has ended is followed no longer. -/
def takeTurn (c : Config) (w : Option (World St)) (turn : Turn) : Option (World St) :=
  w.bind fun w =>
    match exec (turn.program c) w with
    | (some _, w') => some w'
    | (none, _) => none

def startWorld (c : Config) (answers : Nat → Int) : World St := ⟨answers, startState c⟩

/-- What is closed and opened in the turn is closed and opened in order. -/
def OrderlyTurn (c : Config) (turn : Turn) (w : Option (World St)) : Prop :=
  ∀ before ∈ w, ∀ after ∈ takeTurn c w turn, Orderly (groups before.state) (groups after.state)

/-! ## One turn -/

section Turns

variable {c : Config}

theorem Books.distinct {s : St} (h : Books True 0 0 none s) : Distinct s.nextSerial (groups s) where
  range i _ hx := h.eventRange i (active_of_groups rfl hx).1
  fd i j x hx y hy hxy := by
    obtain ⟨hi, rfl⟩ := active_of_groups rfl hx
    obtain ⟨hj, rfl⟩ := active_of_groups rfl hy
    by_contra hij
    exact (h.owned trivial).fd_ne hi hj hij hxy
  serial i _ hx := by
    obtain ⟨hi, rfl⟩ := active_of_groups rfl hx
    exact (h.owned trivial).fresh _ _ ((h.owned trivial).own i hi)

theorem turn_books (turn : Turn) :
    Triple (Books True 0 0 none) (turn.program c) (fun _ => Books True 0 0 none) fun _ => True := by
  cases turn with
  | round =>
    have hk := kept_overflowOnly
    have hs := steady_books (c := c) hk
    refine Triple.consequence (E := Owns True) (keeps_bind keeps_rand fun r => keeps_bind
      (hs.operation (calm_env c overflowOnly) (fun _ => id) (openRandomEvent_books hk)
        (closeRandomEvent_books hk) (mmapRandomEvent_books hk) _) fun _ => ?_) (fun _ => id)
          (fun _ _ => id) fun _ _ => trivial
    exact keeps_bind hs.here fun _ => keeps_bind keeps_rand fun _ => keeps_bind keeps_draw
      fun _ => keeps_pure
  | sigio =>
    refine triple_from fun t ht => (sigioHandler_swept (F := True)
      (undisturbed_pointInSigio kept_overflowOnly) fun _ _ => trivial).strengthen_post
        fun _ s hs => ht.swept hs

theorem turn_step {t : St} (ht : Books True 0 0 none t) (turn : Turn) :
    Triple (fun s => s = t) (turn.program c)
      (fun _ s => GroupStep t.nextSerial (groups t) (groups s)) fun _ => True := by
  have hstorm : ∀ i s, overflowOnly.passes (.storm i) s = false := fun _ _ => rfl
  cases turn with
  | round =>
    have he : Unmoved (c.env overflowOnly) := unmoved_env hstorm fun _ _ => rfl
    have hP := onEvents_sameEvents t
    have hstep := onEvents_of_groups (GroupStep t.nextSerial (groups t))
    have hA : 0 ≤ t.activeEvents := by
      have := ht.events
      omega
    refine Triple.weaken_pre (P := SameEvents t) ?_ fun s hs => hs ▸ SameEvents.refl t
    refine triple_bind keeps_rand fun r => triple_bind ((hP.steady he).operation
      (calm_env c overflowOnly) (fun s hs => ?_) (openRandomEvent_step he hA ht.eventRange)
        (closeRandomEvent_step he) (hP.mmapRandomEvent he) _) fun _ => ?_
    · rw [hs.groups]
      exact .same
    · exact keeps_bind (he _ hstep _) fun _ => keeps_bind keeps_rand fun _ =>
        keeps_bind keeps_draw fun _ => keeps_pure
  | sigio =>
    exact sigioHandler_step (F := True) (unmoved_pointInSigio hstorm)
      (undisturbed_pointInSigio kept_overflowOnly) _ ht.eventRange

/-- Where the run goes on, both hold. -/
theorem takeTurn_step {w w' : World St} {turn : Turn} (hw : Books True 0 0 none w.state)
    (h : w' ∈ takeTurn c (some w) turn) : Books True 0 0 none w'.state ∧
      GroupStep w.state.nextSerial (groups w.state) (groups w'.state) := by
  have hbooks := turn_books (c := c) turn w hw
  have hstep := turn_step (c := c) hw turn w rfl
  unfold takeTurn at h
  rw [Option.bind_some] at h
  rcases hexec : exec (turn.program c) w with ⟨_ | a, w''⟩
  · rw [hexec] at h
    exact nomatch h
  · rw [hexec] at h hbooks hstep
    obtain rfl := Option.some.inj h
    exact ⟨hbooks, hstep⟩

theorem takeTurn_some {o : Option (World St)} {w' : World St} {turn : Turn}
    (h : w' ∈ takeTurn c o turn) : ∃ w, o = some w := by
  cases o with
  | none => exact nomatch h
  | some w => exact ⟨w, rfl⟩

end Turns

/-! ## Runs -/

section Runs

variable {c : Config}

/-- A run that has not ended, with the books kept and the sizes right. -/
def RightSizes (o : Option (World St)) : Prop :=
  ∀ w ∈ o, Books True 0 0 none w.state ∧ Sized (groups w.state)

theorem rightSizes_takeTurn {o : Option (World St)} (ho : RightSizes o) (turn : Turn) :
    RightSizes (takeTurn c o turn) ↔ OrderlyTurn c turn o := by
  have hone : ∀ w ∈ o, ∀ w' ∈ takeTurn c o turn, Books True 0 0 none w'.state ∧
      (Sized (groups w'.state) ↔ Orderly (groups w.state) (groups w'.state)) := by
    rintro w rfl w' hw'
    have hw := ho w rfl
    have hstep := takeTurn_step hw.1 hw'
    exact ⟨hstep.1, sized_step_iff hw.1.distinct hstep.1.distinct hw.2 hstep.2⟩
  constructor
  · intro h w hw w' hw'
    exact (hone w hw w' hw').2.1 (h w' hw').2
  · intro h w' hw'
    obtain ⟨w, hw⟩ := takeTurn_some hw'
    have hsized := hone w hw w' hw'
    exact ⟨hsized.1, hsized.2.2 (h w hw w' hw')⟩

theorem books_run (answers : Nat → Int) (turns : List Turn) :
    ∀ w ∈ turns.foldl (takeTurn c) (some (startWorld c answers)), Books True 0 0 none w.state := by
  refine List.foldlRecOn (motive := fun o => ∀ w ∈ o, Books True 0 0 none w.state) turns (takeTurn c)
    (fun w hw => ?_) fun o ho turn _ w' hw' => ?_
  · obtain rfl := Option.some.inj hw
    exact books_startState True c
  · obtain ⟨w, rfl⟩ := takeTurn_some hw'
    exact (takeTurn_step (ho w rfl) hw').1

theorem sized_startState : Sized (groups (startState c)) := by
  intro i y hy
  exact absurd (active_of_groups rfl hy).1 Bool.false_ne_true

end Runs

/-- The sizes are right wherever a run has come to exactly when what it has closed and opened was
closed and opened in order. -/
theorem sized_iff_orderly (c : Config) (answers : Nat → Int) (turns : List Turn) :
    (∀ part, part <+: turns → ∀ w ∈ part.foldl (takeTurn c) (some (startWorld c answers)),
      Sized (groups w.state)) ↔
      Throughout (takeTurn c) (OrderlyTurn c) (some (startWorld c answers)) turns := by
  have hstart : RightSizes (some (startWorld c answers)) := by
    rintro w hw
    obtain rfl := Option.some.inj hw
    exact ⟨books_startState True c, sized_startState⟩
  have hrun : (∀ part, part <+: turns → RightSizes (part.foldl (takeTurn c)
      (some (startWorld c answers)))) ↔
        Throughout (takeTurn c) (OrderlyTurn c) (some (startWorld c answers)) turns :=
    forall_prefix_inv_iff_throughout (fun _ turn ho => rightSizes_takeTurn ho turn) hstart
  rw [← hrun]
  constructor
  · exact fun h part hpart w hw => ⟨books_run answers part w hw, h part hpart w hw⟩
  · exact fun h part hpart w hw => (h part hpart w hw).2

/-! ## A group of two

The leader is read with `PERF_FORMAT_GROUP`, so two values follow the number of the events. -/

/-- A leader with `PERF_FORMAT_GROUP` is opened, and then a member. -/
def groupAnswers : List (Nat × Int) :=
  [(11, 1), (12, 5), (15, 7), (44, 1), (116, 5), (171, 1), (172, 5), (175, 7), (272, 2), (280, 6)]

theorem takeTurn_round {c : Config} {w w' : World St}
    (h : exec (iteration (c.env overflowOnly)) w = (some (), w')) :
    takeTurn c (some w) .round = some w' := by
  unfold takeTurn Turn.program
  rw [Option.bind_some]
  dsimp only
  rw [h]

theorem Sized.readSize_eq {s : St} (h : Sized (groups s)) {i : Int}
    (hactive : (s.eventData i).active = true) (hleads : (s.eventData i).entry.Leads) :
    (s.eventData i).entry.readSize =
      readBytes (s.eventData i).entry.readFormat (s.eventData i).entry.number := by
  have hi := h i _ (if_pos hactive) hleads
  rw [hi.1]
  exact hi.2

theorem not_sized_of_rounds {c : Config} {w : World St} {a a' : Nat → Int} {s s' : St}
    (hfirst : exec (iteration (c.env overflowOnly)) w = (some (), ⟨a, s⟩))
    (hsecond : exec (iteration (c.env overflowOnly)) ⟨a, s⟩ = (some (), ⟨a', s'⟩))
    (hactive : (s'.eventData 0).active = true) (hleads : (s'.eventData 0).entry.Leads)
    (hsize : (s'.eventData 0).entry.readSize ≠
      readBytes (s'.eventData 0).entry.readFormat (s'.eventData 0).entry.number) :
    ¬∀ u ∈ [Turn.round, .round].foldl (takeTurn c) (some w), Sized (groups u.state) := by
  intro h
  refine hsize ((h ⟨a', s'⟩ ?_).readSize_eq hactive hleads)
  rw [List.foldl_cons, takeTurn_round hfirst, List.foldl_cons, takeTurn_round hsecond,
    List.foldl_nil, Option.mem_def]

/-- The state after the first round. -/
def leaderOpened : St :=
  (iteration (fullConfig.env overflowOnly) (scripted groupAnswers) (startState fullConfig)).2.2

/-- The state after the second round. -/
def memberOpened : St :=
  (iteration (fullConfig.env overflowOnly) (unread (scripted groupAnswers) 159) leaderOpened).2.2

theorem leaderOpened_exec : exec (iteration (fullConfig.env overflowOnly))
    (startWorld fullConfig (scripted groupAnswers)) =
      (some (), ⟨unread (scripted groupAnswers) 159, leaderOpened⟩) :=
  exec_eq (by decide +kernel) (by decide +kernel)

theorem memberOpened_exec : exec (iteration (fullConfig.env overflowOnly))
    ⟨unread (scripted groupAnswers) 159, leaderOpened⟩ =
      (some (), ⟨unread (unread (scripted groupAnswers) 159) 167, memberOpened⟩) :=
  exec_eq (by decide +kernel) (by decide +kernel)

theorem memberOpened_leader : (memberOpened.eventData 0).active = true ∧
    (memberOpened.eventData 0).entry.Leads ∧ (memberOpened.eventData 0).entry.readSize ≠
      readBytes (memberOpened.eventData 0).entry.readFormat
        (memberOpened.eventData 0).entry.number := by
  decide +kernel

/-- The read size of the leader counts the value once. -/
theorem run_not_sized : ¬∀ (c : Config) (answers : Nat → Int) (turns : List Turn),
    ∀ w ∈ turns.foldl (takeTurn c) (some (startWorld c answers)), Sized (groups w.state) := by
  intro h
  obtain ⟨hactive, hleads, hsize⟩ := memberOpened_leader
  exact not_sized_of_rounds leaderOpened_exec memberOpened_exec hactive hleads hsize
    (h fullConfig (scripted groupAnswers) [.round, .round])

end PerfEvent.Fuzzer
