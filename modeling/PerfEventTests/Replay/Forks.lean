import PerfEventTests.Fuzzer.LogFraming
import PerfEventTests.Replay.Machine

/-!
# Forked children

The recorder forks and kills its child in turn and logs each call before it is made; the replay
repeats the lines with calls of its own, which may turn out differently.
-/

namespace PerfEvent.Replay

open Draws Programs Text Fuzzer

variable {c : Config} {e : Env} {s : State}

/-! ## The recorder -/

def forkLine (enable : Bool) : Str := line 'F' [intText (if enable then 1 else 0)]

/-- A run of calls of `fork_random_event`. -/
def forkRun (c : Config) (n : Nat) : Fuzz Unit := forRange (fun _ => forkRandomEvent c.quiet) n 0

/-- The recorder after `n` calls from its start. -/
def recorded (c : Config) (answers : Nat → Int) (n : Nat) : St :=
  (exec (forkRun c n) ⟨answers, Fuzzer.startState c⟩).2.state

/-- What one call does to the fuzzer. -/
def forkWorld (c : Config) (w : World St) : World St :=
  let s := w.state
  let logged := if c.logging then s.addLine 'F' (forkLine !s.alreadyForked) else s
  if s.alreadyForked then
    ⟨w.answers, { logged with
      alreadyForked := false
      children := s.children.filter (· ≠ s.forkedPid) }⟩
  else
    let pid := if 0 < w.answers 0 then w.answers 0 else -1
    ⟨unread w.answers 1, { logged with
      forkedPid := pid
      alreadyForked := pid ≠ -1
      children := if pid = -1 then s.children else pid :: s.children }⟩

theorem exec_logLine (letter : Char) (text : Str) (answers : Nat → Int) (s : St) :
    exec (Fuzzer.logLine c.quiet letter text) ⟨answers, s⟩ =
      (some (), ⟨answers, if c.logging then s.addLine letter text else s⟩) := by
  have hquiet : c.quiet.logging = c.logging := rfl
  unfold Fuzzer.logLine whenever
  rw [hquiet]
  cases c.logging <;> rfl

theorem exec_forkRandomEvent (w : World St) :
    exec (forkRandomEvent c.quiet) w = (some (), forkWorld c w) := by
  obtain ⟨answers, s⟩ := w
  unfold forkRandomEvent forkWorld
  rw [exec_step (show exec getState ⟨answers, s⟩ = (some s, ⟨answers, s⟩) from rfl)]
  dsimp only
  by_cases hforked : s.alreadyForked
  · rw [if_pos hforked, if_pos hforked, exec_step (exec_logLine ..), hforked]
    cases c.logging <;> rfl
  · rw [if_neg hforked, if_neg hforked, exec_step (exec_logLine ..),
      Bool.eq_false_of_not_eq_true hforked]
    cases c.logging <;> rfl

theorem exec_forkRange (n i : Nat) (w : World St) :
    exec (forRange (fun _ => forkRandomEvent c.quiet) n i) w =
      (some (), (forkWorld c)^[n] w) := by
  induction n generalizing i w with
  | zero => rfl
  | succ n ih =>
    rw [forRange, exec_step (exec_forkRandomEvent w), ih]
    rfl

theorem recorded_eq (answers : Nat → Int) (n : Nat) :
    recorded c answers n = ((forkWorld c)^[n] ⟨answers, Fuzzer.startState c⟩).state :=
  congrArg (fun r => r.2.state) (exec_forkRange n 0 _)

/-- The arguments of the lines that `n` calls log. -/
def forkFlags : Bool → (Nat → Int) → Nat → List Bool
  | _, _, 0 => []
  | true, answers, n + 1 => false :: forkFlags false answers n
  | false, answers, n + 1 => true :: forkFlags (decide (0 < answers 0)) (unread answers 1) n

theorem forkWorld_forked {w : World St} (h : w.state.alreadyForked = true) :
    (forkWorld c w).answers = w.answers ∧ (forkWorld c w).state.alreadyForked = false ∧
      (forkWorld c w).state.children = w.state.children.filter (· ≠ w.state.forkedPid) := by
  unfold forkWorld
  dsimp only
  rw [if_pos h]
  exact ⟨rfl, rfl, rfl⟩

theorem forkWorld_alone {w : World St} (h : w.state.alreadyForked = false) :
    (forkWorld c w).answers = unread w.answers 1 ∧
      (forkWorld c w).state.alreadyForked = decide (0 < w.answers 0) ∧
      (forkWorld c w).state.children = if 0 < w.answers 0 then
        (forkWorld c w).state.forkedPid :: w.state.children else w.state.children := by
  unfold forkWorld
  dsimp only
  rw [if_neg (by rw [h]; decide)]
  by_cases hpos : 0 < w.answers 0
  · have hpid : w.answers 0 ≠ -1 := by omega
    simp [hpos, hpid]
  · simp [hpos]

theorem forkWorld_log (w : World St) : (forkWorld c w).state.log =
    w.state.log ++ if c.logging then forkLine !w.state.alreadyForked else [] := by
  unfold forkWorld
  dsimp only
  cases c.logging
  · split <;> exact (List.append_nil _).symm
  · split <;> rfl

/-- The child that the recorder knows of is the only one. -/
def OneChild (s : St) : Prop := s.children = if s.alreadyForked then [s.forkedPid] else []

theorem forkWorld_oneChild {w : World St} (h : OneChild w.state) :
    OneChild (forkWorld c w).state := by
  unfold OneChild at h ⊢
  cases hforked : w.state.alreadyForked
  · obtain ⟨-, hf, hchildren⟩ := forkWorld_alone (c := c) hforked
    rw [hforked, if_neg (by decide)] at h
    rw [hchildren, hf, h]
    by_cases hpos : 0 < w.answers 0
    · rw [if_pos hpos, if_pos (decide_eq_true hpos)]
    · rw [if_neg hpos, if_neg (by simpa using hpos)]
  · obtain ⟨-, hf, hchildren⟩ := forkWorld_forked (c := c) hforked
    rw [hforked, if_pos rfl] at h
    rw [hchildren, hf, h]
    simp

theorem recorded_oneChild (answers : Nat → Int) (n : Nat) : OneChild (recorded c answers n) := by
  rw [recorded_eq]
  induction n with
  | zero => rfl
  | succ n ih =>
    rw [Function.iterate_succ_apply']
    exact forkWorld_oneChild ih

theorem iterate_log (hlog : c.logging = true) (n : Nat) (w : World St) :
    ((forkWorld c)^[n] w).state.log =
      w.state.log ++ ((forkFlags w.state.alreadyForked w.answers n).map forkLine).flatten := by
  induction n generalizing w with
  | zero =>
    cases w.state.alreadyForked <;> exact (List.append_nil _).symm
  | succ n ih =>
    rw [Function.iterate_succ_apply, ih, forkWorld_log, hlog, if_pos rfl]
    cases hforked : w.state.alreadyForked
    · obtain ⟨hanswers, hf, -⟩ := forkWorld_alone (c := c) hforked
      rw [hanswers, hf, forkFlags, List.map_cons, List.flatten_cons, List.append_assoc]
      rfl
    · obtain ⟨hanswers, hf, -⟩ := forkWorld_forked (c := c) hforked
      rw [hanswers, hf, forkFlags, List.map_cons, List.flatten_cons, List.append_assoc]
      rfl

theorem iterate_log_off (hlog : c.logging = false) (n : Nat) (w : World St) :
    ((forkWorld c)^[n] w).state.log = w.state.log := by
  induction n generalizing w with
  | zero => rfl
  | succ n ih =>
    rw [Function.iterate_succ_apply, ih, forkWorld_log, hlog]
    exact List.append_nil _

/-! ## The lines alternate -/

/-- One flag and then the other, starting with `b`. -/
def Alternate : Bool → List Bool → Prop
  | _, [] => True
  | b, x :: xs => x = b ∧ Alternate (!b) xs

theorem forkFlags_zero (b : Bool) (answers : Nat → Int) : forkFlags b answers 0 = [] := by
  cases b <;> rfl

/-- The lines alternate when no call follows a fork that has failed. -/
theorem alternate_forkFlags (n : Nat) : ∀ answers : Nat → Int,
    Alternate true (forkFlags false answers n) ↔ ∀ k, 2 * k + 1 < n → 0 < answers k := by
  induction n using Nat.twoStepInduction with
  | zero => exact fun _ => iff_of_true trivial fun k hk => absurd hk (Nat.not_lt_zero _)
  | one =>
    intro answers
    rw [forkFlags, forkFlags_zero]
    exact iff_of_true ⟨rfl, trivial⟩ fun k hk => by omega
  | more n ih _ =>
    intro answers
    have hshift : (∀ k, 2 * k + 1 < n + 2 → 0 < answers k) ↔
        0 < answers 0 ∧ ∀ k, 2 * k + 1 < n → 0 < unread answers 1 k := by
      constructor
      · exact fun h => ⟨h 0 (by omega), fun k hk => h (k + 1) (by omega)⟩
      · rintro ⟨h0, h⟩ (_ | k) hk
        · exact h0
        · exact h k (by omega)
    rw [hshift, forkFlags, Alternate]
    by_cases hpos : 0 < answers 0
    · rw [decide_eq_true hpos, forkFlags, Alternate, and_iff_right rfl, Bool.not_true,
        and_iff_right rfl, Bool.not_false, ih, and_iff_right hpos]
    · rw [decide_eq_false hpos, forkFlags, Alternate]
      exact iff_of_false (fun h => absurd h.2.1 (by decide)) fun h => hpos h.1

theorem length_forkFlags (n : Nat) : ∀ (b : Bool) (answers : Nat → Int),
    (forkFlags b answers n).length = n := by
  induction n with
  | zero => exact fun b _ => by cases b <;> rfl
  | succ n ih => exact fun b answers => by cases b <;> exact congrArg Nat.succ (ih _ _)

/-! ## The replay -/

/-- The replay with no options. -/
def plainEnv (e : Env) : Env := { e with which := fun _ => true, skipLines := 0, stopLines := 0 }

/-- The log as the replay reads it. -/
def logLines (s : St) : List Happening := (fileLines bufsiz s.log).map .line

/-- `kill` is only called for children that have been forked and not waited for; the list has the
latter at the `k`-th call. -/
def KillsOwn (result : Nat → Int) : List Call → Nat → List Int → Prop
  | [], _, _ => True
  | .fork :: calls, k, live =>
    KillsOwn result calls (k + 1) (if 0 < result k then result k :: live else live)
  | .kill pid :: calls, k, live => pid ∈ live ∧ KillsOwn result calls (k + 1) live
  | .waitpid pid :: calls, k, live => KillsOwn result calls (k + 1) (live.filter (· ≠ pid))
  | _ :: calls, k, live => KillsOwn result calls (k + 1) live

/-- The calls of a replay of such lines, with the one at its end. -/
def forkCalls (result : Nat → Int) : List Bool → Int → Nat → List Call
  | [], pid, _ => if pid ≠ 0 then [.kill pid] else []
  | true :: flags, _, k =>
    .fork :: forkCalls result flags (if 0 < result k then result k else -1) (k + 1)
  | false :: flags, pid, k => .kill pid :: .waitpid pid :: forkCalls result flags pid (k + 2)

/-- A line that is neither skipped nor the last one. -/
theorem step_plainEnv {text : Str} (hrunning : s.progress = .running)
    (hafter : (dispatch (plainEnv e) (cString text) { s with lineNum := s.lineNum + 1 }).progress =
      .running) :
    step (plainEnv e) s (.line text) = countLine (plainEnv e)
      (dispatch (plainEnv e) (cString text) { s with lineNum := s.lineNum + 1 }) := by
  unfold step replayLine
  dsimp only
  rw [if_pos hrunning, if_neg (by exact fun h => absurd h.2 (Nat.not_lt_zero _)), if_pos hafter]

theorem countLine_plainEnv (s : State) :
    countLine (plainEnv e) s = { s with totalSyscalls := s.totalSyscalls + 1 } := by
  unfold countLine
  exact if_neg fun h => h.1 rfl

/-- What a step makes of the calls and of the child. -/
structure Behaves (s s' : State) (calls : List Call) (pid : Int) : Prop where
  running : s'.progress = .running
  calls : s'.calls = s.calls ++ calls
  pid : s'.forkedPid = pid

theorem step_header {text : Str} (hrunning : s.progress = .running)
    (hcommand : command (cString text).head? = .pid ∨ command (cString text).head? = .other) :
    Behaves s (step (plainEnv e) s (.line text)) [] s.forkedPid := by
  have hdispatch : Behaves s
      (dispatch (plainEnv e) (cString text) { s with lineNum := s.lineNum + 1 }) [] s.forkedPid := by
    unfold dispatch
    obtain h | h := hcommand
    · rw [h]
      exact ⟨hrunning, (List.append_nil _).symm, rfl⟩
    · rw [h]
      exact ⟨hrunning, (List.append_nil _).symm, rfl⟩
  rw [step_plainEnv hrunning hdispatch.running, countLine_plainEnv]
  exact ⟨hdispatch.running, hdispatch.calls, hdispatch.pid⟩

theorem step_forkLine (b : Bool) (hrunning : s.progress = .running) :
    Behaves s (step (plainEnv e) s (.line (forkLine b)))
      (if b then [.fork] else [.kill s.forkedPid, .waitpid s.forkedPid])
      (if b then (if 0 < e.result s.calls.length then e.result s.calls.length else -1)
        else s.forkedPid) := by
  have hdispatch : Behaves s
      (dispatch (plainEnv e) (cString (forkLine b)) { s with lineNum := s.lineNum + 1 })
      (if b then [.fork] else [.kill s.forkedPid, .waitpid s.forkedPid])
      (if b then (if 0 < e.result s.calls.length then e.result s.calls.length else -1)
        else s.forkedPid) := by
    have hcommand : command (cString (forkLine b)).head? = .fork := by cases b <;> decide +kernel
    have hflag : flagOf (cString (forkLine b)) = if b then 1 else 0 := by
      cases b <;> decide +kernel
    unfold dispatch
    rw [hcommand]
    change Behaves s (forkEvent (plainEnv e) (cString (forkLine b))
      { s with lineNum := s.lineNum + 1 }) _ _
    unfold forkEvent
    rw [hflag]
    cases b
    · exact ⟨hrunning, List.append_assoc _ _ _, rfl⟩
    · exact ⟨hrunning, rfl, rfl⟩
  rw [step_plainEnv hrunning hdispatch.running, countLine_plainEnv]
  exact ⟨hdispatch.running, hdispatch.calls, hdispatch.pid⟩

/-- A whole replay of such lines. -/
theorem replay_forkLines (flags : List Bool) (hrunning : s.progress = .running) :
    (killChild (replayFrom (plainEnv e) ((flags.map forkLine).map .line) s)).calls =
      s.calls ++ forkCalls e.result flags s.forkedPid s.calls.length := by
  induction flags generalizing s with
  | nil =>
    change (killChild s).calls = _
    unfold killChild forkCalls
    have hexited : s.progress ≠ .exited := by
      rw [hrunning]
      decide
    by_cases hpid : s.forkedPid ≠ 0
    · rw [if_pos ⟨hexited, hpid⟩, if_pos hpid]
      rfl
    · rw [if_neg (fun h => hpid h.2), if_neg hpid, List.append_nil]
  | cons b flags ih =>
    have hstep := step_forkLine (e := e) b hrunning
    rw [List.map_cons, List.map_cons, replayFrom, List.foldl_cons, ← replayFrom, ih hstep.running,
      hstep.calls, hstep.pid, List.append_assoc]
    cases b <;> simp [forkCalls]

/-- Each fork has to succeed, and the last child has to be alive at the end. -/
theorem killsOwn_forkCalls (result : Nat → Int) : ∀ (flags : List Bool) (pid : Int) (k : Nat),
    Alternate true flags → (KillsOwn result (forkCalls result flags pid k) k [] ↔
      (∀ j, 2 * j < flags.length → 0 < result (k + 3 * j)) ∧
        (flags.length % 2 = 1 ∨ flags.length = 0 ∧ pid = 0))
  | [], pid, k, _ => by
    have hnone : ∀ j, 2 * j < ([] : List Bool).length → 0 < result (k + 3 * j) :=
      fun j hj => absurd hj (Nat.not_lt_zero _)
    rw [forkCalls, and_iff_right hnone]
    by_cases hpid : pid = 0
    · rw [if_neg (not_not.2 hpid)]
      exact iff_of_true trivial (.inr ⟨rfl, hpid⟩)
    · rw [if_pos hpid]
      exact iff_of_false (fun h => List.not_mem_nil h.1) (by simp [hpid])
  | [b], pid, k, h => by
    obtain ⟨rfl, -⟩ := h
    have hone : (∀ j, 2 * j < [true].length → 0 < result (k + 3 * j)) ↔ 0 < result k := by
      refine ⟨fun h => h 0 (by decide), fun h j hj => ?_⟩
      rw [List.length_singleton] at hj
      rwa [show j = 0 by omega]
    rw [hone, and_iff_left (.inl rfl), forkCalls, KillsOwn, forkCalls]
    by_cases hpos : 0 < result k
    · have hne : result k ≠ 0 := by omega
      rw [if_pos hpos, if_pos hpos, if_pos hne]
      exact iff_of_true ⟨List.mem_singleton_self _, trivial⟩ hpos
    · rw [if_neg hpos, if_neg hpos, if_pos (by decide)]
      exact iff_of_false (fun h => List.not_mem_nil h.1) hpos
  | b :: b' :: flags, pid, k, h => by
    obtain ⟨rfl, rfl, hflags⟩ := h
    have hshift : (∀ j, 2 * j < (true :: (!true) :: flags).length → 0 < result (k + 3 * j)) ↔
        0 < result k ∧ ∀ j, 2 * j < flags.length → 0 < result (k + 3 + 3 * j) := by
      rw [List.length_cons, List.length_cons]
      constructor
      · refine fun h => ⟨h 0 (by omega), fun j hj => ?_⟩
        have := h (j + 1) (by omega)
        rwa [show k + 3 * (j + 1) = k + 3 + 3 * j by omega] at this
      · rintro ⟨h0, h⟩ (_ | j) hj
        · exact h0
        · have := h j (by omega)
          rwa [show k + 3 + 3 * j = k + 3 * (j + 1) by omega] at this
    have hodd : (true :: (!true) :: flags).length % 2 = 1 ∨
        (true :: (!true) :: flags).length = 0 ∧ pid = 0 ↔ flags.length % 2 = 1 := by
      rw [List.length_cons, List.length_cons]
      omega
    rw [hshift, hodd, forkCalls, Bool.not_true, forkCalls, KillsOwn, KillsOwn, KillsOwn]
    by_cases hpos : 0 < result k
    · have hne : result k ≠ 0 := by omega
      have ih := killsOwn_forkCalls result flags (result k) (k + 3) hflags
      have hlive : [result k].filter (· ≠ result k) = [] := by simp
      rw [if_pos hpos, if_pos hpos, hlive, and_iff_right (List.mem_singleton_self _), ih,
        and_iff_right hpos, or_iff_left (fun h => hne h.2)]
    · rw [if_neg hpos, if_neg hpos]
      exact iff_of_false (fun h => List.not_mem_nil h.1) fun h => hpos h.1.1

/-! ## The protocol -/

/-- `F 1` and `F 0` in turn. -/
def LinesAlternate : Bool → List Str → Prop
  | _, [] => True
  | b, l :: ls => l = (if b then "F 1\n".toList else "F 0\n".toList) ∧ LinesAlternate (!b) ls

/-- The `F` lines of the log. -/
def forkLines (s : St) : List Str := (fileLines bufsiz s.log).filter fun l => l.head? = some 'F'

/-- What a recorder of `n` calls and a replay of its log do together. -/
structure ForkProtocol (c : Config) (answers : Nat → Int) (n : Nat) (e : Env) : Prop where
  alternate : LinesAlternate true (forkLines (recorded c answers n))
  oneChild : ∀ m ≤ n, (recorded c answers m).children.length ≤ 1
  ownKills : KillsOwn e.result (replay (plainEnv e) (logLines (recorded c answers n))).calls 0 []

theorem forkLine_eq (b : Bool) :
    forkLine b = if b then "F 1\n".toList else "F 0\n".toList := by
  cases b <;> decide +kernel

theorem linesAlternate_map (flags : List Bool) (b : Bool) :
    LinesAlternate b (flags.map forkLine) ↔ Alternate b flags := by
  induction flags generalizing b with
  | nil => exact Iff.rfl
  | cons x flags ih =>
    have hinj : forkLine x = forkLine b ↔ x = b := by
      refine ⟨fun h => ?_, fun h => by rw [h]⟩
      revert h
      cases x <;> cases b <;> decide +kernel
    rw [List.map_cons, LinesAlternate, Alternate, ih, ← forkLine_eq, hinj]

/-- The log is the lines of the start and one line for each call. -/
theorem fileLines_recorded (hlog : c.logging = true) (answers : Nat → Int) (n : Nat) :
    ∃ l₁ l₂ l₃ : Str, fileLines bufsiz (recorded c answers n).log =
      [l₁, l₂, l₃] ++ (forkFlags false answers n).map forkLine ∧
      l₁.head? = some 'S' ∧ l₂.head? = some 'G' ∧ l₃.head? = some 'r' := by
  have hfork : ∀ b, LineOf 'F' (forkLine b) := fun b => lineOf_ints (by decide) [_] (by simp)
  refine ⟨line 'S' [intText c.seed], line 'G' [signedText c.ownPid],
    line 'r' [intText c.sampleRate], ?_, rfl, rfl, rfl⟩
  rw [recorded_eq, iterate_log hlog]
  have hstart : (Fuzzer.startState c).log = ((headerOps c).map LoggedOp.text).flatten := by
    unfold Fuzzer.startState
    rw [hlog, if_pos rfl, List.flatMap_def]
  rw [hstart, ← List.flatten_append]
  refine fileLines_framed (by decide) fun l hl => ?_
  obtain hl | hl := List.mem_append.1 hl
  · obtain ⟨op, hop, rfl⟩ := List.mem_map.1 hl
    exact (lineOf_headerOps c op hop).2
  · obtain ⟨b, -, rfl⟩ := List.mem_map.1 hl
    exact (hfork b).2

theorem head_cString {text : Str} {letter : Char} (h : text.head? = some letter)
    (hletter : letter ≠ '\x00') : (cString text).head? = some letter := by
  cases text with
  | nil => cases h
  | cons a as =>
    cases h
    simp [cString, hletter]

/-- The lines of the start do not matter. -/
theorem replay_header {l₁ l₂ l₃ : Str} (hs : s.progress = .running) (h₁ : l₁.head? = some 'S')
    (h₂ : l₂.head? = some 'G') (h₃ : l₃.head? = some 'r') (rest : List Happening) :
    ∃ s', replayFrom (plainEnv e) ([.line l₁, .line l₂, .line l₃] ++ rest) s =
      replayFrom (plainEnv e) rest s' ∧ Behaves s s' [] s.forkedPid := by
  have hcommand₁ := congrArg command (head_cString h₁ (by decide))
  have hcommand₂ := congrArg command (head_cString h₂ (by decide))
  have hcommand₃ := congrArg command (head_cString h₃ (by decide))
  have hstep₁ := step_header (e := e) hs (.inr hcommand₁)
  have hstep₂ := step_header (e := e) hstep₁.running (.inl hcommand₂)
  have hstep₃ := step_header (e := e) hstep₂.running (.inr hcommand₃)
  refine ⟨_, rfl, hstep₃.running, ?_, ?_⟩
  · rw [hstep₃.calls, hstep₂.calls, hstep₁.calls]
    simp
  · rw [hstep₃.pid, hstep₂.pid, hstep₁.pid]

theorem forkLines_recorded (hlog : c.logging = true) (answers : Nat → Int) (n : Nat) :
    forkLines (recorded c answers n) = (forkFlags false answers n).map forkLine := by
  obtain ⟨l₁, l₂, l₃, hlines, h₁, h₂, h₃⟩ := fileLines_recorded hlog answers n
  have hnone : [l₁, l₂, l₃].filter (fun l => l.head? = some 'F') = [] := by
    simp [h₁, h₂, h₃]
  rw [forkLines, hlines, List.filter_append, hnone, List.nil_append, List.filter_eq_self]
  intro l hl
  obtain ⟨b, -, rfl⟩ := List.mem_map.1 hl
  rfl

theorem calls_recorded (hlog : c.logging = true) (answers : Nat → Int) (n : Nat) :
    (replay (plainEnv e) (logLines (recorded c answers n))).calls =
      forkCalls e.result (forkFlags false answers n) 0 0 := by
  obtain ⟨l₁, l₂, l₃, hlines, h₁, h₂, h₃⟩ := fileLines_recorded hlog answers n
  obtain ⟨s', hs', hbehaves⟩ := replay_header (e := e) (s := startState (plainEnv e)) rfl h₁ h₂ h₃
    (((forkFlags false answers n).map forkLine).map .line)
  have hmap : ([l₁, l₂, l₃] : List Str).map Happening.line = [.line l₁, .line l₂, .line l₃] := rfl
  rw [replay, logLines, hlines, List.map_append, hmap, hs', replay_forkLines _ hbehaves.running,
    hbehaves.calls, hbehaves.pid]
  rfl

theorem recorded_off (hlog : c.logging = false) (answers : Nat → Int) (n : Nat) :
    (recorded c answers n).log = [] := by
  rw [recorded_eq, iterate_log_off hlog]
  unfold Fuzzer.startState
  rw [hlog]
  rfl

/-- What is asked of the calls of the replay. -/
theorem ForkProtocol.kills {answers : Nat → Int} {n : Nat} (h : ForkProtocol c answers n e)
    (hlog : c.logging = true) :
    KillsOwn e.result (forkCalls e.result (forkFlags false answers n) 0 0) 0 [] := by
  rw [← calls_recorded hlog]
  exact h.ownKills

/-- The protocol is kept exactly when nothing is logged, or no call of the recorder follows a fork
that has failed, the replay's forks all succeed, and the last line is not `F 0`. -/
theorem forkProtocol_iff (c : Config) (answers : Nat → Int) (n : Nat) (e : Env) :
    ForkProtocol c answers n e ↔ c.logging = false ∨
      (∀ k, 2 * k + 1 < n → 0 < answers k) ∧ (∀ k, 2 * k < n → 0 < e.result (3 * k)) ∧
        (n % 2 = 1 ∨ n = 0) := by
  have hone : ∀ m ≤ n, (recorded c answers m).children.length ≤ 1 := by
    intro m _
    rw [recorded_oneChild]
    split
    · exact le_rfl
    · exact Nat.zero_le 1
  cases hlog : c.logging
  · refine iff_of_true ⟨?_, hone, ?_⟩ (.inl rfl)
    · rw [forkLines, recorded_off hlog]
      exact trivial
    · rw [logLines, recorded_off hlog]
      exact trivial
  · rw [or_iff_right (by decide)]
    have hlines : LinesAlternate true (forkLines (recorded c answers n)) ↔
        ∀ k, 2 * k + 1 < n → 0 < answers k := by
      rw [forkLines_recorded hlog, linesAlternate_map, alternate_forkFlags]
    have hkills : Alternate true (forkFlags false answers n) →
        (KillsOwn e.result (replay (plainEnv e) (logLines (recorded c answers n))).calls 0 [] ↔
          (∀ k, 2 * k < n → 0 < e.result (3 * k)) ∧ (n % 2 = 1 ∨ n = 0)) := by
      intro halternate
      rw [calls_recorded hlog, killsOwn_forkCalls _ _ _ _ halternate, length_forkFlags]
      simp only [Nat.zero_add, and_true]
    constructor
    · intro h
      have halternate := hlines.1 h.alternate
      exact ⟨halternate, (hkills ((alternate_forkFlags n answers).2 halternate)).1 h.ownKills⟩
    · rintro ⟨halternate, hreplay⟩
      exact ⟨hlines.2 halternate, hone,
        (hkills ((alternate_forkFlags n answers).2 halternate)).2 hreplay⟩

/-- A child that has been waited for is killed once more at the end. -/
theorem forkProtocol_stale_pid : ¬ForkProtocol fullConfig (fun _ => 7) 2 (zeroEnv fun _ => 7) := by
  intro h
  have hkills := h.kills rfl
  have hflags : forkFlags false (fun _ => 7) 2 = [true, false] := by decide
  rw [hflags] at hkills
  simp [forkCalls, KillsOwn, zeroEnv] at hkills

end PerfEvent.Replay
