import PerfEventTests.LogToCode.Agreement

/-!
# Orderly logs

A log is orderly when each line is about descriptors that are open in the replay, and have a place in
the shorter tables of the printed program. The tables of the program then hold what the table of the
replay holds for everything that is open, and the program, printed and run as a whole, does what
the replay does.
-/

namespace PerfEvent.LogToCode

open Text ByteMemory Replay Lockstep
open Fuzzer (InRange iocSetOutput closeLine openLine)

variable {e : Env} {stack : Stack} {s s' : State} {p p' : Process} {line : Str} {c : Command}
  {as : List Statement}

/-! ## The condition -/

/-- The recorded descriptor is open, and has a place in the tables of the program. -/
def Live (n : Int) (s : State) : Prop := InRange numValues n ∧ (s.event n).fdRemap ≠ -1

/-- There is a mapping for it too. -/
def LiveMapping (n : Int) (s : State) : Prop := Live n s ∧ (s.event n).mmapRemap ≠ .failed

/-- The open works, and gives an `int`; or it fails, and there is nothing that the replay would go on
with while the program has lost it. -/
def Replaces (e : Env) (n : Int) (s : State) : Prop :=
  0 ≤ e.next s ∧ toInt32 (e.next s) = e.next s ∨ e.next s < 0 ∧ (s.event n).fdRemap = -1

/-- The condition for a line, on the state of the replay. -/
def CommandOrderly (e : Env) (line : Str) (s : State) : Command → Prop
  | .access => let var := number [.d, .d, .ld, .d] line
    InRange maxFilenames (var 1) ∧ (var 0 = 0 ∨ e.next s = 0)
  | .affinity => ¬Closes (firstText line) s ∧ MaskPrinted (tokens isBlankOrNewline line)
  | .close | .overflow => Live (number [.d] line 0) s
  | .ioctl => let var := number [.d, .d, .ld] line
    Live (var 0) s ∧ (var 1 = requestInt iocSetOutput → var 2 = -1 ∨ Live (var 2) s) ∧
      (FlagRequest (var 1) → toInt32 (var 2) = var 2)
  | .mmap => Live (number [.d, .d] line 1) s
  | .open => let o := parseOpenEvent line noVars
    InRange numValues o.fd.toInt ∧ (o.groupFd.toInt = -1 ∨ Live o.groupFd.toInt s) ∧
      Replaces e o.fd.toInt s
  | .poll => let num := number [.d] line 0
    let texts := (tokens isBlank line).drop 2
    num ≤ maxPollFds ∧ 2 * num.toNat < texts.length ∧
      ∀ q ∈ pollPairs num.toNat texts, Live q.1 s ∧ (s.event q.1).fdRemap = q.1
  | .trash => LiveMapping (number [.d, .d, .d] line 2) s
  | .read => let var := number [.d, .d] line
    Live (var 0) s ∧ toUnsigned 64 (var 1) ≤ readRoom
  | .munmap => let var := number [.d, .d] line
    LiveMapping (var 0) s ∧ (s.event (var 0)).size = var 1
  | .fork | .prctl | .pid | .quit | .other => True

def Orderly (e : Env) (h : Happening) (s : State) : Prop :=
  match h with
  | .line text => CommandOrderly e (cString text) s (command (cString text).head?)
  | .signal fd => s.fdOverflows fd + 1 ≤ 10000

/-! ## The tables -/

/-- What is open is the same in both. -/
structure Mirrored (s : State) (p : Process) : Prop where
  fd : ∀ n, Live n s → (p.fd n).toInt = (s.event n).fdRemap
  mmapResult : ∀ n, LiveMapping n s → p.mmapResult n = (s.event n).mmapRemap

namespace Mirrored

theorem named {n : Int} (h : Mirrored s p) (hn : Live n s) : Named n s p := ⟨hn.1, h.fd n hn⟩

/-- An orderly line meets the condition under which it is printed as it is replayed. -/
theorem commandAlike (h : Mirrored s p) (hc : CommandOrderly e line s c) :
    CommandAlike e line s p c := by
  cases c with
  | access => exact hc
  | affinity => exact hc
  | close => exact ⟨h.named hc, hc.2⟩
  | overflow => exact h.named hc
  | ioctl => exact ⟨h.named hc.1, fun hset => (hc.2.1 hset).imp_right h.named, hc.2.2⟩
  | mmap => exact ⟨h.named hc, hc.2⟩
  | «open» => exact ⟨hc.1, hc.2.1.imp_right h.named⟩
  | poll => exact ⟨hc.1, hc.2.1, fun q hq =>
      ⟨(hc.2.2 q hq).1.1, (h.fd _ (hc.2.2 q hq).1).trans (hc.2.2 q hq).2⟩⟩
  | trash =>
    refine ⟨hc.1.1, (h.mmapResult _ hc).trans ?_⟩
    obtain ⟨⟨-, hopen⟩, hmapped⟩ := hc
    rw [written, if_neg hopen]
    cases hregion : (s.event (number [.d, .d, .d] line 2)).mmapRemap with
    | failed => exact absurd hregion hmapped
    | null => rfl
    | mapped call length => rfl
  | read => exact ⟨h.named hc.1, hc.2⟩
  | munmap => exact ⟨hc.1.1.1, hc.1.1.2, hc.2, hc.1.2, h.mmapResult _ hc.1⟩
  | fork => trivial
  | prctl => trivial
  | pid => trivial
  | quit => trivial
  | other => trivial

end Mirrored

/-- Nothing is open or mapped that has not been before. -/
structure Shrinks (s s' : State) : Prop where
  fdRemap : ∀ n, (s'.event n).fdRemap ≠ -1 → (s'.event n).fdRemap = (s.event n).fdRemap
  mmapRemap : ∀ n, (s'.event n).mmapRemap ≠ .failed →
    (s'.event n).mmapRemap = (s.event n).mmapRemap

namespace Shrinks

theorem of_event (h : s'.event = s.event) : Shrinks s s' :=
  ⟨fun n _ => by rw [h], fun n _ => by rw [h]⟩

theorem refl (s : State) : Shrinks s s := of_event rfl

theorem trans {t : State} (h : Shrinks s s') (h' : Shrinks s' t) : Shrinks s t where
  fdRemap n hn := by
    have hsame := h'.fdRemap n hn
    exact hsame.trans (h.fdRemap n (hsame ▸ hn))
  mmapRemap n hn := by
    have hsame := h'.mmapRemap n hn
    exact hsame.trans (h.mmapRemap n (hsame ▸ hn))

theorem setEvent (h : Shrinks s s') (fd : Int) {f : Event → Event}
    (hremap : ∀ ev, (f ev).fdRemap ≠ -1 → (f ev).fdRemap = ev.fdRemap)
    (hregion : ∀ ev, (f ev).mmapRemap ≠ .failed → (f ev).mmapRemap = ev.mmapRemap) :
    Shrinks s (s'.setEvent fd f) := by
  refine h.trans ⟨fun n hn => ?_, fun n hn => ?_⟩
  · by_cases hfd : n = fd
    · subst hfd
      rw [State.setEvent_self] at hn ⊢
      exact hremap _ hn
    · rw [State.setEvent_other _ hfd]
  · by_cases hfd : n = fd
    · subst hfd
      rw [State.setEvent_self] at hn ⊢
      exact hregion _ hn
    · rw [State.setEvent_other _ hfd]

theorem mirrored (h : Shrinks s s') (hs : Mirrored s p) (hfd : p'.fd = p.fd)
    (hmmap : p'.mmapResult = p.mmapResult) : Mirrored s' p' where
  fd n hn := by
    have hsame := h.fdRemap n hn.2
    rw [hfd, hsame]
    exact hs.fd n ⟨hn.1, hsame ▸ hn.2⟩
  mmapResult n hn := by
    have hsame := h.fdRemap n hn.1.2
    have hregion := h.mmapRemap n hn.2
    rw [hmmap, hregion]
    exact hs.mmapResult n ⟨⟨hn.1.1, hsame ▸ hn.1.2⟩, hregion ▸ hn.2⟩

end Shrinks

theorem closeFor_shrinks (fd : Int) : Shrinks s (closeFor fd s) := by
  unfold closeFor
  dsimp only
  split
  · exact .of_event rfl
  · have hclosed : Shrinks s (((s.touch .event fd).hand fd (s.event fd).fdRemap).issue
        (.close (s.event fd).fdRemap)) := .of_event rfl
    exact hclosed.setEvent fd (fun _ h => (h rfl).elim) fun _ _ => rfl

theorem closeEvent_shrinks : Shrinks s (Replay.closeEvent line s) := by
  unfold Replay.closeEvent
  split
  · exact closeFor_shrinks _
  · exact .refl s

theorem munmapIfOpen_shrinks (fd size : Int) : Shrinks s (munmapIfOpen e fd size s) := by
  have htouch : Shrinks s (s.touch .event fd) := .of_event rfl
  have hclear : Shrinks s ((s.touch .event fd).setEvent fd fun ev =>
      { ev with mmapRemap := .failed }) := htouch.setEvent fd (fun _ _ => rfl) fun _ h => (h rfl).elim
  unfold munmapIfOpen
  dsimp only
  split_ifs
  · exact .of_event rfl
  · exact hclear
  · exact hclear
  · refine hclear.trans (.of_event ?_)
    unfold unmap
    dsimp only
    split
    · split <;> rfl
    · rfl

theorem event_ioctlAs (fd request arg : Int) : (ioctlAs fd request arg s).event = s.event := by
  unfold ioctlAs
  dsimp only
  split_ifs <;> rfl

theorem event_accessAs (type which size : Int) :
    (accessAs e type which size s).event = s.event := by
  unfold accessAs accessFile
  dsimp only
  split_ifs <;> rfl

theorem event_trashIfOpen (fd value size : Int) :
    (trashIfOpen fd value size s).event = s.event := by
  unfold trashIfOpen trashRegion
  dsimp only
  split
  · rfl
  · split <;> rfl

theorem event_pollEntries (n : Nat) : ∀ (i : Nat) (texts : List Str) (s : State),
    (Replay.pollEntries n i texts s).2.2.event = s.event := by
  induction n with
  | zero => exact fun _ _ _ => rfl
  | succ n ih =>
    rintro i (_ | ⟨fd, _ | ⟨events, texts⟩⟩) s
    · rfl
    · rfl
    · exact ih (i + 1) texts _

theorem event_fcntlFor (fd : Int) (n : Nat) : (fcntlFor fd n s).event = s.event := rfl

theorem event_overflowFor (fd : Int) : (overflowFor fd s).event = s.event := by
  simp only [overflowFor, overflowCommands, List.foldl_cons, List.foldl_nil, event_fcntlFor,
    State.event_touch, State.event_issue]

theorem event_readFor (fd size : Int) : (readFor fd size s).event = s.event := by
  unfold readFor
  by_cases h : toUnsigned 64 size > readRoom
  · rw [if_pos h]
  · rw [if_neg h]
    rfl

/-- Only open and mmap lines add something to the table. -/
theorem runCommand_shrinks (hc : c ≠ .open ∧ c ≠ .mmap) :
    Shrinks s (runCommand (plainEnv e) line s c) := by
  cases c with
  | «open» => exact absurd rfl hc.1
  | mmap => exact absurd rfl hc.2
  | affinity =>
    change Shrinks s (replayAs (plainEnv e) .close
      (Replay.closeEvent (Replay.affinityEvent (plainEnv e) line s).1)
      (Replay.affinityEvent (plainEnv e) line s).2)
    rw [replayAs_plainEnv]
    refine Shrinks.trans (.of_event ?_) closeEvent_shrinks
    unfold Replay.affinityEvent
    split
    · rfl
    · exact (affinityAs_frame _ _).1
  | pid => exact .of_event rfl
  | quit => exact .of_event rfl
  | other => exact .of_event rfl
  | close =>
    rw [runCommand, replayAs_plainEnv]
    exact closeEvent_shrinks
  | munmap =>
    rw [runCommand, replayAs_plainEnv]
    exact munmapIfOpen_shrinks _ _
  | access =>
    rw [runCommand, replayAs_plainEnv]
    exact .of_event (event_accessAs _ _ _)
  | fork =>
    rw [runCommand, replayAs_plainEnv]
    refine .of_event ?_
    unfold Replay.forkEvent
    split <;> rfl
  | ioctl =>
    rw [runCommand, replayAs_plainEnv]
    exact .of_event (event_ioctlAs _ _ _)
  | overflow =>
    rw [runCommand, replayAs_plainEnv]
    exact .of_event (event_overflowFor _)
  | prctl =>
    rw [runCommand, replayAs_plainEnv]
    exact .of_event rfl
  | poll =>
    rw [runCommand, replayAs_plainEnv]
    refine .of_event ?_
    change (Replay.pollEntries _ _ _ s).2.2.event = s.event
    exact event_pollEntries _ _ _ _
  | trash =>
    rw [runCommand, replayAs_plainEnv]
    exact .of_event (event_trashIfOpen _ _ _)
  | read =>
    rw [runCommand, replayAs_plainEnv]
    exact .of_event (event_readFor _ _)

/-! ## Opening and mapping -/

theorem event_recordOpen {recorded : Int} (fd : Int) (hin : InRange numValues recorded) :
    (recordOpen recorded fd s).event =
      (s.setEvent recorded fun ev => { ev with fdRemap := fd, mmapRemap := .failed }).event := by
  have hfits : ¬recorded > fdRemapSize := not_lt.2 (hin.2.le.trans (Int.ofNat_le.2 (by decide)))
  rw [recordOpen, if_neg hfits]
  dsimp only
  split <;> rfl

theorem event_openAs (e : Env) (o : OpenVars) (s : State) (hin : InRange numValues o.fd.toInt) :
    (openAs e o s).event = if e.next s < 0 then s.event
      else (s.setEvent o.fd.toInt fun ev =>
        { ev with fdRemap := e.next s, mmapRemap := .failed }).event := by
  have hgroup : (remapGroup o.groupFd.toInt s).2.event = s.event ∧
      e.next (remapGroup o.groupFd.toInt s).2 = e.next s := by
    unfold remapGroup
    split <;> exact ⟨rfl, rfl⟩
  unfold openAs
  dsimp only
  rw [hgroup.2]
  by_cases hfails : e.next s < 0
  · rw [if_pos hfails, if_pos hfails]
    exact hgroup.1
  · rw [if_neg hfails, if_neg hfails, event_recordOpen _ hin]
    ext1 k
    change (if _ then _ else _) = if _ then _ else _
    rw [← hgroup.1]
    rfl

theorem open_mirrored {o o' : OpenVars} (originalPid : BitVec 32) (h : Mirrored s p)
    (hcalls : p.calls = s.calls) (hfd : o'.fd = o.fd) (hin : InRange numValues o.fd.toInt)
    (hreplaces : Replaces e o.fd.toInt s) :
    Mirrored (openAs (plainEnv e) o' s) (opened e originalPid o p) := by
  have hnext : nextResult e p = e.next s := by rw [nextResult, hcalls, Env.next]
  have hfds : (opened e originalPid o p).fd =
      Function.update p.fd o.fd.toInt (.ofInt 32 (e.next s)) := by rw [← hnext, opened]
  have hevent := event_openAs (plainEnv e) o' s (by rwa [hfd])
  rw [hfd] at hevent
  change _ = if e.next s < 0 then _ else _ at hevent
  obtain ⟨hopens, hint⟩ | ⟨hfails, hclosed⟩ := hreplaces
  · rw [if_neg (not_lt.2 hopens)] at hevent
    refine ⟨fun k hk => ?_, fun k hk => ?_⟩
    · rw [hfds, hevent]
      by_cases hkn : k = o.fd.toInt
      · rw [hkn, Function.update_self, State.setEvent_self]
        exact (BitVec.toInt_ofInt _).trans hint
      · rw [Function.update_of_ne hkn, State.setEvent_other _ hkn]
        refine h.fd k ⟨hk.1, ?_⟩
        have := hk.2
        rwa [hevent, State.setEvent_other _ hkn] at this
    · have hkn : k ≠ o.fd.toInt := by
        rintro rfl
        apply hk.2
        rw [hevent, State.setEvent_self]
      have hopen := hk.1.2
      have hmapped := hk.2
      rw [hevent, State.setEvent_other _ hkn] at hopen hmapped ⊢
      exact h.mmapResult k ⟨⟨hk.1.1, hopen⟩, hmapped⟩
  · rw [if_pos hfails] at hevent
    refine ⟨fun k hk => ?_, fun k hk => ?_⟩
    · have hopen := hk.2
      rw [hevent] at hopen ⊢
      have hkn : k ≠ o.fd.toInt := by
        rintro rfl
        exact hopen hclosed
      rw [hfds, Function.update_of_ne hkn]
      exact h.fd k ⟨hk.1, hopen⟩
    · have hopen := hk.1.2
      have hmapped := hk.2
      rw [hevent] at hopen hmapped ⊢
      exact h.mmapResult k ⟨⟨hk.1.1, hopen⟩, hmapped⟩

theorem event_mapFor (e : Env) (fd length : Int) (s : State) :
    (∀ k ≠ fd, (mapFor e fd length s).event k = s.event k) ∧
      ((mapFor e fd length s).event fd).fdRemap = (s.event fd).fdRemap ∧
      ((mapFor e fd length s).event fd).mmapRemap =
        if e.next s = -1 then .failed else .mapped s.calls.length length := by
  have hnext : e.next (s.setEvent fd fun ev => { ev with mmapRemap := .failed, size := 0 }) =
      e.next s := rfl
  unfold mapFor
  dsimp only
  rw [hnext]
  by_cases hfails : e.next s = -1
  · rw [if_pos hfails, if_pos hfails]
    refine ⟨fun k hk => if_neg hk, ?_, ?_⟩ <;> simp
  · rw [if_neg hfails, if_neg hfails]
    refine ⟨fun k hk => (if_neg hk).trans (if_neg hk), ?_, ?_⟩
    · simp
    · simp only [State.event_hold, State.setEvent_self]
      rfl

theorem mmap_mirrored {n length : Int} (c : Call) (h : Mirrored s p) (hcalls : p.calls = s.calls)
    (hn : Live n s) : Mirrored (mmapIfOpen (plainEnv e) n length s)
      ((p.issue c).setMapping n (mapped e length p)) := by
  have hmap : (mmapIfOpen (plainEnv e) n length s) =
      mapFor (plainEnv e) n length (s.touch .event n) := if_neg hn.2
  obtain ⟨hother, hremap, hregion⟩ := event_mapFor (plainEnv e) n length (s.touch .event n)
  rw [← hmap] at hother hremap hregion
  refine ⟨fun k hk => ?_, fun k hk => ?_⟩
  · change (p.fd k).toInt = _
    by_cases hkn : k = n
    · rw [hkn, hremap]
      exact h.fd n hn
    · have hopen := hk.2
      rw [hother k hkn] at hopen ⊢
      exact h.fd k ⟨hk.1, hopen⟩
  · change Function.update p.mmapResult n (mapped e length p) k = _
    by_cases hkn : k = n
    · rw [hkn, Function.update_self, hregion, mapped, nextResult, hcalls]
      rfl
    · have hopen := hk.1.2
      have hmapped := hk.2
      rw [hother k hkn] at hopen hmapped ⊢
      rw [Function.update_of_ne hkn]
      exact h.mmapResult k ⟨⟨hk.1.1, hopen⟩, hmapped⟩

/-! ## Runs -/

/-- An orderly line leaves the tables alike. -/
theorem command_mirrored {vars : Printer} (hcomplete : CompleteAs line c) (h : Mirrored s p)
    (hcalls : p.calls = s.calls) (hc : CommandOrderly e line s c)
    (has : printCommand stack line vars c = some as) (hrun : execute e as p = some p') :
    Mirrored (runCommand (plainEnv e) line s c) p' := by
  by_cases hopen : c = .open
  · subst hopen
    have hsame := sameLine_of_full hcomplete (stack.openVars vars.lineNum)
    have hfd := (hsame noVars).fd.symm.trans (sameLine_of_full hcomplete noVars noVars).fd
    rw [execute_open has hrun, runCommand, replayAs_plainEnv]
    refine open_mirrored _ h hcalls (hsame _).fd ?_ ?_
    · rw [hfd]
      exact hc.1
    · rw [hfd]
      exact hc.2.2
  by_cases hmmap : c = .mmap
  · subst hmmap
    rw [execute_mmap hcomplete has hrun, runCommand, replayAs_plainEnv]
    change Mirrored (mmapIfOpen (plainEnv e) (scanned [.d, .d, .lx] line (e.stack s.lineNum) 1)
      (scanned [.d, .d, .lx] line (e.stack s.lineNum) 0) s) _
    rw [scanned_mmap (by decide) hcomplete, scanned_mmap (by decide) hcomplete]
    exact mmap_mirrored _ h hcalls hc
  have hshrinks : Shrinks s (runCommand (plainEnv e) line s c) := runCommand_shrinks ⟨hopen, hmmap⟩
  by_cases hfork : c = .fork
  · subst hfork
    obtain rfl := Option.some.inj has
    unfold forkEvent at hrun
    split at hrun
    · obtain rfl := Option.some.inj hrun
      exact hshrinks.mirrored h rfl rfl
    · obtain rfl := Option.some.inj hrun
      exact hshrinks.mirrored h rfl rfl
  · have hkeeps := execute_keeps (printCommand_plain ⟨hfork, hopen, hmmap⟩ has) hrun
    exact hshrinks.mirrored h hkeeps.fd hkeeps.mmapResult

theorem commandOrderly_lineNum (n : Nat) :
    CommandOrderly e line { s with lineNum := n } c ↔ CommandOrderly e line s c := by
  cases c <;> exact Iff.rfl

theorem line_mirrored {text : Str} {t u : Printer × Process} {w : Work}
    (hcomplete : Complete (.line text)) (hrelated : Related s t) (h : Mirrored s t.2)
    (hc : Orderly e (.line text) s) (hstep : codeStep e stack t (.line text) = some (u, w)) :
    Mirrored (step (plainEnv e) s (.line text)) u.2 := by
  obtain ⟨r, hr, hmap⟩ := Option.bind_eq_some_iff.1 hstep
  obtain ⟨as, has, rfl⟩ := Option.map_eq_some_iff.1 hr
  obtain ⟨p, hp, hpair⟩ := Option.map_eq_some_iff.1 hmap
  obtain ⟨rfl, -⟩ := Prod.mk.inj hpair
  obtain ⟨-, -, -, -, -, hevent⟩ := step_line e text hrelated.running
  have hafter : Mirrored (afterLine e text s) p :=
    command_mirrored hcomplete ⟨h.fd, h.mmapResult⟩ hrelated.calls
      ((commandOrderly_lineNum _).2 hc) has hp
  exact (Shrinks.of_event hevent).mirrored hafter rfl rfl

theorem signal_mirrored {fd : Int} (hrunning : s.progress = .running) (h : Mirrored s p)
    (hc : Orderly e (.signal fd) s) :
    Mirrored (step (plainEnv e) s (.signal fd)) (ourHandler fd p) := by
  rw [step_signal e fd hrunning]
  have hevent : (Replay.ourHandler fd s).event = s.event := by
    have hfew : ¬s.fdOverflows fd + 1 > 10000 := not_lt.2 hc
    exact (congrArg State.event (if_neg hfew)).trans rfl
  exact (Shrinks.of_event hevent).mirrored h rfl rfl

theorem sameWork_of_orderly {hs : List Happening} (hstarted : Started e)
    (hcomplete : ∀ h ∈ hs, Complete h)
    (horderly : Runs.Throughout (step (plainEnv e)) (Orderly e) (startState e) hs) :
    SameWork e stack hs := by
  have hopens : Mirrored (startState e) (startProcess e) := by
    have hclosed (n : Int) : ¬Live n (startState e) := by
      rintro ⟨hn, hopen⟩
      apply hopen
      have hin : InRange fdRemapSize n := ⟨hn.1, hn.2.trans (Int.ofNat_lt.2 (by decide))⟩
      exact congrArg Event.fdRemap (if_pos hin)
    exact ⟨fun n hn => absurd hn (hclosed n), fun n hn => absurd hn.1 (hclosed n)⟩
  refine (simulates hstarted stack).copies_of_throughout (Q := fun s t => Mirrored s t.2) ?_ ?_
    (start_related hstarted) hopens hcomplete horderly
  · intro s t h _ hmirrored hc
    cases h with
    | line text => exact hmirrored.commandAlike hc
    | signal fd => exact hc
  · intro s t h u hh hrelated hmirrored hc hstep
    cases h with
    | line text => exact line_mirrored hh hrelated hmirrored hc hstep
    | signal fd =>
      obtain ⟨rfl, -⟩ := Prod.mk.inj (Option.some.inj hstep)
      exact signal_mirrored hrelated.running hmirrored hc

/-! ## Whole programs -/

theorem execute_append (as bs : List Statement) (p : Process) :
    execute e (as ++ bs) p = (execute e as p).bind (execute e bs) := by
  induction as generalizing p with
  | nil => rfl
  | cons a as ih =>
    change (a.run e p).bind (execute e (as ++ bs)) = ((a.run e p).bind (execute e as)).bind _
    rw [Option.bind_assoc]
    exact congrArg _ (funext ih)

/-- The statements of all lines are run like those of one line after the other. -/
theorem execute_logToCode {lines : List Str} {t u : Printer × Process} {ws : List Work}
    (hrun : run? (codeStep e stack) t (lines.map .line) = some (u, ws)) :
    ∃ as, logToCode stack lines t.1 = some as ∧ execute e as t.2 = some u.2 := by
  induction lines generalizing t ws with
  | nil =>
    obtain ⟨rfl, -⟩ := Prod.mk.inj (Option.some.inj hrun)
    exact ⟨[], rfl, rfl⟩
  | cons line lines ih =>
    obtain ⟨v, hstep, ws', hrest, -⟩ := run?_cons.1 hrun
    obtain ⟨r, hr, hmap⟩ := Option.bind_eq_some_iff.1 hstep
    obtain ⟨p, hp, rfl⟩ := Option.map_eq_some_iff.1 hmap
    obtain ⟨bs, hbs, hbsrun⟩ := ih hrest
    refine ⟨r.2 ++ bs, ?_, ?_⟩
    · change (printLine stack line t.1).bind (fun r => (logToCode stack lines r.1).bind fun bs =>
        some (r.2 ++ bs)) = _
      rw [hr, Option.bind_some]
      exact congrArg (fun x : Option _ => x.bind fun bs => some (r.2 ++ bs)) hbs
    · rw [execute_append, hp]
      exact hbsrun

/-- To run the program for all lines is to print and to run one line after the other. -/
theorem run_of_execute {lines : List Str} {t : Printer × Process} {q : Process}
    (has : logToCode stack lines t.1 = some as) (hrun : execute e as t.2 = some q) :
    ∃ c ws, run? (codeStep e stack) t (lines.map .line) = some ((c, q), ws) := by
  induction lines generalizing t as with
  | nil =>
    obtain rfl := Option.some.inj has
    obtain rfl := Option.some.inj hrun
    exact ⟨t.1, [], rfl⟩
  | cons line lines ih =>
    obtain ⟨r, hr, hrest⟩ := Option.bind_eq_some_iff.1 has
    obtain ⟨bs, hbs, hsome⟩ := Option.bind_eq_some_iff.1 hrest
    obtain rfl := Option.some.inj hsome
    rw [execute_append] at hrun
    obtain ⟨p, hp, hq⟩ := Option.bind_eq_some_iff.1 hrun
    obtain ⟨c, ws, hws⟩ := ih (t := (r.1, p)) hbs hq
    have hstep : codeStep e stack t (.line line) =
        some ((r.1, p), workBetween t.2.calls t.2.memsets p.calls p.memsets) :=
      Option.bind_eq_some_iff.2 ⟨r, hr, Option.map_eq_some_iff.2 ⟨p, hp, rfl⟩⟩
    exact ⟨c, _, run?_cons.2 ⟨_, hstep, ws, hws, rfl⟩⟩

theorem final_replayStep (e : Env) (hs : List Happening) (s : State) :
    final (replayStep e) s hs = replayFrom (plainEnv e) hs s := rfl

/-- A program that does the work of the replay line by line has a meaning as a whole. -/
theorem program_of_sameWork {lines : List Str} (hstarted : Started e)
    (hcomplete : ∀ line ∈ lines, Complete (.line line))
    (hsame : SameWork e stack (lines.map .line)) :
    ∃ as u, logToCode stack lines {} = some as ∧ execute e as (startProcess e) = some u.2 ∧
      Related (replayFrom (plainEnv e) (lines.map .line) (startState e)) u := by
  obtain ⟨u, hrun⟩ := hsame
  obtain ⟨as, has, hexecute⟩ := execute_logToCode hrun
  have hfinal := (simulates hstarted stack).final_related (start_related hstarted)
    (List.forall_mem_map.2 hcomplete) hrun
  rw [final_replayStep] at hfinal
  exact ⟨as, u, has, hexecute, hfinal⟩

theorem program_of_orderly (stack : Stack) {lines : List Str} (hstarted : Started e)
    (hcomplete : ∀ line ∈ lines, Complete (.line line))
    (horderly : Runs.Throughout (step (plainEnv e)) (Orderly e) (startState e)
      (lines.map .line)) :
    ∃ as u, logToCode stack lines {} = some as ∧ execute e as (startProcess e) = some u.2 ∧
      Related (replayFrom (plainEnv e) (lines.map .line) (startState e)) u :=
  program_of_sameWork hstarted hcomplete
    (sameWork_of_orderly hstarted (List.forall_mem_map.2 hcomplete) horderly)

/-- What is left of the replay after its loop is to kill a child. -/
theorem replay_of_related {lines : List Str} {u : Printer × Process}
    (h : Related (replayFrom (plainEnv e) (lines.map .line) (startState e)) u) :
    (replay (plainEnv e) (lines.map .line)).memsets = u.2.memsets ∧
      (replay (plainEnv e) (lines.map .line)).calls =
        u.2.calls ++ if u.2.forkedPid = 0 then [] else [.kill u.2.forkedPid] := by
  have hreplay : replay (plainEnv e) (lines.map .line) =
      killChild (replayFrom (plainEnv e) (lines.map .line) (startState e)) := rfl
  constructor
  · rw [hreplay, h.memsets, killChild]
    split <;> rfl
  · rw [hreplay, h.calls, h.forkedPid, killChild, h.running]
    split_ifs <;> simp_all [State.issue]

theorem orderly_of_command {text : Str} (h : command (cString text).head? = c)
    (hc : CommandOrderly e (cString text) s c) : Orderly e (.line text) s := by
  subst h
  exact hc

/-- One event is opened and closed. -/
def oneEventLog : List LogEntry := [.open 5 0 (-1) (-1) 0 {}, .close 5]

end PerfEvent.LogToCode
