import PerfEventTests.ActiveEvents.Machine
import PerfEventTests.Fuzzer.OpenLine
import PerfEventTests.Replay.OpenRoundTrip

/-!
# What a log says about its events

The lines of a log as the events of their life cycles, and the exact condition on a log under
which the tables of `active_events` are those that the log describes after each of its lines.
-/

namespace PerfEvent.ActiveEvents

open Text Fuzzer Replay Runs

/-! ## The meaning of a line -/

/-- What a line says has been done. -/
inductive Effect where
  | opens (fd : Int) (on : Bool)
  | closes (fd : Int)
  | turns (fd : Int) (on : Bool)
  | turnsAll (on : Bool)
  | nothing
  deriving DecidableEq

/-- The variables of an open line, zero where the line has no number for them. -/
def lineVars (line : Str) : OpenVars :=
  parseOpenEvent line ⟨0, 0, 0, 0, 0, {}, zeroBits⟩

def openEffect (line : Str) : Effect :=
  if sscanfLine (openFields.map ScanField.conv) line = [] then .nothing
  else .opens (lineVars line).fd.toInt ((lineVars line).pe.disabled = 0)

def closeEffect (line : Str) : Effect :=
  match sscanfLine [.d] line with
  | fd :: _ => .closes fd
  | [] => .nothing

def requestEffect (fd request : Int) : Effect :=
  match requested request with
  | some on => .turns fd on
  | none => .nothing

def ioctlEffect (line : Str) : Effect :=
  match sscanfLine [.d, .d, .d] line with
  | fd :: request :: _ => requestEffect fd request
  | _ => .nothing

/-- A line that lacks a number says nothing, except that a prctl line without one disables. -/
def effect (line : Str) : Effect :=
  match line.head? with
  | some 'O' => openEffect line
  | some 'C' => closeEffect line
  | some 'I' => ioctlEffect line
  | some 'P' => .turnsAll (flagOf line ≠ 0)
  | _ => .nothing

def meaning (lines : List Str) : List Effect := lines.map fun text => effect (cString text)

def Effect.Opens (fd : Int) (x : Effect) : Prop := ∃ on, x = .opens fd on

/-- The effect decides whether the event, if it is open, is enabled. -/
def Effect.Affects (fd : Int) (x : Effect) : Prop :=
  ∃ on, x = .opens fd on ∨ x = .turns fd on ∨ x = .turnsAll on

def Effect.Enables (fd : Int) (x : Effect) : Prop :=
  x = .opens fd true ∨ x = .turns fd true ∨ x = .turnsAll true

/-- There is an open line for the event, and no close line for it behind. -/
def OpenIn (fd : Int) (xs : List Effect) : Prop := Since (· = .closes fd) (Effect.Opens fd) xs

/-- The event is open, and the last line that affects it turned it on. -/
def EnabledIn (fd : Int) (xs : List Effect) : Prop :=
  OpenIn fd xs ∧ Since (Effect.Affects fd) (Effect.Enables fd) xs

/-- The tables are those of the log, and no line has left them. -/
structure Right (s : State) (xs : List Effect) : Prop where
  opened : ∀ fd, InRange maxEvents fd → ((s.eventInfo fd).opened ≠ 0 ↔ OpenIn fd xs)
  opened_of_enabled : ∀ fd, InRange maxEvents fd →
    (s.eventInfo fd).enabled ≠ 0 → (s.eventInfo fd).opened ≠ 0
  enabled : ∀ fd, InRange maxEvents fd → ((s.eventInfo fd).enabled ≠ 0 ↔ EnabledIn fd xs)
  inside : ∀ x ∈ s.accesses, x.Inside

/-! ## One event -/

structure Status where
  isOpen : Bool
  isOn : Bool
  deriving DecidableEq

def status (s : State) (fd : Int) : Status :=
  ⟨(s.eventInfo fd).opened ≠ 0, (s.eventInfo fd).enabled ≠ 0⟩

/-- What becomes of one event. -/
def Effect.apply (fd : Int) : Effect → Status → Status
  | .opens n on, st => if n = fd then ⟨true, on⟩ else st
  | .closes n, st => if n = fd then ⟨false, false⟩ else st
  | .turns n on, st => if n = fd ∧ st.isOpen then ⟨true, on⟩ else st
  | .turnsAll on, st => if st.isOpen then ⟨true, on⟩ else st
  | .nothing, st => st

/-- The status is that of the log. -/
def Reflects (fd : Int) (st : Status) (xs : List Effect) : Prop :=
  (st.isOpen ↔ OpenIn fd xs) ∧ (st.isOn ↔ EnabledIn fd xs)

variable {fd : Int} {st st' : Status} {xs : List Effect} {x : Effect}

theorem reflects_nil : Reflects fd ⟨false, false⟩ [] :=
  ⟨by simp [OpenIn, not_since_nil], by simp [EnabledIn, OpenIn, not_since_nil]⟩

theorem reflects_unique (h : Reflects fd st xs) (h' : Reflects fd st' xs) : st = st' := by
  obtain ⟨isOpen, isOn⟩ := st
  obtain ⟨isOpen', isOn'⟩ := st'
  obtain ⟨hopen, hon⟩ := h
  obtain ⟨hopen', hon'⟩ := h'
  have hopens : isOpen = isOpen' := Bool.eq_iff_iff.2 (hopen.trans hopen'.symm)
  have hons : isOn = isOn' := Bool.eq_iff_iff.2 (hon.trans hon'.symm)
  rw [hopens, hons]

theorem openIn_append : OpenIn fd (xs ++ [x]) ↔
    x.Opens fd ∨ x ≠ .closes fd ∧ OpenIn fd xs := since_append_singleton x

theorem enabledIn_append : EnabledIn fd (xs ++ [x]) ↔
    (x.Opens fd ∨ x ≠ .closes fd ∧ OpenIn fd xs) ∧
      (x.Enables fd ∨ ¬x.Affects fd ∧ Since (Effect.Affects fd) (Effect.Enables fd) xs) :=
  and_congr openIn_append (since_append_singleton x)

theorem reflects_apply (h : Reflects fd st xs) : Reflects fd (x.apply fd st) (xs ++ [x]) := by
  obtain ⟨hopen, hon⟩ := h
  unfold Reflects
  rw [openIn_append, enabledIn_append]
  cases x with
  | opens n on =>
    by_cases hn : n = fd
    · cases on <;> simp [Effect.apply, Effect.Opens, Effect.Enables, Effect.Affects, hn]
    · simp [Effect.apply, Effect.Opens, Effect.Enables, Effect.Affects, hn, hopen, hon, EnabledIn]
  | closes n =>
    by_cases hn : n = fd
    · simp [Effect.apply, Effect.Opens, hn]
    · simp [Effect.apply, Effect.Opens, Effect.Enables, Effect.Affects, hn, hopen, hon, EnabledIn]
  | turns n on =>
    by_cases hn : n = fd
    · by_cases hst : OpenIn fd xs
      · have hst' := hopen.2 hst
        cases on <;> simp [Effect.apply, Effect.Opens, Effect.Enables, Effect.Affects, hn, hst, hst']
      · have hst' : st.isOpen = false := by simpa [hst] using hopen
        simp [Effect.apply, Effect.Opens, hn, hst, hst', hon, EnabledIn]
    · simp [Effect.apply, Effect.Opens, Effect.Enables, Effect.Affects, hn, hopen, hon, EnabledIn]
  | turnsAll on =>
    by_cases hst : OpenIn fd xs
    · have hst' := hopen.2 hst
      cases on <;> simp [Effect.apply, Effect.Opens, Effect.Enables, Effect.Affects, hst, hst']
    · have hst' : st.isOpen = false := by simpa [hst] using hopen
      simp [Effect.apply, Effect.Opens, hst, hst', hon, EnabledIn]
  | nothing =>
    simp [Effect.apply, Effect.Opens, Effect.Enables, Effect.Affects, hopen, hon, EnabledIn]

theorem reflects_append_iff (h : Reflects fd st xs) :
    Reflects fd st' (xs ++ [x]) ↔ st' = x.apply fd st := by
  constructor
  · exact fun h' => reflects_unique h' (reflects_apply h)
  · rintro rfl
    exact reflects_apply h

/-! ## One line -/

/-- The effect changes no entry of the table. -/
def Idle (x : Effect) (s : State) : Prop :=
  ∀ fd, InRange maxEvents fd → x.apply fd (status s fd) = status s fd

/-- The condition for a line with each first letter. A variable that the line leaves unset must not
do anything to the events. -/
def LineSound (e : Env) (line : Str) (s : State) : Prop :=
  match line.head? with
  | some 'C' =>
    let fd := scanned [.d] line (e.stack s.lineNum) 0
    InRange maxEvents fd ∧ (closeEffect line = .nothing → Idle (.closes fd) s)
  | some 'I' =>
    let var := scanned [.d, .d, .d] line (e.stack s.lineNum)
    ∀ on, requested (var 1) = some on → InRange maxEvents (var 0) ∧
      (on = true → (s.eventInfo (var 0)).opened ≠ 0) ∧
      (ioctlEffect line = .nothing → Idle (.turns (var 0) on) s)
  | some 'M' => InRange maxEvents (scanned [.d, .d] line (e.stack s.lineNum) 1)
  | some 'O' =>
    let o := parseOpenEvent line (e.openStack s.lineNum)
    if openEffect line = .nothing then Idle (.opens o.fd.toInt (o.pe.enableOnExec = 1)) s
    else InRange maxEvents o.fd.toInt → (o.pe.enableOnExec = 1 ↔ (lineVars line).pe.disabled = 0)
  | some 'o' => InRange maxEvents (scanned [.d] line (e.stack s.lineNum) 0)
  | some 'U' => InRange maxEvents (scanned [.d, .d] line (e.stack s.lineNum) 0)
  | _ => True

/-- The condition for one step. After an early end no line is read any more. -/
def Sound (e : Env) (text : Str) (s : State) : Prop :=
  if s.quit then Idle (effect (cString text)) s
  else LineSound e (cString text) { s with lineNum := s.lineNum + 1 }

/-- The entries follow the effect, and the accesses are inside. -/
def Follows (x : Effect) (s s' : State) : Prop :=
  (∀ fd, InRange maxEvents fd → status s' fd = x.apply fd (status s fd)) ∧
    ∀ a ∈ s'.accesses, a.Inside

variable {e : Env} {s s' : State} {line : Str} {on : Bool} {y : Effect} {new : List Access}

theorem right_iff : Right s xs ↔
    (∀ fd, InRange maxEvents fd → Reflects fd (status s fd) xs) ∧ ∀ a ∈ s.accesses, a.Inside := by
  constructor
  · rintro ⟨hopen, -, hon, hinside⟩
    refine ⟨fun fd hfd => ⟨?_, ?_⟩, hinside⟩
    · exact decide_eq_true_iff.trans (hopen fd hfd)
    · exact decide_eq_true_iff.trans (hon fd hfd)
  · rintro ⟨hreflects, hinside⟩
    have hopen : ∀ fd, InRange maxEvents fd → ((s.eventInfo fd).opened ≠ 0 ↔ OpenIn fd xs) :=
      fun fd hfd => decide_eq_true_iff.symm.trans (hreflects fd hfd).1
    have hon : ∀ fd, InRange maxEvents fd → ((s.eventInfo fd).enabled ≠ 0 ↔ EnabledIn fd xs) :=
      fun fd hfd => decide_eq_true_iff.symm.trans (hreflects fd hfd).2
    refine ⟨hopen, fun fd hfd henabled => ?_, hon, hinside⟩
    exact (hopen fd hfd).2 ((hon fd hfd).1 henabled).1

theorem right_append_iff (h : Right s xs) : Right s' (xs ++ [x]) ↔ Follows x s s' := by
  rw [right_iff]
  refine and_congr_left fun _ => forall₂_congr fun fd hfd => ?_
  exact reflects_append_iff ((right_iff.1 h).1 fd hfd)

/-! ### What a handler does -/

/-- The handler does what the effect `y` says, and uses the entries `new`. -/
structure Does (y : Effect) (new : List Access) (s s' : State) : Prop where
  entries : ∀ fd, InRange maxEvents fd → status s' fd = y.apply fd (status s fd)
  accesses : s'.accesses = s.accesses ++ new

theorem Does.follows_iff (hs : ∀ a ∈ s.accesses, a.Inside) (h : Does y new s s') :
    Follows x s s' ↔ (∀ a ∈ new, a.Inside) ∧
      ∀ fd, InRange maxEvents fd → y.apply fd (status s fd) = x.apply fd (status s fd) := by
  unfold Follows
  rw [h.accesses, and_comm]
  simp only [List.mem_append, or_imp, forall_and]
  rw [and_iff_right hs]
  exact and_congr_right fun _ => forall₂_congr fun fd hfd => by rw [h.entries fd hfd]

theorem Does.follows_nothing (hs : ∀ a ∈ s.accesses, a.Inside) (h : Does y new s s') :
    Follows .nothing s s' ↔ (∀ a ∈ new, a.Inside) ∧ Idle y s := h.follows_iff hs

theorem Does.follows_self (hs : ∀ a ∈ s.accesses, a.Inside) (h : Does y new s s') :
    Follows y s s' ↔ ∀ a ∈ new, a.Inside := by
  rw [h.follows_iff hs]
  exact and_iff_left fun _ _ => rfl

theorem inside_singleton {a : Access} : (∀ x ∈ [a], x.Inside) ↔ a.Inside := by simp

/-- The status of an entry that is written. -/
theorem status_setEvent (f : EventInfo → EventInfo) (fd n : Int) :
    status (s.setEvent n f) fd =
      if n = fd then ⟨(f (s.eventInfo fd)).opened ≠ 0, (f (s.eventInfo fd)).enabled ≠ 0⟩
      else status s fd := by
  by_cases hn : n = fd
  · simp [status, State.setEvent, hn]
  · simp [status, State.setEvent, hn, Ne.symm hn]

/-- Some other field of the entry is written. -/
theorem status_setEvent_same {f : EventInfo → EventInfo} (fd n : Int)
    (hopened : ∀ ev, (f ev).opened = ev.opened) (henabled : ∀ ev, (f ev).enabled = ev.enabled) :
    status (s.setEvent n f) fd = status s fd := by
  rw [status_setEvent, hopened, henabled]
  exact ite_self _

/-- No event is enabled without being open. -/
def OnlyOpen (s : State) : Prop :=
  ∀ fd, InRange maxEvents fd → (s.eventInfo fd).enabled ≠ 0 → (s.eventInfo fd).opened ≠ 0

theorem OnlyOpen.status (hs : OnlyOpen s) (hfd : InRange maxEvents fd)
    (hclosed : (s.eventInfo fd).opened = 0) : status s fd = ⟨false, false⟩ := by
  have henabled : (s.eventInfo fd).enabled = 0 := by
    by_contra henabled
    exact hs fd hfd henabled hclosed
  simp [ActiveEvents.status, hclosed, henabled]

theorem closeFor_does (hs : OnlyOpen s) (n : Int) :
    Does (.closes n) [.eventInfo n] s (closeFor n s) := by
  by_cases hopen : (s.eventInfo n).opened = 0
  · rw [show closeFor n s = s.access [.eventInfo n] from if_pos hopen]
    refine ⟨fun fd hfd => ?_, rfl⟩
    by_cases hn : n = fd
    · subst hn
      rw [Effect.apply, if_pos rfl]
      exact hs.status hfd hopen
    · exact (if_neg hn).symm
  · rw [show closeFor n s = (s.access [.eventInfo n]).setEvent n closeEntry from if_neg hopen]
    refine ⟨fun fd _ => ?_, rfl⟩
    rw [status_setEvent]
    rfl

theorem ioctl_does (hs : OnlyOpen s) {n : Int}
    (hon : on = true → (s.eventInfo n).opened ≠ 0) :
    Does (.turns n on) [.eventInfo n] s ((s.access [.eventInfo n]).setEvent n (turn on)) := by
  refine ⟨fun fd hfd => ?_, rfl⟩
  rw [status_setEvent, Effect.apply]
  by_cases hn : n = fd
  · subst hn
    by_cases hopen : (s.eventInfo n).opened = 0
    · have hoff : on = false := by
        cases on with
        | true => exact absurd hopen (hon rfl)
        | false => rfl
      rw [hs.status hfd hopen]
      simp [turn, hopen, hoff]
    · have hisOpen : (status s n).isOpen = true := decide_eq_true hopen
      rw [if_pos rfl, if_pos ⟨rfl, hisOpen⟩]
      cases on <;> simp [turn, hopen]
  · rw [if_neg hn, if_neg fun h => hn h.1]
    rfl

theorem mmapFor_does (n size : Int) :
    Does .nothing ([.eventInfo n] ++ if (s.eventInfo n).opened = 0 then [] else [.mmapInfo n])
      s (mmapFor n size s) := by
  by_cases hopen : (s.eventInfo n).opened = 0
  · rw [show mmapFor n size s = s.access [.eventInfo n] from if_pos hopen, if_pos hopen]
    exact ⟨fun _ _ => rfl, rfl⟩
  · rw [if_neg hopen]
    have heq : mmapFor n size s = ((((s.access [.eventInfo n]).setEvent n fun ev =>
        { ev with mmap := 1 }).access [.mmapInfo n]).setMmap n fun _ =>
          { valid := 1, size := size }) := if_neg hopen
    rw [heq]
    refine ⟨fun fd _ => ?_, List.append_assoc ..⟩
    exact status_setEvent_same (s := s) (f := fun ev => { ev with mmap := 1 }) fd n
      (fun _ => rfl) fun _ => rfl

theorem munmapFor_does (n : Int) : Does .nothing [.mmapInfo n] s (munmapFor n s) := by
  unfold munmapFor
  dsimp only
  split <;> exact ⟨fun _ _ => rfl, rfl⟩

theorem openFor_does (o : OpenVars) :
    Does (.opens o.fd.toInt (o.pe.enableOnExec = 1))
      (if InRange maxEvents o.fd.toInt then [.eventInfo o.fd.toInt] else []) s (openFor o s) := by
  unfold openFor
  by_cases hrange : InRange maxEvents o.fd.toInt
  · rw [if_pos hrange, if_pos hrange]
    refine ⟨fun fd _ => ?_, rfl⟩
    rw [status_setEvent, Effect.apply]
    have honce : (o.pe.enableOnExec.toNat : Int) ≠ 0 ↔ o.pe.enableOnExec = 1 := by
      generalize o.pe.enableOnExec = v
      revert v
      decide
    simp [openEntry, honce]
    rfl
  · rw [if_neg hrange, if_neg hrange]
    refine ⟨fun fd hfd => ?_, (List.append_nil _).symm⟩
    have hn : o.fd.toInt ≠ fd := by
      rintro rfl
      exact hrange hfd
    exact (if_neg hn).symm

theorem prctlFor_does : Does (.turnsAll on) everyEvent s (prctlFor on s) := by
  refine ⟨fun fd hfd => ?_, rfl⟩
  by_cases hopen : (s.eventInfo fd).opened = 0
  · simp [status, prctlFor, Effect.apply, hopen]
  · cases on <;> simp [status, prctlFor, Effect.apply, hopen, hfd, turn]

theorem everyEvent_inside : ∀ a ∈ everyEvent, a.Inside := by
  simp only [everyEvent, List.mem_map, List.mem_range, forall_exists_index, and_imp]
  rintro a i hi rfl
  exact ⟨Int.natCast_nonneg i, Int.ofNat_lt.2 hi⟩

theorem overflowFor_does (n : Int) : Does .nothing [.eventInfo n] s (overflowFor n s) := by
  refine ⟨fun fd _ => ?_, rfl⟩
  exact status_setEvent_same fd n (fun _ => rfl) fun _ => rfl

theorem does_nothing (hentries : s'.eventInfo = s.eventInfo)
    (haccesses : s'.accesses = s.accesses) : Does .nothing [] s s' := by
  refine ⟨fun fd _ => ?_, haccesses.trans (List.append_nil _).symm⟩
  unfold status
  rw [hentries]
  rfl

/-! ### What a line does -/

theorem closeEvent_follows (hs : ∀ a ∈ s.accesses, a.Inside) (ho : OnlyOpen s) :
    Follows (closeEffect line) s (closeEvent e line s) ↔
      InRange maxEvents (scanned [.d] line (e.stack s.lineNum) 0) ∧
        (closeEffect line = .nothing →
          Idle (.closes (scanned [.d] line (e.stack s.lineNum) 0)) s) := by
  have hdoes := closeFor_does ho (scanned [.d] line (e.stack s.lineNum) 0)
  unfold closeEvent closeEffect
  cases h : sscanfLine [.d] line with
  | nil => simpa [Access.Inside] using hdoes.follows_nothing hs
  | cons fd vs =>
    have hscanned : scanned [.d] line (e.stack s.lineNum) 0 = fd := by simp [scanned, h]
    rw [hscanned] at hdoes ⊢
    simpa [Access.Inside] using hdoes.follows_self hs

theorem ioctlFor_none {fd request : Int} (h : requested request = none) :
    ioctlFor fd request s = s := by
  unfold ioctlFor
  rw [h]

theorem ioctlFor_some {fd request : Int} (h : requested request = some on) :
    ioctlFor fd request s = (s.access [.eventInfo fd]).setEvent fd (turn on) := by
  unfold ioctlFor
  rw [h]

/-- The line says nothing, or its numbers are those that were scanned. -/
theorem ioctlEffect_eq (line : Str) (stack : Nat → Int) : ioctlEffect line = .nothing ∨
    ioctlEffect line = requestEffect (scanned [.d, .d, .d] line stack 0)
      (scanned [.d, .d, .d] line stack 1) := by
  unfold ioctlEffect scanned
  rcases sscanfLine [.d, .d, .d] line with _ | ⟨fd, _ | ⟨request, vs⟩⟩
  · exact .inl rfl
  · exact .inl rfl
  · exact .inr rfl

theorem ioctlEffect_closed {fd : Int} {st : Status} (h : st.isOpen = false) :
    (ioctlEffect line).apply fd st = st := by
  obtain hnothing | hrequest := ioctlEffect_eq line fun _ => 0
  · rw [hnothing]
    rfl
  · rw [hrequest, requestEffect]
    split
    · exact if_neg fun hst => by simp [h] at hst
    · rfl

/-- An event that is not open would become enabled. -/
theorem not_follows_ioctl {fd : Int} (hfd : InRange maxEvents fd) (ho : OnlyOpen s)
    (hclosed : (s.eventInfo fd).opened = 0) :
    ¬Follows (ioctlEffect line) s ((s.access [.eventInfo fd]).setEvent fd (turn true)) := by
  rintro ⟨hstatus, -⟩
  have hst := ho.status hfd hclosed
  have heq := hstatus fd hfd
  rw [hst, ioctlEffect_closed rfl, status_setEvent] at heq
  simp [turn] at heq

theorem ioctlEvent_follows (hs : ∀ a ∈ s.accesses, a.Inside) (ho : OnlyOpen s) :
    Follows (ioctlEffect line) s (ioctlEvent e line s) ↔
      ∀ on, requested (scanned [.d, .d, .d] line (e.stack s.lineNum) 1) = some on →
        InRange maxEvents (scanned [.d, .d, .d] line (e.stack s.lineNum) 0) ∧
        (on = true →
          (s.eventInfo (scanned [.d, .d, .d] line (e.stack s.lineNum) 0)).opened ≠ 0) ∧
        (ioctlEffect line = .nothing →
          Idle (.turns (scanned [.d, .d, .d] line (e.stack s.lineNum) 0) on) s) := by
  have heffect := ioctlEffect_eq line (e.stack s.lineNum)
  unfold ioctlEvent
  dsimp only
  generalize scanned [.d, .d, .d] line (e.stack s.lineNum) 0 = fd at heffect ⊢
  generalize scanned [.d, .d, .d] line (e.stack s.lineNum) 1 = request at heffect ⊢
  cases hrequested : requested request with
  | none =>
    have hnothing : ioctlEffect line = .nothing := by
      obtain h | h := heffect
      · exact h
      · rw [h, requestEffect, hrequested]
    rw [ioctlFor_none hrequested, hnothing]
    exact iff_of_true ⟨fun _ _ => rfl, hs⟩ (by simp)
  | some on =>
    rw [ioctlFor_some hrequested]
    by_cases hbad : InRange maxEvents fd ∧ on = true ∧ (s.eventInfo fd).opened = 0
    · obtain ⟨hfd, rfl, hclosed⟩ := hbad
      exact iff_of_false (not_follows_ioctl hfd ho hclosed) fun h => (h true rfl).2.1 rfl hclosed
    · by_cases hfd : InRange maxEvents fd
      · have hopen : on = true → (s.eventInfo fd).opened ≠ 0 := fun hon hclosed =>
          hbad ⟨hfd, hon, hclosed⟩
        have hdoes := ioctl_does ho hopen
        have hinside : ∀ a ∈ [Access.eventInfo fd], a.Inside := inside_singleton.2 hfd
        by_cases hnothing : ioctlEffect line = .nothing
        · rw [hnothing, hdoes.follows_nothing hs, and_iff_right hinside]
          constructor
          · rintro hidle on' ⟨⟩
            exact ⟨hfd, hopen, fun _ => hidle⟩
          · intro h
            exact (h on rfl).2.2 rfl
        · have hturns : ioctlEffect line = .turns fd on := by
            rw [heffect.resolve_left hnothing, requestEffect, hrequested]
          rw [hturns, hdoes.follows_self hs]
          refine iff_of_true hinside ?_
          rintro on' ⟨⟩
          exact ⟨hfd, hopen, fun h => absurd h (by simp)⟩
      · refine iff_of_false (fun h => hfd ?_) fun h => hfd (h on rfl).1
        exact h.2 (.eventInfo fd) (List.mem_append_right _ (List.mem_singleton_self _))

/-- The number of the descriptor is stored by the first conversion only. -/
theorem assign_fd (fs : List ScanField) (hfs : ∀ f ∈ fs, ∀ v o, (f.store v o).fd = o.fd)
    (vs : List Int) (o : OpenVars) : (assign fs vs o).fd = o.fd := by
  induction fs generalizing vs o with
  | nil => rfl
  | cons f fs ih =>
    cases vs with
    | nil => rfl
    | cons v vs =>
      rw [assign, ih fun g hg => hfs g (List.mem_cons_of_mem f hg)]
      exact hfs f List.mem_cons_self v o

theorem parseOpenEvent_fd (h : sscanfLine (openFields.map ScanField.conv) line ≠ [])
    (o o' : OpenVars) : (parseOpenEvent line o).fd = (parseOpenEvent line o').fd := by
  have hrest : ∀ f ∈ openFields.tail, ∀ v o, (f.store v o).fd = o.fd := by
    simp only [openFields, List.tail_cons, List.forall_mem_cons, implies_true, List.not_mem_nil,
      false_implies, and_self]
  obtain ⟨v, vs, hvs⟩ := List.exists_cons_of_ne_nil h
  have hfd : ∀ o, (parseOpenEvent line o).fd = BitVec.ofInt 32 v := by
    intro o
    unfold parseOpenEvent
    rw [hvs]
    exact assign_fd openFields.tail hrest vs _
  rw [hfd o, hfd o']

theorem openEvent_follows (hs : ∀ a ∈ s.accesses, a.Inside) :
    Follows (openEffect line) s (openEvent e line s) ↔
      let o := parseOpenEvent line (e.openStack s.lineNum)
      if openEffect line = .nothing then Idle (.opens o.fd.toInt (o.pe.enableOnExec = 1)) s
      else InRange maxEvents o.fd.toInt →
        (o.pe.enableOnExec = 1 ↔ (lineVars line).pe.disabled = 0) := by
  have hdoes := openFor_does (s := s) (parseOpenEvent line (e.openStack s.lineNum))
  have hinside : ∀ n, ∀ a ∈ if InRange maxEvents n then [Access.eventInfo n] else [],
      a.Inside := by
    intro n
    split
    · exact inside_singleton.2 ‹_›
    · simp
  dsimp only
  unfold openEvent
  split
  · next hnothing => rw [hnothing, hdoes.follows_nothing hs, and_iff_right (hinside _)]
  · next hsome =>
    have hscan : sscanfLine (openFields.map ScanField.conv) line ≠ [] := by
      intro h
      exact hsome (if_pos h)
    have hopens : openEffect line =
        .opens (lineVars line).fd.toInt ((lineVars line).pe.disabled = 0) := if_neg hscan
    have hfd : (lineVars line).fd = (parseOpenEvent line (e.openStack s.lineNum)).fd :=
      parseOpenEvent_fd hscan _ _
    rw [hopens, hfd, hdoes.follows_iff hs, and_iff_right (hinside _)]
    generalize parseOpenEvent line (e.openStack s.lineNum) = o
    constructor
    · intro h hrange
      have hst := h _ hrange
      rw [Effect.apply, Effect.apply, if_pos rfl, if_pos rfl] at hst
      simpa using congrArg Status.isOn hst
    · intro h fd hrange
      unfold Effect.apply
      dsimp only
      split
      · next heq =>
        have hiff := h (heq ▸ hrange)
        simp only [decide_eq_decide.2 hiff]
      · rfl

theorem Does.follows_entry (hs : ∀ a ∈ s.accesses, a.Inside) {a : Access}
    (h : Does .nothing [a] s s') : Follows .nothing s s' ↔ a.Inside := by
  rw [h.follows_self hs]
  exact inside_singleton

theorem mmapFor_follows (hs : ∀ a ∈ s.accesses, a.Inside) (n size : Int) :
    Follows .nothing s (mmapFor n size s) ↔ InRange maxEvents n := by
  rw [(mmapFor_does n size).follows_self hs]
  split <;> simp [Access.Inside]

theorem follows_nothing (hs : ∀ a ∈ s.accesses, a.Inside) (hentries : s'.eventInfo = s.eventInfo)
    (haccesses : s'.accesses = s.accesses) : Follows .nothing s s' := by
  rw [(does_nothing hentries haccesses).follows_self hs]
  simp

/-- The step lemma for a line that is read. -/
theorem dispatch_follows (hs : ∀ a ∈ s.accesses, a.Inside) (ho : OnlyOpen s) :
    Follows (effect line) s (dispatch e line s) ↔ LineSound e line s := by
  unfold effect dispatch LineSound
  generalize line.head? = head
  split
  · exact openEvent_follows hs
  · exact closeEvent_follows hs ho
  · exact ioctlEvent_follows hs ho
  · refine iff_of_true ?_ trivial
    exact (prctlFor_does.follows_self hs).2 everyEvent_inside
  · split
    · contradiction
    · exact iff_of_true (follows_nothing hs rfl rfl) trivial
    · contradiction
    · exact mmapFor_follows hs _ _
    · contradiction
    · exact (overflowFor_does _).follows_entry hs
    · contradiction
    · exact (munmapFor_does _).follows_entry hs
    · exact iff_of_true (follows_nothing hs rfl rfl) trivial
    · exact iff_of_true (follows_nothing hs rfl rfl) trivial
    · exact iff_of_true (follows_nothing hs rfl rfl) trivial
    · exact iff_of_true (follows_nothing hs rfl rfl) trivial
    · exact iff_of_true (follows_nothing hs rfl rfl) trivial
    · exact iff_of_true (follows_nothing hs rfl rfl) trivial
    · refine iff_of_true (follows_nothing hs rfl rfl) ?_
      split <;> first | contradiction | exact trivial

theorem step_follows (hs : ∀ a ∈ s.accesses, a.Inside) (ho : OnlyOpen s) (text : Str) :
    Follows (effect (cString text)) s (step e s text) ↔ Sound e text s := by
  unfold step Sound
  by_cases hquit : s.quit
  · rw [if_pos hquit, if_pos hquit]
    constructor
    · exact fun h fd hfd => (h.1 fd hfd).symm
    · exact fun h => ⟨fun fd hfd => (h fd hfd).symm, hs⟩
  · rw [if_neg hquit, if_neg hquit]
    have hline : Follows (effect (cString text)) s
        (dispatch e (cString text) { s with lineNum := s.lineNum + 1 }) ↔
          LineSound e (cString text) { s with lineNum := s.lineNum + 1 } := dispatch_follows hs ho
    rw [← hline]
    dsimp only
    split <;> exact Iff.rfl

theorem Right.onlyOpen (h : Right s xs) : OnlyOpen s := h.opened_of_enabled

theorem startState_right : Right (startState e) [] := by
  refine right_iff.2 ⟨fun fd hfd => ?_, fun a ha => absurd ha (List.not_mem_nil)⟩
  have hstatus : status (startState e) fd = ⟨false, false⟩ := by simp [status, startState, hfd]
  rw [hstatus]
  exact reflects_nil

/-- After every part of a log the tables are those that it describes, and no line has left them,
exactly when each line meets the condition. -/
theorem readLog_right_iff (e : Env) (lines : List Str) :
    (∀ part, part <+: lines → Right (readLog e part) (meaning part)) ↔
      Throughout (step e) (Sound e) (startState e) lines := by
  have hstep : ∀ s past text, Right s (meaning past) →
      (Right (step e s text) (meaning (past ++ [text])) ↔ Sound e text s) := by
    intro s past text h
    rw [meaning, List.map_append]
    exact (right_append_iff h).trans (step_follows h.inside h.onlyOpen text)
  have hstart : Right (startState e) (meaning []) := startState_right
  exact forall_prefix_iff_throughout hstep hstart

/-- All memory is zero. -/
def zeroEnv : Env where
  stack _ _ := 0
  openStack _ := ⟨0, 0, 0, 0, 0, {}, zeroBits⟩
  outsideEvent _ := {}
  outsideMmap _ := {}

/-- An event that starts enabled, as the fuzzer logs it. -/
def enabledOpen : Str := openLine 5 100 (-1) (-1) 0 {}

/-- The event is not reported as enabled. -/
theorem readLog_not_right : ¬∀ (e : Env) (lines part : List Str), part <+: lines →
    Right (readLog e part) (meaning part) := by
  intro h
  have hright := h zeroEnv [enabledOpen] [enabledOpen] List.prefix_rfl
  have hmeaning : meaning [enabledOpen] = [.opens 5 true] := by decide +kernel
  have henabled : ((readLog zeroEnv [enabledOpen]).eventInfo 5).enabled = 0 := by decide +kernel
  rw [hmeaning] at hright
  have hin : EnabledIn 5 [.opens 5 true] :=
    ⟨⟨[], _, [], rfl, ⟨true, rfl⟩, by simp⟩, [], _, [], rfl, .inl rfl, by simp⟩
  exact (hright.enabled 5 (by decide)).2 hin henabled

/-! ## The report -/

/-- The report lists the events that are open, and those that are enabled. -/
theorem Right.report (h : Right s xs) {r : Report} (hr : report s = some r) (fd : Nat) :
    (fd ∈ r.opened ↔ fd < maxEvents ∧ OpenIn fd xs) ∧
      (fd ∈ r.enabled ↔ fd < maxEvents ∧ EnabledIn fd xs) := by
  have hrange : fd < maxEvents → InRange maxEvents fd := fun hfd =>
    ⟨Int.natCast_nonneg fd, Int.ofNat_lt.2 hfd⟩
  unfold ActiveEvents.report at hr
  split at hr
  · contradiction
  · rw [← Option.some.inj hr]
    simp only [List.mem_filter, List.mem_range, decide_eq_true_eq]
    exact ⟨and_congr_right fun hfd => h.opened fd (hrange hfd),
      and_congr_right fun hfd => h.enabled fd (hrange hfd)⟩

end PerfEvent.ActiveEvents
