import PerfEventTests.LogToCode.Printer
import PerfEventTests.Replay.LineWork

/-!
# What the printed statements do

The statements for one line are run on their own. For each kind of line: when they have a meaning,
and the calls and `memset`s that they make, beside those of the replay.
-/

namespace PerfEvent.LogToCode

open Text ByteMemory Replay
open Fuzzer (InRange iocEnable iocReset iocPeriod iocSetOutput iocSetFilter iocId
  perfEventIocDisable perfEventIocRefresh)

variable {e : Env} {p p' q : Process} {s : State} {w w' : Work} {as : List Statement}

/-! ## Running statements -/

/-- The program has done `w`. The mask is still there. -/
structure Did (p p' : Process) (w : Work) : Prop where
  calls : p'.calls = p.calls ++ w.calls
  memsets : p'.memsets = p.memsets ++ w.memsets

namespace Did

theorem refl (p : Process) : Did p p {} := ⟨(List.append_nil _).symm, (List.append_nil _).symm⟩

theorem issue (h : Did p p' w) (c : Call) : Did p (p'.issue c) { w with calls := w.calls ++ [c] } where
  calls := by
    rw [← List.append_assoc, ← h.calls]
    rfl
  memsets := h.memsets

/-- An update of the variables. -/
theorem update (h : Did p p' w) (hcalls : q.calls = p'.calls) (hmemsets : q.memsets = p'.memsets) :
    Did p q w :=
  ⟨hcalls.trans h.calls, hmemsets.trans h.memsets⟩

theorem work (h : Did p p' w) : workBetween p.calls p.memsets p'.calls p'.memsets = w := by
  ext1
  · exact (congrArg (List.drop p.calls.length) h.calls).trans List.drop_left
  · exact (congrArg (List.drop p.memsets.length) h.memsets).trans List.drop_left

end Did

/-- The statements have a meaning, and it is to do `w`. -/
def Performs (e : Env) (as : List Statement) (p : Process) (w : Work) : Prop :=
  ∃ p', execute e as p = some p' ∧ workBetween p.calls p.memsets p'.calls p'.memsets = w

theorem performs_of_some (hrun : execute e as p = some p') (h : Did p p' w') :
    Performs e as p w ↔ w' = w := by
  constructor
  · rintro ⟨q, hq, hw⟩
    obtain rfl := Option.some.inj (hrun.symm.trans hq)
    exact h.work.symm.trans hw
  · exact fun hw => ⟨p', hrun, h.work.trans hw⟩

theorem not_performs_of_none (hrun : execute e as p = none) : ¬Performs e as p w := by
  rintro ⟨q, hq, -⟩
  rw [hrun] at hq
  cases hq

/-- Statements that have a meaning under `c`. -/
theorem performs_iff {c : Prop} (p' : Process) (hrun : c → execute e as p = some p' ∧ Did p p' w')
    (hnone : ¬c → execute e as p = none) : Performs e as p w ↔ c ∧ w' = w := by
  by_cases hc : c
  · rw [performs_of_some (hrun hc).1 (hrun hc).2]
    exact (and_iff_right hc).symm
  · exact iff_of_false (not_performs_of_none (hnone hc)) fun h => hc h.1

@[simp] theorem execute_nil : execute e [] p = some p := rfl

@[simp] theorem execute_cons (a : Statement) :
    execute e (a :: as) p = (a.run e p).bind (execute e as) := rfl

theorem execute_singleton (a : Statement) : execute e [a] p = a.run e p := by
  rw [execute_cons]
  cases a.run e p <;> rfl

@[simp] theorem fd_issue (c : Call) : (p.issue c).fd = p.fd := rfl

theorem descriptor_inside {n : Int} (h : InRange numValues n) :
    p.descriptor n = some (p.fd n).toInt := if_pos h

theorem descriptor_outside {n : Int} (h : ¬InRange numValues n) : p.descriptor n = none := if_neg h

theorem mapping_inside {n : Int} (h : InRange numValues n) :
    p.mapping n = some (p.mmapResult n) := if_pos h

theorem mapping_outside {n : Int} (h : ¬InRange numValues n) : p.mapping n = none := if_neg h

/-! ## One call on a descriptor -/

/-- The two tables have the same for a recorded descriptor. -/
def Named (n : Int) (s : State) (p : Process) : Prop :=
  InRange numValues n ∧ (p.fd n).toInt = (s.event n).fdRemap

theorem singleton_eq_iff {c d : Call} : (⟨[c], []⟩ : Work) = ⟨[d], []⟩ ↔ c = d := by
  simp

theorem empty_ne_singleton {c : Call} : (⟨[c], []⟩ : Work) ≠ {} := by
  simp

/-- A statement that makes one call with `fd[n]`. -/
theorem performs_call {a : Statement} {n : Int} {c : Int → Call}
    (hrun : a.run e p = (p.descriptor n).map fun fd => p.issue (c fd)) :
    Performs e [a] p w ↔ InRange numValues n ∧ (⟨[c (p.fd n).toInt], []⟩ : Work) = w := by
  refine performs_iff (p.issue (c (p.fd n).toInt)) (fun hn => ⟨?_, ?_⟩) fun hn => ?_
  · rw [execute_cons, hrun, descriptor_inside hn]
    rfl
  · exact (Did.refl p).issue _
  · rw [execute_cons, hrun, descriptor_outside hn]
    rfl

theorem performs_close {n : Int} : Performs e [.close n] p (closeWork n s) ↔
    Named n s p ∧ (s.event n).fdRemap ≠ -1 := by
  rw [performs_call (c := .close) rfl, closeWork]
  split
  case isTrue h => exact iff_of_false (fun hw => empty_ne_singleton hw.2) fun hn => hn.2 h
  case isFalse h =>
    rw [singleton_eq_iff, Call.close.injEq]
    exact (and_iff_left h).symm

theorem performs_read {n size : Int} : Performs e [.read n size] p (readWork n size s) ↔
    Named n s p ∧ toUnsigned 64 size ≤ readRoom := by
  rw [performs_call (c := fun fd => .read fd size) rfl, readWork]
  split
  case isTrue h => exact iff_of_false (fun hw => empty_ne_singleton hw.2) fun hn => not_lt.2 hn.2 h
  case isFalse h =>
    rw [singleton_eq_iff, Call.read.injEq, and_iff_left rfl]
    exact (and_iff_left (not_lt.1 h)).symm

theorem performs_mmap {n length : Int} : Performs e [.mmap n length] p (mmapWork n length s) ↔
    Named n s p ∧ (s.event n).fdRemap ≠ -1 := by
  have hperforms : Performs e [.mmap n length] p (mmapWork n length s) ↔ InRange numValues n ∧
      (⟨[mmapCall length (p.fd n).toInt], []⟩ : Work) = mmapWork n length s := by
    refine performs_iff ((p.issue (mmapCall length (p.fd n).toInt)).setMapping n
      (mapped e length p)) (fun hn => ⟨?_, ?_⟩) fun hn => ?_
    · rw [execute_cons, Statement.run, descriptor_inside hn]
      rfl
    · exact ((Did.refl p).issue (mmapCall length (p.fd n).toInt)).update rfl rfl
    · rw [execute_cons, Statement.run, descriptor_outside hn]
      rfl
  rw [hperforms, mmapWork]
  split
  case isTrue h => exact iff_of_false (fun hw => empty_ne_singleton hw.2) fun hn => hn.2 h
  case isFalse h =>
    simp only [singleton_eq_iff, mmapCall, Call.mmap.injEq, true_and, and_true]
    exact (and_iff_left h).symm

theorem performs_overflow {n : Int} :
    Performs e (overflowStatements n) p (overflowWork n s) ↔ Named n s p := by
  have hperforms : Performs e (overflowStatements n) p (overflowWork n s) ↔ InRange numValues n ∧
      (⟨.sigaction :: overflowCommands.map (.fcntl (p.fd n).toInt), []⟩ : Work) =
        overflowWork n s := by
    refine performs_iff ((((p.issue .sigaction).issue (.fcntl (p.fd n).toInt 4)).issue
      (.fcntl (p.fd n).toInt 10)).issue (.fcntl (p.fd n).toInt 8)) (fun hn => ⟨?_, ?_⟩) fun hn => ?_
    · simp only [overflowStatements, overflowCommands, List.map_cons, List.map_nil, execute_cons,
        execute_nil, Statement.run, Option.bind_some, fd_issue, descriptor_inside hn,
        Option.map_some]
    · exact ((((Did.refl p).issue _).issue _).issue _).issue _
    · simp only [overflowStatements, overflowCommands, List.map_cons, execute_cons, Statement.run,
        Option.bind_some, descriptor_outside hn, Option.map_none, Option.bind_none]
  rw [hperforms, overflowWork]
  refine and_congr_right fun _ => ?_
  simp [overflowCommands]

/-! ## Mappings -/

/-- What the program may unmap or write to is what the replay has mapped. -/
theorem performs_munmap {n size : Int} : Performs e [.munmap n size] p (munmapWork n size s) ↔
    InRange numValues n ∧ (s.event n).fdRemap ≠ -1 ∧ (s.event n).size = size ∧
      (s.event n).mmapRemap ≠ .failed ∧ p.mmapResult n = (s.event n).mmapRemap := by
  have hperforms : Performs e [.munmap n size] p (munmapWork n size s) ↔ InRange numValues n ∧
      (⟨[.munmap (p.mmapResult n) size], []⟩ : Work) = munmapWork n size s := by
    refine performs_iff (p.issue (.munmap (p.mmapResult n) size)) (fun hn => ⟨?_, ?_⟩)
      fun hn => ?_
    · rw [execute_cons, Statement.run, mapping_inside hn]
      rfl
    · exact (Did.refl p).issue _
    · rw [execute_cons, Statement.run, mapping_outside hn]
      rfl
  rw [hperforms, munmapWork]
  refine and_congr_right fun _ => ?_
  split_ifs with hclosed hsize hfailed
  · exact iff_of_false empty_ne_singleton fun h => h.1 hclosed
  · exact iff_of_false empty_ne_singleton fun h => hsize h.2.1
  · exact iff_of_false empty_ne_singleton fun h => h.2.2.1 hfailed
  · simp only [singleton_eq_iff, Call.munmap.injEq, and_true]
    exact ⟨fun h => ⟨hclosed, not_not.1 hsize, hfailed, h⟩, fun h => h.2.2.2⟩

/-- What the replay writes to. -/
def written (n : Int) (s : State) : Region :=
  if (s.event n).fdRemap = -1 then .null
  else match (s.event n).mmapRemap with
    | .mapped call length => .mapped call length
    | _ => .null

theorem trashWork_eq (n value size : Int) : trashWork n value size s =
    if written n s = .null then {} else ⟨[], [⟨written n s, value, size⟩]⟩ := by
  unfold trashWork written
  by_cases h : (s.event n).fdRemap = -1
  · simp only [if_pos h, if_true]
  · simp only [if_neg h]
    cases (s.event n).mmapRemap <;> rfl

theorem performs_memset {n value size : Int} :
    Performs e [.memset n value size] p (trashWork n value size s) ↔
      InRange numValues n ∧ p.mmapResult n = written n s := by
  have hwritten : written n s ≠ .failed := by
    unfold written
    split
    · simp
    · split <;> simp
  rw [trashWork_eq]
  by_cases hn : InRange numValues n
  · rw [and_iff_right hn]
    have hrun : execute e [.memset n value size] p =
        memsetRegion (p.mmapResult n) value size p := by
      rw [execute_singleton, Statement.run, mapping_inside hn, Option.bind_some]
    cases hregion : p.mmapResult n with
    | failed =>
      rw [hregion] at hrun
      exact iff_of_false (not_performs_of_none hrun) hwritten.symm
    | null =>
      rw [hregion] at hrun
      rw [performs_of_some hrun (.refl p)]
      split
      case isTrue h => exact iff_of_true rfl h.symm
      case isFalse h => exact iff_of_false (by simp) fun h' => h h'.symm
    | mapped call length =>
      rw [hregion] at hrun
      have hdid : Did p { p with memsets := p.memsets ++ [⟨.mapped call length, value, size⟩] }
          ⟨[], [⟨.mapped call length, value, size⟩]⟩ := ⟨(List.append_nil _).symm, rfl⟩
      rw [performs_of_some hrun hdid]
      split
      case isTrue h => exact iff_of_false (by simp) (by rw [h]; simp)
      case isFalse h => simp
  · refine iff_of_false (not_performs_of_none ?_) fun h => hn h.1
    rw [execute_cons, Statement.run, mapping_outside hn]
    rfl

/-! ## Requests -/

/-- The requests whose argument is printed as an `int` of flags. -/
def FlagRequest (request : Int) : Prop :=
  request = requestInt iocEnable ∨ request = requestInt perfEventIocDisable ∨
    request = requestInt iocReset

theorem or_one (v : BitVec 32) (h : v.getLsbD 0 = true) : 1 ||| v = v := by
  ext i hi
  cases i with
  | zero =>
    rw [BitVec.getLsbD_eq_getElem hi] at h
    simpa using h
  | succ i => simp [BitVec.getElem_one]

/-- The constant in front adds nothing. -/
theorem value_ioctlArgPrint (v : BitVec 32) :
    (ioctlArgPrint v).value p = some (.value v.toInt) := by
  unfold ioctlArgPrint
  split
  case isTrue h => rw [Arg.value, or_one v h]
  case isFalse => rfl

/-- An `ioctl` whose argument has a value. -/
theorem performs_ioctl_some {n request : Int} {arg : Arg} {v : Argument}
    (hv : arg.value p = some v) : Performs e [.ioctl n request arg] p w ↔
      InRange numValues n ∧ (⟨[.ioctl (p.fd n).toInt request v], []⟩ : Work) = w := by
  refine performs_call (c := fun fd => .ioctl fd request v) ?_
  rw [Statement.run, hv]
  cases p.descriptor n <;> rfl

variable {n request arg : Int}

/-- The argument is the one that the replay passes. -/
theorem performs_ioctl_as {a : Arg} {v : Argument} (hv : a.value p = some v)
    (hsame : ioctlArgument request arg s = v) :
    Performs e [.ioctl n request a] p (ioctlWork n request arg s) ↔ Named n s p := by
  rw [performs_ioctl_some hv, ioctlWork, hsame, singleton_eq_iff, Call.ioctl.injEq]
  exact and_congr_right fun _ => and_iff_left ⟨rfl, rfl⟩

theorem performs_ioctl_flags (hargument : ioctlArgument request arg s = .value arg) :
    Performs e [.ioctl n request (ioctlArgPrint (.ofInt 32 arg))] p (ioctlWork n request arg s) ↔
      Named n s p ∧ toInt32 arg = arg := by
  have htoInt : (BitVec.ofInt 32 arg).toInt = toInt32 arg := BitVec.toInt_ofInt arg
  rw [performs_ioctl_some (value_ioctlArgPrint _), ioctlWork, hargument, singleton_eq_iff,
    Call.ioctl.injEq, Argument.value.injEq, htoInt, Named]
  tauto

theorem performs_setPeriod (hargument : ioctlArgument request arg s = .period arg) :
    Performs e [.setPeriod arg, .ioctl n request .period] p (ioctlWork n request arg s) ↔
      Named n s p := by
  have hset : Performs e [.setPeriod arg, .ioctl n request .period] p (ioctlWork n request arg s) ↔
      Performs e [.ioctl n request .period] { p with period := arg }
        (ioctlWork n request arg s) := Iff.rfl
  rw [hset, performs_ioctl_as (v := .period arg) rfl hargument]
  exact Iff.rfl

theorem performs_setOutput
    (hargument : ioctlArgument request arg s = .value (s.event arg).fdRemap) :
    Performs e [.ioctl n request (.descriptor arg)] p (ioctlWork n request arg s) ↔
      Named n s p ∧ Named arg s p := by
  by_cases h : InRange numValues arg
  · have hv : (Arg.descriptor arg).value p = some (.value (p.fd arg).toInt) := by
      rw [Arg.value, descriptor_inside h]
      rfl
    rw [performs_ioctl_some hv, ioctlWork, hargument, singleton_eq_iff, Call.ioctl.injEq,
      Argument.value.injEq, Named, Named]
    tauto
  · refine iff_of_false (not_performs_of_none ?_) fun hnamed => h hnamed.2.1
    rw [execute_singleton, Statement.run, Arg.value, descriptor_outside h]
    cases p.descriptor n <;> rfl

/-- What is asked of an `ioctl` line. -/
def IoctlAlike (n request arg : Int) (s : State) (p : Process) : Prop :=
  Named n s p ∧ (request = requestInt iocSetOutput → arg = -1 ∨ Named arg s p) ∧
    (FlagRequest request → toInt32 arg = arg)

/-- The requests are all different. -/
theorem performs_ioctl : Performs e (ioctlStatements n request arg) p (ioctlWork n request arg s) ↔
    IoctlAlike n request arg s p := by
  unfold ioctlStatements IoctlAlike FlagRequest
  by_cases hflag : request = requestInt iocEnable ∨ request = requestInt perfEventIocDisable ∨
      request = requestInt iocReset
  · have hargument : ioctlArgument request arg s = .value arg := by
      rcases hflag with rfl | rfl | rfl <;> rfl
    have hother : request ≠ requestInt iocSetOutput ∧ request ≠ requestInt perfEventIocRefresh := by
      rcases hflag with rfl | rfl | rfl <;> decide
    have hflags := performs_ioctl_flags (e := e) (p := p) (n := n) hargument
    rw [imp_iff_right hflag, ← and_assoc, and_iff_left fun h => absurd h hother.1]
    rcases hflag with rfl | rfl | rfl
    · exact hflags
    · exact hflags
    · exact hflags
  · rw [← and_assoc, and_iff_left fun h => absurd h hflag]
    obtain ⟨henable, hdisable, hreset⟩ : request ≠ requestInt iocEnable ∧
      request ≠ requestInt perfEventIocDisable ∧ request ≠ requestInt iocReset := by tauto
    rw [if_neg henable, if_neg hdisable, if_neg hreset]
    by_cases houtput : request = requestInt iocSetOutput
    · subst houtput
      rw [if_neg (by decide), if_neg (by decide), if_pos rfl, imp_iff_right rfl]
      split
      case isTrue harg =>
        have hargument : ioctlArgument (requestInt iocSetOutput) arg s = .value arg := if_pos harg
        rw [performs_ioctl_as (v := .value arg) rfl hargument, and_iff_left (.inl harg)]
      case isFalse harg =>
        have hargument : ioctlArgument (requestInt iocSetOutput) arg s =
          .value (s.event arg).fdRemap := if_neg harg
        rw [performs_setOutput hargument, or_iff_right harg]
    · rw [and_iff_left fun h => absurd h houtput, if_neg houtput]
      have hargument : ioctlArgument request arg s = if request = requestInt iocId then .idOut
          else if request = requestInt iocPeriod then .period arg else .value arg :=
        if_neg houtput
      split_ifs with hrefresh hperiod hfilter hid
      · subst hrefresh
        exact performs_ioctl_as rfl hargument
      · subst hperiod
        exact performs_setPeriod hargument
      · subst hfilter
        exact performs_ioctl_as rfl hargument
      · subst hid
        exact performs_ioctl_as rfl hargument
      · rw [if_neg hid, if_neg hperiod] at hargument
        exact performs_ioctl_as rfl hargument

/-! ## Polling -/

/-- The first entries of a poll line, as far as there are two texts for each. -/
def pollPairs : Nat → List Str → List (Int × Int)
  | n + 1, fd :: events :: texts =>
    (atoi fd, toSigned 16 (atoi events)) :: pollPairs n texts
  | _, _ => []

def pollPrints : Nat → List (Int × Int) → List Statement
  | _, [] => []
  | i, (n, events) :: pairs => .setPollfd i n events :: pollPrints (i + 1) pairs

def storePolls (p : Process) : Nat → List (Int × Int) → Process
  | _, [] => p
  | i, (n, events) :: pairs =>
    storePolls { p with pollfds := Function.update p.pollfds i (p.fd n, events) } (i + 1) pairs

theorem length_pollPairs (n : Nat) : ∀ texts : List Str, 2 * n ≤ texts.length →
    (pollPairs n texts).length = n := by
  induction n with
  | zero => exact fun _ _ => rfl
  | succ n ih =>
    rintro (_ | ⟨fd, _ | ⟨events, texts⟩⟩) h
    · simp at h
    · simp at h
      omega
    · refine congrArg Nat.succ (ih texts ?_)
      simp only [List.length_cons] at h
      omega

/-- The two readers find the same texts on a line that has enough of them. -/
theorem pollEntries_eq (n : Nat) : ∀ (i : Nat) (texts : List Str), 2 * n ≤ texts.length →
    pollEntries n i texts = (pollPrints i (pollPairs n texts), texts.drop (2 * n)) ∧
    ∀ s : State, (Replay.pollEntries n i texts s).1 =
        (pollPairs n texts).map (fun q => (q.1, some q.2)) ∧
      (Replay.pollEntries n i texts s).2.1 = texts.drop (2 * n) := by
  induction n with
  | zero => exact fun _ _ _ => ⟨rfl, fun _ => ⟨rfl, rfl⟩⟩
  | succ n ih =>
    rintro i (_ | ⟨fd, _ | ⟨events, texts⟩⟩) h
    · simp at h
    · simp at h
      omega
    · obtain ⟨hprints, hentries⟩ := ih (i + 1) texts (by simp only [List.length_cons] at h; omega)
      have hdrop : (fd :: events :: texts).drop (2 * (n + 1)) = texts.drop (2 * n) := by
        rw [Nat.mul_succ]
        rfl
      rw [hdrop]
      refine ⟨?_, fun s => ?_⟩
      · rw [pollEntries, hprints]
        rfl
      · obtain ⟨hfst, hsnd⟩ := hentries ((s.touch .pollfds i).hand (atoi fd) (atoi fd))
        exact ⟨congrArg (_ :: ·) hfst, hsnd⟩

/-- On a line that has not enough of them, nothing is left. -/
theorem pollEntries_short (n : Nat) : ∀ (i : Nat) (texts : List Str), texts.length ≤ 2 * n →
    (pollEntries n i texts).2 = [] := by
  induction n with
  | zero =>
    intro i texts h
    exact List.length_eq_zero_iff.1 (Nat.le_zero.1 h)
  | succ n ih =>
    rintro i (_ | ⟨fd, _ | ⟨events, texts⟩⟩) h
    · rfl
    · rfl
    · exact ih (i + 1) texts (by simp only [List.length_cons] at h; omega)

/-- These statements only store. -/
theorem pollEntries_stores (n : Nat) : ∀ (i : Nat) (texts : List Str),
    ∀ a ∈ (pollEntries n i texts).1, ∃ k m events, a = .setPollfd k m events := by
  induction n with
  | zero => exact fun _ _ _ h => absurd h List.not_mem_nil
  | succ n ih =>
    rintro i (_ | ⟨fd, _ | ⟨events, texts⟩⟩) a ha
    · exact absurd ha List.not_mem_nil
    · exact absurd ha List.not_mem_nil
    · obtain rfl | ha := List.mem_cons.1 ha
      · exact ⟨_, _, _, rfl⟩
      · exact ih (i + 1) texts a ha

theorem execute_stores (h : ∀ a ∈ as, ∃ k m events, a = .setPollfd k m events)
    (hrun : execute e as p = some q) : Did p q {} := by
  induction as generalizing p with
  | nil =>
    obtain rfl := Option.some.inj hrun
    exact .refl p
  | cons a as ih =>
    obtain ⟨⟨k, m, events, rfl⟩, has⟩ := List.forall_mem_cons.1 h
    obtain ⟨r, hr, hrest⟩ := Option.bind_eq_some_iff.1 hrun
    have hdid := ih has hrest
    rw [Statement.run] at hr
    split at hr
    · obtain ⟨-, -, rfl⟩ := Option.map_eq_some_iff.1 hr
      exact ⟨hdid.calls, hdid.memsets⟩
    · cases hr

theorem storePolls_frame (pairs : List (Int × Int)) : ∀ (i : Nat) (p : Process),
    Did p (storePolls p i pairs) {} ∧ (storePolls p i pairs).fd = p.fd ∧
      ∀ k : Nat, k < i → (storePolls p i pairs).pollfds k = p.pollfds k := by
  induction pairs with
  | nil => exact fun _ p => ⟨.refl p, rfl, fun _ _ => rfl⟩
  | cons q pairs ih =>
    intro i p
    obtain ⟨hdid, hfd, hpolls⟩ :=
      ih (i + 1) { p with pollfds := Function.update p.pollfds i (p.fd q.1, q.2) }
    refine ⟨⟨hdid.calls, hdid.memsets⟩, hfd, fun k hk => ?_⟩
    rw [storePolls, hpolls k (by omega)]
    exact Function.update_of_ne (by omega) _ _

/-- What has been stored is found again. -/
theorem pollfds_storePolls (pairs : List (Int × Int)) : ∀ (i : Nat) (p : Process),
    (List.range pairs.length).map (fun k => (storePolls p i pairs).pollfds ((i + k : Nat) : Int)) =
      pairs.map fun q => (p.fd q.1, q.2) := by
  induction pairs with
  | nil => exact fun _ _ => rfl
  | cons q pairs ih =>
    intro i p
    have hfirst := (storePolls_frame pairs (i + 1)
      { p with pollfds := Function.update p.pollfds i (p.fd q.1, q.2) }).2.2 i (Nat.lt_succ_self i)
    have hrest := ih (i + 1) { p with pollfds := Function.update p.pollfds i (p.fd q.1, q.2) }
    rw [List.length_cons, List.range_succ_eq_map, List.map_cons, List.map_map, List.map_cons,
      ← hrest]
    refine List.cons_eq_cons.2 ⟨?_, List.map_congr_left fun k _ => ?_⟩
    · exact hfirst.trans (Function.update_self ..)
    · rw [Function.comp_apply, storePolls, Nat.succ_eq_add_one, Nat.add_right_comm, Nat.add_assoc]

theorem execute_pollPrints (pairs : List (Int × Int)) : ∀ (i : Nat) (p : Process)
    (as : List Statement),
    (i + pairs.length ≤ maxPollFds ∧ (∀ q ∈ pairs, InRange numValues q.1) →
      execute e (pollPrints i pairs ++ as) p = execute e as (storePolls p i pairs)) ∧
    (¬(i + pairs.length ≤ maxPollFds ∧ ∀ q ∈ pairs, InRange numValues q.1) → i ≤ maxPollFds →
      execute e (pollPrints i pairs ++ as) p = none) := by
  induction pairs with
  | nil => exact fun i p as => ⟨fun _ => rfl, fun h hi => absurd ⟨hi, by simp⟩ h⟩
  | cons q pairs ih =>
    intro i p as
    have hcons : execute e (pollPrints i (q :: pairs) ++ as) p =
        ((Statement.setPollfd i q.1 q.2).run e p).bind
          (execute e (pollPrints (i + 1) pairs ++ as)) := rfl
    rw [List.length_cons, List.forall_mem_cons, hcons, Statement.run]
    by_cases hindex : InRange maxPollFds i
    · rw [if_pos hindex]
      have hlt : i < maxPollFds := by
        have := hindex.2
        omega
      by_cases hn : InRange numValues q.1
      · rw [descriptor_inside hn, Option.map_some, Option.bind_some]
        obtain ⟨hall, hnone⟩ :=
          ih (i + 1) { p with pollfds := Function.update p.pollfds i (p.fd q.1, q.2) } as
        refine ⟨fun h => hall ⟨by omega, h.2.2⟩, fun h _ => hnone (fun h' => ?_) hlt⟩
        exact h ⟨by omega, hn, h'.2⟩
      · rw [descriptor_outside hn]
        exact ⟨fun h => absurd h.2.1 hn, fun _ _ => rfl⟩
    · rw [if_neg hindex]
      refine ⟨fun h => absurd ⟨Int.natCast_nonneg i, ?_⟩ hindex, fun _ _ => rfl⟩
      have := h.1
      omega

/-- What is asked of a poll line: nothing is missing, and each recorded descriptor of it is open
as the same number. -/
def PollAlike (num : Int) (texts : List Str) (p : Process) : Prop :=
  num ≤ maxPollFds ∧ 2 * num.toNat < texts.length ∧
    ∀ q ∈ pollPairs num.toNat texts, InRange numValues q.1 ∧ (p.fd q.1).toInt = q.1

theorem map_eq_map_iff_poll (pairs : List (Int × Int)) (f : Int → Int) :
    (pairs.map fun q => (f q.1, some q.2)) = pairs.map (fun q => (q.1, some q.2)) ↔
      ∀ q ∈ pairs, f q.1 = q.1 := by
  rw [List.map_inj_left]
  simp

/-- The entries that a call of `poll` takes from the array. -/
theorem entries_storePolls (pairs : List (Int × Int)) (p : Process) :
    (storePolls p 0 pairs).entries pairs.length =
      pairs.map fun q => ((p.fd q.1).toInt, some q.2) := by
  have hstored := congrArg (List.map fun q : BitVec 32 × Int => (q.1.toInt, some q.2))
    (pollfds_storePolls pairs 0 p)
  simpa [Process.entries, Function.comp_def] using hstored

theorem performs_poll {num : Int} {texts : List Str} :
    Performs e (pollStatements num texts) p (pollWork num texts s) ↔ PollAlike num texts p := by
  by_cases hlen : 2 * num.toNat < texts.length
  · obtain ⟨hprints, hentries⟩ := pollEntries_eq num.toNat 0 texts hlen.le
    obtain ⟨hfst, hsnd⟩ := hentries s
    have hlength := length_pollPairs num.toNat texts hlen.le
    obtain ⟨timeout, rest, hrest⟩ : ∃ timeout rest, texts.drop (2 * num.toNat) = timeout :: rest :=
      List.exists_cons_of_ne_nil fun h => by
        have := List.drop_eq_nil_iff.1 h
        omega
    have hstatements : pollStatements num texts =
        pollPrints 0 (pollPairs num.toNat texts) ++ [.poll num (atoi timeout)] := by
      simp only [pollStatements, hprints, hrest]
    have hwork : pollWork num texts s =
        ⟨[.poll ((pollPairs num.toNat texts).map fun q => (q.1, some q.2)) num (atoi timeout)],
          []⟩ := by
      simp only [pollWork, hfst, hsnd, hrest]
      rfl
    obtain ⟨hrun, hnone⟩ := execute_pollPrints (e := e) (pollPairs num.toNat texts) 0 p
      [.poll num (atoi timeout)]
    rw [Nat.zero_add, hlength] at hrun hnone
    have hnum : num.toNat ≤ maxPollFds ↔ num ≤ maxPollFds := by
      omega
    have hperforms : Performs e (pollStatements num texts) p (pollWork num texts s) ↔
        (num.toNat ≤ maxPollFds ∧ ∀ q ∈ pollPairs num.toNat texts, InRange numValues q.1) ∧
          (⟨[.poll ((pollPairs num.toNat texts).map fun q => ((p.fd q.1).toInt, some q.2)) num
            (atoi timeout)], []⟩ : Work) = pollWork num texts s := by
      rw [hstatements]
      refine performs_iff ((storePolls p 0 (pollPairs num.toNat texts)).issue
        (.poll ((pollPairs num.toNat texts).map fun q => ((p.fd q.1).toInt, some q.2)) num
          (atoi timeout))) (fun hc => ⟨(hrun hc).trans ?_, ?_⟩) fun hc => hnone hc (Nat.zero_le _)
      · have hentriesEq := entries_storePolls (pollPairs num.toNat texts) p
        rw [hlength] at hentriesEq
        rw [execute_singleton, Statement.run, if_pos (hnum.1 hc.1), hentriesEq]
      · exact (storePolls_frame _ 0 p).1.issue _
    rw [hperforms, hwork, singleton_eq_iff, Call.poll.injEq, hnum, PollAlike]
    simp only [and_true, map_eq_map_iff_poll _ fun n => (p.fd n).toInt]
    constructor
    · rintro ⟨⟨hmax, hin⟩, hsame⟩
      exact ⟨hmax, hlen, fun q hq => ⟨hin q hq, hsame q hq⟩⟩
    · rintro ⟨hmax, -, hall⟩
      exact ⟨⟨hmax, fun q hq => (hall q hq).1⟩, fun q hq => (hall q hq).2⟩
  · -- the program has no call for such a line, and the replay has one
    refine iff_of_false ?_ fun h => hlen h.2.1
    rintro ⟨q, hrun, hw⟩
    have hshort := pollEntries_short num.toNat 0 texts (by omega)
    simp only [pollStatements, hshort] at hrun
    have hdid := execute_stores (pollEntries_stores _ _ _) hrun
    exact empty_ne_singleton (hw.symm.trans hdid.work)

end PerfEvent.LogToCode
