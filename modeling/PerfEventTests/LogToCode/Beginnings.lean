import PerfEventTests.LogToCode.Entries

/-!
# Programs for the beginnings of a log

A log may end behind any of its lines. The program that is printed for its first lines, run as a
whole, is compared with the replay of these lines by all that the two have done until then. For all
beginnings of a log this comes to the condition for each line.
-/

namespace PerfEvent.LogToCode

open Text ByteMemory Replay Lockstep
open Fuzzer (affinityLine iocEnable)

variable {e : Env} {stack : Stack} {lines : List Str} {t : Printer × Process}

/-- The program that is printed for the lines has a meaning, and does what the replay does in its
loop over them. The replay then kills a child that is left over. -/
def PrintedAlike (e : Env) (stack : Stack) (lines : List Str) : Prop :=
  let s := replayFrom (plainEnv e) (lines.map .line) (startState e)
  ∃ as p, logToCode stack lines {} = some as ∧ execute e as (startProcess e) = some p ∧
    p.calls = s.calls ∧ p.memsets = s.memsets ∧
    (replay (plainEnv e) (lines.map .line)).calls =
      p.calls ++ if p.forkedPid = 0 then [] else [.kill p.forkedPid]

theorem printedAlike_of_sameWork (hstarted : Started e)
    (hcomplete : ∀ line ∈ lines, Complete (.line line))
    (hsame : SameWork e stack (lines.map .line)) : PrintedAlike e stack lines := by
  obtain ⟨as, u, has, hexecute, hfinal⟩ := program_of_sameWork hstarted hcomplete hsame
  exact ⟨as, u.2, has, hexecute, hfinal.calls, hfinal.memsets, (replay_of_related hfinal).2⟩

/-- A step of the program puts out what it adds to the calls and the memsets. -/
theorem work_of_codeStep {h : Happening} {r : (Printer × Process) × Work}
    (hstep : codeStep e stack t h = some r) :
    r.2 = workBetween t.2.calls t.2.memsets r.1.2.calls r.1.2.memsets := by
  cases h with
  | line text =>
    obtain ⟨_, -, hmap⟩ := Option.bind_eq_some_iff.1 hstep
    obtain ⟨_, -, rfl⟩ := Option.map_eq_some_iff.1 hmap
    rfl
  | signal fd =>
    obtain rfl := Option.some.inj hstep
    rfl

theorem sameWork_of_printedAlike (h : ∀ n, PrintedAlike e stack (lines.take n)) :
    SameWork e stack (lines.map .line) := by
  refine copies_of_look (fun s : State => (s.calls, s.memsets))
    (fun t : Printer × Process => (t.2.calls, t.2.memsets)) ?_ fun n => ?_
  · intro s t h r hbefore hstep hafter
    obtain ⟨hcalls, hmemsets⟩ := Prod.mk.inj hbefore
    obtain ⟨hcalls', hmemsets'⟩ := Prod.mk.inj hafter
    rw [work_of_codeStep hstep, hcalls, hmemsets, hcalls', hmemsets']
    rfl
  · obtain ⟨as, p, has, hexecute, hcalls, hmemsets, -⟩ := h n
    obtain ⟨c, ws, hrun⟩ := run_of_execute (t := start e) has hexecute
    rw [← List.map_take]
    refine ⟨_, hrun, ?_⟩
    rw [final_replayStep]
    exact Prod.ext hcalls hmemsets

/-- A line of each kind. The event has the same number in the log and in the program. -/
def everyKind : List LogEntry :=
  [.open 3 0 (-1) (-1) 0 {}, .overflow 3, .ioctl 3 iocEnable 0, .read 3 8, .mmap 4096 3 0,
    .trash 1 4096 3, .poll [3] 10, .munmap 3 4096 0, .prctl 1, .fork 1, .fork 0, .affinity 0 [2],
    .transfer 0 1 8 8, .close 3]

theorem everyKind_wellFormed : ∀ x ∈ everyKind, x.WellFormed := by
  simp only [everyKind, List.forall_mem_cons, List.not_mem_nil, false_imp_iff, implies_true,
    and_true, LogEntry.WellFormed]
  decide

theorem everyKind_orderly : Runs.Throughout (LogEntry.step oneEventEnv) (EntryOrderly oneEventEnv)
    (startState oneEventEnv) everyKind := by
  refine ⟨⟨?_, .inl ?_, .inl ?_⟩, ?overflow, ⟨?ioctl, ?output, ?flag⟩, ⟨?read, ?_⟩, ?mmap,
    ⟨?trash, ?_⟩, ?poll, ⟨⟨?munmap, ?_⟩, ?_⟩, trivial, trivial, trivial, rfl, ⟨?_, .inl ?_⟩,
    ?close, trivial⟩
  case overflow | ioctl | read | mmap | trash | munmap | close => exact ⟨by decide, by decide⟩
  case poll => exact List.forall_mem_singleton.2 ⟨⟨by decide, by decide⟩, by decide⟩
  case output => exact fun h => absurd h (by decide)
  case flag => exact fun _ => by decide
  all_goals decide

end PerfEvent.LogToCode
