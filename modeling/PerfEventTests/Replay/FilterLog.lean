import PerfEventTests.Lib.Kept
import PerfEventTests.Replay.Filtering
import PerfEventTests.Replay.LogLanguage

/-!
# A log without the lines of one letter

`filter_log` writes a log again without the lines that begin with a given letter. The replay of what
it writes does what the replay of the whole log does under the mask that leaves this letter out.
-/

namespace PerfEvent.Replay

open Text ByteMemory Fuzzer Runs

/-- `main` of `fuzzer/filter_log.c`. -/
def filterLog (letter : Char) (file : Str) : Str :=
  ((fileLines bufsiz file).filter fun line => line.head? ≠ some letter).flatMap cString

/-- Every kind of line is replayed but one. -/
def Env.without (e : Env) (kind : Kind) : Env := { e with which := fun k => k ≠ kind }

/-- What the replay finds in a file. -/
def linesOf (file : Str) : List Happening := (fileLines bufsiz file).map .line

def Kind.letter : Kind → Char
  | .open => 'O'
  | .close => 'C'
  | .ioctl => 'I'
  | .read => 'R'
  | .mmap => 'M'
  | .munmap => 'U'
  | .prctl => 'P'
  | .fork => 'F'
  | .poll => 'p'
  | .overflow => 'o'
  | .trashMmap => 'Q'
  | .access => 'A'
  | .affinity => 'a'

variable {e : Env} {kind : Kind}

/-- A kind of line has one letter. -/
theorem command_kind_iff {c : Option Char} :
    (command c).kind = some kind ↔ c = some kind.letter := by
  constructor
  · intro h
    unfold command at h
    split at h <;> cases h <;> rfl
  · rintro rfl
    cases kind <;> rfl

/-- Under this mask the replay keeps the lines that `filter_log` writes. -/
theorem keepsLine_without (line : Str) :
    keepsLine (e.without kind) true line = decide (line.head? ≠ some kind.letter) := by
  unfold keepsLine
  split
  case h_1 k hk =>
    refine decide_eq_decide.2 (not_congr ⟨?_, fun hhead => ?_⟩)
    · rintro rfl
      exact command_kind_iff.1 hk
    · rw [hhead, command_kind_iff.2 rfl] at hk
      exact (Option.some.inj hk).symm
  case h_2 hk =>
    have hne : line.head? ≠ some kind.letter := by
      intro hhead
      rw [hhead, command_kind_iff.2 rfl] at hk
      cases hk
    rw [decide_eq_true hne]
    exact decide_eq_true (.inr rfl)

/-- The lines of what is written are the lines that are kept. -/
theorem linesOf_filterLog {file : Str} (hfile : '\x00' ∉ file) :
    linesOf (filterLog kind.letter file) = subLog (e.without kind) true (linesOf file) := by
  have hstring : ∀ t ∈ fileLines bufsiz file, cString t = t :=
    fun t ht => cString_of_not_mem fun hc => hfile (mem_of_mem_readLines hc _ _ ht)
  have hwritten : filterLog kind.letter file =
      ((fileLines bufsiz file).filter fun line => line.head? ≠ some kind.letter).flatten := by
    rw [filterLog, List.flatMap_def]
    refine congrArg List.flatten ((List.map_congr_left fun t ht => ?_).trans (List.map_id _))
    exact hstring t (List.mem_filter.1 ht).1
  rw [linesOf, hwritten, fileLines_filter (by decide), subLog, linesOf, List.filter_map]
  refine congrArg (List.map Happening.line) (List.filter_congr fun t ht => ?_)
  have hkeeps : keeps (e.without kind) true (.line t) = keepsLine (e.without kind) true t :=
    congrArg (keepsLine (e.without kind) true) (hstring t ht)
  exact (hkeeps.trans (keepsLine_without t)).symm

/-- Leaving the lines out of the file or out of the replay is the same, in all but the numbers of
the lines; and every other line does operations of its own kind, as long as no affinity line goes on
to close an event. A line finds on the stack what it finds there in the whole log. -/
theorem replay_filterLog (e : Env) (kind : Kind) (file : Str) (hskip : e.skipLines = 0)
    (hstop : e.stopLines = 0) (hfile : '\x00' ∉ file)
    (hapart : Throughout (step (e.without kind)) (AffinityApart (e.without kind))
      (startState (e.without kind)) (linesOf file)) :
    Like (replay (e.without kind) (linesOf file))
      (replay (subEnv (e.without kind) true (linesOf file))
        (linesOf (filterLog kind.letter file))) := by
  have horigin : ∀ i, lineOrigin (e.without kind) true (linesOf file) (0 + 1 + i) =
      (lineNumbers (e.without kind) true 0 (linesOf file)).getD i 0 := by
    intro i
    rw [lineOrigin, Nat.zero_add, Nat.add_sub_cancel_left]
  have hstart : Like (startState (e.without kind))
      (startState (subEnv (e.without kind) true (linesOf file))) := ⟨rfl⟩
  have hrun := run_filtered (e := e.without kind) ⟨hskip, hstop⟩ true (linesOf file) hstart horigin
  rw [linesOf_filterLog hfile]
  exact killChild_like (hrun.like hapart)

/-- Where there is a mask an affinity line is cut behind its letter. -/
theorem lineApart_affinityLine {s : State} (haffinity : e.which .affinity = true)
    (hmask : (s.cpuMask <|> e.cpuAlloc) ≠ none) (which : Nat) (cpus : List Nat) :
    LineApart e (affinityLine which cpus) s := by
  have hfirst : (affinityLine which cpus).takeWhile (fun c => !isBlankOrNewline c) = ['a'] :=
    firstText_line rfl _
  have hhanded : handedOn e (affinityLine which cpus) s = ['a'] := by
    rw [handedOn, if_pos haffinity, affinityEvent]
    cases hget : s.cpuMask <|> e.cpuAlloc with
    | none => exact absurd hget hmask
    | some mask => exact hfirst
  rintro - - ⟨fd, hscan, -⟩
  rw [hhanded] at hscan
  cases hscan

/-- An event is opened, read on one processor, and closed. -/
def readOnce : List LogEntry := [.open 3 0 (-1) (-1) 0 {}, .affinity 0 [2], .read 3 4, .close 3]

theorem readOnce_wellFormed : ∀ x ∈ readOnce, x.WellFormed := by
  have haffinity : (LogEntry.affinity 0 [2]).WellFormed :=
    ⟨by decide, fun _ => rfl, by decide, by simp⟩
  simp only [readOnce, List.forall_mem_cons, List.not_mem_nil, false_imp_iff, implies_true, and_true]
  exact ⟨trivial, haffinity, trivial, trivial⟩

theorem zero_not_mem_readOnce : ∀ x ∈ readOnce, '\x00' ∉ x.text := by
  intro x hx
  obtain ⟨texts, htext, htexts⟩ := ofWords_of_ne_filter (x := x) fun fd custom arg string hfilter => by
    rw [hfilter] at hx
    simp [readOnce] at hx
  rw [htext]
  exact zero_not_mem_line (letter_printed x).2 htexts

theorem replay_filterLog_one : Like
    (replay ((zeroEnv fun _ => 7).without .read) (linesOf (readOnce.flatMap LogEntry.text)))
    (replay (subEnv ((zeroEnv fun _ => 7).without .read) true
        (linesOf (readOnce.flatMap LogEntry.text)))
      (linesOf (filterLog Kind.read.letter (readOnce.flatMap LogEntry.text)))) := by
  have hzero := zero_not_mem_readOnce
  refine replay_filterLog (zeroEnv fun _ => 7) .read _ rfl rfl ?_ ?_
  · intro hmem
    obtain ⟨x, hx, hmem⟩ := List.mem_flatMap.1 hmem
    exact hzero x hx hmem
  · have hlines : linesOf (readOnce.flatMap LogEntry.text) =
        readOnce.map fun x => .line x.text := by
      rw [linesOf, fileLines_entries readOnce_wellFormed, List.map_map]
      rfl
    rw [hlines]
    simp only [readOnce, List.forall_mem_cons] at hzero
    obtain ⟨hopen, haffinity, hread, hclose, -⟩ := hzero
    refine ⟨fun _ _ hcommand => ?_, fun _ _ => ?_, fun _ _ hcommand => ?_, fun _ _ hcommand => ?_,
      trivial⟩
    · rw [cString_of_not_mem hopen] at hcommand
      cases hcommand
    · rw [cString_of_not_mem haffinity]
      exact lineApart_affinityLine rfl (by cases (State.cpuMask _) <;> exact Option.some_ne_none _) 0 [2]
    · rw [cString_of_not_mem hread] at hcommand
      cases hcommand
    · rw [cString_of_not_mem hclose] at hcommand
      cases hcommand

end PerfEvent.Replay
