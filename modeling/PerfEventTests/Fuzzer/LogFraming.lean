import PerfEventTests.Fuzzer.Indices

/-!
# The log as its readers see it

`replay_log` takes the log apart with `fgets` and a buffer of `BUFSIZ` bytes. A run whose logged
filters show no newline leaves one line for each operation that it logged, with all that the
operation wrote.
-/

namespace PerfEvent.Fuzzer

open Programs Text

/-- The log is what the logged operations wrote, one line for each. -/
def LogOfLines (s : St) : Prop :=
  s.log = s.logged.flatMap LoggedOp.text ∧ ∀ op ∈ s.logged, LineOf op.letter op.text

/-- What a reader finds is what the logged operations wrote, in order: the whole text of each is one
line, with the letter of the operation in front. -/
def ReadsAsLogged (s : St) : Prop :=
  fileLines bufsiz s.log = s.logged.map LoggedOp.text ∧
    ∀ op ∈ s.logged, op.text.head? = some op.letter

theorem LogOfLines.readsAsLogged {s : St} (h : LogOfLines s) : ReadsAsLogged s := by
  obtain ⟨hlog, hlines⟩ := h
  refine ⟨?_, fun op hop => (hlines op hop).1⟩
  rw [hlog, List.flatMap_def]
  apply fileLines_framed (by decide)
  rw [List.forall_mem_map]
  exact fun op hop => (hlines op hop).2

theorem LogOfLines.addLine {s : St} (h : LogOfLines s) {letter : Char} {text : Str}
    (htext : LineOf letter text) : LogOfLines (s.addLine letter text) := by
  obtain ⟨hlog, hlines⟩ := h
  constructor
  · change s.log ++ text = (s.logged ++ [LoggedOp.mk letter text]).flatMap LoggedOp.text
    rw [List.flatMap_append, ← hlog, List.flatMap_singleton]
  · change ∀ op ∈ s.logged ++ [⟨letter, text⟩], LineOf op.letter op.text
    exact List.forall_mem_append.2 ⟨hlines, List.forall_mem_singleton.2 htext⟩

theorem LogOfLines.of_log {s s' : St} (h : LogOfLines s) (hlog : s'.log = s.log)
    (hlogged : s'.logged = s.logged) : LogOfLines s' := by
  unfold LogOfLines
  rwa [hlog, hlogged]

/-- No filter that is logged shows a newline. -/
def plainFilters : Rules where
  passes loc _ := match loc with
    | .filterLine shown => '\n' ∉ shown
    | _ => true

theorem linked_logOfLines : Linked LogOfLines where
  links _ _ h hs := hs.of_log h.log h.logged
  stored _ _ := .inl fun _ hs => hs.of_log rfl rfl
  entry _ _ _ _ hs := hs.of_log rfl rfl
  parent _ _ _ _ hs := hs.of_log rfl rfl
  which _ _ _ _ hs := hs.of_log rfl rfl
  line _ _ _ htext hs := hs.addLine htext
  stormed _ hs := hs.of_log rfl rfl

theorem owes_logOfLines : Owes plainFilters LogOfLines where
  use _ _ _ _ := .inr fun _ hs => hs.of_log rfl rfl
  filterLine _ _ _ _ _ _ hpass _ hs :=
    hs.addLine (lineOf_setFilterLine (of_decide_eq_true hpass))

theorem lineOf_headerOps (c : Config) : ∀ op ∈ headerOps c, LineOf op.letter op.text := by
  have hpid : LineOf 'G' (line 'G' [signedText c.ownPid]) := by
    refine lineOf_line (n := 11) (by decide) (fun t ht => ?_) (by simp [bufsiz])
    exact List.mem_singleton.1 ht ▸ short_signedText c.ownPid
  simp only [headerOps, List.forall_mem_cons, List.not_mem_nil, false_imp_iff, implies_true,
    and_true]
  exact ⟨lineOf_ints (by decide) [c.seed] (by simp), hpid,
    lineOf_ints (by decide) [c.sampleRate] (by simp)⟩

theorem logOfLines_startState (c : Config) : LogOfLines (startState c) := by
  unfold startState
  cases c.logging with
  | false => exact ⟨rfl, List.forall_mem_nil _⟩
  | true => exact ⟨rfl, lineOf_headerOps c⟩

/-- An event is opened as descriptor 5, and a filter of the two bytes `\nC` is set on it. -/
def splitFilterAnswers : List (Nat × Int) :=
  [(11, 1), (12, 5), (15, 7), (116, 5), (159, 2), (170, 6), (174, 2), (175, 1), (176, 9), (177, 1),
    (178, 66)]

instance (s : St) : Decidable (ReadsAsLogged s) := inferInstanceAs (Decidable (_ ∧ _))

end PerfEvent.Fuzzer
