import PerfEventTests.Fuzzer.LinkedOps

/-!
# Indices of the tables

The searches return -1 when they find nothing. Where the result is used without a check, the run
stays inside the tables as long as the search was sure of a result: the position drawn was below
the number of slots looked for, and no handler has closed the events meanwhile.
-/

namespace PerfEvent.Fuzzer

open Programs

/-- The tables have been used inside their bounds only, and every index they hold is inside the
table it is for. -/
def InTables (s : St) : Prop := s.outside = false ∧ StoredInRange s

/-- Every result that is used without a check is that of a search that was sure. -/
def sureUses : Rules where
  passes loc _ := match loc with
    | .use sure => sure
    | _ => true

theorem InTables.usable {size : Nat} {i : Int} (hi : Usable InTables size i) {s : St}
    (hs : InTables s) : InRange size i :=
  hi.resolve_right fun hfree => Bool.false_ne_true (hfree s hs).1.symm

theorem storedInRange_setEvent {s : St} (h : StoredInRange s) (i : Int)
    {f : EventData → EventData} (hf : InRange maxMmaps (f (s.eventData i)).mmap) :
    StoredInRange (s.setEvent i f) := by
  refine ⟨fun j => ?_, h.parentMmap, h.whichEvent⟩
  show InRange maxMmaps (if j = i then f (s.eventData i) else s.eventData j).mmap
  split
  · exact hf
  · exact h.mmap j

theorem storedInRange_setMmap {s : St} (h : StoredInRange s) (i : Int)
    {f : MmapEntry → MmapEntry} (hparent : InRange maxMmaps (f (s.mmaps i)).parentMmap)
    (hwhich : InRange numEvents (f (s.mmaps i)).whichEvent) : StoredInRange (s.setMmap i f) := by
  refine ⟨h.mmap, fun j => ?_, fun j => ?_⟩
  · show InRange maxMmaps (if j = i then f (s.mmaps i) else s.mmaps j).parentMmap
    split
    · exact hparent
    · exact h.parentMmap j
  · show InRange numEvents (if j = i then f (s.mmaps i) else s.mmaps j).whichEvent
    split
    · exact hwhich
    · exact h.whichEvent j

theorem linked_inTables : Linked InTables where
  links s s' h hs := by
    refine ⟨h.outside ▸ hs.1, fun i => ?_, fun i => ?_, fun i => ?_⟩
    · rw [h.mmap]
      exact hs.2.mmap i
    · rw [h.parentMmap]
      exact hs.2.parentMmap i
    · rw [h.whichEvent]
      exact hs.2.whichEvent i
  stored _ hs := .inr hs.2
  entry _ i _ hk hs := ⟨hs.1, storedInRange_setEvent hs.2 i (hs.usable hk)⟩
  parent _ i _ hk hs := ⟨hs.1, storedInRange_setMmap hs.2 i (hs.usable hk) (hs.2.whichEvent i)⟩
  which _ i _ hk hs := ⟨hs.1, storedInRange_setMmap hs.2 i (hs.2.parentMmap i) (hs.usable hk)⟩
  line _ _ _ _ hs := ⟨hs.1, hs.2.mmap, hs.2.parentMmap, hs.2.whichEvent⟩
  stormed _ hs := ⟨hs.1, hs.2.mmap, hs.2.parentMmap, hs.2.whichEvent⟩

theorem owes_inTables : Owes sureUses InTables where
  use _ _ _ hpass := .inl hpass
  filterLine _ _ _ _ _ _ _ _ hs := ⟨hs.1, hs.2.mmap, hs.2.parentMmap, hs.2.whichEvent⟩

theorem inTables_startState (c : Config) : InTables (startState c) :=
  ⟨rfl, fun _ => ⟨le_rfl, Int.ofNat_lt.2 maxMmaps_pos⟩,
    fun _ => ⟨le_rfl, Int.ofNat_lt.2 maxMmaps_pos⟩, fun _ => ⟨le_rfl, Int.ofNat_lt.2 numEvents_pos⟩⟩

/-- Wherever a run ends, the tables have been used inside their bounds. -/
theorem mainLoop_inTables (c : Config) (answers : Nat → Int) (n : Nat) :
    InTables (exec (mainLoop (c.env sureUses) n) ⟨answers, startState c⟩).2.state := by
  have h := linked_inTables.mainLoop
    (linked_inTables.env (E := InTables) (fun _ hs => hs) owes_inTables) (calm_env c sureUses) n
    ⟨answers, startState c⟩ (inTables_startState c)
  revert h
  rcases exec (mainLoop (c.env sureUses) n) ⟨answers, startState c⟩ with ⟨_ | _, w⟩ <;> exact id

/-- Everything is enabled. -/
def fullConfig : Config where
  enabled _ := true
  logging := true
  pageSize := 4096
  pmus := []
  ownPid := 1000
  seed := 1
  sampleRate := 100000
  readSizes _ := 0
  retries := 1
  filterAddr := 0x5000
  validRamAddr := 0x7000

/-- Answers that are 0 but for a few. -/
def scripted (l : List (Nat × Int)) (n : Nat) : Int := (l.lookup n).getD 0

/-- The first operation is a mapping, and there is no event to map. -/
theorem mmapRandomEvent_outside :
    (exec (mainLoop (fullConfig.env anyRun) 1)
      ⟨scripted [(0, 9)], startState fullConfig⟩).2.state.outside = true := by
  decide +kernel

end PerfEvent.Fuzzer
