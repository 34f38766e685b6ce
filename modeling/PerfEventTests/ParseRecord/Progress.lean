import PerfEventTests.ParseRecord.Checked

/-!
# Progress through the records

When the record loop of a call ends: it has to stay inside the copy, an iteration has to move on, and
the loops over counts in the data have to stay with the bytes that are there.
-/

namespace PerfEvent.ParseRecord

open ByteMemory

/-! ## Calls -/

/-- What is given to a call. -/
structure CallInput where
  area : Area
  page : Option MmapPage
  malloc : Option Mem
  prevHead : Int
  env : Env

namespace CallInput

variable (i : CallInput)

def copied : CopyResult := copyOut i.area i.page i.malloc i.prevHead

/-- The call returns, every iteration moves on, and its loops over counts take no more turns than
there are bytes from the record on. -/
structure Progresses : Prop where
  ends : ∃ fuel o, checkedRead i.area i.page i.malloc i.prevHead i.env fuel = some (.returned o)
  moves : ∀ c, i.copied = .copied c → ∀ d, AtStart (i.env.of c) c.size d → d.offset < c.size →
    d.offset < (iteration (i.env.of c) c.size d).offset
  bounded : ∀ c, i.copied = .copied c → ∀ d, AtStart (i.env.of c) c.size d → d.offset < c.size →
    ∀ n ∈ (iteration (i.env.of c) c.size d).loops.drop d.loops.length, n ≤ c.size - d.offset

end CallInput

/-- The fields of a sample go forward on the whole, and no count in it is above the bytes that are
left. -/
def RecordProgresses (env : Env) (size a : Int) : Prop :=
  match caseOf (env.data.word 4 a) with
  | some .sample => 0 < 8 + totalLength env (presentFields env) (a + 8) ∧
      RecordCounts env (· ≤ size - a) a
  | _ => True

variable {env : Env} {room size : Int}

/-- A string whose bytes are there comes behind a size field that is not zero. -/
theorem recordProgresses_iff {a : Int} (hlt : a < size) (hrecord : RecordInside env room a) :
    RecordProgresses env size a ↔
      0 < recordLength env size a ∧ RecordCounts env (· ≤ size - a) a := by
  have hfits := hrecord.1.2
  unfold RecordProgresses recordLength RecordCounts
  cases hcase : caseOf (env.data.word 4 a) with
  | none =>
    dsimp only
    rw [and_true, iff_true_left trivial]
    omega
  | some t =>
    rw [hcase] at hfits
    cases t with
    | comm | mmap | mmap2 =>
      dsimp only at hfits ⊢
      rw [and_true, iff_true_left trivial]
      omega
    | sample => exact Iff.rfl
    | lost | fork | exit | throttle | unthrottle | aux | itraceStart | lostSamples | switch
    | switchCpuWide | read | namespaces | ksymbol | bpfEvent | cgroup | textPoke | auxOutputHwId
    | callchainDeferred =>
      dsimp only
      rw [and_true, iff_true_left trivial]
      omega

/-! ## The loop -/

theorem iteration_loops (d : Decoder) : (iteration env size d).loops.drop d.loops.length =
    (iterationPart env size d.offset).loops := by
  rw [iteration_describes]
  exact List.drop_left

/-- The loop ends when every record that it comes to is inside and has a length: the bytes that are
left decrease. -/
theorem checkedLoop_ends {k : Nat} {l : Loop} (hl : Arrives env room size k l)
    (hrecords : ∀ a, Comes env size a → a < size →
      RecordInside env room a ∧ 0 < recordLength env size a) :
    ∃ fuel l', checkedLoop env room size fuel {} = some (.returned l') := by
  induction hleft : (size - l.decoder.offset).toNat using Nat.strong_induction_on generalizing k l with
  | h left ih =>
    by_cases hlt : l.decoder.offset < size
    · obtain ⟨hrecord, hmoves⟩ := hrecords _ hl.comes hlt
      have hcloser : (size - (l.turn env size).decoder.offset).toNat < left := by
        rw [turn_offset]
        omega
      exact ih _ hcloser (hl.next hlt hrecord) rfl
    · exact ⟨k + 0, l, (hl.run 0).trans (checkedLoop_of_ge (not_lt.1 hlt) 0)⟩

/-- A call that returns has stayed inside. -/
theorem inside_of_ends {i : CallInput} {c : Copied} (hc : i.copied = .copied c)
    (hends : ∃ fuel o, checkedRead i.area i.page i.malloc i.prevHead i.env fuel = some (.returned o)) :
    WritesInside i.area i.prevHead ∧ ∀ a, Comes (i.env.of c) c.size a → a < c.size →
      RecordInside (i.env.of c) i.area.bytesize a := by
  obtain ⟨fuel, o, hend⟩ := hends
  by_cases hwrites : WritesInside i.area i.prevHead
  · refine ⟨hwrites, fun a ha hlt => ?_⟩
    rw [checkedRead_copied hc hwrites] at hend
    obtain ⟨r, hr, hmap⟩ := Option.map_eq_some_iff.1 hend
    cases r with
    | undefined => cases hmap
    | returned l' =>
      obtain ⟨k, l, hl, rfl⟩ := arrives_of_returned hr ha
      exact inside_of_returned hr hl hlt
  · rw [checkedRead_outside hc hwrites] at hend
    cases hend

/-- A call returns and stays with its bytes exactly when it writes inside the copy, and every record
that it comes to is inside and, if it is a sample, goes forward with counts that are covered by the
bytes left. -/
theorem perfMmapRead_progresses_iff (i : CallInput) : i.Progresses ↔
    ∀ c, i.copied = .copied c → (0 ≤ i.prevHead ∨ (i.area.bytesize : Int) ∣ i.prevHead) ∧
      ∀ a, Comes (i.env.of c) c.size a → a < c.size →
        RecordInside (i.env.of c) i.area.bytesize a ∧ RecordProgresses (i.env.of c) c.size a := by
  constructor
  · intro h c hc
    obtain ⟨hwrites, hinside⟩ := inside_of_ends hc h.ends
    refine ⟨(writesInside_iff (bytesize_pos_of_copied hc) _).1 hwrites, fun a ha hlt => ?_⟩
    have hrecord := hinside a ha hlt
    obtain ⟨d, hd, rfl⟩ := (reached_iff.2 ha).atStart
    have hmoves := h.moves c hc d hd hlt
    have hbounded := h.bounded c hc d hd hlt
    rw [iteration_offset] at hmoves
    rw [iteration_loops, iterationPart_loops] at hbounded
    exact ⟨hrecord, (recordProgresses_iff hlt hrecord).2 ⟨by omega, hbounded⟩⟩
  · intro h
    have hstep : ∀ c, i.copied = .copied c → ∀ a, Comes (i.env.of c) c.size a → a < c.size →
        0 < recordLength (i.env.of c) c.size a ∧ RecordCounts (i.env.of c) (· ≤ c.size - a) a := by
      intro c hc a ha hlt
      obtain ⟨hrecord, hprogresses⟩ := (h c hc).2 a ha hlt
      exact (recordProgresses_iff hlt hrecord).1 hprogresses
    refine ⟨?_, fun c hc d hd hlt => ?_, fun c hc d hd hlt => ?_⟩
    · cases hc : i.copied with
      | returned v => exact ⟨0, _, checkedRead_returned hc⟩
      | copied c =>
        obtain ⟨hprev, hrecords⟩ := h c hc
        have hwrites := (writesInside_iff (bytesize_pos_of_copied hc) i.prevHead).2 hprev
        have hfirst : Arrives (i.env.of c) i.area.bytesize c.size 0 {} := .first
        obtain ⟨fuel, l, hl⟩ := checkedLoop_ends hfirst
          fun a ha hlt => ⟨(hrecords a ha hlt).1, (hstep c hc a ha hlt).1⟩
        refine ⟨fuel, c.outcome i.page l, ?_⟩
        rw [checkedRead_copied hc hwrites, hl]
        rfl
    · -- an iteration moves on by the length of its record
      have hpos := (hstep c hc _ (reached_iff.1 hd.reached) hlt).1
      rw [iteration_offset]
      omega
    · rw [iteration_loops, iterationPart_loops]
      exact (hstep c hc _ (reached_iff.1 hd.reached) hlt).2

/-! ## Raw data that go backwards -/

/-- A copy over memory that holds the same already. -/
theorem foldl_move_self (ring : Mem) (n : Int) : (memcpyMoves 0 0 n).foldl (move ring) ring = ring := by
  unfold memcpyMoves
  rw [List.foldl_map]
  generalize List.range _ = is
  induction is with
  | nil => rfl
  | cons k ks ih =>
    rw [List.foldl_cons]
    have hmove : move ring ring (0 + (k : Int), 0 + (k : Int)) = ring := Function.update_eq_self _ _
    rw [hmove, ih]

theorem copyMoves_zero (n : Nat) : copyMoves n 0 = memcpyMoves 0 0 n := by
  simp [copyMoves, memcpyMoves, toUnsigned]

/-- One page. -/
def pageArea : Area := ⟨1, 4096, by decide, by decide⟩

/-- The first call at a ring whose content the block has already. -/
def firstCall (ring : Mem) (head : Nat) (env : Env) : CallInput where
  area := pageArea
  page := some { dataHead := head, ring }
  malloc := some ring
  prevHead := 0
  env := env

theorem firstCall_copied (ring : Mem) (head : Nat) (env : Env) :
    (firstCall ring head env).copied =
      .copied { head := toInt64 head, size := toInt32 (toInt64 head - 0), data := ring } := by
  have h : copyOut pageArea (some { dataHead := head, ring }) (some ring) 0 = _ :=
    copyOut_eq (by decide) _ _ _
  unfold copiedBy at h
  rw [Int.zero_tmod, copyMoves_zero, foldl_move_self] at h
  exact h

/-- What such a call decodes. -/
def firstCopied (ring : Mem) (head : Nat) : Copied where
  head := toInt64 head
  size := toInt32 (toInt64 head - 0)
  data := ring

theorem firstCall_checked (ring : Mem) (head : Nat) (env : Env) (fuel : Nat) :
    checkedRead pageArea (some { dataHead := head, ring }) (some ring) 0 env fuel =
      (checkedLoop (env.of (firstCopied ring head)) pageArea.bytesize (firstCopied ring head).size fuel
        {}).map (·.map ((firstCopied ring head).outcome (some { dataHead := head, ring }))) := by
  have hcopied : copyOut pageArea (some { dataHead := head, ring }) (some ring) 0 =
      .copied (firstCopied ring head) := firstCall_copied ring head env
  exact checkedRead_copied hcopied ((writesInside_iff (by decide) 0).2 (.inl le_rfl))

/-- A sample with raw data of minus twelve bytes: the offset behind it is its own. -/
def rawBack : Mem := Mem.ofList [9, 0, 0, 0, 0, 0, 12, 0, 0xf4, 0xff, 0xff, 0xff]

def rawBackEnv : Env where
  data := rawBack
  sampleType := perfSampleRaw
  readFormat := 0
  regMask := 0

def rawBackCall : CallInput := firstCall rawBack 12 rawBackEnv

theorem rawBack_inside : RecordInside rawBackEnv pageArea.bytesize 0 := by
  have hheader : Within pageArea.bytesize 0 8 := by decide
  have hsize : Within pageArea.bytesize (0 + 8) 4 := by decide
  exact ⟨⟨hheader, ⟨hsize, fun h => by cases h⟩, trivial⟩, fun h => by cases h⟩

/-- The sample is decoded for ever. -/
theorem rawBackCall_stuck : (∀ fuel, checkedRead rawBackCall.area rawBackCall.page rawBackCall.malloc
    rawBackCall.prevHead rawBackCall.env fuel = none) ∧ ¬rawBackCall.Progresses := by
  have hnone : ∀ fuel, checkedRead rawBackCall.area rawBackCall.page rawBackCall.malloc
      rawBackCall.prevHead rawBackCall.env fuel = none := by
    intro fuel
    apply (firstCall_checked rawBack 12 rawBackEnv fuel).trans
    have hstays : recordLength rawBackEnv (firstCopied rawBack 12).size 0 = 0 := by decide
    have hfirst : Decoder.Inside pageArea.bytesize {} := List.forall_mem_nil _
    have hstuck : checkedLoop rawBackEnv pageArea.bytesize (firstCopied rawBack 12).size fuel {} =
        none := checkedLoop_stuck (by decide) rawBack_inside hstays rfl hfirst fuel
    exact congrArg (Option.map _) hstuck
  refine ⟨hnone, fun h => ?_⟩
  obtain ⟨fuel, o, hend⟩ := h.ends
  rw [hnone] at hend
  cases hend

end PerfEvent.ParseRecord
