import PerfEventTests.PerfData.DumpData

/-!
# Progress through the data section

The loop of `dump_data` moves on by the size that a record claims. It ends when it does not stay at
one record for ever, and then it calls `parse_perf_record` once for each record.
-/

namespace PerfEvent.PerfData

open ByteMemory Files ParseRecord

variable {i : DumpInput} {s s' : DataState} {k : Nat} {reads : Nat → Option Nat}

/-! ## Records -/

/-- The bytes of a record: its header says how many there are. -/
structure IsRecord (bs : Bytes) : Prop where
  header : 8 ≤ bs.length
  fits : bs.length ≤ maxRecordSize
  size : ofLe ((bs.drop 6).take 2) = bs.length

/-- The data section holds these records one after the other, and nothing else. -/
structure DumpInput.Holds (i : DumpInput) (records : List Bytes) : Prop where
  each : ∀ r ∈ records, IsRecord r
  size : i.data.size.toNat = records.flatten.length
  content : ∃ rest, i.content.drop i.data.offset.toNat = records.flatten ++ rest

/-- Every `read` transfers what there is. -/
def Full (reads : Nat → Option Nat) : Prop := ∀ k, ∃ n, reads k = some n ∧ maxRecordSize ≤ n

/-- The records and where they start, from the place `a` of the file on. -/
def starts : Nat → List Bytes → List (Nat × Bytes)
  | _, [] => []
  | a, r :: rs => (a, r) :: starts (a + r.length) rs

/-- A call at the first byte of a record. -/
def Call.At (c : Call) (p : Nat × Bytes) : Prop := c.position = p.1 ∧ c.data.Holds 0 p.2

/-- A value is returned with these reads; where they transfer everything and the section consists of
records, there has been one call for each of them, in order. -/
structure DumpInput.Dumped (i : DumpInput) (reads : Nat → Option Nat) : Prop where
  returns : ∃ fuel v calls, dumpData i reads fuel = some (.returned v calls)
  calls : ∀ records, i.Holds records → Full reads → ∀ fuel v calls,
    dumpData i reads fuel = some (.returned v calls) →
      List.Forall₂ Call.At calls (starts i.data.offset.toNat records)

/-! ## The rounds -/

/-- The state that the loop comes to after `k` rounds. -/
inductive Reached (i : DumpInput) (reads : Nat → Option Nat) : Nat → DataState → Prop
  | start : Reached i reads 0 i.start
  | round {k : Nat} {s s' : DataState} : Reached i reads k s →
      dumpRound i (reads k) s = .again s' → Reached i reads (k + 1) s'

/-- What is read when at most `n` bytes are transferred. -/
def DataState.bytes (i : DumpInput) (s : DataState) (n : Nat) : Bytes :=
  (s.seeked i).slice (s.seeked i).pos (min n maxRecordSize)

/-- The buffer after that. -/
def DataState.filled (i : DumpInput) (s : DataState) (n : Nat) : Mem := buffer (s.bytes i n) s.data

/-- The size that the record in the buffer claims. -/
def claimedSize (data : Mem) : Nat := data.word 2 6

/-- The fields of the record in the buffer are in the buffers, and the offset behind it can be
represented. -/
structure Sound (i : DumpInput) (offset : Nat) (data : Mem) : Prop where
  inside : ∀ x ∈ (parsePerfRecord (i.env data)).1.accesses, x.Inside maxRecordSize
  fits : offset + claimedSize data < offLimit

/-- The loop finds sound records only. It may come to an offset several times, but in some round
that follows the read there fails, or it brings a record with a size. -/
structure DumpInput.Passes (i : DumpInput) (reads : Nat → Option Nat) : Prop where
  sound : ∀ k s n, Reached i reads k s → s.offset < i.data.size.toNat → reads k = some n →
    Sound i s.offset (s.filled i n)
  moves : ∀ k s, Reached i reads k s → s.offset < i.data.size.toNat →
    ∃ j s', k ≤ j ∧ Reached i reads j s' ∧ s'.offset = s.offset ∧
      ∀ n, reads j = some n → 0 < claimedSize (s'.filled i n)

@[simp] theorem parsePerfRecord_size (env : Env) :
    (parsePerfRecord env).2 = (claimedSize env.data : Int) := rfl

theorem dumpRound_of_ge {answer : Option Nat} (h : i.data.size.toNat ≤ s.offset) :
    dumpRound i answer s = .returned 0 :=
  if_neg (Nat.not_lt.2 h)

theorem dumpRound_none (h : s.offset < i.data.size.toNat) :
    dumpRound i none s = .returned (-1) :=
  if_pos h

/-- The state behind a record. -/
def DataState.next (i : DumpInput) (s : DataState) (n : Nat) : DataState :=
  s.advance (s.seeked i) (s.bytes i n) (claimedSize (s.filled i n))

theorem dumpRound_some {n : Nat} (h : s.offset < i.data.size.toNat)
    (hsound : Sound i s.offset (s.filled i n)) : dumpRound i (some n) s = .again (s.next i n) := by
  have hstays : ¬∃ x ∈ (parsePerfRecord (i.env (s.filled i n))).1.accesses,
      ¬x.Inside maxRecordSize := by
    rintro ⟨x, hx, hout⟩
    exact hout (hsound.inside x hx)
  apply (if_pos h).trans
  apply (if_neg hstays).trans
  apply (if_neg (not_lt.2 (Int.natCast_nonneg _))).trans
  exact if_neg (Nat.not_le.2 hsound.fits)

theorem dumpRound_undefined {n : Nat} (h : s.offset < i.data.size.toNat)
    (hbad : ¬Sound i s.offset (s.filled i n)) : dumpRound i (some n) s = .undefined := by
  apply (if_pos h).trans
  by_cases hout : ∃ x ∈ (parsePerfRecord (i.env (s.filled i n))).1.accesses,
      ¬x.Inside maxRecordSize
  · exact if_pos hout
  · have hinside : ∀ x ∈ (parsePerfRecord (i.env (s.filled i n))).1.accesses,
        x.Inside maxRecordSize := by
      intro x hx
      by_contra hx'
      exact hout ⟨x, hx, hx'⟩
    apply (if_neg hout).trans
    apply (if_neg (not_lt.2 (Int.natCast_nonneg _))).trans
    exact if_pos (Nat.not_lt.1 fun hfits => hbad ⟨hinside, hfits⟩)

/-- A round that goes on has read a sound record. -/
theorem dumpRound_again {answer : Option Nat} (h : dumpRound i answer s = .again s') :
    s.offset < i.data.size.toNat ∧
      ∃ n, answer = some n ∧ Sound i s.offset (s.filled i n) ∧ s' = s.next i n := by
  by_cases hlt : s.offset < i.data.size.toNat
  · cases answer with
    | none =>
      rw [dumpRound_none hlt] at h
      cases h
    | some n =>
      by_cases hsound : Sound i s.offset (s.filled i n)
      · rw [dumpRound_some hlt hsound] at h
        injection h with hnext
        exact ⟨hlt, n, rfl, hsound, hnext.symm⟩
      · rw [dumpRound_undefined hlt hsound] at h
        cases h
  · rw [dumpRound_of_ge (Nat.not_lt.1 hlt)] at h
    cases h

/-! ## The loop -/

theorem dumpLoop_returned {v : Int} (h : dumpRound i (reads 0) s = .returned v) (fuel : Nat) :
    dumpLoop i (fuel + 1) reads s = some (.returned v s.calls) := by
  simp only [dumpLoop, h]

theorem dumpLoop_undefined (h : dumpRound i (reads 0) s = .undefined) (fuel : Nat) :
    dumpLoop i (fuel + 1) reads s = some .undefined := by
  simp only [dumpLoop, h]

theorem dumpLoop_again (h : dumpRound i (reads 0) s = .again s') (fuel : Nat) :
    dumpLoop i (fuel + 1) reads s = dumpLoop i fuel (fun k => reads (k + 1)) s' := by
  simp only [dumpLoop, h]

theorem dumpLoop_mono {e : Ending} {fuel : Nat} (h : dumpLoop i fuel reads s = some e) (k : Nat) :
    dumpLoop i (fuel + k) reads s = some e := by
  induction fuel generalizing reads s with
  | zero => cases h
  | succ fuel ih =>
    rw [Nat.add_right_comm]
    cases hround : dumpRound i (reads 0) s with
    | returned v =>
      rw [dumpLoop_returned hround] at h ⊢
      exact h
    | undefined =>
      rw [dumpLoop_undefined hround] at h ⊢
      exact h
    | again s' =>
      rw [dumpLoop_again hround] at h ⊢
      exact ih h

/-- The answers that are left after `k` rounds. -/
def after (k : Nat) (reads : Nat → Option Nat) : Nat → Option Nat := fun m => reads (k + m)

theorem after_succ (k : Nat) (reads : Nat → Option Nat) :
    (fun m => after k reads (m + 1)) = after (k + 1) reads := by
  funext m
  exact congrArg reads (by omega)

/-- The loop goes on from the state it has come to. -/
theorem Reached.run (hs : Reached i reads k s) (fuel : Nat) :
    dumpLoop i (k + fuel) reads i.start = dumpLoop i fuel (after k reads) s := by
  induction hs generalizing fuel with
  | start =>
    rw [Nat.zero_add]
    congr 1
    funext m
    exact congrArg reads (Nat.zero_add m).symm
  | @round k s s' _ hround ih =>
    rw [Nat.add_assoc, Nat.add_comm 1, ih, dumpLoop_again hround, after_succ]

/-- States that the loop does not leave. -/
theorem dumpLoop_stuck {P : Nat → DataState → Prop}
    (h : ∀ k s, P k s → ∃ s', dumpRound i (reads k) s = .again s' ∧ P (k + 1) s') (hs : P 0 s)
    (fuel : Nat) : dumpLoop i fuel reads s = none := by
  induction fuel generalizing P reads s with
  | zero => rfl
  | succ fuel ih =>
    obtain ⟨s', hround, hs'⟩ := h 0 s hs
    rw [dumpLoop_again hround]
    exact ih (P := fun k => P (k + 1)) (fun k => h (k + 1)) hs'

/-! ## Runs that return -/

/-- The distance to the end of the section becomes less whenever a record is left behind. -/
theorem DumpInput.Passes.returns (hp : i.Passes reads) (hs : Reached i reads k s) :
    ∃ fuel v calls, dumpLoop i fuel reads i.start = some (.returned v calls) := by
  induction hd : i.data.size.toNat - s.offset using Nat.strong_induction_on generalizing k s with
  | h d ih =>
    by_cases hlt : s.offset < i.data.size.toNat
    · obtain ⟨j, s', -, hs', hoffset, hmoves⟩ := hp.moves k s hs hlt
      rw [← hoffset] at hlt hd
      cases hread : reads j with
      | none =>
        have hround : dumpRound i (after j reads 0) s' = .returned (-1) := by
          rw [after, Nat.add_zero, hread]
          exact dumpRound_none hlt
        exact ⟨j + 1, -1, s'.calls, (hs'.run 1).trans (dumpLoop_returned hround 0)⟩
      | some n =>
        have hround : dumpRound i (reads j) s' = .again (s'.next i n) := by
          rw [hread]
          exact dumpRound_some hlt (hp.sound j s' n hs' hlt hread)
        -- what is left of the section has become less by the size of the record
        have hcloser : i.data.size.toNat - (s'.next i n).offset < d := by
          have := hmoves n hread
          change i.data.size.toNat - (s'.offset + claimedSize (s'.filled i n)) < d
          omega
        exact ih _ hcloser (hs'.round hround) rfl
    · exact ⟨k + 1, 0, s.calls,
        (hs.run 1).trans (dumpLoop_returned (dumpRound_of_ge (Nat.not_lt.1 hlt)) 0)⟩

section Returned

variable {fuel : Nat} {v : Int} {calls : List Call}
  (hend : dumpLoop i fuel reads i.start = some (.returned v calls))

include hend

/-- From every state that such a run comes to, it returns the same. -/
theorem returned_from (hs : Reached i reads k s) :
    dumpLoop i fuel (after k reads) s = some (.returned v calls) := by
  rw [← hs.run, Nat.add_comm]
  exact dumpLoop_mono hend k

theorem sound_of_returned {n : Nat} (hs : Reached i reads k s) (hlt : s.offset < i.data.size.toNat)
    (hread : reads k = some n) : Sound i s.offset (s.filled i n) := by
  by_contra hbad
  have hround : dumpRound i (after k reads 0) s = .undefined := by
    rw [after, Nat.add_zero, hread]
    exact dumpRound_undefined hlt hbad
  have hfrom := returned_from hend hs
  cases fuel with
  | zero => cases hfrom
  | succ fuel =>
    rw [dumpLoop_undefined hround] at hfrom
    cases hfrom

/-- Otherwise the loop would stay at this offset. -/
theorem moves_of_returned (hs : Reached i reads k s) (hlt : s.offset < i.data.size.toNat) :
    ∃ j s', k ≤ j ∧ Reached i reads j s' ∧ s'.offset = s.offset ∧
      ∀ n, reads j = some n → 0 < claimedSize (s'.filled i n) := by
  by_contra hstays
  have hzero : ∀ j s', k ≤ j → Reached i reads j s' → s'.offset = s.offset →
      ∃ n, reads j = some n ∧ claimedSize (s'.filled i n) = 0 := by
    intro j s' hj hs' hoffset
    by_contra hnone
    refine hstays ⟨j, s', hj, hs', hoffset, fun n hn => Nat.pos_of_ne_zero fun h => ?_⟩
    exact hnone ⟨n, hn, h⟩
  have hstuck : dumpLoop i fuel (after k reads) s = none := by
    apply dumpLoop_stuck (P := fun m s' => Reached i reads (k + m) s' ∧ s'.offset = s.offset)
    · rintro m s' ⟨hs', hoffset⟩
      obtain ⟨n, hn, hsize⟩ := hzero _ s' (Nat.le_add_right k m) hs' hoffset
      rw [← hoffset] at hlt
      have hround : dumpRound i (reads (k + m)) s' = .again (s'.next i n) := by
        rw [hn]
        exact dumpRound_some hlt (sound_of_returned hend hs' hlt hn)
      refine ⟨s'.next i n, hround, hs'.round hround, ?_⟩
      change s'.offset + claimedSize (s'.filled i n) = s.offset
      rw [hsize, hoffset, Nat.add_zero]
    · exact ⟨hs, rfl⟩
  rw [returned_from hend hs] at hstuck
  cases hstuck

theorem passes_of_returned : i.Passes reads where
  sound := fun _ _ _ hs hlt hread => sound_of_returned hend hs hlt hread
  moves := fun _ _ hs hlt => moves_of_returned hend hs hlt

end Returned

/-! ## One call for each record -/

@[simp] theorem advance_content (s : DataState) (f : File) (bs : Bytes) (length : Nat) :
    (s.advance f bs length).file.content = f.content := rfl

theorem next_content (s : DataState) (n : Nat) :
    (s.next i n).file.content = s.file.content := by
  rw [DataState.next, advance_content, DataState.seeked, File.seek_content]

theorem Reached.content (hs : Reached i reads k s) : s.file.content = i.content := by
  induction hs with
  | start => rw [DumpInput.start, File.seek_content]
  | round _ hround ih =>
    obtain ⟨-, n, -, -, rfl⟩ := dumpRound_again hround
    rw [next_content, ih]

/-- The size field of a record that stands at the start of the buffer. -/
theorem claimedSize_buffer {r rest : Bytes} (hr : IsRecord r) (stale : Mem) :
    claimedSize (buffer (r ++ rest) stale) = r.length := by
  have hsix : (r.take 6).length = 6 := by
    have := hr.header
    rw [List.length_take]
    omega
  have htwo : ((r.drop 6).take 2).length = 2 := by
    have := hr.header
    rw [List.length_take, List.length_drop]
    omega
  have hsplit : r ++ rest =
      r.take 6 ++ ((r.drop 6).take 2 ++ ((r.drop 6).drop 2 ++ rest)) := by
    rw [← List.append_assoc _ _ rest, List.take_append_drop, ← List.append_assoc,
      List.take_append_drop]
  have hword := buffer_word (r.take 6) ((r.drop 6).take 2) ((r.drop 6).drop 2 ++ rest) stale
  rw [← hsplit, hsix, htwo, hr.size] at hword
  exact hword

/-- A full read at a record. -/
theorem filled_record {r rest : Bytes} {n : Nat} (hs : Reached i reads k s) (hr : IsRecord r)
    (hn : maxRecordSize ≤ n)
    (hcontent : i.content.drop (i.data.offset.toNat + s.offset) = r ++ rest) :
    Call.At ⟨(s.seeked i).pos, s.filled i n⟩ (i.data.offset.toNat + s.offset, r) ∧
      claimedSize (s.filled i n) = r.length := by
  have hroom : i.data.offset.toNat + s.offset < i.content.length := by
    by_contra hout
    rw [List.drop_eq_nil_of_le (Nat.not_lt.1 hout)] at hcontent
    have hlen := congrArg List.length hcontent
    have := hr.header
    rw [List.length_append, List.length_nil] at hlen
    omega
  have hsmall : i.data.offset.toNat + s.offset < 2 ^ 63 := hroom.trans i.small
  have hsum : (i.data.offset + UInt64.ofNat s.offset).toNat = i.data.offset.toNat + s.offset := by
    rw [UInt64.toNat_add, UInt64.toNat_ofNat_of_lt' (show s.offset < 2 ^ 64 by omega)]
    exact Nat.mod_eq_of_lt (by omega)
  have hseeked : s.seeked i = ⟨i.content, i.data.offset.toNat + s.offset⟩ := by
    rw [DataState.seeked, hsum, toInt64_of_range (by omega) (by exact_mod_cast hsmall),
      File.seek_of_nonneg (Int.natCast_nonneg _), Int.toNat_natCast, hs.content]
  have hfilled : s.filled i n = buffer (r ++ rest.take (maxRecordSize - r.length)) s.data := by
    rw [DataState.filled, DataState.bytes, hseeked, Nat.min_eq_right hn]
    change buffer ((i.content.drop (i.data.offset.toNat + s.offset)).take maxRecordSize) s.data = _
    rw [hcontent, List.take_append, List.take_of_length_le hr.fits]
  rw [hseeked, hfilled]
  exact ⟨⟨rfl, buffer_holds rfl⟩, claimedSize_buffer hr _⟩

/-- The calls that are still to come are those for the records that are left. -/
theorem dumpLoop_calls (hp : i.Passes reads) {records : List Bytes} {rest : Bytes}
    (hrecords : ∀ r ∈ records, IsRecord r) (hs : Reached i reads k s) (hfull : Full reads)
    (hsize : i.data.size.toNat = s.offset + records.flatten.length)
    (hcontent : i.content.drop (i.data.offset.toNat + s.offset) = records.flatten ++ rest)
    {fuel : Nat} {v : Int} {calls : List Call}
    (hend : dumpLoop i fuel (after k reads) s = some (.returned v calls)) :
    ∃ more, calls = s.calls ++ more ∧
      List.Forall₂ Call.At more (starts (i.data.offset.toNat + s.offset) records) := by
  induction records generalizing k s fuel with
  | nil =>
    cases fuel with
    | zero => cases hend
    | succ fuel =>
      rw [dumpLoop_returned (dumpRound_of_ge (le_of_eq hsize))] at hend
      cases hend
      exact ⟨[], (List.append_nil _).symm, .nil⟩
  | cons r records ih =>
    cases fuel with
    | zero => cases hend
    | succ fuel =>
      obtain ⟨n, hread, hn⟩ := hfull k
      have hr := hrecords r (List.mem_cons_self ..)
      rw [List.flatten_cons, List.append_assoc] at hcontent
      rw [List.flatten_cons, List.length_append] at hsize
      have hlt : s.offset < i.data.size.toNat := by
        have := hr.header
        omega
      obtain ⟨hcall, hclaimed⟩ := filled_record hs hr hn hcontent
      have hround : dumpRound i (reads k) s = .again (s.next i n) := by
        rw [hread]
        exact dumpRound_some hlt (hp.sound k s n hs hlt hread)
      have hoffset : (s.next i n).offset = s.offset + r.length :=
        congrArg (s.offset + ·) hclaimed
      rw [dumpLoop_again hround, after_succ] at hend
      have hrest : i.content.drop (i.data.offset.toNat + (s.next i n).offset) =
          records.flatten ++ rest := by
        rw [hoffset, ← Nat.add_assoc, ← List.drop_drop, hcontent, List.drop_left]
      obtain ⟨more, hcalls, hmore⟩ := ih (fun r' hr' => hrecords r' (List.mem_cons_of_mem _ hr'))
        (hs.round hround) (by omega) hrest hend
      rw [hoffset, ← Nat.add_assoc] at hmore
      refine ⟨⟨(s.seeked i).pos, s.filled i n⟩ :: more, hcalls.trans (List.append_assoc ..), ?_⟩
      rw [starts]
      exact .cons hcall hmore

/-! ## The condition -/

/-- With these reads `dump_data` returns, and calls `parse_perf_record` as it should, exactly when
it finds sound records only and does not stay at one of them; where the first seek is taken for an
error and everything is read there must not be any records. -/
theorem dumpData_dumped_iff (i : DumpInput) (reads : Nat → Option Nat) :
    i.Dumped reads ↔
      if i.Refused then Full reads → ∀ records, i.Holds records → records = []
      else i.Passes reads := by
  by_cases hseek : i.Refused
  · rw [if_pos hseek]
    have hreturned : ∀ fuel, dumpData i reads fuel = some (.returned (-1) []) :=
      fun fuel => if_pos hseek
    constructor
    · intro hdumped hfull records hrecords
      have hcalls := hdumped.calls records hrecords hfull 0 _ _ (hreturned 0)
      cases records with
      | nil => rfl
      | cons r records => cases hcalls
    · intro hnone
      refine ⟨⟨0, -1, [], hreturned 0⟩, fun records hrecords hfull fuel v calls hend => ?_⟩
      rw [hreturned] at hend
      cases hend
      rw [hnone hfull records hrecords]
      exact .nil
  · rw [if_neg hseek]
    have hloop : ∀ fuel, dumpData i reads fuel = dumpLoop i fuel reads i.start :=
      fun fuel => if_neg hseek
    constructor
    · intro hdumped
      obtain ⟨fuel, v, calls, hend⟩ := hdumped.returns
      rw [hloop] at hend
      exact passes_of_returned hend
    · intro hp
      obtain ⟨fuel, v, calls, hend⟩ := hp.returns .start
      refine ⟨⟨fuel, v, calls, (hloop fuel).trans hend⟩,
        fun records hrecords hfull fuel v calls hend => ?_⟩
      rw [hloop] at hend
      obtain ⟨rest, hcontent⟩ := hrecords.content
      obtain ⟨more, hcalls, hmore⟩ := dumpLoop_calls hp hrecords.each .start hfull
        (hrecords.size.trans (Nat.zero_add _).symm) hcontent (returned_from hend .start)
      rw [hcalls]
      exact hmore

/-! ### Sections that are read completely -/

/-- Whatever else the buffer holds, the fields of the record are in the buffers. -/
def DumpInput.Decodes (i : DumpInput) (r : Bytes) : Prop := ∀ data : Mem, data.Holds 0 r →
  ∀ x ∈ (parsePerfRecord (i.env data)).1.accesses, x.Inside maxRecordSize

/-- The offsets that the loop comes to are those behind some of the records. -/
theorem Reached.atRecord {records : List Bytes} (hrecords : i.Holds records) (hfull : Full reads)
    (hs : Reached i reads k s) : ∃ before behind rest, records = before ++ behind ∧
      s.offset = before.flatten.length ∧
      i.content.drop (i.data.offset.toNat + s.offset) = behind.flatten ++ rest := by
  obtain ⟨rest, hcontent⟩ := hrecords.content
  induction hs with
  | start => exact ⟨[], records, rest, rfl, rfl, hcontent⟩
  | @round k s s' hs hround ih =>
    obtain ⟨before, behind, rest, hsplit, hoffset, hbehind⟩ := ih
    obtain ⟨hlt, n, hread, -, rfl⟩ := dumpRound_again hround
    obtain ⟨n', hread', hn⟩ := hfull k
    obtain rfl : n = n' := Option.some.inj (hread.symm.trans hread')
    cases behind with
    | nil =>
      -- the loop has ended behind the last record
      rw [hrecords.size, hsplit, List.append_nil, hoffset] at hlt
      exact absurd hlt (lt_irrefl _)
    | cons r behind =>
      have hr := hrecords.each r (by simp [hsplit])
      rw [List.flatten_cons, List.append_assoc] at hbehind
      have hnew : (s.next i n).offset = s.offset + r.length :=
        congrArg (s.offset + ·) (filled_record hs hr hn hbehind).2
      refine ⟨before ++ [r], behind, rest, ?_, ?_, ?_⟩
      · rw [hsplit, List.append_assoc, List.singleton_append]
      · simp [hnew, hoffset]
      · rw [hnew, ← Nat.add_assoc, ← List.drop_drop, hbehind, List.drop_left]

/-- A section of records that decode, and that is read completely, passes. -/
theorem DumpInput.Holds.passes {records : List Bytes} (hrecords : i.Holds records)
    (hfull : Full reads) (hdecodes : ∀ r ∈ records, i.Decodes r) : i.Passes reads := by
  have hfound : ∀ {k s n}, Reached i reads k s → s.offset < i.data.size.toNat →
      reads k = some n → Sound i s.offset (s.filled i n) ∧ 0 < claimedSize (s.filled i n) := by
    intro k s n hs hlt hread
    obtain ⟨before, behind, rest, hsplit, hoffset, hbehind⟩ := hs.atRecord hrecords hfull
    obtain ⟨n', hread', hn⟩ := hfull k
    obtain rfl : n = n' := Option.some.inj (hread.symm.trans hread')
    cases behind with
    | nil =>
      rw [hrecords.size, hsplit, List.append_nil, hoffset] at hlt
      exact absurd hlt (lt_irrefl _)
    | cons r behind =>
      have hmem : r ∈ records := by simp [hsplit]
      have hr := hrecords.each r hmem
      rw [List.flatten_cons, List.append_assoc] at hbehind
      obtain ⟨hcall, hclaimed⟩ := filled_record hs hr hn hbehind
      have hlength := congrArg List.length hbehind
      rw [List.length_drop, List.length_append] at hlength
      have hheader := hr.header
      have hsmall := i.small
      refine ⟨⟨hdecodes r hmem _ hcall.2, ?_⟩, ?_⟩ <;> rw [hclaimed] <;> omega
  constructor
  · intro k s n hs hlt hread
    exact (hfound hs hlt hread).1
  · intro k s hs hlt
    exact ⟨k, s, le_refl k, hs, rfl, fun n hn => (hfound hs hlt hn).2⟩

/-! ### A section of eight zero bytes -/

def zeroBytes : Bytes := List.replicate 8 0

def zeroSection : DumpInput where
  content := zeroBytes
  small := by decide
  data := ⟨0, 8⟩
  sampleType := 0
  readFormat := 0
  stale := fun _ => 0

theorem claimedSize_zero (stale : Mem) : claimedSize (buffer zeroBytes stale) = 0 :=
  buffer_word (List.replicate 6 0) (List.replicate 2 0) [] stale

/-- The type zero has no arm of its own: only the header is read. -/
theorem parsePerfRecord_zero (stale : Mem) :
    (parsePerfRecord (zeroSection.env (buffer zeroBytes stale))).1.accesses = [.data 0 8] := by
  have htype : (buffer zeroBytes stale).word 4 0 = 0 :=
    buffer_word [] (List.replicate 4 0) (List.replicate 4 0) stale
  simp only [parsePerfRecord, show (zeroSection.env (buffer zeroBytes stale)).data.word 4 0 = 0
    from htype]
  rfl

theorem dumpRound_zero (hoffset : s.offset = 0) (hcontent : s.file.content = zeroBytes) :
    ∃ s', dumpRound zeroSection (some maxRecordSize) s = .again s' ∧
      s'.offset = 0 ∧ s'.file.content = zeroBytes := by
  have hstart : toInt64 (zeroSection.data.offset + UInt64.ofNat 0).toNat = 0 := by decide
  have hseeked : s.seeked zeroSection = ⟨zeroBytes, 0⟩ := by
    rw [DataState.seeked, hoffset, hstart, File.seek_of_nonneg (le_refl _), hcontent,
      Int.toNat_zero]
  have hfilled : s.filled zeroSection maxRecordSize = buffer zeroBytes s.data := by
    rw [DataState.filled, DataState.bytes, hseeked]
    rfl
  have hsize : s.offset + claimedSize (s.filled zeroSection maxRecordSize) = 0 := by
    rw [hfilled, claimedSize_zero, hoffset]
  refine ⟨s.next zeroSection maxRecordSize, dumpRound_some ?_ ⟨?_, ?_⟩, hsize, ?_⟩
  · rw [hoffset]
    decide
  · rw [hfilled, parsePerfRecord_zero]
    decide
  · rw [hsize]
    decide
  · rw [next_content, hcontent]

/-- The eight bytes are read for ever. -/
theorem dumpData_stuck : (∀ fuel, dumpData zeroSection (fun _ => some maxRecordSize) fuel = none) ∧
    ¬zeroSection.Dumped fun _ => some maxRecordSize := by
  have hnone : ∀ fuel, dumpData zeroSection (fun _ => some maxRecordSize) fuel = none := by
    intro fuel
    apply (if_neg (by decide)).trans
    apply dumpLoop_stuck (P := fun _ s => s.offset = 0 ∧ s.file.content = zeroBytes)
    · rintro - s ⟨hoffset, hcontent⟩
      exact dumpRound_zero hoffset hcontent
    · exact ⟨rfl, rfl⟩
  refine ⟨hnone, fun hdumped => ?_⟩
  obtain ⟨fuel, v, calls, hend⟩ := hdumped.returns
  rw [hnone] at hend
  cases hend

end PerfEvent.PerfData
