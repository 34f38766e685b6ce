import PerfEventTests.Lib.Visits
import PerfEventTests.ParseRecord.Progress
import PerfEventTests.PeriodicStats.Reader

/-!
# Where the two readers agree

Both readers do the same with the records whose arms the copy has kept. At any other record the copy
goes over the header alone, so that the two part unless both are through.
-/

namespace PerfEvent.PeriodicStats

open ByteMemory ParseRecord Visits

/-- The call of the library that the copy was taken from: it prints, it checks nothing, and it samples
nothing behind the read values. -/
structure Plain (env : Env) : Prop where
  loud : env.quiet = false
  unchecked : env.validate = none
  upToRead : env.sampleType &&& 0x3df = env.sampleType

/-- The bytes before the read values of a sample. -/
def headLength (sampleType : Nat) : Nat :=
  let has := bitAnd sampleType
  (if has perfSampleIp then 8 else 0) + (if has perfSampleTid then 8 else 0) +
  (if has perfSampleTime then 8 else 0) + (if has perfSampleAddr then 8 else 0) +
  (if has perfSampleId then 8 else 0) + (if has perfSampleStreamId then 8 else 0) +
  (if has perfSampleCpu then 8 else 0) + (if has perfSamplePeriod then 8 else 0)

/-- The number of members that a sample at `a` says its group has, when it is read. -/
def memberCount (env : Env) (a : Int) : Int :=
  if bitAnd env.sampleType perfSampleRead ∧ bitAnd env.readFormat perfFormatGroup then
    env.value 8 (a + 8 + headLength env.sampleType)
  else 0

/-- The record at `a` is one that both readers decode, with no more members than the copy has room for;
or they go over the same bytes of it, or come to the end with it. -/
def RecordShared (env : Env) (size a : Int) : Prop :=
  match caseOf (env.data.word 4 a) with
  | some .lost | some .throttle | some .unthrottle => True
  | some .comm => env.data.word 2 (a + 6) ≠ 0
  | some .sample => memberCount env a ≤ 2
  | _ => min (a + 8) size = min (a + recordLength env size a) size

variable {env : Env} {size : Int}

/-! ## Samples -/

theorem bitAnd_upToRead {st bit : Nat} (h : st &&& 0x3df = st) (hbit : 0x3df &&& bit = 0) :
    bitAnd st bit = false := by
  rw [bitAnd, ← h, Nat.and_assoc, hbit, Nat.and_zero]
  rfl

theorem Decoder.check_none (h : env.validate = none) (f : ValidateValues → Option ValidateError)
    (d : Decoder) : d.check env f = d := by
  rw [Decoder.check, h]
  rfl

theorem sampleTid_eq (h : env.validate = none) (d : Decoder) :
    ParseRecord.sampleTid env d = sampleTid env d := by
  rw [ParseRecord.sampleTid, Decoder.check_none h, sampleTid]

/-- The arm of the library ends with the read values. -/
theorem sample_eq (h : Plain env) (d : Decoder) : ParseRecord.sample env d =
    onBit env.sampleType perfSampleRead (ParseRecord.sampleRead env) (sampleHead env d) := by
  have hoff {bit : Nat} (hbit : 0x3df &&& bit = 0) (f : Decoder → Decoder) (d : Decoder) :
      onBit env.sampleType bit f d = d := by
    rw [onBit, bitAnd_upToRead h.upToRead hbit]
    rfl
  unfold ParseRecord.sample sampleTail sampleBody
  dsimp only
  iterate 10 rw [hoff (by decide)]

theorem sampleHead_offset (d : Decoder) :
    (sampleHead env d).offset = d.offset + headLength env.sampleType := by
  have htid : Moves 8 (ParseRecord.sampleTid env) := fun d => by simp [ParseRecord.sampleTid]
  have hcpu : Moves 8 (sampleCpu env) := fun d => by simp [sampleCpu]
  exact (((((((Moves.field env 8 "IP").onBit.comp htid.onBit).comp (Moves.field env 8 "time").onBit).comp
    (Moves.field env 8 "addr").onBit).comp (Moves.field env 8 "sample_id").onBit).comp
    (Moves.field env 8 "sample_stream_id").onBit).comp hcpu.onBit).comp
      (Moves.field env 8 "period").onBit d

/-! ### The read values -/

theorem readMember_some (env : Env) (timestamp : Int) (s : Stats) {i : Nat} (hi : i < 2) :
    ∃ s', readMember env timestamp s i = some s' ∧
      s'.decoder = ParseRecord.readMember env s.decoder :=
  ⟨_, dif_pos hi, rfl⟩

theorem readMember_none (env : Env) (timestamp : Int) (s : Stats) :
    readMember env timestamp s 2 = none := by
  simp [readMember]

/-- Two members at most are decoded as the library decodes them. -/
theorem readMembers_some (env : Env) (timestamp : Int) (s : Stats) {n : Nat} (hn : n ≤ 2) :
    ∃ s', (List.range n).foldlM (readMember env timestamp) s = some s' ∧
      s'.decoder = (List.range n).foldl (fun d _ => ParseRecord.readMember env d) s.decoder := by
  induction n with
  | zero => exact ⟨s, rfl, rfl⟩
  | succ n ih =>
    obtain ⟨s', hs', hd⟩ := ih (by omega)
    obtain ⟨s'', hs'', hd'⟩ := readMember_some env timestamp s' (show n < 2 by omega)
    refine ⟨s'', ?_, ?_⟩
    · rw [List.range_succ, List.foldlM_append, hs']
      exact congrArg (· >>= pure) hs''
    · rw [List.range_succ, List.foldl_append, ← hd]
      exact hd'

/-- There is no room for a third member. -/
theorem readMembers_none (timestamp : Int) (s : Stats) {n : Nat} (hn : 2 < n) :
    (List.range n).foldlM (readMember env timestamp) s = none := by
  obtain ⟨k, rfl⟩ : ∃ k, n = 2 + 1 + k := ⟨n - 3, by omega⟩
  obtain ⟨s', hs', -⟩ := readMembers_some env timestamp s (le_refl 2)
  have hthree : (List.range (2 + 1)).foldlM (readMember env timestamp) s = none := by
    rw [List.range_succ, List.foldlM_append, hs']
    exact congrArg (· >>= pure) (readMember_none env timestamp s')
  rw [List.range_add, List.foldlM_append, hthree]
  rfl

theorem handleStructReadFormat_some (h : Plain env) (timestamp : Int) (s : Stats)
    (hfew : bitAnd env.readFormat perfFormatGroup = true → s.decoder.value env 8 ≤ 2) :
    ∃ s', handleStructReadFormat env timestamp s = some s' ∧
      s'.decoder = ParseRecord.handleStructReadFormat env s.decoder := by
  unfold handleStructReadFormat ParseRecord.handleStructReadFormat
  by_cases hgroup : bitAnd env.readFormat perfFormatGroup = true
  · rw [if_pos hgroup, if_pos hgroup]
    dsimp only
    rw [Decoder.check_none h.unchecked]
    have hn : (s.decoder.value env 8).toNat ≤ 2 := by
      have := hfew hgroup
      omega
    exact readMembers_some env timestamp _ hn
  · rw [if_neg hgroup, if_neg hgroup]
    exact ⟨_, rfl, rfl⟩

theorem handleStructReadFormat_none (timestamp : Int) (s : Stats)
    (hgroup : bitAnd env.readFormat perfFormatGroup = true) (hmany : 2 < s.decoder.value env 8) :
    handleStructReadFormat env timestamp s = none := by
  unfold handleStructReadFormat
  rw [if_pos hgroup]
  exact readMembers_none timestamp _ (by omega)

/-- The state in which a sample arrives at its read values. -/
def atRead (env : Env) (s : Stats) : Stats :=
  let d := onBit env.sampleType perfSampleTid (sampleTid env)
    (onBit env.sampleType perfSampleIp (·.field env 8 "IP") s.decoder)
  let time := if bitAnd env.sampleType perfSampleTime then d.value env 8 else 0
  let beginTime :=
    if bitAnd env.sampleType perfSampleTime ∧ s.beginTime = 0 then time else s.beginTime
  { s with decoder := sampleHead env s.decoder, beginTime }

theorem sample_atRead (h : Plain env) (s : Stats) : ∃ timestamp, sample env s =
    if bitAnd env.sampleType perfSampleRead then sampleRead env timestamp (atRead env s)
    else some (atRead env s) := by
  have htid : ParseRecord.sampleTid env = sampleTid env := by
    funext d
    exact sampleTid_eq h.unchecked d
  unfold atRead sampleHead
  rw [htid]
  exact ⟨_, rfl⟩

theorem sample_some (h : Plain env) (s : Stats)
    (hfew : bitAnd env.sampleType perfSampleRead = true → bitAnd env.readFormat perfFormatGroup = true →
      (sampleHead env s.decoder).value env 8 ≤ 2) :
    ∃ s', sample env s = some s' ∧ s'.decoder = ParseRecord.sample env s.decoder := by
  obtain ⟨timestamp, hsample⟩ := sample_atRead h s
  rw [hsample, sample_eq h]
  by_cases hread : bitAnd env.sampleType perfSampleRead = true
  · obtain ⟨s', hs', hd⟩ := handleStructReadFormat_some h timestamp (atRead env s) (hfew hread)
    rw [if_pos hread, onBit, if_pos hread, sampleRead, hs']
    refine ⟨_, rfl, ?_⟩
    unfold Stats.on ParseRecord.sampleRead
    dsimp only
    rw [hd]
    rfl
  · rw [if_neg hread, onBit, if_neg hread]
    exact ⟨_, rfl, rfl⟩

theorem sample_none (h : Plain env) (s : Stats) (hread : bitAnd env.sampleType perfSampleRead = true)
    (hgroup : bitAnd env.readFormat perfFormatGroup = true)
    (hmany : 2 < (sampleHead env s.decoder).value env 8) : sample env s = none := by
  obtain ⟨timestamp, hsample⟩ := sample_atRead h s
  rw [hsample, if_pos hread, sampleRead, handleStructReadFormat_none timestamp (atRead env s) hgroup hmany]
  rfl

/-! ## One turn -/

/-- The arms that the copy has kept. -/
def kept : Option RecordType → Bool
  | some .lost | some .comm | some .throttle | some .unthrottle | some .sample => true
  | _ => false

theorem decodedSamples_append (ps qs : List Printed) :
    decodedSamples (ps ++ qs) = decodedSamples ps ++ decodedSamples qs :=
  List.filter_append ..

theorem iteration_printed (d : Decoder) : (ParseRecord.iteration env size d).printed =
    d.printed ++ (iterationPart env size d.offset).printed := by
  rw [iteration_describes]
  rfl

/-- What a turn of the library adds depends on the position alone. -/
theorem iteration_congr (size : Int) {d e : Decoder} (hoff : d.offset = e.offset)
    (hsamples : decodedSamples d.printed = decodedSamples e.printed) :
    (ParseRecord.iteration env size d).offset = (ParseRecord.iteration env size e).offset ∧
      decodedSamples (ParseRecord.iteration env size d).printed =
        decodedSamples (ParseRecord.iteration env size e).printed := by
  rw [iteration_offset, iteration_offset, iteration_printed, iteration_printed, decodedSamples_append,
    decodedSamples_append, hoff, hsamples]
  exact ⟨rfl, rfl⟩

theorem memberCount_eq (d : Decoder) (hread : bitAnd env.sampleType perfSampleRead = true)
    (hgroup : bitAnd env.readFormat perfFormatGroup = true) :
    memberCount env d.offset = (sampleHead env (afterHeader env d)).value env 8 := by
  unfold memberCount
  rw [if_pos ⟨hread, hgroup⟩, Decoder.value, sampleHead_offset, afterHeader_offset]
  rfl

/-- The copy decodes a record whose arm it has kept as the library does. -/
theorem iteration_kept (size : Int) (h : Plain env) (s : Stats)
    (hkept : kept (caseOf (env.data.word 4 s.decoder.offset)) = true)
    (hfew : caseOf (env.data.word 4 s.decoder.offset) = some .sample →
      memberCount env s.decoder.offset ≤ 2) :
    ∃ s', iteration env s = some s' ∧
      s'.decoder = ParseRecord.iteration env size s.decoder := by
  have hlibrary : ParseRecord.iteration env size s.decoder =
      ParseRecord.arm env size (env.data.word 2 (s.decoder.offset + 6))
        (env.data.word 4 s.decoder.offset) (afterHeader env s.decoder) := rfl
  rw [hlibrary]
  unfold iteration arm ParseRecord.arm
  dsimp only
  cases hcase : caseOf (env.data.word 4 s.decoder.offset) with
  | none => rw [hcase] at hkept; cases hkept
  | some t =>
    rw [hcase] at hkept hfew
    cases t with
    | lost | comm | throttle | unthrottle => exact ⟨_, rfl, rfl⟩
    | sample =>
      apply sample_some h
      intro hread hgroup
      have hcount := hfew rfl
      rw [memberCount_eq _ hread hgroup] at hcount
      exact hcount
    | _ => cases hkept

/-- The other records are left to the turns that follow. -/
theorem iteration_left (s : Stats)
    (hleft : kept (caseOf (env.data.word 4 s.decoder.offset)) = false) :
    iteration env s = some (s.on (afterHeader env)) := by
  unfold iteration arm
  dsimp only
  cases hcase : caseOf (env.data.word 4 s.decoder.offset) with
  | none => rfl
  | some t =>
    rw [hcase] at hleft
    cases t <;> first | rfl | cases hleft

theorem iteration_none (h : Plain env) (s : Stats)
    (hsample : caseOf (env.data.word 4 s.decoder.offset) = some .sample)
    (hmany : 2 < memberCount env s.decoder.offset) : iteration env s = none := by
  have hbits : bitAnd env.sampleType perfSampleRead = true ∧
      bitAnd env.readFormat perfFormatGroup = true := by
    unfold memberCount at hmany
    split at hmany
    · assumption
    · exact absurd hmany (by decide)
  rw [memberCount_eq _ hbits.1 hbits.2] at hmany
  unfold iteration arm
  dsimp only
  rw [hsample]
  exact sample_none h (s.on (afterHeader env)) hbits.1 hbits.2 hmany

/-! ### No samples in the other records -/

theorem decodedSamples_fieldsPart {fs : List (Nat × String)} (h : ∀ f ∈ fs, f.2 ∉ sampleLabels)
    (a : Int) : decodedSamples (fieldsPart env fs a).printed = [] := by
  induction fs generalizing a with
  | nil => rfl
  | cons f fs ih =>
    obtain ⟨hf, hfs⟩ := List.forall_mem_cons.1 h
    have hfield : decodedSamples (Part.field env f.1 f.2 a).printed = [] := by
      unfold Part.field Env.shown decodedSamples
      dsimp only
      split
      · rfl
      · simpa using hf
    change decodedSamples ((Part.field env f.1 f.2 a).printed ++ (fieldsPart env fs _).printed) = []
    rw [decodedSamples_append, hfield, ih hfs]
    rfl

theorem decodedSamples_string (n : Int) (label : String) (a : Int) :
    decodedSamples (Part.string env n label a).printed = [] := by
  have htext : ∀ bs b, decodedSamples (Part.unlessQuiet env (Part.text env n label bs) b).printed = [] := by
    intro bs b
    unfold Part.unlessQuiet
    split
    · rfl
    · unfold Part.text Env.shown
      dsimp only
      split <;> rfl
  exact htext (env.data.load a n.toNat) (a + n)

theorem decodedSamples_stringArm {fs : List (Nat × String)} (h : ∀ f ∈ fs, f.2 ∉ sampleLabels)
    (n : Int) (label : String) (a : Int) :
    decodedSamples ((fieldsPart env fs).seq (Part.string env n label) a).printed = [] := by
  change decodedSamples ((fieldsPart env fs a).printed ++ (Part.string env n label _).printed) = []
  rw [decodedSamples_append, decodedSamples_fieldsPart h, decodedSamples_string]
  rfl

theorem decodedSamples_armPart {type : Nat} (hleft : kept (caseOf type) = false) (evsize a : Int) :
    decodedSamples (armPart env size evsize type a).printed = [] := by
  unfold armPart
  cases hcase : caseOf type with
  | none => rfl
  | some t =>
    rw [hcase] at hleft
    cases t with
    | lost | comm | throttle | unthrottle | sample => cases hleft
    | mmap => exact decodedSamples_stringArm (by decide) _ _ a
    | mmap2 => exact decodedSamples_stringArm (by decide) _ _ a
    | _ => exact decodedSamples_fieldsPart (by decide) a

theorem decodedSamples_header {type misc evsize : Nat} (hleft : kept (caseOf type) = false) :
    decodedSamples (env.shown (.header type misc evsize)) = [] := by
  have htype : type ≠ RecordType.toNat .sample := by
    rintro rfl
    cases hleft
  unfold Env.shown decodedSamples
  split
  · rfl
  · simpa using htype

/-- Both readers see no sample in a record whose arm the copy has not. -/
theorem decodedSamples_left (size : Int) {d : Decoder}
    (hleft : kept (caseOf (env.data.word 4 d.offset)) = false) :
    decodedSamples (ParseRecord.iteration env size d).printed = decodedSamples d.printed ∧
      decodedSamples (afterHeader env d).printed = decodedSamples d.printed := by
  constructor
  · rw [iteration_printed, decodedSamples_append]
    change _ ++ decodedSamples (env.shown (.header _ _ _) ++ (armPart env size _ _ _).printed) = _
    rw [decodedSamples_append, decodedSamples_header hleft, decodedSamples_armPart hleft]
    exact List.append_nil _
  · unfold afterHeader
    rw [Decoder.print_eq]
    change decodedSamples (d.printed ++ env.shown _) = _
    rw [decodedSamples_append, decodedSamples_header hleft]
    exact List.append_nil _

/-! ## The loops -/

/-- A turn of the library. -/
def libraryStep (env : Env) (size : Int) (d : Decoder) : Option Decoder :=
  some (ParseRecord.iteration env size d)

def position (s : Stats) : Int := s.decoder.offset

/-- The readers are at the same position, or through, and have seen the same samples. -/
structure Related (size : Int) (d : Decoder) (s : Stats) : Prop where
  position : min d.offset size = min (position s) size
  samples : decodedSamples d.printed = decodedSamples s.decoder.printed

def Good (env : Env) (size : Int) (d : Decoder) : Prop := RecordShared env size d.offset

/-- What a good record says, by its arm. -/
theorem recordShared_iff (a : Int) : RecordShared env size a ↔
    if kept (caseOf (env.data.word 4 a)) then
      (caseOf (env.data.word 4 a) = some .comm → env.data.word 2 (a + 6) ≠ 0) ∧
        (caseOf (env.data.word 4 a) = some .sample → memberCount env a ≤ 2)
    else min (a + 8) size = min (a + recordLength env size a) size := by
  unfold RecordShared
  cases caseOf (env.data.word 4 a) with
  | none => exact Iff.rfl
  | some t => cases t <;> simp [kept]

theorem recordLength_pos (h : Plain env) {a : Int} (hlt : a < size) (hgood : RecordShared env size a) :
    0 < recordLength env size a := by
  rw [recordShared_iff] at hgood
  cases hcase : caseOf (env.data.word 4 a) with
  | none =>
    unfold recordLength
    rw [hcase]
    dsimp only
    omega
  | some t =>
    rw [hcase] at hgood
    cases t with
    | sample =>
      -- the fields go forward: eight bytes each, or as many as the read values have
      have hoffset : (ParseRecord.iteration env size { offset := a }).offset =
          a + recordLength env size a := iteration_offset { offset := a }
      have hiteration : ParseRecord.iteration env size { offset := a } =
          ParseRecord.sample env (afterHeader env { offset := a }) := by
        unfold ParseRecord.iteration ParseRecord.arm
        dsimp only
        rw [hcase]
        rfl
      have hread (d : Decoder) : d.offset ≤ (onBit env.sampleType perfSampleRead
          (ParseRecord.sampleRead env) d).offset := by
        unfold onBit ParseRecord.sampleRead
        dsimp only
        split
        · dsimp only
          split <;> omega
        · exact le_refl _
      have hhead := hread (sampleHead env (afterHeader env { offset := a }))
      rw [hiteration, sample_eq h] at hoffset
      rw [sampleHead_offset, afterHeader_offset] at hhead
      dsimp only at hoffset hhead
      omega
    | comm =>
      have hsize : env.data.word 2 (a + 6) ≠ 0 := hgood.1 rfl
      unfold recordLength
      rw [hcase]
      dsimp only
      omega
    | lost | throttle | unthrottle =>
      unfold recordLength
      rw [hcase]
      dsimp only
      omega
    | _ =>
      have hmin : min (a + 8) size = min (a + recordLength env size a) size := hgood
      omega

/-- The library stays at a COMM record whose size is zero. -/
theorem emptyComm_stuck {d : Decoder} {fuel : Nat} (hlt : d.offset < size)
    (hcomm : caseOf (env.data.word 4 d.offset) = some .comm)
    (hzero : env.data.word 2 (d.offset + 6) = 0) :
    visits Decoder.offset (libraryStep env size) size fuel (ParseRecord.iteration env size d) = none := by
  have hstays {e : Decoder} (he : e.offset = d.offset) :
      (ParseRecord.iteration env size e).offset = d.offset := by
    rw [iteration_offset, he, recordLength, hcomm]
    dsimp only
    omega
  refine visits_stuck (P := fun e => e.offset = d.offset) ?_ ?_ (hstays rfl)
  · intro e he
    rw [he]
    exact hlt
  · intro e e' he hstep
    cases hstep
    exact hstays he

theorem lockstep (h : Plain env) : Lockstep Decoder.offset (libraryStep env size) position (iteration env)
    size (Related size) (Good env size) where
  together _ _ hR := hR.position
  keeps d s hR hlt hgood := by
    have hpos : s.decoder.offset = d.offset := lt_of_together hR.position hlt
    have hshared := (recordShared_iff d.offset).1 hgood
    have hforward : d.offset < (ParseRecord.iteration env size d).offset := by
      have hlength := recordLength_pos h hlt hgood
      rw [iteration_offset]
      omega
    cases hkept : kept (caseOf (env.data.word 4 d.offset)) with
    | true =>
      rw [if_pos hkept] at hshared
      obtain ⟨s', hs', hd⟩ := iteration_kept size h s (by rw [hpos]; exact hkept)
        (by rw [hpos]; exact hshared.2)
      obtain ⟨hoff, hsamples⟩ := iteration_congr size hpos.symm hR.samples
      refine ⟨_, s', rfl, hs', ⟨?_, ?_⟩, hforward⟩
      · rw [position, hd, hoff]
      · rw [hd, hsamples]
    | false =>
      rw [if_neg (by rw [hkept]; decide)] at hshared
      obtain ⟨hlibrary, -⟩ := decodedSamples_left size hkept
      obtain ⟨-, hcopy⟩ := decodedSamples_left size (d := s.decoder) (by rw [hpos]; exact hkept)
      refine ⟨_, _, rfl, iteration_left s (by rw [hpos]; exact hkept), ⟨?_, ?_⟩, hforward⟩
      · rw [iteration_offset, ← hshared, ← hpos]
        exact congrArg (min · size) (afterHeader_offset s.decoder).symm
      · rw [hlibrary, hR.samples, ← hcopy]
        rfl
  parts d s d' s' hR hlt hbad hd' hs' := by
    have hpos : s.decoder.offset = d.offset := lt_of_together hR.position hlt
    have hshared := (recordShared_iff d.offset).not.1 hbad
    cases hd'
    cases hkept : kept (caseOf (env.data.word 4 d.offset)) with
    | true =>
      right
      rw [if_pos hkept] at hshared
      rcases not_and_or.1 hshared with hcomm | hsample
      · obtain ⟨hcomm, hzero⟩ := Classical.not_imp.1 hcomm
        exact fun _ => emptyComm_stuck hlt hcomm (not_not.1 hzero)
      · obtain ⟨hsample, hmany⟩ := Classical.not_imp.1 hsample
        rw [← hpos] at hsample hmany
        rw [iteration_none h s hsample (not_le.1 hmany)] at hs'
        cases hs'
    | false =>
      left
      rw [if_neg (by rw [hkept]; decide)] at hshared
      rw [iteration_left s (by rw [hpos]; exact hkept)] at hs'
      cases hs'
      have hcopy : position (s.on (afterHeader env)) = d.offset + 8 := by
        rw [← hpos]
        exact afterHeader_offset s.decoder
      rw [iteration_offset, hcopy]
      exact Ne.symm hshared

end PerfEvent.PeriodicStats
