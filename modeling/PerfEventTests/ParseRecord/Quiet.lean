import PerfEventTests.ParseRecord.Progress

/-!
# Printing does not decode

The reader with and without `quiet`: every piece moves over the same bytes and reports the same
errors, so two runs on the same data go through the same positions, as long as what is read only to be
printed does not leave the copy.
-/

namespace PerfEvent.ParseRecord

open ByteMemory

/-- The same call, with or without printing. -/
def Env.withQuiet (env : Env) (quiet : Bool) : Env := { env with quiet }

/-- Two parts move over the same bytes and report the same errors. -/
def Agree (p q : Part) : Prop := ∀ a, (p a).size = (q a).size ∧ (p a).errors = (q a).errors

/-- A part that stays where it is and reports nothing. -/
def Silent (p : Part) : Prop := Agree p Part.nil

variable {env : Env} {b b' : Bool} {p p' q q' : Part}

namespace Agree

theorem refl (p : Part) : Agree p p := fun _ => ⟨rfl, rfl⟩

theorem symm (h : Agree p q) : Agree q p := fun a => ⟨(h a).1.symm, (h a).2.symm⟩

theorem seq (h : Agree p p') (h' : Agree q q') : Agree (p.seq q) (p'.seq q') := by
  intro a
  obtain ⟨hsize, herrors⟩ := h a
  obtain ⟨hsize', herrors'⟩ := h' (a + (p' a).size)
  unfold Part.seq Effect.append
  dsimp only
  rw [hsize, hsize', herrors, herrors']
  exact ⟨rfl, rfl⟩

theorem times {p q : Nat → Part} (h : ∀ i, Agree (p i) (q i)) (n : Nat) :
    Agree (Part.times n p) (Part.times n q) := by
  induction n with
  | zero => exact refl _
  | succ n ih => exact ih.seq (h n)

theorem onBit {flags mask : Nat} (h : Agree p q) :
    Agree (Part.onBit flags mask p) (Part.onBit flags mask q) := by
  unfold Part.onBit
  split
  · exact h
  · exact refl _

end Agree

theorem Silent.seq (h : Silent p) (h' : Silent q) : Silent (p.seq q) := fun a =>
  let hseq := Agree.seq h h' a
  ⟨hseq.1, hseq.2⟩

theorem Silent.nil : Silent Part.nil := Agree.refl _

theorem Silent.onBit {flags mask : Nat} (h : Silent p) : Silent (Part.onBit flags mask p) := by
  unfold Part.onBit
  split
  · exact h
  · exact .nil

theorem Silent.ite {c : Prop} [Decidable c] (h : Silent p) : Silent (if c then p else Part.nil) := by
  split
  · exact h
  · exact .nil

theorem Silent.times {p : Nat → Part} (h : ∀ i, Silent (p i)) (n : Nat) : Silent (Part.times n p) := by
  induction n with
  | zero => exact .nil
  | succ n ih => exact ih.seq (h n)

theorem silent_look (n : Nat) (rel : Int) (label : String) : Silent (Part.look env n rel label) :=
  fun _ => ⟨rfl, rfl⟩

theorem silent_enter (n : Int) : Silent (Part.enter n) := fun _ => ⟨rfl, rfl⟩

theorem silent_enterWords (n : Int) : Silent (Part.enterWords n) := fun _ => ⟨rfl, rfl⟩

/-- What is run only when it is printed does not count. -/
theorem silent_unlessQuiet (h : Silent p) : Silent (Part.unlessQuiet env p) := by
  unfold Part.unlessQuiet
  split
  · exact .nil
  · exact h

theorem Silent.agree (h : Silent p) (h' : Silent q) : Agree p q := fun a =>
  ⟨(h a).1.trans (h' a).1.symm, (h a).2.trans (h' a).2.symm⟩

/-! ## The parts -/

theorem field_agree (n : Nat) (label : String) :
    Agree (Part.field (env.withQuiet b) n label) (Part.field (env.withQuiet b') n label) :=
  fun _ => ⟨rfl, rfl⟩

theorem check_agree (f : ValidateValues → Option ValidateError) :
    Agree (Part.check (env.withQuiet b) f) (Part.check (env.withQuiet b') f) :=
  fun _ => ⟨rfl, rfl⟩

theorem named_agree (label : String) (names : Nat → List String) :
    Agree (Part.named (env.withQuiet b) label names) (Part.named (env.withQuiet b') label names) :=
  fun _ => ⟨rfl, rfl⟩

theorem string_agree (n : Int) (label : String) :
    Agree (Part.string (env.withQuiet b) n label) (Part.string (env.withQuiet b') n label) := by
  have htext : ∀ q bs, Silent (Part.unlessQuiet (env.withQuiet q)
      (Part.text (env.withQuiet q) n label bs)) := fun _ _ => silent_unlessQuiet fun _ => ⟨rfl, rfl⟩
  intro a
  exact ((Agree.refl (Part.copy n)).seq ((htext b (env.data.load a n.toNat)).agree
    (htext b' (env.data.load a n.toNat)))) a

/-- The value that a part depends on is read from the same data. -/
theorem value_agree {n : Nat} {p q : Int → Part} (h : ∀ v, Agree (p v) (q v)) :
    Agree (fun a => p ((env.withQuiet b).value n a) a)
      (fun a => q ((env.withQuiet b').value n a) a) :=
  fun a => h (env.value n a) a

theorem readMember_agree :
    Agree (readMemberPart (env.withQuiet b)) (readMemberPart (env.withQuiet b')) :=
  (field_agree 8 "Value").seq (field_agree 8 "id").onBit

theorem times_agree : Agree (timesPart (env.withQuiet b)) (timesPart (env.withQuiet b')) :=
  (field_agree 8 "enabled").onBit.seq (field_agree 8 "running").onBit

theorem readFormat_agree :
    Agree (readFormatPart (env.withQuiet b)) (readFormatPart (env.withQuiet b')) := by
  have hgroup : ∀ nr, Agree (groupPart (env.withQuiet b) nr) (groupPart (env.withQuiet b') nr) :=
    fun nr => ((field_agree 8 "Number").seq (check_agree (wrongNumber nr))).seq
      (times_agree.seq ((Agree.refl _).seq (.times (fun _ => readMember_agree) _)))
  unfold readFormatPart
  change Agree (if bitAnd env.readFormat perfFormatGroup then _ else _)
    (if bitAnd env.readFormat perfFormatGroup then _ else _)
  split
  · exact value_agree hgroup
  · exact (field_agree 8 "Value").seq (times_agree.seq (field_agree 8 "id").onBit)

theorem sampleRead_agree :
    Agree (sampleReadPart (env.withQuiet b)) (sampleReadPart (env.withQuiet b')) := by
  intro a
  have hread : Agree (readFormatPart (env.withQuiet b)) (readFormatPart (env.withQuiet b')) :=
    readFormat_agree
  obtain ⟨hsize, herrors⟩ := hread a
  unfold sampleReadPart
  dsimp only
  rw [hsize, herrors]
  exact ⟨rfl, rfl⟩

theorem callchain_agree (nr : Int) :
    Agree (callchainPart (env.withQuiet b) nr) (callchainPart (env.withQuiet b') nr) :=
  (field_agree 8 "callchain length").seq
    ((Agree.refl _).seq (.times (fun _ => field_agree 8 "ip") _))

theorem silent_dumpRaw (size : Int) : Silent (dumpRawPart env size) := by
  have hop : Silent (rawIbsOpPart env size) := fun a =>
    ((silent_look 4 0 "Header").seq ((silent_look 8 4 "MSR IBS_EXECUTION_CONTROL").seq
      ((silent_look 8 12 "MSR IBS_OP_LOGICAL_ADDRESS").seq ((silent_look 8 20 "MSR IBS_OP_DATA").seq
      ((silent_look 8 28 "MSR IBS_OP_DATA2").seq ((silent_look 8 36 "MSR IBS_OP_DATA3").seq
      ((silent_look 8 44 "MSR IBS_DC_LINEAR_ADDRESS").onBit.seq
      ((silent_look 8 52 "MSR IBS_DC_PHYSICAL_ADDRESS").onBit.seq
      (silent_look 8 60 "MSR IBS_OP_DATA4").ite)))))))) a
  have hbyte : ∀ i, Silent (rawBytePart env i) := fun _ _ => ⟨rfl, rfl⟩
  unfold dumpRawPart
  split
  · exact (silent_look 4 0 "Header").seq ((silent_look 8 4 "MSR IBS_FETCH_CONTROL").seq
      ((silent_look 8 12 "MSR IBS_FETCH_LINEAR_ADDRESS").seq
      ((silent_look 8 20 "MSR IBS_FETCH_PHYSICAL_ADDRESS").seq
      (silent_look 8 28 "MSR IBS_BRTARGET").ite)))
  · split
    · exact hop
    · exact (silent_enter _).seq (.times hbyte _)

theorem raw_agree (size : Int) :
    Agree (rawPart (env.withQuiet b) size) (rawPart (env.withQuiet b') size) :=
  (field_agree 4 "Raw length").seq (((silent_unlessQuiet (silent_dumpRaw size)).agree
    (silent_unlessQuiet (silent_dumpRaw size))).seq (Agree.refl _))

theorem branchEntry_agree :
    Agree (branchEntryPart (env.withQuiet b)) (branchEntryPart (env.withQuiet b')) := fun a =>
  ((field_agree 8 "from").seq ((check_agree (outOfBounds (env.data.word 8 a))).seq
    ((field_agree 8 "to").seq (named_agree "flags" branchFlagNames)))) a

theorem branchStack_agree (bnr : Int) :
    Agree (branchStackPart (env.withQuiet b) bnr) (branchStackPart (env.withQuiet b') bnr) :=
  (field_agree 8 "branch_stack entries").seq
    ((Agree.refl _).seq (.times (fun _ => branchEntry_agree) _))

theorem regs_agree (label : String) :
    Agree (regsPart (env.withQuiet b) label) (regsPart (env.withQuiet b') label) := by
  have hreg : ∀ i, Agree (printRegPart (env.withQuiet b) i) (printRegPart (env.withQuiet b') i) := by
    intro i
    unfold printRegPart
    change Agree (if env.regMask.getLsbD i then _ else _) (if env.regMask.getLsbD i then _ else _)
    split
    · have hregister : ∀ q, Silent (registerPart (env.withQuiet q) i) := fun _ _ => ⟨rfl, rfl⟩
      exact ((silent_unlessQuiet (hregister b)).agree (silent_unlessQuiet (hregister b'))).seq
        (Agree.refl _)
    · exact Agree.refl _
  have hmask : Agree (regMaskPart (env.withQuiet b)) (regMaskPart (env.withQuiet b')) :=
    fun _ => ⟨rfl, rfl⟩
  exact (named_agree label regsAbiNames).seq (hmask.seq (.times hreg 64))

theorem stackUser_agree (size : Int) :
    Agree (stackUserPart (env.withQuiet b) size) (stackUserPart (env.withQuiet b') size) := by
  have hword : ∀ q stackData k, Silent (stackWordPart (env.withQuiet q) stackData size k) :=
    fun _ _ _ _ => ⟨rfl, rfl⟩
  have hdump : ∀ q stackData dynSize,
      Silent (dumpStackPart (env.withQuiet q) stackData size dynSize) := fun q stackData _ =>
    (silent_enterWords _).seq (silent_unlessQuiet (.times (hword q stackData) _))
  have hcopy : Agree (stackCopyPart (env.withQuiet b) size)
      (stackCopyPart (env.withQuiet b') size) := fun a =>
    ((Agree.refl _).seq (value_agree fun dynSize => (field_agree 8 "Dynamic (used) size").seq
      ((hdump b (env.stackData a size) dynSize).agree
        (hdump b' (env.stackData a size) dynSize)))) a
  exact (field_agree 8 "Requested size").seq hcopy

theorem tid_agree (pid : Int) :
    Agree (tidPart (env.withQuiet b) pid) (tidPart (env.withQuiet b') pid) :=
  (check_agree (pidWrong pid)).seq ((((silent_look 4 0 "pid").seq (silent_look 4 4 "tid")).agree
    ((silent_look 4 0 "pid").seq (silent_look 4 4 "tid"))).seq (Agree.refl _))

theorem cpu_agree : Agree (cpuPart (env.withQuiet b)) (cpuPart (env.withQuiet b')) :=
  (((silent_look 4 0 "cpu").seq (silent_look 4 4 "res")).agree
    ((silent_look 4 0 "cpu").seq (silent_look 4 4 "res"))).seq (Agree.refl _)

theorem dataSrc_agree :
    Agree (fun a => dataSrcPart (env.withQuiet b) ((env.withQuiet b).data.word 8 a) a)
      (fun a => dataSrcPart (env.withQuiet b') ((env.withQuiet b').data.word 8 a) a) :=
  fun _ => ⟨rfl, rfl⟩

theorem sample_agree : Agree (samplePart (env.withQuiet b)) (samplePart (env.withQuiet b')) :=
  (field_agree 8 "IP").onBit.seq ((value_agree tid_agree).onBit.seq
    ((field_agree 8 "time").onBit.seq ((field_agree 8 "addr").onBit.seq
    ((field_agree 8 "sample_id").onBit.seq ((field_agree 8 "sample_stream_id").onBit.seq
    (cpu_agree.onBit.seq ((field_agree 8 "period").onBit.seq
    (sampleRead_agree.onBit.seq ((value_agree callchain_agree).onBit.seq
    ((value_agree raw_agree).onBit.seq ((value_agree branchStack_agree).onBit.seq
    ((regs_agree _).onBit.seq ((regs_agree _).onBit.seq ((value_agree stackUser_agree).onBit.seq
    ((field_agree 8 "Weight").onBit.seq (dataSrc_agree.onBit.seq
    ((field_agree 8 "PERF_SAMPLE_IDENTIFIER").onBit.seq
    ((field_agree 8 "PERF_SAMPLE_TRANSACTION").onBit.seq (Agree.refl _)))))))))))))))))))

theorem fields_agree (fs : List (Nat × String)) :
    Agree (fieldsPart (env.withQuiet b) fs) (fieldsPart (env.withQuiet b') fs) := by
  induction fs with
  | nil => exact Agree.refl _
  | cons f fs ih => exact (field_agree f.1 f.2).seq ih

theorem arm_agree (size evsize : Int) (type : Nat) :
    Agree (armPart (env.withQuiet b) size evsize type)
      (armPart (env.withQuiet b') size evsize type) := by
  unfold armPart
  split
  · exact Agree.refl _
  · exact (fields_agree _).seq (string_agree _ _)
  · exact (fields_agree _).seq (string_agree _ _)
  · exact (fields_agree _).seq (string_agree _ _)
  · exact sample_agree
  · exact fields_agree _

theorem iteration_agree (size : Int) :
    Agree (iterationPart (env.withQuiet b) size) (iterationPart (env.withQuiet b') size) := by
  intro a
  have hheader : ∀ type misc evsize, Agree (headerPart (env.withQuiet b) type misc evsize)
      (headerPart (env.withQuiet b') type misc evsize) := fun _ _ _ _ => ⟨rfl, rfl⟩
  exact ((hheader _ _ _).seq (arm_agree size (env.data.word 2 (a + 6)) (env.data.word 4 a))) a

/-! ## What is read only to be printed -/

theorem recordLength_quiet (size a : Int) :
    recordLength (env.withQuiet b) size a = recordLength (env.withQuiet b') size a := by
  have hagree : Agree (iterationPart (env.withQuiet b) size) (iterationPart (env.withQuiet b') size) :=
    iteration_agree size
  rw [← iterationPart_size, (hagree a).1, iterationPart_size]

theorem fits_quiet {room : Int} {f : SampleField} {a : Int}
    (h : f.Fits (env.withQuiet false) room a) : f.Fits (env.withQuiet true) room a := by
  cases f with
  | word _ | tid | cpu | read | callchain | branchStack | dataSrc => exact h
  | raw => exact ⟨h.1, fun hquiet => by cases hquiet⟩
  | regs label =>
    have hwithin : Within room a (8 + 8 * weight env.regMask) := h
    have hword : Within room a 8 := by
      unfold Within at hwithin ⊢
      omega
    exact hword
  | stackUser => exact ⟨h.1, h.2.1, h.2.2.1, fun hquiet => by cases hquiet⟩

theorem eachField_quiet {room : Int} (fs : List SampleField) (a : Int)
    (h : EachField (env.withQuiet false) (SampleField.Fits (env.withQuiet false) room) fs a) :
    EachField (env.withQuiet true) (SampleField.Fits (env.withQuiet true) room) fs a := by
  induction fs generalizing a with
  | nil => trivial
  | cons f fs ih =>
    have hlength : f.length (env.withQuiet true) a = f.length (env.withQuiet false) a := by
      cases f <;> rfl
    refine ⟨fits_quiet h.1, ?_⟩
    rw [hlength]
    exact ih _ h.2

/-- A record that is inside when it is printed is inside without that. -/
theorem RecordInside.quiet {room a : Int} (h : RecordInside (env.withQuiet false) room a) :
    RecordInside (env.withQuiet true) room a := by
  have hdata : ∀ q, (env.withQuiet q).data = env.data := fun _ => rfl
  have hfits := h.1
  refine ⟨?_, fun hquiet => by cases hquiet⟩
  unfold RecordFits at hfits ⊢
  simp only [hdata] at hfits ⊢
  refine ⟨hfits.1, ?_⟩
  have hrest := hfits.2
  cases hcase : caseOf (env.data.word 4 a) with
  | none => trivial
  | some t =>
    rw [hcase] at hrest
    cases t with
    | sample => exact eachField_quiet _ _ hrest
    | _ => exact hrest

/-! ## The loop -/

/-- Two loops are at the same position and have reported the same. -/
structure SameProgress (l l' : Loop) : Prop where
  offset : l'.decoder.offset = l.decoder.offset
  errors : l'.decoder.errors = l.decoder.errors
  starts : l'.starts = l.starts

theorem SameProgress.turn {l l' : Loop} (h : SameProgress l l') (size : Int) :
    SameProgress (l.turn (env.withQuiet b) size) (l'.turn (env.withQuiet b') size) := by
  have hagree : Agree (iterationPart (env.withQuiet b) size) (iterationPart (env.withQuiet b') size) :=
    iteration_agree size
  have herrors : ∀ q (d : Decoder), (iteration (env.withQuiet q) size d).errors =
      d.errors ++ (iterationPart (env.withQuiet q) size d.offset).errors := by
    intro q d
    rw [iteration_describes]
    rfl
  constructor
  · rw [turn_offset, turn_offset, h.offset, recordLength_quiet]
  · change (iteration _ size l'.decoder).errors = (iteration _ size l.decoder).errors
    rw [herrors, herrors, h.offset, h.errors, (hagree _).2]
  · change l'.starts ++ [l'.decoder.offset] = l.starts ++ [l.decoder.offset]
    rw [h.starts, h.offset]

theorem SameProgress.outcome {l l' : Loop} (h : SameProgress l l') (c : Copied)
    (page : Option MmapPage) : c.outcome page l' = c.outcome page l := by
  unfold Copied.outcome Loop.eventsRead
  rw [h.errors, h.starts]

section Dumps

variable {room size : Int} (hdumps : ∀ a, ComesInside (env.withQuiet true) room size a → a < size →
  RecordInside (env.withQuiet true) room a → RecordInside (env.withQuiet false) room a)

include hdumps

/-- Both loops leave the copy together: from the same position on they come to the same. -/
theorem checkedLoop_quiet {β : Type} (f : Loop → β) (hf : ∀ l l', SameProgress l l' → f l' = f l)
    (fuel : Nat) {l l' : Loop} (h : SameProgress l l') (hl : l.decoder.Inside room)
    (hl' : l'.decoder.Inside room)
    (hcomes : ComesInside (env.withQuiet true) room size l.decoder.offset) :
    (checkedLoop (env.withQuiet false) room size fuel l').map (·.map f) =
      (checkedLoop (env.withQuiet true) room size fuel l).map (·.map f) := by
  induction fuel generalizing l l' with
  | zero =>
    by_cases hlt : l.decoder.offset < size
    · rw [checkedLoop_zero hlt, checkedLoop_zero (h.offset ▸ hlt)]
    · have hge := not_lt.1 hlt
      rw [checkedLoop_of_ge hge, checkedLoop_of_ge (h.offset ▸ hge)]
      exact congrArg (fun x => some (Checked.returned x)) (hf l l' h)
  | succ fuel ih =>
    by_cases hlt : l.decoder.offset < size
    · have hlt' : l'.decoder.offset < size := h.offset ▸ hlt
      by_cases hrecord : RecordInside (env.withQuiet true) room l.decoder.offset
      · have hloud := hdumps _ hcomes hlt hrecord
        rw [← h.offset] at hloud
        rw [checkedLoop_inside hlt hl hrecord, checkedLoop_inside hlt' hl' hloud]
        apply ih (h.turn size)
        · exact (iteration_inside _).2 ⟨hl, hrecord⟩
        · exact (iteration_inside _).2 ⟨hl', hloud⟩
        · rw [turn_offset]
          exact hcomes.next hlt hrecord
      · have hloud : ¬RecordInside (env.withQuiet false) room l'.decoder.offset := fun hloud =>
          hrecord (h.offset ▸ hloud).quiet
        rw [checkedLoop_outside hlt hrecord, checkedLoop_outside hlt' hloud]
    · have hge := not_lt.1 hlt
      rw [checkedLoop_of_ge hge, checkedLoop_of_ge (h.offset ▸ hge)]
      exact congrArg (fun x => some (Checked.returned x)) (hf l l' h)

end Dumps

section Same

variable {β : Type} {f : Loop → β} {room size : Int}
  (hsame : ∀ fuel, (checkedLoop (env.withQuiet false) room size fuel {}).map (·.map f) =
    (checkedLoop (env.withQuiet true) room size fuel {}).map (·.map f))

include hsame

/-- Where both loops have arrived, what is printed is inside: otherwise one of them would be
undefined and the other not. -/
theorem dumps_inside {k : Nat} {l l' : Loop} (hl : Arrives (env.withQuiet true) room size k l)
    (hl' : Arrives (env.withQuiet false) room size k l') (hoffset : l'.decoder.offset = l.decoder.offset)
    (hlt : l.decoder.offset < size)
    (hrecord : RecordInside (env.withQuiet true) room l.decoder.offset) :
    RecordInside (env.withQuiet false) room l.decoder.offset := by
  by_contra hloud
  rw [← hoffset] at hloud
  have h := hsame (k + 1)
  rw [hl.run, hl'.run, checkedLoop_outside (hoffset ▸ hlt) hloud, checkedLoop_inside hlt hl.inside hrecord]
    at h
  by_cases hnext : (l.turn (env.withQuiet true) size).decoder.offset < size
  · rw [checkedLoop_zero hnext] at h
    cases h
  · rw [checkedLoop_of_ge (not_lt.1 hnext)] at h
    cases h

theorem arrive_together {a : Int} (ha : ComesInside (env.withQuiet true) room size a) :
    ∃ k l l', Arrives (env.withQuiet true) room size k l ∧
      Arrives (env.withQuiet false) room size k l' ∧ l.decoder.offset = a ∧ l'.decoder.offset = a := by
  induction ha with
  | first => exact ⟨0, {}, {}, .first, .first, rfl, rfl⟩
  | next _ hlt hrecord ih =>
    obtain ⟨k, l, l', hl, hl', rfl, hoffset⟩ := ih
    have hloud := dumps_inside hsame hl hl' hoffset hlt hrecord
    rw [← hoffset] at hloud
    refine ⟨k + 1, _, _, hl.next hlt hrecord, hl'.next (hoffset ▸ hlt) hloud, turn_offset l, ?_⟩
    rw [turn_offset, hoffset, recordLength_quiet]

end Same

/-! ## The call -/

/-- With printing the call comes to what it comes to without, whatever number of iterations it is
given. -/
def CallInput.IgnoresQuiet (i : CallInput) : Prop := ∀ fuel,
  checkedRead i.area i.page i.malloc i.prevHead (i.env.withQuiet false) fuel =
    checkedRead i.area i.page i.malloc i.prevHead (i.env.withQuiet true) fuel

/-- Printing does not change a call exactly when every record that it comes to, and that is inside
for a reader that does not print, is also inside for one that does. -/
theorem perfMmapRead_ignoresQuiet_iff (i : CallInput) : i.IgnoresQuiet ↔
    ∀ c, i.copied = .copied c → (0 ≤ i.prevHead ∨ (i.area.bytesize : Int) ∣ i.prevHead) →
      ∀ a, ComesInside ((i.env.of c).withQuiet true) i.area.bytesize c.size a → a < c.size →
        RecordInside ((i.env.of c).withQuiet true) i.area.bytesize a →
          RecordInside ((i.env.of c).withQuiet false) i.area.bytesize a := by
  constructor
  · intro h c hc hprev a ha hlt hrecord
    have hwrites := (writesInside_iff (bytesize_pos_of_copied hc) i.prevHead).2 hprev
    have hsame : ∀ fuel, (checkedLoop ((i.env.of c).withQuiet false) i.area.bytesize c.size fuel
        {}).map (·.map (c.outcome i.page)) = (checkedLoop ((i.env.of c).withQuiet true)
          i.area.bytesize c.size fuel {}).map (·.map (c.outcome i.page)) := by
      intro fuel
      have hfuel := h fuel
      rw [checkedRead_copied hc hwrites, checkedRead_copied hc hwrites] at hfuel
      exact hfuel
    obtain ⟨k, l, l', hl, hl', rfl, hoffset⟩ := arrive_together hsame ha
    exact dumps_inside hsame hl hl' hoffset hlt hrecord
  · intro h fuel
    cases hc : i.copied with
    | returned v => rw [checkedRead_returned hc, checkedRead_returned hc]
    | copied c =>
      by_cases hwrites : WritesInside i.area i.prevHead
      · have hprev := (writesInside_iff (bytesize_pos_of_copied hc) i.prevHead).1 hwrites
        rw [checkedRead_copied hc hwrites, checkedRead_copied hc hwrites]
        have hstart : SameProgress {} {} := ⟨rfl, rfl, rfl⟩
        exact checkedLoop_quiet (h c hc hprev) (c.outcome i.page) (fun _ _ hl => hl.outcome c i.page)
          fuel hstart (List.forall_mem_nil _) (List.forall_mem_nil _) .first
      · -- neither of them gets as far as its loop
        rw [checkedRead_outside hc hwrites, checkedRead_outside hc hwrites]

/-! ### Raw data behind the copy -/

/-- A sample with more raw data than a page has. -/
def longRaw : Mem := Mem.ofList ([9, 0, 0, 0, 0, 0, 16, 0] ++ le 4 8192)

def longRawEnv : Env where
  data := longRaw
  sampleType := perfSampleRaw
  readFormat := 0
  regMask := 0

def longRawCall : CallInput := firstCall longRaw 16 longRawEnv

/-- Without printing the raw data are skipped, with printing they are read behind the copy. -/
theorem longRawCall_differs : ¬longRawCall.IgnoresQuiet := by
  intro h
  have hsame : ∀ fuel, (checkedLoop (longRawEnv.withQuiet false) pageArea.bytesize
      (firstCopied longRaw 16).size fuel {}).map
        (·.map ((firstCopied longRaw 16).outcome longRawCall.page)) =
      (checkedLoop (longRawEnv.withQuiet true) pageArea.bytesize
        (firstCopied longRaw 16).size fuel {}).map
        (·.map ((firstCopied longRaw 16).outcome longRawCall.page)) := by
    intro fuel
    exact (firstCall_checked longRaw 16 (longRawEnv.withQuiet false) fuel).symm.trans ((h fuel).trans
      (firstCall_checked longRaw 16 (longRawEnv.withQuiet true) fuel))
  have hquiet : RecordInside (longRawEnv.withQuiet true) pageArea.bytesize 0 := by
    have hheader : Within pageArea.bytesize 0 8 := by decide
    have hsize : Within pageArea.bytesize (0 + 8) 4 := by decide
    exact ⟨⟨hheader, ⟨hsize, fun h => by cases h⟩, trivial⟩, fun h => by cases h⟩
  have hloud := dumps_inside hsame .first .first rfl (by decide) hquiet
  have hbytes : longRaw.Holds 8 (le 4 8192) := (Mem.holds_append.1 (Mem.ofList_holds _)).2
  rw [← List.append_nil (le 4 8192)] at hbytes
  have hsize : (longRawEnv.withQuiet false).value 4 8 = 8192 :=
    (congrArg (toSigned (8 * 4)) (congrArg Nat.cast (hbytes.word_eq (by decide)))).trans
      (toInt32_of_range (by decide) (by decide))
  have hdump := hloud.1.2.1.2 rfl
  have hlooks : ∀ size a, rawLooks (longRawEnv.withQuiet false) size a = size.toNat := fun _ _ => rfl
  have hpage : pageArea.bytesize = 4096 := rfl
  rw [hlooks, show ({} : Loop).decoder.offset + 8 = 8 from rfl, hsize] at hdump
  have hraw := hdump (by omega)
  unfold Within at hraw
  omega

end PerfEvent.ParseRecord
