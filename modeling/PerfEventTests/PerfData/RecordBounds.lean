import PerfEventTests.ParseRecord.Fields
import PerfEventTests.PerfData.Progress

/-!
# The bounds of a record in a file

`parse_perf_record` gets a buffer and trusts what the record in it says about itself. When everything
that a call reads belongs to the record, as far as the record has been read from the file.
-/

namespace PerfEvent.PerfData

open ByteMemory ParseRecord

/-- The buffer and the layout that `dump_data` passes on, and how many bytes its `read` has put into
the buffer. -/
structure RecordInput where
  data : Mem
  sampleType : Nat
  readFormat : Nat
  bytesRead : Nat
  bytesRead_le : bytesRead ≤ maxRecordSize

namespace RecordInput

variable (i : RecordInput)

def env : Env where
  data := i.data
  sampleType := i.sampleType
  readFormat := i.readFormat
  regMask := 0
  quiet := false

def type : Nat := i.data.word 4 0

/-- The bytes of the record: they are below the size in its header, and they have been read. -/
def room : Int := min (claimedSize i.data : Int) i.bytesRead

/-- Everything that is read is a byte of the record, or of the copies that are made of its bytes; a
string is read up to its terminating zero. -/
def StaysInside : Prop := ∀ x ∈ (parsePerfRecord i.env).1.accesses, x.Inside i.room

/-- The string at the end of a record has its terminating zero. -/
def Terminated : Prop := ParseRecord.Terminated i.env 0

/-- The fields that the type of the record, the layout and the counts in it ask for are there. -/
def FieldsFit : Prop :=
  if i.type = recordFinishedRound then Within i.room 0 24
  else if i.type = recordTimeConv then Within i.room 0 32
  else RecordFits i.env i.room 0

end RecordInput

/-! ## The arms -/

variable {env : Env} {size : Int} {type : Nat}

/-- The fields of the two records that only the perf tool writes. -/
def toolFields (type : Nat) : List (Nat × String) :=
  if type = recordFinishedRound then [(8, "Type"), (8, "Time")]
  else [(8, "Time shift"), (8, "Time mult"), (8, "Time zero")]

/-- Records of the tool are header and fields. -/
theorem recordArm_tool (h : type = recordFinishedRound ∨ type = recordTimeConv) :
    Describes (fieldsPart env (toolFields type)) (recordArm env size type) := by
  intro d
  obtain rfl | rfl := h
  · exact ((Describes.field 8 "Type").comp ((Describes.field 8 "Time").comp Describes.id)) d
  · exact ((Describes.field 8 "Time shift").comp ((Describes.field 8 "Time mult").comp
      ((Describes.field 8 "Time zero").comp Describes.id))) d

theorem recordArm_kernel (hround : type ≠ recordFinishedRound) (hconv : type ≠ recordTimeConv)
    (d : Decoder) : recordArm env size type d = arm env size size type d := by
  unfold recordArm
  rw [if_neg hround, if_neg hconv]

theorem toolFields_pos (type : Nat) : ∀ f ∈ toolFields type, 0 < f.1 := by
  unfold toolFields
  split <;> decide

theorem toolFields_length_pos (type : Nat) : 0 < fieldsLength (toolFields type) := by
  unfold toolFields
  split <;> decide

/-! ## The record -/

namespace RecordInput

variable (i : RecordInput)

/-- A record is its header and what comes behind it. -/
theorem parsePerfRecord_eq {p : Part}
    (h : Describes p (recordArm i.env (claimedSize i.data) i.type)) : (parsePerfRecord i.env).1 =
      Decoder.add {} (((headerPart i.env i.type (i.data.word 2 4) (i.data.word 2 6)).seq p) 0) :=
  (header_describes _ _ _).comp h {}

theorem accesses_inside {p : Part}
    (h : Describes p (recordArm i.env (claimedSize i.data) i.type)) :
    (∀ x ∈ (parsePerfRecord i.env).1.accesses, x.Inside i.room) ↔
      Within i.room 0 8 ∧ p.Inside i.room 8 := by
  have hheader := @header_inside i.env i.type (i.data.word 2 4) (i.data.word 2 6) i.room 0
  rw [i.parsePerfRecord_eq h, ← hheader]
  exact Part.inside_seq

theorem inside_tool (h : i.type = recordFinishedRound ∨ i.type = recordTimeConv) :
    i.StaysInside ↔ Within i.room 0 (8 + fieldsLength (toolFields i.type)) := by
  have htool : Describes _ (recordArm i.env (claimedSize i.data) i.type) := recordArm_tool h
  have hcovers := @fieldsPart_covers i.env _ (toolFields_pos i.type)
  have haccesses := i.accesses_inside htool
  rw [hcovers.inside_of_pos (toolFields_length_pos _)] at haccesses
  refine haccesses.trans ?_
  unfold Within
  omega

theorem inside_kernel (hround : i.type ≠ recordFinishedRound) (hconv : i.type ≠ recordTimeConv) :
    i.StaysInside ↔ RecordInside i.env i.room 0 := by
  have hrun : (parsePerfRecord i.env).1 = iteration i.env (claimedSize i.data) {} :=
    recordArm_kernel hround hconv _
  unfold StaysInside
  rw [hrun, iteration_describes]
  exact iterationPart_inside _ _ _

/-- The records of the tool have no string. -/
theorem terminated_tool (h : i.type = recordFinishedRound ∨ i.type = recordTimeConv) :
    i.Terminated := by
  have htype : i.env.data.word 4 0 = i.type := rfl
  unfold Terminated ParseRecord.Terminated
  rw [htype]
  obtain h | h := h <;> rw [h] <;> exact trivial

/-- A call reads bytes of its record only, and only such as have been read from the file, exactly
when all fields that it is asked to decode are there and a string at the end of the record ends in
it. -/
theorem parsePerfRecord_inside_iff : i.StaysInside ↔ i.FieldsFit ∧ i.Terminated := by
  unfold FieldsFit
  split_ifs with hround hconv
  · rw [and_iff_left (i.terminated_tool (.inl hround)), inside_tool i (.inl hround), hround]
    rfl
  · rw [and_iff_left (i.terminated_tool (.inr hconv)), inside_tool i (.inr hconv), hconv]
    rfl
  · rw [inside_kernel i hround hconv]
    exact and_congr_right fun _ => ⟨fun h => h rfl, fun h _ => h⟩

/-- A LOST record that consists of its header. -/
def emptyLost : RecordInput where
  data := Mem.ofList [2, 0, 0, 0, 0, 0, 8, 0]
  sampleType := 0
  readFormat := 0
  bytesRead := 8
  bytesRead_le := by decide

theorem emptyLost_outside : ¬emptyLost.StaysInside := by
  intro h
  have hfields : Within emptyLost.room 0 24 :=
    ((inside_kernel emptyLost (by decide) (by decide)).1 h).1.2
  exact absurd hfields (by decide)

end RecordInput

end PerfEvent.PerfData
