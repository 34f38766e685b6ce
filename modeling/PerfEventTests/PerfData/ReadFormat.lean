import PerfEventTests.ParseRecord.Decoding
import PerfEventTests.PerfData.DumpData

/-!
# Read values in both decoders

`handle_struct_read_format` of `perf_data_fuzzer/parse_record.c` beside the one of the library, and
when they decode a read value of `include/perf_event.h`: neither knows `PERF_FORMAT_LOST`, and both
count bytes in an `int`.
-/

namespace PerfEvent.PerfData

open ByteMemory ParseRecord

/-- `handle_struct_read_format` of `perf_data_fuzzer`, which validates nothing. -/
def handleStructReadFormat (env : Env) (d : Decoder) : Decoder :=
  if bitAnd env.readFormat perfFormatGroup then
    let nr := d.value env 8
    let d := d.field env 8 "Number"
    let d := onBit env.readFormat perfFormatTotalTimeEnabled (·.field env 8 "enabled") d
    let d := onBit env.readFormat perfFormatTotalTimeRunning (·.field env 8 "running") d
    (d.enter nr).loop nr fun _ => readMember env
  else
    let d := d.field env 8 "Value"
    let d := onBit env.readFormat perfFormatTotalTimeEnabled (·.field env 8 "enabled") d
    let d := onBit env.readFormat perfFormatTotalTimeRunning (·.field env 8 "running") d
    onBit env.readFormat perfFormatId (·.field env 8 "id") d

/-- The two do the same when nothing is validated. -/
theorem handleStructReadFormat_eq {env : Env} (h : env.validate = none) :
    handleStructReadFormat env = ParseRecord.handleStructReadFormat env := by
  have hcheck : ∀ (f : ValidateValues → Option ValidateError) (d : Decoder), d.check env f = d := by
    intro f d
    unfold Decoder.check
    rw [h]
    rfl
  funext d
  unfold handleStructReadFormat ParseRecord.handleStructReadFormat
  dsimp only
  rw [hcheck]

/-! ## Values in memory -/

/-- A read value of an event with these attributes, in memory. -/
structure ReadCall where
  attr : PerfEventAttr
  values : ReadValues
  data : Mem
  sample : Int
  holds : data.Holds sample (values.encode attr)
  validate : Option ValidateValues

namespace ReadCall

variable (i : ReadCall)

def env (validate : Option ValidateValues) (quiet : Bool) : Env where
  data := i.data
  sampleType := 0
  readFormat := i.attr.readFormat.toNat
  regMask := 0
  validate := validate
  quiet := quiet

/-- A call of either function. -/
def call (f : Env → Decoder → Decoder) (validate : Option ValidateValues) (quiet : Bool) : Decoder :=
  f (i.env validate quiet) { offset := i.sample }

/-- The `int` that is returned. -/
def returned (d : Decoder) : Int := toInt32 (d.offset - i.sample)

/-- The length of the value is returned, and what is printed and reported is what it holds. -/
structure Decoded : Prop where
  returns : ∀ quiet, i.returned (i.call ParseRecord.handleStructReadFormat i.validate quiet) =
    (i.values.encode i.attr).length
  prints : (i.call ParseRecord.handleStructReadFormat i.validate false).printed =
    shownRead i.attr i.values
  reports : (i.call ParseRecord.handleStructReadFormat i.validate false).errors =
    reportedRead i.attr i.values i.validate
  perfData_returns : i.returned (i.call handleStructReadFormat none false) =
    (i.values.encode i.attr).length
  perfData_prints : (i.call handleStructReadFormat none false).printed = shownRead i.attr i.values

/-! ## The lengths -/

theorem call_eq (validate : Option ValidateValues) (quiet : Bool) :
    i.call ParseRecord.handleStructReadFormat validate quiet =
      ({ offset := i.sample } : Decoder).add (readFormatPart (i.env validate quiet) i.sample) :=
  handleStructReadFormat_describes _

theorem returned_eq (validate : Option ValidateValues) (quiet : Bool) :
    i.returned (i.call ParseRecord.handleStructReadFormat validate quiet) =
      toInt32 (readLength (i.env validate quiet) i.sample) := by
  rw [call_eq, ← readFormatPart_size]
  unfold returned Decoder.add
  dsimp only
  rw [add_sub_cancel_left]

/-- The bytes of lost counts in a read value. -/
def lostLength : Nat :=
  wordOnBit i.attr.readFormat.toNat perfFormatLost *
    if bitAnd i.attr.readFormat.toNat perfFormatGroup then i.values.cntr.length else 1

/-- The bytes of a read value that the functions go over. -/
def knownLength : Nat :=
  if bitAnd i.attr.readFormat.toNat perfFormatGroup then
    8 + timesLength (i.env none true) + i.values.cntr.length * memberLength (i.env none true)
  else 8 + timesLength (i.env none true) + wordOnBit i.attr.readFormat.toNat perfFormatId

theorem length_encode : (i.values.encode i.attr).length = i.knownLength + i.lostLength := by
  have hmembers := length_readMembers (a := i.attr) i.values.cntr
  have hformat : (i.env none true).readFormat = i.attr.readFormat.toNat := rfl
  unfold knownLength lostLength timesLength memberLength wordOnBit
  rw [hformat]
  cases hgroup : bitAnd i.attr.readFormat.toNat perfFormatGroup with
  | true =>
    rw [encode_group i.values hgroup, if_pos rfl, if_pos rfl]
    simp only [List.length_append, length_le, length_opt, length_u64, hmembers]
    ring
  | false =>
    rw [encode_single i.values hgroup, if_neg Bool.false_ne_true, if_neg Bool.false_ne_true]
    simp only [List.length_append, length_opt, length_u64]
    ring

/-- What the functions go over, when the number of members is one that an `int` can hold. -/
theorem readLength_eq (validate : Option ValidateValues) (quiet : Bool)
    (h : (i.values.encode i.attr).length < 2 ^ 31) :
    readLength (i.env validate quiet) i.sample = i.knownLength := by
  unfold readLength knownLength
  change (if bitAnd i.attr.readFormat.toNat perfFormatGroup then _ else _) = _
  cases hgroup : bitAnd i.attr.readFormat.toNat perfFormatGroup with
  | true =>
    have hle := members_le_length i.values hgroup
    have hholds := i.holds
    rw [encode_group i.values hgroup] at hholds
    have hvalue : (i.env validate quiet).value 8 i.sample = i.values.cntr.length :=
      (value_of_holds hholds (by omega)).trans (toInt64_of_range (by omega) (by omega))
    rw [if_pos rfl, if_pos rfl, hvalue]
    rfl
  | false =>
    rw [if_neg Bool.false_ne_true, if_neg Bool.false_ne_true]
    rfl

/-- No lost counts are there: none were asked for, or there is no member that has one. -/
def NoneLost : Prop :=
  bitAnd i.attr.readFormat.toNat perfFormatLost = false ∨
    (bitAnd i.attr.readFormat.toNat perfFormatGroup = true ∧ i.values.cntr = [])

theorem lostLength_eq_zero_iff : i.lostLength = 0 ↔ i.NoneLost := by
  unfold lostLength NoneLost wordOnBit
  cases bitAnd i.attr.readFormat.toNat perfFormatLost with
  | true =>
    cases bitAnd i.attr.readFormat.toNat perfFormatGroup <;> simp
  | false => simp

/-- The length that is returned is that of the value exactly when there are no lost counts, and an
`int` can hold it. -/
theorem returned_iff (validate : Option ValidateValues) (quiet : Bool) :
    i.returned (i.call ParseRecord.handleStructReadFormat validate quiet) =
        (i.values.encode i.attr).length ↔
      i.NoneLost ∧ (i.values.encode i.attr).length < 2 ^ 31 := by
  rw [returned_eq, ← lostLength_eq_zero_iff]
  have hlength := i.length_encode
  constructor
  · intro h
    have hlt : (i.values.encode i.attr).length < 2 ^ 31 := by
      have hsigned := toSigned_lt (w := 32) (by decide) (readLength (i.env validate quiet) i.sample)
      change toInt32 _ < _ at hsigned
      rw [h] at hsigned
      omega
    rw [i.readLength_eq validate quiet hlt, toInt32_of_range (by omega) (by omega)] at h
    exact ⟨by omega, hlt⟩
  · rintro ⟨hlost, hlt⟩
    rw [i.readLength_eq validate quiet hlt, toInt32_of_range (by omega) (by omega)]
    omega

/-- Both functions decode a read value exactly when there are no lost counts in it, and its length
is one that an `int` can hold. -/
theorem decoded_iff : i.Decoded ↔ i.NoneLost ∧ (i.values.encode i.attr).length < 2 ^ 31 := by
  have hperfData : i.call handleStructReadFormat none false =
      i.call ParseRecord.handleStructReadFormat none false := by
    unfold call
    rw [handleStructReadFormat_eq rfl]
  constructor
  · exact fun h => (i.returned_iff i.validate false).1 (h.returns false)
  · rintro ⟨hlost, hlt⟩
    have hn : bitAnd i.attr.readFormat.toNat perfFormatGroup = true →
        i.values.cntr.length < 2 ^ 63 := by
      intro hgroup
      have hle := members_le_length i.values hgroup
      omega
    have hreads : ∀ validate, Reads (i.env validate false) (readFormatPart (i.env validate false))
        (i.values.encode i.attr) (shownRead i.attr i.values)
        (reportedRead i.attr i.values validate) := fun validate =>
      readFormatPart_reads i.values rfl rfl hlost hn
    constructor
    · exact fun quiet => (i.returned_iff i.validate quiet).2 ⟨hlost, hlt⟩
    · rw [call_eq]
      exact ((hreads i.validate).shows i.sample i.holds).1
    · rw [call_eq]
      exact ((hreads i.validate).shows i.sample i.holds).2
    · rw [hperfData]
      exact (i.returned_iff none false).2 ⟨hlost, hlt⟩
    · rw [hperfData, call_eq]
      exact ((hreads none).shows i.sample i.holds).1

/-- A read value of one event with a lost count. -/
def lostCall : ReadCall where
  attr := { readFormat := 16 }
  values := { own := ⟨1, 2, 3⟩ }
  data := Mem.ofList (ReadValues.encode { readFormat := 16 } { own := ⟨1, 2, 3⟩ })
  sample := 0
  holds := Mem.ofList_holds _
  validate := none

theorem lostCall_not_decoded : ¬lostCall.Decoded := by
  intro h
  exact absurd (h.returns true) (by decide)

end ReadCall

end PerfEvent.PerfData
