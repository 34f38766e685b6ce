import PerfEventTests.ParseRecord.CopyOut
import PerfEventTests.ParseRecord.Parts

/-!
# A call of the reader

`perf_mmap_read` from the copy to the return, with the parts of its switch and of its loop. Where
the loop comes to is a matter of positions: an iteration is reached when all iterations before it
have ended.
-/

namespace PerfEvent.ParseRecord

open ByteMemory

/-! ## The arms and the loop -/

section Arms

variable (env : Env)

/-- Fields of fixed size in a row. -/
def fieldsPart (fs : List (Nat × String)) : Part :=
  Part.all (fs.map fun f => Part.field env f.1 f.2)

def pidFields : List (Nat × String) := [(4, "PID"), (4, "TID")]

def mmapFields : List (Nat × String) :=
  pidFields ++ [(8, "Address"), (8, "Length"), (8, "Page Offset")]

def mmap2Fields : List (Nat × String) :=
  mmapFields ++ [(4, "Major"), (4, "Minor"), (8, "Ino"), (8, "Ino generation"), (4, "Prot"),
    (4, "Flags")]

/-- The fields of the arms that have fields of fixed size only. -/
def fixedFields : RecordType → List (Nat × String)
  | .lost => [(8, "ID"), (8, "LOST")]
  | .fork | .exit => [(4, "PID"), (4, "PPID"), (4, "TID"), (4, "PTID"), (8, "Time")]
  | .throttle | .unthrottle => [(8, "Time"), (8, "ID"), (8, "Stream ID")]
  | .aux => [(8, "AUX_OFFSET"), (8, "AUX_SIZE"), (8, "FLAGS"), (8, "SAMPLE_ID")]
  | .itraceStart => pidFields
  | .lostSamples => [(8, "LOST"), (8, "SAMPLE_ID")]
  | .switch => [(8, "SAMPLE_ID")]
  | .switchCpuWide => [(4, "PREV_PID"), (4, "PREV_TID"), (8, "SAMPLE_ID")]
  | _ => []

def armPart (size evsize : Int) (type : Nat) : Part :=
  match caseOf type with
  | none => fun a => { size := size - a }
  | some .comm => (fieldsPart env pidFields).seq (Part.string env (evsize - 16) "comm")
  | some .mmap => (fieldsPart env mmapFields).seq (Part.string env (evsize - 40) "Filename")
  | some .mmap2 => (fieldsPart env mmap2Fields).seq (Part.string env (evsize - 72) "Filename")
  | some .sample => samplePart env
  | some t => fieldsPart env (fixedFields t)

def headerPart (type misc size : Nat) : Part := fun a =>
  { size := 8
    printed := env.shown (.header type misc size)
    accesses := [.data a 8] }

/-- One iteration. -/
def iterationPart (size : Int) : Part := fun a =>
  let type := env.data.word 4 a
  let evsize := env.data.word 2 (a + 6)
  ((headerPart env type (env.data.word 2 (a + 4)) evsize).seq (armPart env size evsize type)) a

end Arms

variable {env : Env}

theorem arm_describes (size evsize : Int) (type : Nat) :
    Describes (armPart env size evsize type) (arm env size evsize type) := by
  have h : ∀ n label, Describes (Part.field env n label) (·.field env n label) := fun n label =>
    .field n label
  intro d
  unfold armPart arm
  cases hcase : caseOf type with
  | none => simp [Decoder.add]
  | some t =>
    cases t with
    | lost => exact ((h 8 "ID").comp ((h 8 "LOST").comp Describes.id)) d
    | fork | exit =>
      exact ((h 4 "PID").comp ((h 4 "PPID").comp ((h 4 "TID").comp ((h 4 "PTID").comp
        ((h 8 "Time").comp Describes.id))))) d
    | throttle | unthrottle =>
      exact ((h 8 "Time").comp ((h 8 "ID").comp ((h 8 "Stream ID").comp Describes.id))) d
    | aux =>
      exact ((h 8 "AUX_OFFSET").comp ((h 8 "AUX_SIZE").comp ((h 8 "FLAGS").comp
        ((h 8 "SAMPLE_ID").comp Describes.id)))) d
    | itraceStart => exact ((h 4 "PID").comp ((h 4 "TID").comp Describes.id)) d
    | lostSamples => exact ((h 8 "LOST").comp ((h 8 "SAMPLE_ID").comp Describes.id)) d
    | switch => exact ((h 8 "SAMPLE_ID").comp Describes.id) d
    | switchCpuWide =>
      exact ((h 4 "PREV_PID").comp ((h 4 "PREV_TID").comp ((h 8 "SAMPLE_ID").comp
        Describes.id))) d
    | comm =>
      exact (((h 4 "PID").comp ((h 4 "TID").comp Describes.id)).comp (Describes.string _ "comm")) d
    | mmap =>
      exact (((h 4 "PID").comp ((h 4 "TID").comp ((h 8 "Address").comp ((h 8 "Length").comp
        ((h 8 "Page Offset").comp Describes.id))))).comp (Describes.string _ "Filename")) d
    | mmap2 =>
      exact (((h 4 "PID").comp ((h 4 "TID").comp ((h 8 "Address").comp ((h 8 "Length").comp
        ((h 8 "Page Offset").comp ((h 4 "Major").comp ((h 4 "Minor").comp ((h 8 "Ino").comp
        ((h 8 "Ino generation").comp ((h 4 "Prot").comp ((h 4 "Flags").comp
          Describes.id))))))))))).comp (Describes.string _ "Filename")) d
    | sample => exact sample_describes d
    | read | namespaces | ksymbol | bpfEvent | cgroup | textPoke | auxOutputHwId
    | callchainDeferred =>
      unfold caseOf at hcase
      split at hcase <;> cases hcase

theorem header_describes (type misc size : Nat) : Describes (headerPart env type misc size) fun d =>
    ((d.access (.data d.offset 8)).print env (.header type misc size)).skip 8 := by
  intro d
  dsimp only
  rw [Decoder.print_eq]
  simp [Decoder.add, Decoder.access, Decoder.skip, headerPart]

theorem iteration_describes (size : Int) :
    Describes (iterationPart env size) (iteration env size) := by
  intro d
  unfold iteration
  exact ((header_describes _ _ _).comp (arm_describes size _ _)) d

/-! ## Where the loop comes to -/

/-- The decoders at the start of an iteration. -/
inductive AtStart (env : Env) (size : Int) : Decoder → Prop
  | first : AtStart env size {}
  | next {d : Decoder} : AtStart env size d → d.offset < size → AtStart env size (iteration env size d)

/-- The positions at which an iteration starts, if it does not end the loop. -/
inductive Reached (env : Env) (size : Int) : Int → Prop
  | first : Reached env size 0
  | next {a : Int} : Reached env size a → a < size →
      Reached env size (a + (iterationPart env size a).size)

theorem AtStart.reached {size : Int} {d : Decoder} (h : AtStart env size d) :
    Reached env size d.offset := by
  induction h with
  | first => exact .first
  | next _ hlt ih =>
    rw [iteration_describes]
    exact ih.next hlt

theorem Reached.atStart {size a : Int} (h : Reached env size a) :
    ∃ d, AtStart env size d ∧ d.offset = a := by
  induction h with
  | first => exact ⟨{}, .first, rfl⟩
  | next _ hlt ih =>
    obtain ⟨d, hd, rfl⟩ := ih
    exact ⟨_, hd.next hlt, by rw [iteration_describes]; rfl⟩

/-- What is asked of every iteration is asked of every position that is reached. -/
theorem forall_atStart_iff {size : Int} {P : Int → Prop} :
    (∀ d, AtStart env size d → d.offset < size → P d.offset) ↔
      ∀ a, Reached env size a → a < size → P a := by
  constructor
  · intro h a ha hlt
    obtain ⟨d, hd, rfl⟩ := ha.atStart
    exact h d hd hlt
  · exact fun h d hd hlt => h d.offset hd.reached hlt

/-! ## The call -/

/-- What a call gives back: its value, the page, `*events_read`, where the records started, and
what was reported to be wrong with them. -/
structure Outcome where
  ret : Int
  page : Option MmapPage
  eventsRead : Option Nat := none
  starts : List Int := []
  errors : List ValidateError := []

/-- What the loop works on when nothing has failed. -/
def copiedBy (area : Area) (page : MmapPage) (block : Mem) (prevHead : Int) : Copied :=
  let head := toInt64 page.dataHead
  { head
    size := toInt32 (head - prevHead)
    data := (copyMoves area.bytesize (prevHead.tmod area.bytesize)).foldl (move page.ring) block }

theorem copyOut_eq {area : Area} (h : area.mmapSize ≠ 0) (page : MmapPage) (block : Mem)
    (prevHead : Int) : copyOut area (some page) (some block) prevHead =
      .copied (copiedBy area page block prevHead) :=
  if_neg h

/-- The arguments of a call, with the copy that it decodes. -/
def Env.of (env : Env) (c : Copied) : Env := { env with data := c.data }

/-- What a call gives back behind its loop. -/
def Copied.outcome (c : Copied) (page : Option MmapPage) (l : Loop) : Outcome where
  ret := c.head
  page := page.map (·.consume c.head)
  eventsRead := some l.eventsRead
  starts := l.starts
  errors := l.decoder.errors

/-- The loop and the end of a call. -/
def decodeCopied (env : Env) (page : Option MmapPage) (fuel : Nat) (c : Copied) : Option Outcome := do
  let l ← recordLoop (env.of c) c.size fuel {}
  return c.outcome page l

/-- `perf_mmap_read`, with at most `fuel` iterations. The data of `env` are not used. -/
def perfMmapRead (area : Area) (page : Option MmapPage) (malloc : Option Mem) (prevHead : Int)
    (env : Env) (fuel : Nat) : Option Outcome :=
  match copyOut area page malloc prevHead with
  | .returned v => some { ret := v, page }
  | .copied c => decodeCopied env page fuel c

/-! ## A call that may leave its buffers -/

/-- What a run comes to: nothing can be said of one that has left its buffers. -/
inductive Checked (α : Type) where
  | undefined
  | returned (x : α)

def Checked.map {α β : Type} (f : α → β) : Checked α → Checked β
  | undefined => undefined
  | returned x => returned (f x)

/-- The two `memcpy` calls write inside the copy. -/
def WritesInside (area : Area) (prevHead : Int) : Prop :=
  ∀ m ∈ copyMoves area.bytesize (prevHead.tmod area.bytesize), 0 ≤ m.1 ∧ m.1 < area.bytesize

instance (area : Area) (prevHead : Int) : Decidable (WritesInside area prevHead) :=
  inferInstanceAs (Decidable (∀ _ ∈ _, _))

/-- What has been read is in the copy, or in a buffer of its own. -/
def Decoder.Inside (room : Int) (d : Decoder) : Prop := ∀ x ∈ d.accesses, x.Inside room

instance (room : Int) (d : Decoder) : Decidable (d.Inside room) :=
  inferInstanceAs (Decidable (∀ _ ∈ _, _))

/-- One iteration more. -/
def Loop.turn (env : Env) (size : Int) (l : Loop) : Loop where
  decoder := iteration env size l.decoder
  starts := l.starts ++ [l.decoder.offset]

/-- The record loop, up to the first iteration that reads outside. -/
def checkedLoop (env : Env) (room size : Int) : Nat → Loop → Option (Checked Loop)
  | fuel, l =>
    if l.decoder.offset < size then
      match fuel with
      | 0 => none
      | fuel + 1 =>
        if (l.turn env size).decoder.Inside room then checkedLoop env room size fuel (l.turn env size)
        else some .undefined
    else some (.returned l)

/-- `perf_mmap_read`, as far as it stays inside the buffers that it has allocated. -/
def checkedRead (area : Area) (page : Option MmapPage) (malloc : Option Mem) (prevHead : Int)
    (env : Env) (fuel : Nat) : Option (Checked Outcome) :=
  match copyOut area page malloc prevHead with
  | .returned v => some (.returned { ret := v, page })
  | .copied c =>
    if WritesInside area prevHead then
      (checkedLoop (env.of c) area.bytesize c.size fuel {}).map (·.map (c.outcome page))
    else some .undefined

end PerfEvent.ParseRecord
