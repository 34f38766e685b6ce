import PerfEventTests.ParseRecord.Call
import PerfEventTests.ParseRecord.Loop

/-!
# The reader of the periodic statistics

`tests/periodic_stats/print_record_sample.c` has a `perf_mmap_read` of its own, which was taken from
`lib/parse_record.c` and prints one line for each member of a group. The decoder of a `Stats` holds what
the copy takes out of the data, under the labels of the library, whether it is printed or not.
-/

namespace PerfEvent.PeriodicStats

open ByteMemory ParseRecord

/-- What is printed about groups. -/
inductive StatLine where
  | multiplexing
  | member (timestamp growth id : Int)
  deriving DecidableEq

/-- The variables of the loop, with `static long long values[NUM_EVENTS]`. -/
structure Stats where
  decoder : Decoder := {}
  beginTime : Int := 0
  values : Vector Int 2
  lines : List StatLine := []

/-- An arm that decodes what the arm of the library decodes. -/
def Stats.on (f : Decoder → Decoder) (s : Stats) : Stats := { s with decoder := f s.decoder }

variable (env : Env)

/-- The body of the loop over the members. There is no `values[i]` from the third member on. -/
def readMember (timestamp : Int) (s : Stats) (i : Nat) : Option Stats :=
  let value := s.decoder.value env 8
  let d := s.decoder.field env 8 "Value"
  let id := if bitAnd env.readFormat perfFormatId then d.value env 8 else 0
  let d := onBit env.readFormat perfFormatId (·.field env 8 "id") d
  if h : i < 2 then
    some { s with
      decoder := d
      values := s.values.set i value
      lines := s.lines ++ [.member timestamp (toInt64 (value - s.values[i])) id] }
  else none

def handleStructReadFormat (timestamp : Int) (s : Stats) : Option Stats :=
  if bitAnd env.readFormat perfFormatGroup then
    let nr := s.decoder.value env 8
    let d := s.decoder.field env 8 "Number"
    let timeEnabled := d.value env 8
    let d := onBit env.readFormat perfFormatTotalTimeEnabled (·.field env 8 "enabled") d
    let timeRunning := d.value env 8
    let d := onBit env.readFormat perfFormatTotalTimeRunning (·.field env 8 "running") d
    let lines :=
      if bitAnd env.readFormat perfFormatTotalTimeRunning ∧
        bitAnd env.readFormat perfFormatTotalTimeEnabled ∧ timeRunning ≠ timeEnabled then
        s.lines ++ [.multiplexing]
      else s.lines
    (List.range nr.toNat).foldlM (readMember env timestamp)
      { s with decoder := d.enter nr, lines := lines }
  else
    let d := s.decoder.field env 8 "Value"
    let d := onBit env.readFormat perfFormatTotalTimeEnabled (·.field env 8 "enabled") d
    let d := onBit env.readFormat perfFormatTotalTimeRunning (·.field env 8 "running") d
    some { s with decoder := onBit env.readFormat perfFormatId (·.field env 8 "id") d }

/-- The length is an `int`, and it is added only when it is not negative. -/
def sampleRead (timestamp : Int) (s : Stats) : Option Stats :=
  (handleStructReadFormat env timestamp s).map fun s' =>
    let length := toInt32 (s'.decoder.offset - s.decoder.offset)
    s'.on fun d =>
      { d with offset := if length ≥ 0 then s.decoder.offset + length else s.decoder.offset }

def sampleTid (d : Decoder) : Decoder := ((d.look env 4 0 "pid").look env 4 4 "tid").skip 8

/-- `PERF_RECORD_SAMPLE`; the fields behind the read values are not looked at. -/
def sample (s : Stats) : Option Stats :=
  let has := onBit env.sampleType
  let d := has perfSampleIp (·.field env 8 "IP") s.decoder
  let d := has perfSampleTid (sampleTid env) d
  let time := if bitAnd env.sampleType perfSampleTime then d.value env 8 else 0
  let beginTime :=
    if bitAnd env.sampleType perfSampleTime ∧ s.beginTime = 0 then time else s.beginTime
  let d := has perfSampleTime (·.field env 8 "time") d
  let d := has perfSampleAddr (·.field env 8 "addr") d
  let d := has perfSampleId (·.field env 8 "sample_id") d
  let d := has perfSampleStreamId (·.field env 8 "sample_stream_id") d
  let d := has perfSampleCpu (sampleCpu env) d
  let d := has perfSamplePeriod (·.field env 8 "period") d
  let s := { s with decoder := d, beginTime := beginTime }
  if bitAnd env.sampleType perfSampleRead then sampleRead env (toInt64 (time - beginTime)) s
  else some s

/-- The switch on `event->type`. The arms of `FORK`, `MMAP`, `MMAP2` and `EXIT` are empty, and the
default arm only prints the type. -/
def arm (evsize : Int) (type : Nat) (s : Stats) : Option Stats :=
  match caseOf type with
  | some .lost => some (s.on (lost env))
  | some .comm => some (s.on (comm env evsize))
  | some .throttle | some .unthrottle => some (s.on (throttle env))
  | some .sample => sample env s
  | some .fork | some .mmap | some .mmap2 | some .exit => some s
  | _ => some s

/-- One turn of the record loop. -/
def iteration (s : Stats) : Option Stats :=
  let type := env.data.word 4 s.decoder.offset
  let evsize := env.data.word 2 (s.decoder.offset + 6)
  arm env evsize type (s.on (afterHeader env))

/-- The loop with the offsets at which its turns started. -/
structure Loop where
  stats : Stats
  starts : List Int := []

/-- `while (offset < size) ...`, with at most `fuel` turns. -/
def recordLoop (size : Int) : Nat → Loop → Option Loop
  | fuel, l =>
    if l.stats.decoder.offset < size then
      match fuel with
      | 0 => none
      | fuel + 1 => do
        let s ← iteration env l.stats
        recordLoop size fuel ⟨s, l.starts ++ [l.stats.decoder.offset]⟩
    else some l

/-! ## What the two readers see -/

/-- The labels of the time and of the counters of a sample. -/
def sampleLabels : List String := ["time", "Number", "Value", "enabled", "running", "id"]

/-- The headers of the samples, each with the time and the counters of the sample behind it. -/
def decodedSamples (decoded : List Printed) : List Printed :=
  decoded.filter fun
    | .header type _ _ => type = RecordType.toNat .sample
    | .value label _ => label ∈ sampleLabels
    | _ => false

/-- A call: its value, the page, where the records started, and the samples. -/
structure Reading where
  ret : Int
  page : Option MmapPage
  starts : List Int := []
  samples : List Printed := []

/-- The end of a call. -/
def Copied.reading (c : Copied) (page : Option MmapPage) (starts : List Int) (d : Decoder) : Reading where
  ret := c.head
  page := page.map (·.consume c.head)
  starts := starts
  samples := decodedSamples d.printed

/-- `perf_mmap_read` of the library. -/
def libraryRead (area : Area) (page : Option MmapPage) (malloc : Option Mem) (prevHead : Int)
    (fuel : Nat) : Option Reading :=
  match copyOut area page malloc prevHead with
  | .returned v => some { ret := v, page }
  | .copied c =>
    (ParseRecord.recordLoop (env.of c) c.size fuel {}).map fun l =>
      Copied.reading c page l.starts l.decoder

/-- `perf_mmap_read` of the copy; `values` is what an earlier call has left. -/
def perfMmapRead (area : Area) (page : Option MmapPage) (malloc : Option Mem) (prevHead : Int)
    (values : Vector Int 2) (fuel : Nat) : Option Reading :=
  match copyOut area page malloc prevHead with
  | .returned v => some { ret := v, page }
  | .copied c =>
    (recordLoop (env.of c) c.size fuel { stats := { values } }).map fun l =>
      Copied.reading c page l.starts l.stats.decoder

/-- What is seen of a call of the library is what the call gives back. -/
theorem libraryRead_eq (area : Area) (page : Option MmapPage) (malloc : Option Mem) (prevHead : Int)
    (fuel : Nat) : (libraryRead env area page malloc prevHead fuel).map (fun r => (r.ret, r.page, r.starts)) =
      (ParseRecord.perfMmapRead area page malloc prevHead env fuel).map
        fun o => (o.ret, o.page, o.starts) := by
  unfold libraryRead ParseRecord.perfMmapRead
  cases copyOut area page malloc prevHead with
  | returned v => rfl
  | copied c =>
    dsimp only
    unfold decodeCopied
    cases ParseRecord.recordLoop (env.of c) c.size fuel {} <;> rfl

end PerfEvent.PeriodicStats
