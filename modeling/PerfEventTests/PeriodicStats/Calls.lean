import Mathlib.Data.List.Induction
import PerfEventTests.ParseRecord.Decoding
import PerfEventTests.PeriodicStats.Agreement

/-!
# The copy against the library

Calls of the two readers on a ring that holds a sequence of records.
-/

namespace PerfEvent.PeriodicStats

open ByteMemory CircularBuffer ParseRecord Visits

variable {env : Env} {size : Int}

/-! ## The loops as walks over positions -/

theorem libraryLoop_eq (fuel : Nat) (l : ParseRecord.Loop) : ParseRecord.recordLoop env size fuel l =
    (visits Decoder.offset (libraryStep env size) size fuel l.decoder).map fun r =>
      ⟨r.1, l.starts ++ r.2⟩ := by
  induction fuel generalizing l with
  | zero =>
    unfold ParseRecord.recordLoop visits
    split
    · rfl
    · simp
  | succ fuel ih =>
    by_cases hlt : l.decoder.offset < size
    · have hstep : libraryStep env size l.decoder = some (ParseRecord.iteration env size l.decoder) := rfl
      rw [ParseRecord.recordLoop, if_pos hlt, visits_succ hlt hstep, ih, Option.map_map]
      simp only [List.append_assoc, List.singleton_append]
      rfl
    · rw [ParseRecord.recordLoop, if_neg hlt, visits_of_le (not_lt.1 hlt)]
      simp

theorem copyLoop_eq (fuel : Nat) (l : Loop) : recordLoop env size fuel l =
    (visits position (iteration env) size fuel l.stats).map fun r => ⟨r.1, l.starts ++ r.2⟩ := by
  induction fuel generalizing l with
  | zero =>
    unfold recordLoop visits position
    split
    · rfl
    · simp
  | succ fuel ih =>
    by_cases hlt : position l.stats < size
    · rw [recordLoop]
      change (if position l.stats < size then _ else _) = _
      rw [if_pos hlt]
      cases hstep : iteration env l.stats with
      | none => rw [visits_succ_none hlt hstep]; rfl
      | some s =>
        rw [visits_succ hlt hstep, Option.map_map]
        refine (ih _).trans ?_
        simp only [List.append_assoc, List.singleton_append]
        rfl
    · rw [recordLoop]
      change (if position l.stats < size then _ else _) = _
      rw [if_neg hlt, visits_of_le (not_lt.1 hlt)]
      simp

theorem comes_iff_atStart {d : Decoder} :
    Visits.Comes Decoder.offset (libraryStep env size) size {} d ↔ AtStart env size d := by
  constructor
  · have hfrom {s u : Decoder} (h : Visits.Comes Decoder.offset (libraryStep env size) size s u)
        (hs : AtStart env size s) : AtStart env size u := by
      induction h with
      | here => exact hs
      | later hlt hstep _ ih =>
        cases hstep
        exact ih (hs.next hlt)
    exact fun h => hfrom h .first
  · intro h
    induction h with
    | first => exact .here _
    | next _ hlt ih => exact ih.snoc hlt rfl

/-- The loops end after the same positions and samples exactly if the library comes to good records. -/
theorem loops_same_iff (h : Plain env) (values : Vector Int 2) :
    Same Decoder.offset (libraryStep env size) position (iteration env) size {} { values }
      (fun d s => decodedSamples d.printed = decodedSamples s.decoder.printed) ↔
    ∀ a, ParseRecord.Comes env size a → a < size → RecordShared env size a := by
  have hpositions : (∀ d, AtStart env size d → d.offset < size → RecordShared env size d.offset) ↔
      ∀ a, Reached env size a → a < size → RecordShared env size a := forall_atStart_iff
  simp only [reached_iff] at hpositions
  have hstart : Related size {} { values } := ⟨rfl, rfl⟩
  refine ((lockstep h).same_iff (fun _ _ hR => hR.samples) hstart).trans (Iff.trans ?_ hpositions)
  simp only [comes_iff_atStart]
  exact Iff.rfl

/-! ## The ring -/

/-- The bytes stand in the ring, from the one that the previous call has come to on. -/
structure RingHolds (area : Area) (page : MmapPage) (prevHead : Nat) (bs : Bytes) : Prop where
  mapped : area.mmapSize ≠ 0
  head : page.dataHead = prevHead + bs.length
  head_lt : page.dataHead < 2 ^ 63
  room : bs.length ≤ area.bytesize
  bytes : ∀ k (h : k < bs.length), page.ring (slot area.bytesize (prevHead + k)) = bs.get ⟨k, h⟩

theorem foldl_move_range (ring block : Mem) (source : Nat → Int) (n : Nat) {k : Nat} (hk : k < n) :
    (((List.range n).map fun k : Nat => ((k : Int), source k)).foldl (move ring) block) k =
      ring (source k) := by
  induction n with
  | zero => exact absurd hk (Nat.not_lt_zero k)
  | succ n ih =>
    rw [List.range_succ, List.map_append, List.foldl_append]
    change move ring _ ((n : Int), source n) k = _
    unfold move
    rcases Nat.lt_succ_iff_lt_or_eq.1 hk with hlt | rfl
    · rw [Function.update_of_ne (by omega)]
      exact ih hlt
    · exact Function.update_self ..

/-- The copy of the ring that both readers decode. -/
theorem RingHolds.copied {area : Area} {page : MmapPage} {prevHead : Nat} {bs : Bytes}
    (h : RingHolds area page prevHead bs) (block : Mem) :
    (copiedBy area page block prevHead).size = bs.length ∧
      (copiedBy area page block prevHead).data.Holds 0 bs := by
  have hsmall := area.product_lt
  have hroom : bs.length ≤ area.mmapSize * area.pageSize := h.room
  constructor
  · have hhead := h.head
    have hlt := h.head_lt
    have hsigned : toInt64 page.dataHead = page.dataHead := toInt64_of_range (by omega) (by omega)
    have hsize : (page.dataHead : Int) - prevHead = bs.length := by omega
    unfold copiedBy
    dsimp only
    rw [hsigned, hsize]
    exact toInt32_of_range (by omega) (by omega)
  · intro k hk
    unfold copiedBy
    dsimp only
    rw [copyMoves_eq prevHead (area.bytesize_pos h.mapped) area.product_lt, zero_add, ← h.bytes k hk]
    exact foldl_move_range _ _ (fun k => slot area.bytesize (prevHead + k)) _ (hk.trans_le h.room)

/-! ## Records in a ring -/

/-- The types of the records in the ring. -/
def ringTypes : List RecordType :=
  [.mmap, .mmap2, .comm, .fork, .exit, .lost, .throttle, .unthrottle, .sample]

/-- The records that the copy decodes, with no more members in a group than it has room for. -/
def Shared (a : PerfEventAttr) : Body → Prop
  | .mmap .. | .mmap2 .. | .fork .. | .exit .. => False
  | .sample s => bitAnd a.sampleType.toNat perfSampleRead = true →
      bitAnd a.readFormat.toNat perfFormatGroup = true → s.values.cntr.length ≤ 2
  | _ => True

section Records

variable {a : PerfEventAttr} {r : Record a} {o : Int}

theorem recordLength_eq (hm : env.Matches a) (hcase : HasCase r.body.type)
    (hcov : Covered a env.regMask r.body) (h : env.data.Holds o r.encode) :
    recordLength env size o = r.size := by
  have hoffset : (ParseRecord.iteration env size { offset := o }).offset =
      o + recordLength env size o := iteration_offset { offset := o }
  rw [iteration_covered size hm hcase hcov h] at hoffset
  dsimp only at hoffset
  omega

/-- The library comes to the headers of the records. -/
theorem comes_headers {rs : List (Record a)} (hm : env.Matches a)
    (hcase : ∀ r ∈ rs, HasCase r.body.type) (hcov : ∀ r ∈ rs, Covered a env.regMask r.body)
    (hdata : env.data.Holds 0 (encodeAll rs)) {P : Int → Prop} :
    (∀ o, ParseRecord.Comes env (encodeAll rs).length o → o < (encodeAll rs).length → P o) ↔
      ∀ before r after, rs = before ++ r :: after → P (encodeAll before).length := by
  have hsplit (before : List (Record a)) (r : Record a) (after : List (Record a)) :
      encodeAll (before ++ r :: after) = encodeAll before ++ (r.encode ++ encodeAll after) := by
    unfold encodeAll
    rw [List.flatMap_append, List.flatMap_cons]
  have hlt {before : List (Record a)} {r : Record a} {after : List (Record a)}
      (h : rs = before ++ r :: after) : ((encodeAll before).length : Int) < (encodeAll rs).length := by
    have hpos : 8 ≤ r.size := Nat.le_add_right 8 _
    rw [h, hsplit, List.length_append, List.length_append, Record.length_encode]
    omega
  have hlength {before : List (Record a)} {r : Record a} {after : List (Record a)}
      (h : rs = before ++ r :: after) :
      recordLength env (encodeAll rs).length (encodeAll before).length = r.size := by
    have hmem : r ∈ rs := h ▸ List.mem_append_right _ List.mem_cons_self
    apply recordLength_eq hm (hcase r hmem) (hcov r hmem)
    rw [h, hsplit] at hdata
    have hrest := (Mem.holds_append.1 hdata).2
    rw [zero_add] at hrest
    exact (Mem.holds_append.1 hrest).1
  have hnext (before : List (Record a)) (r : Record a) :
      (encodeAll (before ++ [r])).length = (encodeAll before).length + r.size := by
    rw [hsplit, List.length_append, List.length_append, Record.length_encode]
    rfl
  constructor
  · intro hall before r after h
    have hcomes (before : List (Record a)) : ∀ after, rs = before ++ after →
        ParseRecord.Comes env (encodeAll rs).length (encodeAll before).length := by
      induction before using List.reverseRecOn with
      | nil => exact fun _ _ => .first
      | append_singleton before r ih =>
        intro after h
        rw [List.append_assoc, List.singleton_append] at h
        have hstep := (ih _ h).next (hlt h)
        rw [hlength h] at hstep
        rw [hnext]
        push_cast
        exact hstep
    exact hall _ (hcomes before _ h) (hlt h)
  · intro hall o ho holt
    have hheader : ∃ before after, rs = before ++ after ∧ o = (encodeAll before).length := by
      clear holt
      induction ho with
      | first => exact ⟨[], rs, rfl, rfl⟩
      | next _ hlt' ih =>
        obtain ⟨before, after, h, rfl⟩ := ih
        cases after with
        | nil =>
          rw [List.append_nil] at h
          rw [h] at hlt'
          exact absurd hlt' (lt_irrefl _)
        | cons r after =>
          refine ⟨before ++ [r], after, by rw [h, List.append_assoc, List.singleton_append], ?_⟩
          rw [hlength h, hnext]
          push_cast
          rfl
    obtain ⟨before, after, h, rfl⟩ := hheader
    cases after with
    | nil =>
      rw [List.append_nil] at h
      rw [h] at holt
      exact absurd holt (lt_irrefl _)
    | cons r after => exact hall before r after h

theorem headLength_eq (s : Sample) : (s.headBytes a).length = headLength a.sampleType.toNat :=
  length_headBytes s

/-- The number of members stands behind the fields of the head. -/
theorem memberCount_record {s : Sample} (hm : env.Matches a) (hplain : Plain env) (hb : r.body = .sample s)
    (h : env.data.Holds o r.encode) (hread : bitAnd a.sampleType.toNat perfSampleRead = true)
    (hgroup : bitAnd a.readFormat.toNat perfFormatGroup = true) :
    memberCount env o = s.values.cntr.length := by
  have hupTo : a.sampleType.toNat &&& 0x3df = a.sampleType.toNat := hm.sampleType ▸ hplain.upToRead
  have hidentifier : bitAnd a.sampleType.toNat perfSampleIdentifier = false :=
    bitAnd_upToRead hupTo (by decide)
  have hsmall := r.size_lt
  have hbytes : ∃ rest, s.encode a = s.headBytes a ++ (le 8 s.values.cntr.length ++ rest) := by
    unfold Sample.encode Sample.bodyBytes
    dsimp only
    rw [hidentifier, hread, encode_group _ hgroup]
    unfold opt
    simp only [List.append_assoc, Bool.false_eq_true, if_false, if_true, List.nil_append]
    exact ⟨_, rfl⟩
  have hcount : s.values.cntr.length < 2 ^ 63 := by
    have hvalues := members_le_length s.values hgroup
    have hbody := (Sample.length_body_parts (a := a) s).1 hread
    rw [hb] at hsmall
    simp only [Body.encode, Sample.encode, List.length_append] at hsmall
    omega
  obtain ⟨rest, hrest⟩ := hbytes
  unfold Record.encode Record.payload at h
  rw [hb] at h
  have hpayload := (Mem.holds_append.1 h).2
  rw [Record.length_header] at hpayload
  have hsample := (Mem.holds_append.1 hpayload).1
  change env.data.Holds _ (s.encode a) at hsample
  rw [hrest] at hsample
  have hvalues := (Mem.holds_append.1 hsample).2
  rw [headLength_eq] at hvalues
  unfold memberCount
  rw [hm.sampleType, hm.readFormat, if_pos ⟨hread, hgroup⟩]
  refine (value_of_holds hvalues (by omega)).trans ?_
  exact toInt64_of_range (by omega) (by omega)

theorem recordShared_record (hm : env.Matches a) (hplain : Plain env) (htype : r.body.type ∈ ringTypes)
    (hcov : Covered a env.regMask r.body) (h : env.data.Holds o r.encode) (hend : o + r.size ≤ size) :
    RecordShared env size o ↔ Shared a r.body := by
  obtain ⟨hword, hsize⟩ := header_words h
  have hcase : HasCase r.body.type := by
    revert htype
    generalize r.body.type = t
    revert t
    decide
  have hlength : recordLength env size o = r.size := recordLength_eq hm hcase hcov h
  have hpayload : r.size = 8 + (r.body.encode a ++ r.body.trailer a r.sampleId).length := rfl
  have hcaseOf : caseOf (env.data.word 4 o) = some r.body.type := by rw [hword]; exact hcase
  -- eight bytes are less than the record, which lies before the end
  have hpart (hne : 8 < r.size) : ¬ min (o + 8) size = min (o + recordLength env size o) size := by
    rw [hlength]
    omega
  rw [recordShared_iff, hcaseOf]
  cases hb : r.body with
  | mmap | mmap2 | fork | exit =>
    refine iff_of_false (hpart ?_) id
    rw [hpayload, hb]
    simp only [Body.encode, List.length_append, length_u32, length_u64]
    omega
  | sample s =>
    change (_ ∧ _) ↔ _
    refine Iff.trans ⟨fun hshared => hshared.2 rfl,
      fun hfew => ⟨fun h => absurd h (by simp [Body.type]), fun _ => hfew⟩⟩ ?_
    by_cases hbits : bitAnd a.sampleType.toNat perfSampleRead = true ∧
        bitAnd a.readFormat.toNat perfFormatGroup = true
    · rw [memberCount_record hm hplain hb h hbits.1 hbits.2]
      constructor
      · intro hle _ _
        exact_mod_cast hle
      · intro hfew
        exact_mod_cast hfew hbits.1 hbits.2
    · unfold memberCount
      rw [hm.sampleType, hm.readFormat, if_neg hbits]
      exact iff_of_true (by decide) fun hread hgroup => absurd ⟨hread, hgroup⟩ hbits
  | comm =>
    refine iff_of_true ⟨fun _ => ?_, fun h => absurd h (by simp [Body.type])⟩ trivial
    omega
  | lost | throttle | unthrottle =>
    exact iff_of_true ⟨fun h => absurd h (by simp [Body.type]),
      fun h => absurd h (by simp [Body.type])⟩ trivial
  | _ =>
    rw [hb] at htype
    exact absurd htype (by simp [ringTypes, Body.type])

end Records

/-! ## The calls -/

/-- What both readers are called on: a ring with records of the types that the copy names, of an event
without `sample_id_all` that samples nothing behind the read values. -/
structure StatsCall where
  attr : PerfEventAttr
  records : List (Record attr)
  area : Area
  page : MmapPage
  /-- what `malloc` gives -/
  block : Mem
  prevHead : Nat
  /-- the other arguments of the library -/
  env : Env
  /-- what an earlier call of the copy has left -/
  values : Vector Int 2
  types : ∀ r ∈ records, r.body.type ∈ ringTypes
  noSampleId : attr.sampleIdAll = 0
  called : env.Matches attr
  plain : Plain env
  ring : RingHolds area page prevHead (encodeAll records)

namespace StatsCall

variable (i : StatsCall)

/-- Both readers return, and they have seen the same: where the records start, and the samples with their
times and counters. -/
def Agrees : Prop :=
  ∃ fuel r, libraryRead i.env i.area (some i.page) (some i.block) i.prevHead fuel = some r ∧
    perfMmapRead i.env i.area (some i.page) (some i.block) i.prevHead i.values fuel = some r

def copied : Copied := copiedBy i.area i.page i.block i.prevHead

/-- The data that both readers decode. -/
def data : Env := i.env.of i.copied

theorem data_plain : Plain i.data := ⟨i.plain.loud, i.plain.unchecked, i.plain.upToRead⟩

theorem data_matches : i.data.Matches i.attr := ⟨i.called.sampleType, i.called.readFormat⟩

theorem agrees_iff_same : i.Agrees ↔ Same Decoder.offset (libraryStep i.data i.copied.size) position
    (iteration i.data) i.copied.size {} { values := i.values }
    (fun d s => decodedSamples d.printed = decodedSamples s.decoder.printed) := by
  have hcopied : copyOut i.area (some i.page) (some i.block) i.prevHead = .copied i.copied :=
    copyOut_eq i.ring.mapped ..
  unfold Agrees libraryRead perfMmapRead
  rw [hcopied]
  dsimp only
  constructor
  · rintro ⟨fuel, r, hlibrary, hcopy⟩
    rw [libraryLoop_eq] at hlibrary
    rw [copyLoop_eq] at hcopy
    obtain ⟨l, hl, rfl⟩ := Option.map_eq_some_iff.1 hlibrary
    obtain ⟨⟨d, starts⟩, hd, rfl⟩ := Option.map_eq_some_iff.1 hl
    obtain ⟨l', hl', hreading⟩ := Option.map_eq_some_iff.1 hcopy
    obtain ⟨⟨s, starts'⟩, hs, rfl⟩ := Option.map_eq_some_iff.1 hl'
    have hstarts : starts' = starts := congrArg Reading.starts hreading
    have hsamples := congrArg Reading.samples hreading
    subst hstarts
    exact ⟨fuel, d, s, starts', hd, hs, hsamples.symm⟩
  · rintro ⟨fuel, d, s, starts, hd, hs, hsamples⟩
    refine ⟨fuel, Copied.reading i.copied (some i.page) starts d, ?_, ?_⟩
    · rw [libraryLoop_eq]
      unfold data at hd
      rw [hd]
      rfl
    · rw [copyLoop_eq]
      unfold data at hs
      rw [hs]
      unfold Copied.reading
      rw [hsamples]
      rfl

theorem agrees_iff_shared : i.Agrees ↔ ∀ o, ParseRecord.Comes i.data i.copied.size o →
    o < i.copied.size → RecordShared i.data i.copied.size o := by
  rw [agrees_iff_same]
  exact loops_same_iff i.data_plain i.values

theorem sampleCovered (hlost : bitAnd i.attr.readFormat.toNat perfFormatLost = false) (regMask : BitVec 64)
    (s : Sample) : SampleCovered i.attr regMask s := by
  have hoff {bit : Nat} (hbit : 0x3df &&& bit = 0) : bitAnd i.attr.sampleType.toNat bit = false :=
    bitAnd_upToRead (i.called.sampleType ▸ i.plain.upToRead) hbit
  have hnot {bit : Nat} (hbit : 0x3df &&& bit = 0) {P : Prop} :
      bitAnd i.attr.sampleType.toNat bit = true → P := by
    intro h
    rw [hoff hbit] at h
    cases h
  exact ⟨hoff (by decide), hoff (by decide), hoff (by decide), hoff (by decide), hoff (by decide),
    hnot (by decide), hnot (by decide), fun _ => hlost, hnot (by decide), hnot (by decide),
    hnot (by decide), hnot (by decide)⟩

/-- Without lost counts every record lies as its arm of the library expects it. -/
theorem covered (hlost : bitAnd i.attr.readFormat.toNat perfFormatLost = false) {r : Record i.attr}
    (hr : r ∈ i.records) : Covered i.attr i.data.regMask r.body := by
  have hsampleId : sampleIdSize i.attr = 0 := by
    unfold sampleIdSize SampleId.encode
    rw [i.noSampleId]
    rfl
  have htype := i.types r hr
  cases hb : r.body with
  | sample s => exact i.sampleCovered hlost _ s
  | lost | exit | fork | throttle | unthrottle | itraceStart => exact hsampleId
  | aux | lostSamples | switch | switchCpuWide =>
    rw [hb] at htype
    exact absurd htype (by simp [ringTypes, Body.type])
  | _ => trivial

theorem agrees_iff_records (hlost : bitAnd i.attr.readFormat.toNat perfFormatLost = false) :
    i.Agrees ↔ ∀ r ∈ i.records, Shared i.attr r.body := by
  obtain ⟨hsize, hdata⟩ := i.ring.copied i.block
  have hheaders := comes_headers (P := RecordShared i.data (encodeAll i.records).length) i.data_matches
    (fun r hr => ?_) (fun r hr => i.covered hlost hr) hdata
  · have hlen : i.copied.size = (encodeAll i.records).length := hsize
    rw [agrees_iff_shared, hlen, hheaders]
    have hrecord {before : List (Record i.attr)} {r : Record i.attr} {after : List (Record i.attr)}
        (h : i.records = before ++ r :: after) :
        RecordShared i.data (encodeAll i.records).length (encodeAll before).length ↔
          Shared i.attr r.body := by
      have hmem : r ∈ i.records := h ▸ List.mem_append_right _ List.mem_cons_self
      have hbytes : encodeAll i.records = encodeAll before ++ (r.encode ++ encodeAll after) := by
        unfold encodeAll
        rw [h, List.flatMap_append, List.flatMap_cons]
      have hat : i.data.data.Holds (encodeAll before).length r.encode := by
        have hall : i.data.data.Holds 0 (encodeAll i.records) := hdata
        rw [hbytes] at hall
        have hrest := (Mem.holds_append.1 hall).2
        rw [zero_add] at hrest
        exact (Mem.holds_append.1 hrest).1
      refine recordShared_record i.data_matches i.data_plain (i.types r hmem) (i.covered hlost hmem) hat ?_
      rw [hbytes, List.length_append, List.length_append, Record.length_encode]
      omega
    constructor
    · intro hall r hr
      obtain ⟨before, after, h⟩ := List.append_of_mem hr
      have hshared := hall before r after h
      rwa [hrecord h] at hshared
    · intro hall before r after h
      rw [hrecord h]
      exact hall r (h ▸ List.mem_append_right _ List.mem_cons_self)
  · have htype := i.types r hr
    revert htype
    generalize r.body.type = t
    revert t
    decide

/-- The copy agrees with the library exactly if the library comes to no record whose arm the copy has
left empty, and to no group of more than two members. Where no lost counts are read these are the
records of the ring. -/
theorem agrees_iff : (i.Agrees ↔ ∀ o, ParseRecord.Comes i.data i.copied.size o →
      o < i.copied.size → RecordShared i.data i.copied.size o) ∧
    (bitAnd i.attr.readFormat.toNat perfFormatLost = false →
      (i.Agrees ↔ ∀ r ∈ i.records, Shared i.attr r.body)) :=
  ⟨i.agrees_iff_shared, i.agrees_iff_records⟩

end StatsCall

/-! ## Two rings -/

/-- What `print_record_sample` asks for: the time and the counters of a group. -/
def statsAttr : PerfEventAttr := { sampleType := 0x14, readFormat := 0xf }

/-- The first call on a page that holds the records. -/
def firstStats (rs : List (Record statsAttr)) (types : ∀ r ∈ rs, r.body.type ∈ ringTypes)
    (hroom : (encodeAll rs).length ≤ 4096) : StatsCall where
  attr := statsAttr
  records := rs
  area := pageArea
  page := { dataHead := (encodeAll rs).length, ring := Mem.ofList (encodeAll rs) }
  block := fun _ => 0
  prevHead := 0
  env := { data := fun _ => 0, sampleType := 0x14, readFormat := 0xf, regMask := 0, quiet := false }
  values := .replicate 2 0
  types := types
  noSampleId := rfl
  called := ⟨rfl, rfl⟩
  plain := ⟨rfl, rfl, by decide⟩
  ring := by
    refine ⟨by decide, (Nat.zero_add _).symm, ?_, hroom, fun k hk => ?_⟩
    · dsimp only
      omega
    · have hslot : slot pageArea.bytesize (0 + k) = 0 + (k : Int) := by
        change ((((0 + k) % 4096 : Nat)) : Int) = _
        omega
      rw [hslot]
      exact Mem.ofList_holds _ k hk

/-- A process is forked. -/
def forked : Record statsAttr where
  body := .fork 10 1 10 1 7
  wellFormed := trivial
  size_lt := by decide

/-- A sample of a group of two, at the time 8. -/
def sampled : Record statsAttr where
  body := .sample { time := 8, values := { cntr := [⟨5, 1, 0⟩, ⟨6, 2, 0⟩] } }
  wellFormed := ⟨rfl, rfl, rfl, by decide⟩
  size_lt := by decide

def sampledCall : StatsCall := firstStats [sampled, sampled] (by decide) (by decide +kernel)

/-- Samples of two members are decoded alike. -/
theorem StatsCall.agrees_iff_sampled : sampledCall.Agrees := by
  refine (sampledCall.agrees_iff.2 rfl).2 ?_
  have hsampled : Shared statsAttr sampled.body := fun _ _ => le_refl 2
  exact List.forall_mem_cons.2 ⟨hsampled, List.forall_mem_cons.2 ⟨hsampled, List.forall_mem_nil _⟩⟩

def forkedCall : StatsCall := firstStats [forked, sampled] (by decide) (by decide +kernel)

/-- Behind a FORK record the copy takes the ids of the processes for the header of a record. -/
theorem not_agrees_forked : ¬ ∀ i : StatsCall, i.Agrees := by
  intro hall
  exact (forkedCall.agrees_iff_records rfl).1 (hall forkedCall) forked List.mem_cons_self

end PerfEvent.PeriodicStats
