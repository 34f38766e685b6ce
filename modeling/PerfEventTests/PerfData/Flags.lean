import Mathlib.Data.UInt
import PerfEventTests.PerfData.Fitting

/-!
# The flag sections

`dump_section_offset`, `dump_section` and `dump_flag_sections`. Which entry of the table belongs to
a feature is told by the position of the file alone: every section is left through a seek back
behind its entry.
-/

namespace PerfEvent.PerfData

open ByteMemory Files Reading

/-- What a decoder has been handed: the feature, the position of the file, the size, and what
came of it. -/
structure Handed where
  which : Nat
  position : Nat
  size : Int
  outcome : Outcome

/-- The state of the dump. -/
structure Dump where
  file : File
  nrCpusAvail : UInt32 := 0
  handed : List Handed := []

/-- What the local buffers hold before they are read into, for each feature. -/
structure Stale where
  payload : Nat → Mem
  entry : Nat → Mem

def Handed.key (h : Handed) : Nat × Nat × Int := (h.which, h.position, h.size)

def Handed.Ok (h : Handed) : Prop := ∃ s, h.outcome.result = .ok s

instance (h : Handed) : Decidable h.Ok :=
  decidable_of_iff (h.outcome.result.isOk = true) (by
    unfold Handed.Ok
    cases h.outcome.result <;> simp [Except.isOk, Except.toBool])

/-- `read_section_nrcpus` keeps the number of available cpus. -/
def Outcome.nrCpusAvail (o : Outcome) (old : UInt32) : UInt32 :=
  match o.result with
  | .ok (.nrcpus available _) => available
  | _ => old

/-- A feature that has no decoder. -/
def invalidSection (f : File) : Outcome := { result := .error "Invalid section!\n", file := f }

/-- The switch of `dump_section`. -/
def runDecoder (stale : Stale) (nrCpusAvail : UInt32) (which : Nat) (length : Int) (f : File) :
    Outcome :=
  match decoder nrCpusAvail which with
  | some read => read (stale.payload which) length f
  | none => invalidSection f

def dumpSection (stale : Stale) (which : Nat) (offset length : Int) (d : Dump) : Int × Dump :=
  let oldOffset := d.file.pos
  let f := d.file.seek offset
  let o := runDecoder stale d.nrCpusAvail which length f
  let d' := { d with
    nrCpusAvail := o.nrCpusAvail d.nrCpusAvail
    handed := d.handed ++ [(⟨which, f.pos, length, o⟩ : Handed)] }
  match o.result with
  | .error _ => (-1, { d' with file := o.file })
  | .ok _ => (0, { d' with file := o.file.seek oldOffset })

/-- The entry at the position: the offset is returned as an `off_t`, the size is stored in an
`int`. -/
def dumpSectionOffset (stale : Stale) (which : Nat) (d : Dump) : Int × Int × Dump :=
  let (bs, f) := d.file.read sectionSize
  let entry := buffer (bs.getD []) (stale.entry which)
  (toInt64 (entry.word 8 0), toInt32 (entry.word 8 8), { d with file := f })

/-- The body of the loop, for a bit that is set. -/
def dumpEntry (stale : Stale) (which : Nat) (d : Dump) : Int × Dump :=
  match dumpSectionOffset stale which d with
  | (offset, length, d) =>
    if offset = -1 then (offset, d) else dumpSection stale which offset length d

/-- `n` rounds of the loop, from feature `i` on. -/
def flagLoop (stale : Stale) (flags : BitVec 64) : Nat → Nat → Int → Dump → Int × Dump
  | 0, _, result, d => (result, d)
  | n + 1, i, result, d =>
    if flags.getLsbD i then
      let r := dumpEntry stale i d
      if r.1 < 0 then r else flagLoop stale flags n (i + 1) r.1 r.2
    else flagLoop stale flags n (i + 1) result d

/-- The result of `lseek` is kept in an `int`. -/
def dumpFlagSections (stale : Stale) (header : PerfHeader) (d : Dump) : Int × Dump :=
  let offset := toInt64 (header.data.offset + header.data.size).toNat
  let d := { d with file := d.file.seek offset }
  if toInt32 (File.seekResult offset) < 0 then (-1, d)
  else flagLoop stale header.flags 64 0 (toInt32 (File.seekResult offset)) d

/-! ## One entry -/

def Dump.movedTo (d : Dump) (pos : Nat) : Dump := { d with file := ⟨d.file.content, pos⟩ }

theorem Dump.movedTo_handed (d : Dump) (pos : Nat) : (d.movedTo pos).handed = d.handed := rfl

/-- The table entry that stands at a place of the file. -/
def entryAt (content : Bytes) (pos : Nat) : FileSection where
  offset := UInt64.ofNat (ofLe ((content.drop pos).take 8))
  size := UInt64.ofNat (ofLe ((content.drop (pos + 8)).take 8))

theorem ofLe_lt (bs : Bytes) : ofLe bs < 256 ^ bs.length := by
  induction bs with
  | nil => exact Nat.one_pos
  | cons b bs ih =>
    have hb := b.toNat_lt
    rw [ofLe, List.length_cons, pow_succ]
    omega

section Entry

variable {stale : Stale} {which : Nat} {d : Dump}

/-- The two words of an entry that is there. -/
theorem dumpSectionOffset_eq (h : d.file.pos + sectionSize ≤ d.file.content.length) :
    dumpSectionOffset stale which d =
      (toInt64 (entryAt d.file.content d.file.pos).offset.toNat,
        toInt32 (entryAt d.file.content d.file.pos).size.toNat,
        d.movedTo (d.file.pos + sectionSize)) := by
  have hsize : sectionSize = 16 := rfl
  have hlen := File.length_slice_of_le h
  rw [hsize] at h
  let bs := d.file.content.drop d.file.pos
  have hbs : bs.length = d.file.content.length - d.file.pos := List.length_drop
  have hslice : d.file.slice d.file.pos sectionSize = bs.take 8 ++ ((bs.drop 8).take 8 ++ []) := by
    rw [List.append_nil, ← List.take_add]
    rfl
  have hread : d.file.read sectionSize = (some (bs.take 8 ++ ((bs.drop 8).take 8 ++ [])),
      { d.file with pos := d.file.pos + sectionSize }) := by
    rw [File.read_eq (by rw [hsize]; omega), hlen, hslice]
  have hfirst : (bs.take 8).length = 8 := by
    rw [List.length_take]
    omega
  have hsecond : ((bs.drop 8).take 8).length = 8 := by
    rw [List.length_take, List.length_drop]
    omega
  have hoffset : (entryAt d.file.content d.file.pos).offset.toNat = ofLe (bs.take 8) := by
    have hlt := ofLe_lt (bs.take 8)
    rw [hfirst] at hlt
    exact UInt64.toNat_ofNat_of_lt' hlt
  have hlength : (entryAt d.file.content d.file.pos).size.toNat = ofLe ((bs.drop 8).take 8) := by
    have hlt := ofLe_lt ((bs.drop 8).take 8)
    rw [hsecond] at hlt
    have hdrop : bs.drop 8 = d.file.content.drop (d.file.pos + 8) := List.drop_drop
    rw [hdrop] at hlt ⊢
    exact UInt64.toNat_ofNat_of_lt' hlt
  have hword := buffer_word [] (bs.take 8) ((bs.drop 8).take 8 ++ []) (stale.entry which)
  have hword' := buffer_word (bs.take 8) ((bs.drop 8).take 8) [] (stale.entry which)
  rw [hfirst] at hword hword'
  rw [hsecond] at hword'
  unfold dumpSectionOffset
  rw [hread, hoffset, hlength, ← hword, ← hword']
  rfl

/-- A section is decoded, or its offset is the one that stands for an error. -/
theorem dumpEntry_eq (h : d.file.pos + sectionSize ≤ d.file.content.length) :
    dumpEntry stale which d =
      if toInt64 (entryAt d.file.content d.file.pos).offset.toNat = -1 then
        (toInt64 (entryAt d.file.content d.file.pos).offset.toNat,
          d.movedTo (d.file.pos + sectionSize))
      else dumpSection stale which (toInt64 (entryAt d.file.content d.file.pos).offset.toNat)
        (toInt32 (entryAt d.file.content d.file.pos).size.toNat)
        (d.movedTo (d.file.pos + sectionSize)) := by
  unfold dumpEntry
  rw [dumpSectionOffset_eq h]

theorem readSection_content {refuses : Int → Bool} {wrongSize unread : String}
    {decode : Reader Section} {mem : Mem} {len : Int} {f : File} :
    (readSection refuses wrongSize unread decode mem len f).file.content = f.content := by
  unfold readSection
  split
  · rfl
  · unfold decodeRead
    dsimp only
    split <;> exact File.read_content _

/-- Decoders only read. -/
theorem runDecoder_content {nr : UInt32} {length : Int} {f : File} :
    (runDecoder stale nr which length f).file.content = f.content := by
  unfold runDecoder
  cases hD : decoder nr which with
  | none => rfl
  | some D =>
    obtain ⟨wrongSize, unread, decode, hshape⟩ := decoder_shape hD (stale.payload which) length f
    show (D (stale.payload which) length f).file.content = f.content
    rw [hshape, readSection_content]

/-- The decoder is handed the file at the offset, and a section without an error leaves the
position as it was. -/
theorem dumpSection_spec {offset length : Int} :
    ∃ entry : Handed, (dumpSection stale which offset length d).2.handed = d.handed ++ [entry] ∧
      entry.which = which ∧ entry.position = (d.file.seek offset).pos ∧ entry.size = length ∧
      entry.outcome = runDecoder stale d.nrCpusAvail which length (d.file.seek offset) ∧
      (dumpSection stale which offset length d).2.file.content = d.file.content ∧
      (((dumpSection stale which offset length d).1 = -1 ∧ ¬entry.Ok) ∨
        ((dumpSection stale which offset length d).1 = 0 ∧ entry.Ok ∧
          (dumpSection stale which offset length d).2.file.pos = d.file.pos)) := by
  have hcontent : (runDecoder stale d.nrCpusAvail which length (d.file.seek offset)).file.content =
      d.file.content := runDecoder_content.trans (File.seek_content offset)
  unfold dumpSection
  dsimp only
  cases hresult : (runDecoder stale d.nrCpusAvail which length (d.file.seek offset)).result with
  | error message =>
    refine ⟨_, rfl, rfl, rfl, rfl, rfl, hcontent, .inl ⟨rfl, ?_⟩⟩
    rintro ⟨s, hs⟩
    exact nomatch hresult.symm.trans hs
  | ok s =>
    refine ⟨_, rfl, rfl, rfl, rfl, rfl, (File.seek_content _).trans hcontent,
      .inr ⟨rfl, ⟨s, hresult⟩, ?_⟩⟩
    rw [File.seek_of_nonneg (Int.natCast_nonneg _)]
    exact Int.toNat_natCast _

end Entry

/-! ## The loop -/

/-- How many bits below `i` are set. -/
def rank (flags : BitVec 64) (i : Nat) : Nat := (List.range i).countP fun j => flags.getLsbD j

theorem rank_succ (flags : BitVec 64) (i : Nat) :
    rank flags (i + 1) = rank flags i + if flags.getLsbD i then 1 else 0 := by
  rw [rank, rank, List.range_succ, List.countP_append, List.countP_singleton]

theorem rank_mono (flags : BitVec 64) {i j : Nat} (h : i ≤ j) : rank flags i ≤ rank flags j := by
  induction h with
  | refl => exact le_refl _
  | step _ ih =>
    rw [Nat.succ_eq_add_one, rank_succ]
    omega

/-- The bits below `i`, counted with a mask. -/
theorem weight_low (flags : BitVec 64) {i : Nat} (hi : i ≤ 64) :
    weight (flags &&& BitVec.ofNat 64 (2 ^ i - 1)) = rank flags i := by
  have hbit : ∀ j, j < 64 →
      (flags &&& BitVec.ofNat 64 (2 ^ i - 1)).getLsbD j = (flags.getLsbD j && decide (j < i)) := by
    intro j hj
    rw [BitVec.getLsbD_and, BitVec.getLsbD_ofNat, Nat.testBit_two_pow_sub_one,
      decide_eq_true hj, Bool.true_and]
  have hcount : ∀ n, n ≤ 64 →
      (List.range n).countP (fun j => (flags &&& BitVec.ofNat 64 (2 ^ i - 1)).getLsbD j) =
        rank flags (min n i) := by
    intro n
    induction n with
    | zero => intro _; rw [Nat.zero_min]; rfl
    | succ n ih =>
      intro hn
      rw [List.range_succ, List.countP_append, ih (by omega), List.countP_singleton,
        hbit n (by omega)]
      by_cases hlt : n < i
      · rw [decide_eq_true hlt, Bool.and_true, Nat.min_eq_left (by omega : n ≤ i),
          Nat.min_eq_left (by omega : n + 1 ≤ i), rank_succ]
      · rw [decide_eq_false hlt, Bool.and_false, Nat.min_eq_right (by omega : i ≤ n),
          Nat.min_eq_right (by omega : i ≤ n + 1)]
        rfl
  rw [weight, hcount 64 (le_refl _), Nat.min_eq_right hi]

section Loop

variable {stale : Stale} {flags : BitVec 64} {content : Bytes} {table : Nat}

/-- The entry of a feature: the one that stands at the place of its bit. -/
def tableEntry (flags : BitVec 64) (content : Bytes) (table : Nat) (i : Nat) : FileSection :=
  entryAt content (table + sectionSize * weight (flags &&& BitVec.ofNat 64 (2 ^ i - 1)))

/-- What a feature is to be decoded with. -/
def expected (flags : BitVec 64) (content : Bytes) (table : Nat) (i : Nat) : Nat × Nat × Int :=
  (i, (tableEntry flags content table i).offset.toNat, (tableEntry flags content table i).size.toNat)

/-- The features from `i` on whose bits are set. -/
def features (flags : BitVec 64) (i n : Nat) : List Nat :=
  (List.range' i n).filter fun j => flags.getLsbD j

/-- The offset is one that `lseek` takes, and the size one that an `int` holds. -/
def FileSection.Representable (s : FileSection) : Prop :=
  s.offset.toNat < 2 ^ 63 ∧ s.size.toNat < 2 ^ 31

/-- At the head of round `i` the position of the file tells how many entries have been used. -/
structure AtRound (flags : BitVec 64) (content : Bytes) (table i : Nat) (d : Dump) : Prop where
  room : table + sectionSize * rank flags 64 ≤ content.length
  small : content.length < 2 ^ 63
  content : d.file.content = content
  pos : d.file.pos = table + sectionSize * rank flags i

theorem AtRound.present {i : Nat} {d : Dump} (h : AtRound flags content table i d) (hi : i < 64)
    (hbit : flags.getLsbD i = true) : d.file.pos + sectionSize ≤ d.file.content.length := by
  have hrank := rank_succ flags i
  have hmono := rank_mono flags (show i + 1 ≤ 64 by omega)
  have hroom := h.room
  have hsize : sectionSize = 16 := rfl
  rw [hbit, if_pos rfl] at hrank
  rw [h.pos, h.content]
  rw [hsize] at hroom ⊢
  omega

/-- The entry that is read in round `i` is the one of the feature. -/
theorem AtRound.tableEntry_eq {i : Nat} {d : Dump} (h : AtRound flags content table i d)
    (hi : i < 64) :
    entryAt d.file.content d.file.pos = tableEntry flags content table i := by
  rw [tableEntry, weight_low flags (by omega), h.content, h.pos]

/-- What the decoder has been handed in one round. -/
theorem dumpEntry_round {i : Nat} {d : Dump} (h : AtRound flags content table i d) (hi : i < 64)
    (hbit : flags.getLsbD i = true) :
    ((dumpEntry stale i d).1 < 0 ∧ (dumpEntry stale i d).2.handed = d.handed ∧
        ¬(tableEntry flags content table i).Representable) ∨
      ∃ entry : Handed, (dumpEntry stale i d).2.handed = d.handed ++ [entry] ∧
        entry.which = i ∧ entry.position < 2 ^ 63 ∧ entry.size < 2 ^ 31 ∧
        ((tableEntry flags content table i).Representable →
          entry.key = expected flags content table i) ∧
        (((dumpEntry stale i d).1 < 0 ∧ ¬entry.Ok) ∨
          ((dumpEntry stale i d).1 = 0 ∧
            AtRound flags content table (i + 1) (dumpEntry stale i d).2)) := by
  have hpresent := h.present hi hbit
  have hsmall := h.small
  have hentry := h.tableEntry_eq hi
  have hrank := rank_succ flags i
  rw [hbit, if_pos rfl] at hrank
  rw [dumpEntry_eq hpresent, hentry]
  unfold expected
  generalize tableEntry flags content table i = e
  by_cases hoffset : toInt64 e.offset.toNat = -1
  · left
    rw [if_pos hoffset]
    refine ⟨by rw [hoffset]; exact neg_one_lt_zero, rfl, fun hrep => ?_⟩
    rw [toInt64_of_range (by omega) (by exact_mod_cast hrep.1)] at hoffset
    omega
  · right
    rw [if_neg hoffset]
    obtain ⟨entry, hhanded, hwhich, hposition, hlength, -, hcontent, hend⟩ :=
      dumpSection_spec
        (d := d.movedTo (d.file.pos + sectionSize))
       
    refine ⟨entry, hhanded, hwhich, ?_, ?_, fun hrep => ?_, ?_⟩
    · rw [hposition]
      refine File.seek_pos_lt ?_ (by exact_mod_cast toSigned_lt (w := 64) (by decide) _)
      rw [h.content] at hpresent
      exact Nat.lt_of_le_of_lt hpresent hsmall
    · rw [hlength]
      exact toSigned_lt (w := 32) (by decide) _
    · have hoff : toInt64 e.offset.toNat = e.offset.toNat :=
        toInt64_of_range (by omega) (by exact_mod_cast hrep.1)
      have hlen : toInt32 e.size.toNat = e.size.toNat :=
        toInt32_of_range (by omega) (by exact_mod_cast hrep.2)
      rw [Handed.key, hwhich, hposition, hlength, hoff, hlen,
        File.seek_of_nonneg (Int.natCast_nonneg _), Int.toNat_natCast]
    · rcases hend with ⟨hr, hfailed⟩ | ⟨hr, -, hpos⟩
      · exact .inl ⟨by rw [hr]; exact neg_one_lt_zero, hfailed⟩
      · refine .inr ⟨hr, h.room, hsmall, hcontent.trans h.content, hpos.trans ?_⟩
        show d.file.pos + sectionSize = _
        rw [h.pos, hrank, Nat.mul_succ, Nat.add_assoc]

theorem features_succ (flags : BitVec 64) (i n : Nat) : features flags i (n + 1) =
    if flags.getLsbD i then i :: features flags (i + 1) n else features flags (i + 1) n := by
  rw [features, List.range'_succ, List.filter_cons]
  rfl

theorem flagLoop_clear {n i : Nat} {result : Int} {d : Dump} (hbit : flags.getLsbD i = false) :
    flagLoop stale flags (n + 1) i result d = flagLoop stale flags n (i + 1) result d :=
  if_neg (by rw [hbit]; exact Bool.false_ne_true)

theorem flagLoop_set {n i : Nat} {result : Int} {d : Dump} (hbit : flags.getLsbD i = true) :
    flagLoop stale flags (n + 1) i result d =
      if (dumpEntry stale i d).1 < 0 then dumpEntry stale i d
      else flagLoop stale flags n (i + 1) (dumpEntry stale i d).1 (dumpEntry stale i d).2 :=
  if_pos hbit

/-- What the decoders have been handed from round `i` on. -/
theorem flagLoop_handed {n i : Nat} (hn : i + n = 64) {result : Int} {d : Dump}
    (h : AtRound flags content table i d) :
    ∃ more, (flagLoop stale flags n i result d).2.handed = d.handed ++ more ∧
      (∀ e ∈ more, e.position < 2 ^ 63 ∧ e.size < 2 ^ 31) ∧
      ((∀ e ∈ more, e.Ok) →
        (∀ j ∈ features flags i n, (tableEntry flags content table j).Representable) →
        more.map Handed.key = (features flags i n).map (expected flags content table)) := by
  induction n generalizing i result d with
  | zero => exact ⟨[], (List.append_nil _).symm, fun _ h => (nomatch h), fun _ _ => rfl⟩
  | succ n ih =>
    rw [features_succ]
    cases hbit : flags.getLsbD i with
    | false =>
      have hrank := rank_succ flags i
      rw [hbit, if_neg Bool.false_ne_true] at hrank
      have hnext : AtRound flags content table (i + 1) d :=
        ⟨h.room, h.small, h.content, by rw [hrank]; exact h.pos⟩
      rw [flagLoop_clear hbit, if_neg Bool.false_ne_true]
      exact ih (by omega) hnext
    | true =>
      rw [flagLoop_set hbit, if_pos rfl]
      rcases dumpEntry_round h (by omega) hbit with ⟨hr, hhanded, hnot⟩ |
        ⟨entry, hhanded, -, hposition, hsize, hkey, hend⟩
      · rw [if_pos hr]
        refine ⟨[], by rw [hhanded, List.append_nil], fun _ h => (nomatch h), fun _ hrep => ?_⟩
        exact absurd (hrep i (List.mem_cons_self ..)) hnot
      · rcases hend with ⟨hr, hfailed⟩ | ⟨hr, hnext⟩
        · rw [if_pos hr]
          refine ⟨[entry], hhanded, fun e he => ?_, fun hok _ => ?_⟩
          · rw [List.mem_singleton] at he
            exact he ▸ ⟨hposition, hsize⟩
          · exact absurd (hok entry (List.mem_singleton_self _)) hfailed
        · rw [if_neg (by rw [hr]; exact lt_irrefl _)]
          obtain ⟨more, hmore, hsmall, hkeys⟩ := ih (by omega) hnext
           
          refine ⟨entry :: more, ?_, fun e he => ?_, fun hok hrep => ?_⟩
          · rw [hmore, hhanded, List.append_assoc]
            rfl
          · rcases List.mem_cons.1 he with rfl | he
            · exact ⟨hposition, hsize⟩
            · exact hsmall e he
          · rw [List.map_cons, List.map_cons, hkey (hrep i (List.mem_cons_self ..)),
              hkeys (fun e he => hok e (List.mem_cons_of_mem _ he))
                fun j hj => hrep j (List.mem_cons_of_mem _ hj)]

end Loop

/-! ## All features -/

section Pairing

variable {stale : Stale} {header : PerfHeader} {d : Dump}

/-- Where the table starts. -/
def PerfHeader.table (header : PerfHeader) : Nat :=
  header.data.offset.toNat + header.data.size.toNat

theorem features_eq_nil {flags : BitVec 64} : features flags 0 64 = [] ↔ flags = 0 := by
  constructor
  · intro h
    refine BitVec.eq_of_getLsbD_eq fun i hi => ?_
    show flags.getLsbD i = (0#64).getLsbD i
    rw [BitVec.getLsbD_zero]
    by_contra hbit
    have hmem : i ∈ features flags 0 64 := by
      refine List.mem_filter.2 ⟨List.mem_range'.2 ⟨i, hi, by omega⟩, ?_⟩
      simpa using hbit
    rw [h] at hmem
    exact nomatch hmem
  · rintro rfl
    exact List.filter_eq_nil_iff.2 fun i _ => by simp

/-- The low half of the offset decides whether the seek is taken for a failure. -/
theorem toInt32_neg_iff {n : Nat} : toInt32 n < 0 ↔ 2 ^ 31 ≤ n % 2 ^ 32 := by
  unfold toInt32 toSigned
  rw [Int.bmod_def]
  split <;> omega

theorem dumpFlagSections_eq (htable : header.table < 2 ^ 63) :
    dumpFlagSections stale header d =
      if toInt32 header.table < 0 then (-1, d.movedTo header.table)
      else flagLoop stale header.flags 64 0 (toInt32 header.table) (d.movedTo header.table) := by
  have hsum : (header.data.offset + header.data.size).toNat = header.table := by
    rw [UInt64.toNat_add]
    exact Nat.mod_eq_of_lt (htable.trans (by norm_num))
  have hoffset : toInt64 (header.data.offset + header.data.size).toNat = header.table := by
    rw [hsum]
    exact toInt64_of_range (by omega) (by exact_mod_cast htable)
  have hseek : File.seekResult header.table = header.table := if_neg (by omega)
  have hmoved : ({ d with file := d.file.seek header.table } : Dump) = d.movedTo header.table := by
    rw [File.seek_of_nonneg (Int.natCast_nonneg _), Int.toNat_natCast]
    rfl
  unfold dumpFlagSections
  rw [hoffset]
  dsimp only
  rw [hseek, hmoved]

/-- Of a table whose sections decode without error, each feature gets its own entry exactly when
the table starts where an `int` can tell and its entries fit the types they pass through. -/
theorem dumpFlagSections_pairs_iff
    (hroom : header.table + sectionSize * weight header.flags ≤ d.file.content.length)
    (hsmall : d.file.content.length < 2 ^ 63) (hnew : d.handed = [])
    (hok : ∀ e ∈ (dumpFlagSections stale header d).2.handed, e.Ok) :
    (dumpFlagSections stale header d).2.handed.map Handed.key =
        (features header.flags 0 64).map (expected header.flags d.file.content header.table) ↔
      header.flags = 0 ∨ (header.table % 2 ^ 32 < 2 ^ 31 ∧
        ∀ i ∈ features header.flags 0 64,
          (tableEntry header.flags d.file.content header.table i).Representable) := by
  have htable : header.table < 2 ^ 63 := by omega
  rw [dumpFlagSections_eq htable] at hok ⊢
  have hround : AtRound header.flags d.file.content header.table 0 (d.movedTo header.table) :=
    ⟨hroom, hsmall, rfl, rfl⟩
  by_cases hneg : toInt32 header.table < 0
  · rw [if_pos hneg] at hok ⊢
    have hhigh := toInt32_neg_iff.1 hneg
    rw [Dump.movedTo_handed, hnew, List.map_nil]
    constructor
    · intro h
      exact .inl (features_eq_nil.1 (List.map_eq_nil_iff.1 h.symm))
    · rintro (hzero | ⟨hlow, -⟩)
      · rw [features_eq_nil.2 hzero]
        rfl
      · omega
  · rw [if_neg hneg] at hok ⊢
    have hlow : header.table % 2 ^ 32 < 2 ^ 31 := by
      by_contra h
      exact hneg (toInt32_neg_iff.2 (by omega))
    obtain ⟨more, hmore, hbound, hkeys⟩ := flagLoop_handed (n := 64) (i := 0) rfl
      hround
    rw [Dump.movedTo_handed, hnew, List.nil_append] at hmore
    rw [hmore] at hok ⊢
    constructor
    · intro h
      refine .inr ⟨hlow, fun i hi => ?_⟩
      have hmem : expected header.flags d.file.content header.table i ∈ more.map Handed.key := by
        rw [h]
        exact List.mem_map_of_mem hi
      obtain ⟨e, he, hkey⟩ := List.mem_map.1 hmem
      obtain ⟨hposition, hsize⟩ := hbound e he
      simp only [Handed.key, expected, Prod.mk.injEq] at hkey
      rw [hkey.2.1] at hposition
      rw [hkey.2.2] at hsize
      exact ⟨hposition, by exact_mod_cast hsize⟩
    · rintro (hzero | ⟨-, hrep⟩)
      · refine hkeys hok ?_
        rw [features_eq_nil.2 hzero]
        exact fun _ h => (nomatch h)
      · exact hkeys hok hrep

end Pairing

/-- A header whose only feature is the total memory, with the table at the start of the file. -/
def totalMemHeader : PerfHeader where
  magic := "PERFILE2".toUTF8.toList
  size := 104
  attrSize := 128
  attrs := ⟨0, 0⟩
  data := ⟨0, 0⟩
  eventTypes := ⟨0, 0⟩
  flags := 1 <<< 10
  flags1 := [0, 0, 0]

/-- A table entry and the section behind it. -/
def totalMemDump (size : UInt64) : Dump :=
  { file := ⟨FileSection.encode ⟨16, size⟩ ++ u64 4096, 0⟩ }

def zeroStale : Stale := ⟨fun _ _ => 0, fun _ _ => 0⟩

theorem dumpFlagSections_pairs_totalMem :
    (dumpFlagSections zeroStale totalMemHeader (totalMemDump 8)).2.handed.map Handed.key =
      (features totalMemHeader.flags 0 64).map
        (expected totalMemHeader.flags (totalMemDump 8).file.content totalMemHeader.table) :=
  (dumpFlagSections_pairs_iff (by decide +kernel) (by decide +kernel) rfl (by decide +kernel)).2
    (by unfold FileSection.Representable; decide +kernel)

/-- The size is cut to its low half, and the section is decoded without an error. -/
theorem dumpFlagSections_not_pairs :
    ¬((∀ e ∈ (dumpFlagSections zeroStale totalMemHeader (totalMemDump (2 ^ 32 + 8))).2.handed,
        e.Ok) →
      (dumpFlagSections zeroStale totalMemHeader (totalMemDump (2 ^ 32 + 8))).2.handed.map
          Handed.key =
        (features totalMemHeader.flags 0 64).map (expected totalMemHeader.flags
          (totalMemDump (2 ^ 32 + 8)).file.content totalMemHeader.table)) := by
  decide +kernel

/-! ## The count of `read` -/

section Counts

variable {stale : Stale} {which : Nat} {d : Dump}

/-- The counts that were passed to `read` between two states. -/
def countsBetween (d d' : Dump) : List Nat :=
  (d'.handed.drop d.handed.length).flatMap fun e => e.outcome.counts

/-- The int that a size is cut to is refused as well. -/
def CutRefused (which size : Nat) : Prop :=
  if which = headerTotalMem then size % 2 ^ 32 ≠ 8
  else bufferSize < size % 2 ^ 32 ∧ size % 2 ^ 32 < 2 ^ 31

theorem toInt32_eq (n : Nat) : toInt32 n =
    if n % 2 ^ 32 < 2 ^ 31 then ((n % 2 ^ 32 : Nat) : Int) else (n % 2 ^ 32 : Nat) - 2 ^ 32 := by
  unfold toInt32 toSigned
  rw [Int.bmod_def]
  split <;> split <;> omega

theorem refuses_iff (which size : Nat) :
    refuses which (toInt32 size) = true ↔ CutRefused which size := by
  unfold refuses CutRefused
  rw [toInt32_eq]
  by_cases hwhich : which = headerTotalMem
  · rw [if_pos hwhich, if_pos hwhich, decide_eq_true_iff]
    split <;> omega
  · rw [if_neg hwhich, if_neg hwhich, tooBig, decide_eq_true_iff]
    unfold bufferSize
    split <;> omega

theorem readSection_refused {check : Int → Bool} {wrongSize unread : String}
    {decode : Reader Section} {mem : Mem} {len : Int} {f : File} (h : check len = true) :
    readSection check wrongSize unread decode mem len f =
      { result := .error wrongSize, file := f } :=
  if_pos h

theorem readSection_counts {check : Int → Bool} {wrongSize unread : String}
    {decode : Reader Section} {mem : Mem} {len : Int} {f : File} (h : check len = false) :
    (readSection check wrongSize unread decode mem len f).counts = [readCount len] := by
  unfold readSection
  rw [h, if_neg Bool.false_ne_true]
  unfold decodeRead
  dsimp only
  split <;> rfl

/-- A decoder that refuses the size, or none at all. -/
theorem runDecoder_refused {nr : UInt32} {length : Int} {f : File}
    (h : (decoder nr which).isNone ∨ refuses which length = true) :
    (runDecoder stale nr which length f).counts = [] ∧
      ∃ message, (runDecoder stale nr which length f).result = .error message := by
  unfold runDecoder
  cases hD : decoder nr which with
  | none => exact ⟨rfl, _, rfl⟩
  | some D =>
    obtain ⟨wrongSize, unread, decode, hshape⟩ := decoder_shape hD (stale.payload which) length f
    have hrefuses : refuses which length = true := by simpa [hD] using h
    show (D (stale.payload which) length f).counts = [] ∧
      ∃ message, (D (stale.payload which) length f).result = _
    rw [hshape, readSection_refused hrefuses]
    exact ⟨rfl, _, rfl⟩

theorem runDecoder_counts {nr : UInt32} {length : Int} {f : File}
    (h : ¬(decoder nr which).isNone) (hrefuses : refuses which length = false) :
    (runDecoder stale nr which length f).counts = [readCount length] := by
  unfold runDecoder
  cases hD : decoder nr which with
  | none =>
    rw [hD] at h
    exact absurd rfl h
  | some D =>
    obtain ⟨wrongSize, unread, decode, hshape⟩ := decoder_shape hD (stale.payload which) length f
    show (D (stale.payload which) length f).counts = _
    rw [hshape, readSection_counts hrefuses]

/-- The features that have a decoder do not depend on the number of cpus. -/
theorem decoder_isNone (nr nr' : UInt32) :
    (decoder nr which).isNone = (decoder nr' which).isNone := by
  unfold decoder
  grind

theorem readCount_of_small {n : Nat} (h : n ≤ bufferSize) : readCount (toInt32 n) = n := by
  unfold bufferSize at h
  rw [toInt32_of_range (by omega) (by omega)]
  unfold readCount toUnsigned
  omega

/-- A size above that of the buffer is refused before anything is read, and a smaller one is
passed to `read` as it stands, exactly when what the narrowing leaves of a large size is refused
too, or nothing is decoded at all. -/
theorem dumpEntry_counts_iff (h : d.file.pos + sectionSize ≤ d.file.content.length) :
    ((bufferSize < (entryAt d.file.content d.file.pos).size.toNat →
        (dumpEntry stale which d).1 < 0 ∧ countsBetween d (dumpEntry stale which d).2 = []) ∧
      ((entryAt d.file.content d.file.pos).size.toNat ≤ bufferSize →
        ∀ n ∈ countsBetween d (dumpEntry stale which d).2,
          n = (entryAt d.file.content d.file.pos).size.toNat)) ↔
    (entryAt d.file.content d.file.pos).size.toNat ≤ bufferSize ∨
      CutRefused which (entryAt d.file.content d.file.pos).size.toNat ∨
      (decoder 0 which).isNone ∨
      toInt64 (entryAt d.file.content d.file.pos).offset.toNat = -1 := by
  rw [dumpEntry_eq h]
  generalize entryAt d.file.content d.file.pos = e
  by_cases hoffset : toInt64 e.offset.toNat = -1
  · rw [if_pos hoffset, hoffset]
    have hnone : countsBetween d (d.movedTo (d.file.pos + sectionSize)) = [] := by
      unfold countsBetween
      rw [Dump.movedTo_handed, List.drop_length]
      rfl
    dsimp only
    rw [hnone]
    exact iff_of_true ⟨fun _ => ⟨neg_one_lt_zero, rfl⟩, fun _ _ h => (nomatch h)⟩
      (.inr (.inr (.inr rfl)))
  · rw [if_neg hoffset]
    obtain ⟨entry, hhanded, -, -, -, houtcome, -, hend⟩ := dumpSection_spec
      (d := d.movedTo (d.file.pos + sectionSize))
     
    have hcounts : countsBetween d (dumpSection stale which (toInt64 e.offset.toNat)
        (toInt32 e.size.toNat) (d.movedTo (d.file.pos + sectionSize))).2 = entry.outcome.counts := by
      unfold countsBetween
      rw [hhanded, Dump.movedTo_handed, List.drop_left]
      simp only [List.flatMap_cons, List.flatMap_nil, List.append_nil]
    rw [hcounts, houtcome]
    by_cases hrefused : (decoder d.nrCpusAvail which).isNone ∨
        refuses which (toInt32 e.size.toNat) = true
    · obtain ⟨hnone, message, herror⟩ := runDecoder_refused
        (f := (d.movedTo (d.file.pos + sectionSize)).file.seek (toInt64 e.offset.toNat)) hrefused
      have hfailed : ¬entry.Ok := by
        rintro ⟨s, hs⟩
        rw [houtcome] at hs
        exact nomatch herror.symm.trans hs
      have hresult : (dumpSection stale which (toInt64 e.offset.toNat) (toInt32 e.size.toNat)
          (d.movedTo (d.file.pos + sectionSize))).1 = -1 :=
        (hend.resolve_right fun hok => hfailed hok.2.1).1
      rw [refuses_iff, decoder_isNone _ 0] at hrefused
      refine iff_of_true ⟨fun _ => ⟨by rw [hresult]; exact neg_one_lt_zero, hnone⟩, ?_⟩
        (.inr (hrefused.elim (fun h => .inr (.inl h)) .inl))
      intro _ n hn
      rw [show (d.movedTo (d.file.pos + sectionSize)).nrCpusAvail = d.nrCpusAvail from rfl, hnone]
        at hn
      exact nomatch hn
    · obtain ⟨hsome, hcheck⟩ := not_or.1 hrefused
      rw [show (d.movedTo (d.file.pos + sectionSize)).nrCpusAvail = d.nrCpusAvail from rfl,
        runDecoder_counts hsome (Bool.not_eq_true _ ▸ hcheck)]
      rw [refuses_iff] at hcheck
      rw [decoder_isNone _ 0] at hsome
      constructor
      · intro hboth
        by_contra hnot
        exact List.cons_ne_nil _ _ (hboth.1 (by omega)).2
      · rintro (hle | hcut | hnone | hminus)
        · refine ⟨fun hlt => absurd hle (by omega), fun _ n hn => ?_⟩
          rw [List.mem_singleton.1 hn, readCount_of_small hle]
        · exact absurd hcut hcheck
        · exact absurd hnone hsome
        · exact absurd hminus hoffset

theorem dumpEntry_counts_totalMem :
    (bufferSize < (entryAt (totalMemDump 8).file.content 0).size.toNat →
        (dumpEntry zeroStale 10 (totalMemDump 8)).1 < 0 ∧
          countsBetween (totalMemDump 8) (dumpEntry zeroStale 10 (totalMemDump 8)).2 = []) ∧
      ((entryAt (totalMemDump 8).file.content 0).size.toNat ≤ bufferSize →
        ∀ n ∈ countsBetween (totalMemDump 8) (dumpEntry zeroStale 10 (totalMemDump 8)).2,
          n = (entryAt (totalMemDump 8).file.content 0).size.toNat) :=
  (dumpEntry_counts_iff (d := totalMemDump 8) (by decide +kernel)).2 (.inl (by decide +kernel))

/-- A size of 2 to the 31 is a negative `int`, and is read as a count of nearly 2 to the 64. -/
theorem dumpEntry_counts_huge :
    ¬((bufferSize < (entryAt (totalMemDump (2 ^ 31)).file.content 0).size.toNat →
        (dumpEntry zeroStale headerHostname (totalMemDump (2 ^ 31))).1 < 0 ∧
          countsBetween (totalMemDump (2 ^ 31))
            (dumpEntry zeroStale headerHostname (totalMemDump (2 ^ 31))).2 = []) ∧
      ((entryAt (totalMemDump (2 ^ 31)).file.content 0).size.toNat ≤ bufferSize →
        ∀ n ∈ countsBetween (totalMemDump (2 ^ 31))
            (dumpEntry zeroStale headerHostname (totalMemDump (2 ^ 31))).2,
          n = (entryAt (totalMemDump (2 ^ 31)).file.content 0).size.toNat)) := by
  decide +kernel

end Counts

end PerfEvent.PerfData
