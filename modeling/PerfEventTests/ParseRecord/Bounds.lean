import PerfEventTests.ParseRecord.Progress

/-!
# The buffers of a call

When everything that a call writes to and reads from the copy of the ring, and from the buffers that
it allocates for strings and stacks, is inside them; and what becomes of the ring's indices
when a call has failed.
-/

namespace PerfEvent.ParseRecord

open ByteMemory

/-- The two `memcpy` calls write inside the copy, and whatever iterations are run read inside it and
inside the buffers of their own. -/
structure CallInput.StaysInside (i : CallInput) : Prop where
  writes : ∀ c, i.copied = .copied c → WritesInside i.area i.prevHead
  reads : ∀ c, i.copied = .copied c → ∀ d, AtStart (i.env.of c) c.size d →
    d.Inside i.area.bytesize

/-! ## The iterations -/

variable {env : Env} {size : Int}

/-- What all iterations have read is inside when each of them reads inside. -/
theorem forall_inside_iff {room : Int} : (∀ d, AtStart env size d → d.Inside room) ↔
    ∀ a, Comes env size a → a < size → RecordInside env room a := by
  simp only [← reached_iff]
  rw [← forall_atStart_iff (P := fun a => RecordInside env room a)]
  constructor
  · intro h d hd hlt
    exact ((iteration_inside d).1 (h _ (hd.next hlt))).2
  · intro h d hd
    induction hd with
    | first => exact List.forall_mem_nil _
    | next hd hlt ih => exact (iteration_inside _).2 ⟨ih, h _ hd hlt⟩

/-- A call stays inside its buffers exactly when `prev_head` is not negative, or a multiple of the
ring's size, and every record that it comes to is inside. -/
theorem perfMmapRead_inside_iff (i : CallInput) : i.StaysInside ↔
    ∀ c, i.copied = .copied c → (0 ≤ i.prevHead ∨ (i.area.bytesize : Int) ∣ i.prevHead) ∧
      ∀ a, Comes (i.env.of c) c.size a → a < c.size →
        RecordInside (i.env.of c) i.area.bytesize a := by
  constructor
  · intro h c hc
    have hwrites := (writesInside_iff (bytesize_pos_of_copied hc) i.prevHead).1 (h.writes c hc)
    exact ⟨hwrites, forall_inside_iff.1 (h.reads c hc)⟩
  · intro h
    constructor
    · intro c hc
      exact (writesInside_iff (bytesize_pos_of_copied hc) i.prevHead).2 (h c hc).1
    · intro c hc
      exact forall_inside_iff.2 (h c hc).2

/-! ## A record that is longer than the ring -/

/-- The header of a COMM record of 65535 bytes. -/
def hugeComm : Mem := Mem.ofList [3, 0, 0, 0, 0, 0, 255, 255]

def hugeCommCall : CallInput :=
  firstCall hugeComm 8 { data := hugeComm, sampleType := 0, readFormat := 0, regMask := 0 }

theorem hugeCommCall_outside : ¬hugeCommCall.StaysInside := by
  intro h
  have hinside := forall_inside_iff.1 (h.reads _ (firstCall_copied hugeComm 8 _)) 0 .first (by decide)
  have hstring : Within 4096 0 65535 := hinside.1.2.2
  exact absurd hstring (by decide)

/-! ## Behind a call that fails -/

/-- A call that fails, for want of a page or of memory, and what there is when the caller calls
again. The caller keeps what a call returns as its `prev_head`. -/
structure FailedCall where
  area : Area
  pageSize_large : 1 < area.pageSize
  mmapSize_ne_zero : area.mmapSize ≠ 0
  page : Option MmapPage
  malloc : Option Mem
  fails : page = none ∨ malloc = none
  prevHead : Int
  env : Env
  nextPage : MmapPage
  nextBlock : Mem

namespace FailedCall

variable (i : FailedCall)

def outcome : Option Outcome := perfMmapRead i.area i.page i.malloc i.prevHead i.env 0

/-- The page is as it was, and the next call reads the bytes that had not been read, at indices of
the ring. -/
def Recovers : Prop := ∃ o, i.outcome = some o ∧ o.page = i.page ∧
  ∃ c, copyOut i.area (some i.nextPage) (some i.nextBlock) o.ret = .copied c ∧
    (∀ m ∈ copyMoves i.area.bytesize (o.ret.tmod i.area.bytesize),
      0 ≤ m.2 ∧ m.2 < i.area.bytesize) ∧
    c.size = toInt64 i.nextPage.dataHead - i.prevHead ∧
    ∀ k : Nat, (k : Int) < c.size →
      c.data k = i.nextPage.ring ((i.prevHead + k) % i.area.bytesize)

theorem outcome_eq : i.outcome = some { ret := -1, page := i.page } := by
  have hcopy : copyOut i.area i.page i.malloc i.prevHead = .returned (-1) := by
    unfold copyOut
    rw [if_neg i.mmapSize_ne_zero]
    obtain hpage | hmalloc := i.fails
    · rw [hpage]
    · rw [hmalloc]
      cases i.page <;> rfl
  unfold outcome perfMmapRead
  rw [hcopy]

theorem bytesize_large : 1 < i.area.bytesize := by
  have hpages : 1 ≤ i.area.mmapSize := Nat.one_le_iff_ne_zero.2 i.mmapSize_ne_zero
  calc 1 < i.area.pageSize := i.pageSize_large
    _ = 1 * i.area.pageSize := (Nat.one_mul _).symm
    _ ≤ i.area.mmapSize * i.area.pageSize := Nat.mul_le_mul_right _ hpages

/-- The first byte that the next call copies is the one before the ring. -/
theorem source_before_ring : (0, -1) ∈ copyMoves i.area.bytesize ((-1 : Int).tmod i.area.bytesize) := by
  have hlarge := i.bytesize_large
  have hwrap : (-1 : Int).tmod i.area.bytesize = -1 := by
    rw [Int.neg_tmod, Int.tmod_eq_of_lt (by decide) (by omega)]
  have hlt : i.area.bytesize < 2 ^ 31 := i.area.product_lt
  have hcount : toUnsigned 64 ((i.area.bytesize : Int) - -1) = i.area.bytesize - -1 :=
    toUnsigned_of_range (by omega) (by omega)
  rw [hwrap]
  apply List.mem_append_left
  apply List.mem_map.2
  refine ⟨0, List.mem_range.2 ?_, rfl⟩
  rw [hcount]
  omega

/-- A failed call leaves the page alone, but the next one starts below the ring. -/
theorem not_recovers : i.outcome = some { ret := -1, page := i.page } ∧ ¬i.Recovers := by
  refine ⟨i.outcome_eq, ?_⟩
  rintro ⟨o, ho, -, c, -, hsources, -⟩
  cases i.outcome_eq.symm.trans ho
  have hfirst := (hsources _ i.source_before_ring).1
  exact absurd hfirst (by decide)

/-- A call without memory, with eight bytes to read. -/
def noMemory : FailedCall where
  area := pageArea
  pageSize_large := by decide
  mmapSize_ne_zero := by decide
  page := some { dataHead := 8, ring := fun _ => 0 }
  malloc := none
  fails := .inr rfl
  prevHead := 0
  env := { data := fun _ => 0, sampleType := 0, readFormat := 0, regMask := 0 }
  nextPage := { dataHead := 8, ring := fun _ => 0 }
  nextBlock := fun _ => 0

theorem noMemory_not_recovers : ¬noMemory.Recovers := by
  rintro ⟨o, ho, -, c, -, hsources, -⟩
  cases noMemory.outcome_eq.symm.trans ho
  exact absurd (hsources _ noMemory.source_before_ring).1 (by decide)

end FailedCall

end PerfEvent.ParseRecord
