import PerfEventTests.ParseRecord.Fields

/-!
# Calls that stay inside

The loop that stops where an iteration leaves the buffers, step by step: an iteration stays inside
when the record it comes to does.
-/

namespace PerfEvent.ParseRecord

open ByteMemory

/-! ## The copy -/

theorem forall_memcpyMoves {dst src n : Int} {P : Int → Prop} :
    (∀ m ∈ memcpyMoves dst src n, P m.1) ↔
      ∀ k : Nat, k < (toUnsigned 64 n).toNat → P (dst + k) := by
  unfold memcpyMoves
  rw [List.forall_mem_map]
  simp only [List.mem_range]

/-- The moves stay in the copy exactly when the first of them is not below the ring. -/
theorem copyMoves_inside {n : Nat} (hn : n < 2 ^ 31) (w : Int) (hlo : -(n : Int) < w) (hw : w < n) :
    (∀ m ∈ copyMoves n w, 0 ≤ m.1 ∧ m.1 < (n : Int)) ↔ 0 ≤ w := by
  have hcount : toUnsigned 64 (n - w) = n - w := toUnsigned_of_range (by omega) (by omega)
  unfold copyMoves
  rw [List.forall_mem_append, forall_memcpyMoves (P := fun x => 0 ≤ x ∧ x < (n : Int)),
    forall_memcpyMoves (P := fun x => 0 ≤ x ∧ x < (n : Int)), hcount]
  constructor
  · rintro ⟨hfirst, -⟩
    by_contra hneg
    -- the first call has more bytes to copy than the block has
    have hlast := (hfirst n (by omega)).2
    omega
  · intro hw0
    have hcount' : toUnsigned 64 w = w := toUnsigned_of_range hw0 (by omega)
    rw [hcount']
    constructor <;> (intro k hk; omega)

theorem tmod_nonneg_iff {a : Int} {n : Nat} :
    0 ≤ a.tmod n ↔ 0 ≤ a ∨ (n : Int) ∣ a := by
  constructor
  · intro h
    by_cases ha : 0 ≤ a
    · exact .inl ha
    · have hneg : a.tmod n ≤ 0 := by
        have h' := Int.tmod_nonneg (n : Int) (show 0 ≤ -a by omega)
        rw [Int.neg_tmod] at h'
        omega
      exact .inr (Int.dvd_of_tmod_eq_zero (le_antisymm hneg h))
  · rintro (ha | hdvd)
    · exact Int.tmod_nonneg _ ha
    · rw [Int.tmod_eq_zero_of_dvd hdvd]

/-- A call that has copied anything has a ring. -/
theorem bytesize_pos_of_copied {area : Area} {page : Option MmapPage} {malloc : Option Mem}
    {prevHead : Int} {c : Copied} (h : copyOut area page malloc prevHead = .copied c) :
    0 < area.bytesize := by
  apply area.bytesize_pos
  intro hzero
  have hret : copyOut area page malloc prevHead = .returned 0 := if_pos hzero
  cases hret.symm.trans h

/-- The calls write inside when `prev_head` is not negative, or a multiple of the ring's size. -/
theorem writesInside_iff {area : Area} (hpos : 0 < area.bytesize) (prevHead : Int) :
    WritesInside area prevHead ↔ 0 ≤ prevHead ∨ (area.bytesize : Int) ∣ prevHead := by
  have hpos' : 0 < (area.bytesize : Int) := Int.natCast_pos.2 hpos
  have hlo : -(area.bytesize : Int) < prevHead.tmod area.bytesize := by
    have hlt := Int.tmod_lt_of_pos (-prevHead) hpos'
    rw [Int.neg_tmod] at hlt
    omega
  exact (copyMoves_inside area.product_lt _ hlo (Int.tmod_lt_of_pos _ hpos')).trans tmod_nonneg_iff

/-! ## The loop -/

variable {env : Env} {room size : Int} {fuel k : Nat} {l : Loop}

theorem iteration_offset (d : Decoder) :
    (iteration env size d).offset = d.offset + recordLength env size d.offset := by
  rw [iteration_describes, ← iterationPart_size]
  rfl

theorem turn_offset (l : Loop) : (l.turn env size).decoder.offset =
    l.decoder.offset + recordLength env size l.decoder.offset :=
  iteration_offset l.decoder

/-- What has been read behind an iteration is inside when it was before, and the record is. -/
theorem iteration_inside (d : Decoder) : (iteration env size d).Inside room ↔
    d.Inside room ∧ RecordInside env room d.offset := by
  rw [iteration_describes, ← iterationPart_inside size]
  exact List.forall_mem_append

theorem checkedLoop_of_ge (h : size ≤ l.decoder.offset) (fuel : Nat) :
    checkedLoop env room size fuel l = some (.returned l) := by
  unfold checkedLoop
  rw [if_neg (not_lt.2 h)]

theorem checkedLoop_zero (h : l.decoder.offset < size) : checkedLoop env room size 0 l = none := by
  unfold checkedLoop
  rw [if_pos h]

theorem checkedLoop_inside (h : l.decoder.offset < size) (hl : l.decoder.Inside room)
    (hrecord : RecordInside env room l.decoder.offset) (fuel : Nat) :
    checkedLoop env room size (fuel + 1) l = checkedLoop env room size fuel (l.turn env size) := by
  have hturn : (l.turn env size).decoder.Inside room := (iteration_inside l.decoder).2 ⟨hl, hrecord⟩
  rw [checkedLoop, if_pos h]
  exact if_pos hturn

theorem checkedLoop_outside (h : l.decoder.offset < size)
    (hrecord : ¬RecordInside env room l.decoder.offset) (fuel : Nat) :
    checkedLoop env room size (fuel + 1) l = some .undefined := by
  have hturn : ¬(l.turn env size).decoder.Inside room := fun hinside =>
    hrecord ((iteration_inside l.decoder).1 hinside).2
  rw [checkedLoop, if_pos h]
  exact if_neg hturn

theorem checkedLoop_mono {r : Checked Loop} (h : checkedLoop env room size fuel l = some r) (k : Nat) :
    checkedLoop env room size (fuel + k) l = some r := by
  induction fuel generalizing l with
  | zero =>
    by_cases hlt : l.decoder.offset < size
    · rw [checkedLoop_zero hlt] at h
      cases h
    · rw [checkedLoop_of_ge (not_lt.1 hlt)] at h ⊢
      exact h
  | succ fuel ih =>
    rw [Nat.add_right_comm]
    by_cases hlt : l.decoder.offset < size
    · rw [checkedLoop, if_pos hlt] at h ⊢
      split at h
      · next hturn =>
        rw [if_pos hturn]
        exact ih h
      · next hturn =>
        rw [if_neg hturn]
        exact h
    · rw [checkedLoop_of_ge (not_lt.1 hlt)] at h ⊢
      exact h

/-! ## Where it arrives -/

/-- The loop after `k` iterations that have stayed inside. -/
inductive Arrives (env : Env) (room size : Int) : Nat → Loop → Prop
  | first : Arrives env room size 0 {}
  | next {k : Nat} {l : Loop} : Arrives env room size k l → l.decoder.offset < size →
      RecordInside env room l.decoder.offset → Arrives env room size (k + 1) (l.turn env size)

/-- The positions that the loop comes to as long as it stays inside. -/
inductive ComesInside (env : Env) (room size : Int) : Int → Prop
  | first : ComesInside env room size 0
  | next {a : Int} : ComesInside env room size a → a < size → RecordInside env room a →
      ComesInside env room size (a + recordLength env size a)

namespace Arrives

theorem inside (h : Arrives env room size k l) : l.decoder.Inside room := by
  induction h with
  | first => exact List.forall_mem_nil _
  | next _ _ hrecord ih => exact (iteration_inside _).2 ⟨ih, hrecord⟩

theorem comes (h : Arrives env room size k l) : Comes env size l.decoder.offset := by
  induction h with
  | first => exact .first
  | next _ hlt _ ih =>
    rw [turn_offset]
    exact ih.next hlt

/-- The loop goes on from where it has arrived. -/
theorem run (h : Arrives env room size k l) (fuel : Nat) :
    checkedLoop env room size (k + fuel) {} = checkedLoop env room size fuel l := by
  induction h generalizing fuel with
  | first => rw [Nat.zero_add]
  | next harrives hlt hrecord ih =>
    rw [Nat.add_assoc, Nat.add_comm 1, ih, checkedLoop_inside hlt harrives.inside hrecord]

end Arrives

/-- Where a loop that returns comes to a record, that record is inside. -/
theorem inside_of_returned {l' : Loop} (hend : checkedLoop env room size fuel {} = some (.returned l'))
    (hl : Arrives env room size k l) (hlt : l.decoder.offset < size) :
    RecordInside env room l.decoder.offset := by
  by_contra hrecord
  have hmono := checkedLoop_mono hend (k + 1)
  have hrun := hl.run (fuel + 1)
  -- one turn behind `k` the run would be undefined, but it has returned
  rw [show k + (fuel + 1) = fuel + (k + 1) by omega, hmono, checkedLoop_outside hlt hrecord] at hrun
  cases hrun

theorem arrives_of_returned {l' : Loop} {a : Int}
    (hend : checkedLoop env room size fuel {} = some (.returned l')) (ha : Comes env size a) :
    ∃ k l, Arrives env room size k l ∧ l.decoder.offset = a := by
  induction ha with
  | first => exact ⟨0, {}, .first, rfl⟩
  | next _ hlt ih =>
    obtain ⟨k, l, hl, rfl⟩ := ih
    exact ⟨k + 1, _, hl.next hlt (inside_of_returned hend hl hlt), turn_offset l⟩

/-- States that the loop does not leave. -/
theorem checkedLoop_stuck {a : Int} (hlt : a < size) (hrecord : RecordInside env room a)
    (hstays : recordLength env size a = 0) (hoffset : l.decoder.offset = a)
    (hl : l.decoder.Inside room) (fuel : Nat) : checkedLoop env room size fuel l = none := by
  induction fuel generalizing l with
  | zero => exact checkedLoop_zero (hoffset ▸ hlt)
  | succ fuel ih =>
    have hhere : RecordInside env room l.decoder.offset := hoffset ▸ hrecord
    rw [checkedLoop_inside (hoffset ▸ hlt) hl hhere]
    apply ih
    · rw [turn_offset, hoffset, hstays, add_zero]
    · exact (iteration_inside _).2 ⟨hl, hhere⟩

/-! ## The call -/

variable {area : Area} {page : Option MmapPage} {malloc : Option Mem} {prevHead : Int} {c : Copied}

theorem checkedRead_returned {v : Int} (hc : copyOut area page malloc prevHead = .returned v) :
    checkedRead area page malloc prevHead env fuel = some (.returned { ret := v, page }) := by
  unfold checkedRead
  rw [hc]

theorem checkedRead_copied (hc : copyOut area page malloc prevHead = .copied c)
    (hwrites : WritesInside area prevHead) : checkedRead area page malloc prevHead env fuel =
      (checkedLoop (env.of c) area.bytesize c.size fuel {}).map (·.map (c.outcome page)) := by
  unfold checkedRead
  rw [hc]
  exact if_pos hwrites

theorem checkedRead_outside (hc : copyOut area page malloc prevHead = .copied c)
    (hwrites : ¬WritesInside area prevHead) :
    checkedRead area page malloc prevHead env fuel = some .undefined := by
  unfold checkedRead
  rw [hc]
  exact if_neg hwrites

end PerfEvent.ParseRecord
