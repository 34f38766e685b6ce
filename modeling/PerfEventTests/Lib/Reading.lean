import PerfEventTests.Lib.Words

/-!
# Readers of a buffer

A reader walks over a buffer with an `int` offset and leaves behind which bytes it has read and how
long its copies into other buffers were. `Decodes m bs v`: where the bytes `bs` stand, `m` returns
`v`, moves behind them and reads nothing outside. Readers decode a concatenation piece by piece.
-/

namespace Reading

open ByteMemory

/-- The bytes from `start` on. -/
structure Span where
  start : Int
  length : Nat
  deriving DecidableEq, Repr

structure Cursor where
  offset : Int := 0
  reads : List Span := []
  copies : List Nat := []

def Reader (α : Type) : Type := Mem → Cursor → α × Cursor

instance : Monad Reader where
  pure a := fun _ c => (a, c)
  bind m f := fun mem c =>
    match m mem c with
    | (a, c') => f a mem c'

/-- The little-endian word at `rel` bytes from the offset. -/
def wordAt (n rel : Nat) : Reader Nat := fun mem c =>
  (mem.word n (c.offset + rel), { c with reads := c.reads ++ [⟨c.offset + rel, n⟩] })

/-- The `n` bytes at `rel` bytes from the offset. -/
def loadAt (n rel : Nat) : Reader (List UInt8) := fun mem c =>
  (mem.load (c.offset + rel) n, { c with reads := c.reads ++ [⟨c.offset + rel, n⟩] })

/-- `memcpy` of `n` bytes at `rel` bytes from the offset. -/
def copyAt (n rel : Nat) : Reader (List UInt8) := fun mem c =>
  (mem.load (c.offset + rel) n,
    { c with reads := c.reads ++ [⟨c.offset + rel, n⟩], copies := c.copies ++ [n] })

/-- `offset += n`, for an `int` offset. -/
def advance (n : Nat) : Reader Unit := fun _ c => ((), { c with offset := toInt32 (c.offset + n) })

def getOffset : Reader Int := fun _ c => (c.offset, c)

/-- `for (i = 0; i < n; i++) body` -/
def times {α : Type} : Nat → Reader α → Reader (List α)
  | 0, _ => pure []
  | n + 1, body => do
    let v ← body
    let vs ← times n body
    pure (v :: vs)

/-- The bytes from `rel` on, up to a zero byte; a string of more than `fuel` bytes is cut. -/
def cStringAt : Nat → Nat → Reader (List UInt8)
  | 0, _ => pure []
  | fuel + 1, rel => do
    let b ← wordAt 1 rel
    if b = 0 then pure []
    else do
      let bs ← cStringAt fuel (rel + 1)
      pure (UInt8.ofNat b :: bs)

/-- Nothing outside the first `n` bytes has been read, and no more than these copied. -/
structure Cursor.Inside (n : Nat) (c : Cursor) : Prop where
  reads : ∀ s ∈ c.reads, 0 ≤ s.start ∧ s.start + s.length ≤ n
  copies : ∀ k ∈ c.copies, k ≤ n

theorem inside_start (n : Nat) (o : Int) : Cursor.Inside n { offset := o } :=
  ⟨fun _ h => (nomatch h), fun _ h => (nomatch h)⟩

/-- One more access that stays inside. -/
theorem Cursor.Inside.read {n k : Nat} {c : Cursor} {a : Int} (o : Int) (h : c.Inside n)
    (hlo : 0 ≤ a) (hhi : a + k ≤ n) :
    Cursor.Inside n { c with offset := o, reads := c.reads ++ [⟨a, k⟩] } := by
  refine ⟨fun s hs => ?_, h.copies⟩
  rcases List.mem_append.1 hs with hs | hs
  · exact h.reads s hs
  · rcases List.mem_singleton.1 hs with rfl
    exact ⟨hlo, hhi⟩

/-- A cursor in a buffer of `n` bytes, on the bytes `bs`. -/
structure On (mem : Mem) (n : Nat) (bs : List UInt8) (c : Cursor) : Prop where
  offset : 0 ≤ c.offset
  room : c.offset + bs.length ≤ n
  small : n < 2 ^ 31
  holds : mem.Holds c.offset bs
  inside : c.Inside n

section Decodes

variable {α β : Type} {m : Reader α} {f : α → Reader β} {v : α} {w : β} {xs ys : List UInt8}

def Decodes (m : Reader α) (bs : List UInt8) (v : α) : Prop :=
  ∀ mem n c, On mem n bs c →
    ∃ c', m mem c = (v, c') ∧ c'.offset = c.offset + bs.length ∧ c'.Inside n

theorem On.left {mem : Mem} {n : Nat} {c : Cursor} (h : On mem n (xs ++ ys) c) : On mem n xs c := by
  have hroom := h.room
  rw [List.length_append] at hroom
  exact ⟨h.offset, by omega, h.small, (Mem.holds_append.1 h.holds).1, h.inside⟩

theorem On.right {mem : Mem} {n : Nat} {c c' : Cursor} (h : On mem n (xs ++ ys) c)
    (ho : c'.offset = c.offset + xs.length) (hi : c'.Inside n) : On mem n ys c' := by
  have hroom := h.room
  have hoffset := h.offset
  rw [List.length_append] at hroom
  refine ⟨by omega, by omega, h.small, ?_, hi⟩
  rw [ho]
  exact (Mem.holds_append.1 h.holds).2

theorem bind_run {mem : Mem} {c c' : Cursor} (h : m mem c = (v, c')) :
    (m >>= f) mem c = f v mem c' := by
  show (match m mem c with | (a, c₁) => f a mem c₁) = _
  rw [h]

theorem getOffset_run (f : Int → Reader β) (mem : Mem) (c : Cursor) :
    (getOffset >>= f) mem c = f c.offset mem c := rfl

theorem decodes_pure (v : α) : Decodes (pure v) [] v := fun _ _ c hc =>
  ⟨c, rfl, by simp, hc.inside⟩

theorem decodes_bind (hm : Decodes m xs v) (hf : Decodes (f v) ys w) :
    Decodes (m >>= f) (xs ++ ys) w := by
  intro mem n c hc
  obtain ⟨c', hrun, ho, hi⟩ := hm mem n c hc.left
  obtain ⟨c'', hrun', ho', hi'⟩ := hf mem n c' (hc.right ho hi)
  refine ⟨c'', ?_, ?_, hi'⟩
  · rw [bind_run hrun]
    exact hrun'
  · rw [ho', ho, List.length_append]
    push_cast
    ring

/-- A last step that only computes. -/
theorem decodes_map {g : α → β} (hm : Decodes m xs v) : Decodes (m >>= fun a => pure (g a)) xs (g v) := by
  have := decodes_bind (f := fun a => pure (g a)) hm (decodes_pure (g v))
  rwa [List.append_nil] at this

/-- One value after the other; `f` is what the body makes of a value. -/
theorem decodes_times {γ : Type} {body : Reader α} {enc : γ → List UInt8} {f : γ → α}
    {us : List γ} (h : ∀ u ∈ us, Decodes body (enc u) (f u)) :
    Decodes (times us.length body) (us.flatMap enc) (us.map f) := by
  induction us with
  | nil => exact decodes_pure []
  | cons u us ih =>
    rw [List.flatMap_cons]
    exact decodes_bind (h u (List.mem_cons_self ..))
      (decodes_map (g := List.cons (f u)) (ih fun t ht => h t (List.mem_cons_of_mem _ ht)))

/-- A word is read at the offset, and the offset moves behind it. -/
theorem decodes_word {n v : Nat} (hv : v < 256 ^ n) :
    Decodes (do let v ← wordAt n 0; advance n; pure v) (le n v) v := by
  intro mem k c hc
  have hroom := hc.room
  have hoffset := hc.offset
  have hsmall := hc.small
  rw [length_le] at hroom
  have hword : mem.word n (c.offset + ((0 : Nat) : Int)) = v := by
    have hholds : mem.Holds c.offset (le n v ++ []) := by
      rw [List.append_nil]
      exact hc.holds
    rw [Nat.cast_zero, add_zero]
    exact hholds.word_eq hv
  refine ⟨{ c with offset := c.offset + n, reads := c.reads ++ [⟨c.offset + ((0 : Nat) : Int), n⟩] },
    ?_, by rw [length_le], ?_⟩
  · show (mem.word n (c.offset + ((0 : Nat) : Int)), ({ c with
      offset := toInt32 (c.offset + n), reads := _ } : Cursor)) = _
    rw [hword, toInt32_of_range (by omega) (by omega)]
  · exact hc.inside.read _ (by simpa using hoffset) (by simpa using hroom)

/-- Bytes that are passed over. -/
theorem decodes_advance (bs : List UInt8) : Decodes (advance bs.length) bs () := by
  intro mem k c hc
  have hroom := hc.room
  have hoffset := hc.offset
  have hsmall := hc.small
  refine ⟨{ c with offset := c.offset + bs.length }, ?_, rfl, hc.inside.reads, hc.inside.copies⟩
  show ((), ({ c with offset := toInt32 (c.offset + bs.length) } : Cursor)) = _
  rw [toInt32_of_range (by omega) (by omega)]

theorem word_one (mem : Mem) (a : Int) : mem.word 1 a = (mem a).toNat := by
  simp [Mem.word, Mem.load, List.range_succ, ofLe]

/-- A string with a zero byte behind it. -/
theorem cStringAt_run {mem : Mem} {n : Nat} {bs : List UInt8} (h0 : 0 ∉ bs) (fuel rel : Nat)
    {c : Cursor} (hfuel : bs.length < fuel) (ho : 0 ≤ c.offset)
    (hroom : c.offset + rel + (bs ++ [0]).length ≤ n)
    (hholds : mem.Holds (c.offset + rel) (bs ++ [0])) (hi : c.Inside n) :
    ∃ c', cStringAt fuel rel mem c = (bs, c') ∧ c'.offset = c.offset ∧ c'.Inside n := by
  induction bs generalizing fuel rel c with
  | nil =>
    obtain ⟨fuel, rfl⟩ : ∃ k, fuel = k + 1 := ⟨fuel - 1, by simp at hfuel; omega⟩
    have hbyte : mem.word 1 (c.offset + rel) = 0 := by
      have := hholds 0 (by simp)
      rw [Nat.cast_zero, add_zero] at this
      rw [word_one, this]
      rfl
    refine ⟨{ c with reads := c.reads ++ [⟨c.offset + rel, 1⟩] }, ?_, rfl,
      hi.read _ (by omega) (by simpa using hroom)⟩
    show (if mem.word 1 (c.offset + rel) = 0 then pure [] else _ : Reader (List UInt8)) mem _ = _
    rw [if_pos hbyte]
    rfl
  | cons b bs ih =>
    obtain ⟨fuel, rfl⟩ : ∃ k, fuel = k + 1 := ⟨fuel - 1, by simp at hfuel; omega⟩
    rw [List.mem_cons, not_or] at h0
    simp only [List.cons_append, List.length_cons] at hroom hfuel
    have hsplit : mem.Holds (c.offset + rel) ([b] ++ (bs ++ [0])) := hholds
    obtain ⟨hb, hrest⟩ := Mem.holds_append.1 hsplit
    have hbyte : mem.word 1 (c.offset + rel) = b.toNat := by
      have := hb 0 (by simp)
      rw [Nat.cast_zero, add_zero] at this
      rw [word_one, this]
      rfl
    have hne : mem.word 1 (c.offset + rel) ≠ 0 := by
      rw [hbyte]
      intro h
      exact h0.1 (UInt8.toNat_inj.1 h).symm
    have hhere : c.offset + (rel : Int) + ([b] : List UInt8).length = c.offset + (rel + 1 : Nat) := by
      simp only [List.length_singleton]
      push_cast
      ring
    obtain ⟨c', hrun, ho', hi'⟩ := ih h0.2 fuel (rel + 1)
      (c := { c with reads := c.reads ++ [⟨c.offset + rel, 1⟩] }) (by omega) ho
      (by push_cast at hroom ⊢; omega) (by rw [hhere] at hrest; exact hrest)
      (hi.read _ (by omega) (by push_cast at hroom ⊢; omega))
    refine ⟨c', ?_, ho', hi'⟩
    show (if mem.word 1 (c.offset + rel) = 0 then pure [] else (cStringAt fuel (rel + 1)) >>= fun bs =>
      pure (UInt8.ofNat (mem.word 1 (c.offset + rel)) :: bs) : Reader (List UInt8)) mem _ = _
    rw [if_neg hne, bind_run hrun, hbyte, UInt8.ofNat_toNat]
    rfl

end Decodes

end Reading
