import PerfEventTests.Lib.Ring
import PerfEventTests.Lib.Runs
import PerfEventTests.Lib.Words

/-!
# Copying the ring out

The first and the last part of `perf_mmap_read` in `lib/parse_record.c`: it reads `data_head`,
copies the data area out with two `memcpy` calls, and gives the space back by storing
`data_tail`. The kernel writes into the area all the while, so the second half of the module
takes the call apart into single memory accesses and lets the kernel in between any two.
-/

namespace PerfEvent.ParseRecord

open ByteMemory CircularBuffer Runs

/-- The size of the data area, as the caller gives it. `bytesize=mmap_size*getpagesize()` is an
`int` product, so it is only defined when it fits. -/
structure Area where
  mmapSize : Nat
  pageSize : Nat
  pageSize_pos : 0 < pageSize
  product_lt : mmapSize * pageSize < 2 ^ 31

namespace Area

variable (area : Area)

def bytesize : Nat := area.mmapSize * area.pageSize

theorem bytesize_pos (h : area.mmapSize ≠ 0) : 0 < area.bytesize :=
  Nat.mul_pos (Nat.pos_of_ne_zero h) area.pageSize_pos

end Area

/-- The words of `struct perf_event_mmap_page` that the reader uses, and the data area. -/
structure MmapPage where
  dataHead : Nat := 0
  dataTail : Nat := 0
  ring : Mem

/-- The byte moves of `memcpy(dst, src, n)`: destination and source. The count becomes a `size_t`. -/
def memcpyMoves (dst src n : Int) : List (Int × Int) :=
  (List.range (toUnsigned 64 n).toNat).map fun i : Nat => (dst + (i : Int), src + (i : Int))

/-- The moves of the two `memcpy` calls. -/
def copyMoves (bytesize prevHeadWrap : Int) : List (Int × Int) :=
  memcpyMoves 0 prevHeadWrap (bytesize - prevHeadWrap) ++
    memcpyMoves (bytesize - prevHeadWrap) 0 prevHeadWrap

theorem memcpyMoves_natCast {dst src : Int} {n : Nat} (hn : n < 2 ^ 64) : memcpyMoves dst src n =
    (List.range n).map fun i : Nat => (dst + (i : Int), src + (i : Int)) := by
  rw [memcpyMoves, toUnsigned_natCast hn, Int.toNat_natCast]

def move (ring data : Mem) (m : Int × Int) : Mem := Function.update data m.1 (ring m.2)

/-- What a call knows when its record loop starts. -/
structure Copied where
  head : Int
  size : Int
  data : Mem

inductive CopyResult where
  | returned (ret : Int)
  | copied (c : Copied)

/-- `perf_mmap_read` up to the record loop. `malloc` is the uninitialised block it gets. -/
def copyOut (area : Area) (page : Option MmapPage) (malloc : Option Mem) (prevHead : Int) :
    CopyResult :=
  if area.mmapSize = 0 then .returned 0 else
  match page, malloc with
  | none, _ => .returned (-1)
  | some _, none => .returned (-1)
  | some page, some data =>
    let head := toInt64 page.dataHead
    let prevHeadWrap := prevHead.tmod area.bytesize
    .copied {
      head
      size := toInt32 (head - prevHead)
      data := (copyMoves area.bytesize prevHeadWrap).foldl (move page.ring) data }

/-- `control_page->data_tail=head`. -/
def MmapPage.consume (page : MmapPage) (head : Int) : MmapPage :=
  { page with dataTail := (toUnsigned 64 head).toNat }

/-! ## The kernel and the reader -/

/-- A call that has returned: its argument, what it copied, and the page when it returned. -/
structure Call where
  prevHead : Int
  copied : Copied
  page : MmapPage

/-- `data[0..size)`. -/
def Call.bytes (c : Call) : List UInt8 := c.copied.data.load 0 c.copied.size.toNat

inductive ReaderState where
  | idle
  | copying (c : Copied) (todo : List (Int × Int))

/-- The kernel and the reader at one mapping. `written` is every byte that the kernel has put
into the ring, those behind `data_head` included. -/
structure Mapped where
  page : MmapPage
  prevHead : Int := 0
  reader : ReaderState := .idle
  written : List UInt8 := []
  calls : List Call := []

inductive Action where
  /-- the kernel writes a byte behind `data_head` -/
  | append (b : UInt8)
  /-- the kernel moves `data_head` over what it has written -/
  | publish
  /-- a call up to the first `memcpy`, with the block that it gets from `malloc` -/
  | begin (block : Mem)
  /-- the next byte of the two `memcpy` calls -/
  | copy
  /-- the store of `data_tail`, and the return -/
  | finish

/-- A call has read the head and got its block. -/
def Mapped.begun (area : Area) (s : Mapped) (block : Mem) : Mapped :=
  let head := toInt64 s.page.dataHead
  { s with
    reader := .copying ⟨head, toInt32 (head - s.prevHead), block⟩
      (copyMoves area.bytesize (s.prevHead.tmod area.bytesize)) }

/-- The call with the copy `c` has stored `data_tail` and returned. -/
def Mapped.finished (s : Mapped) (c : Copied) : Mapped :=
  { s with
    page := s.page.consume c.head
    prevHead := c.head
    reader := .idle
    calls := s.calls ++ [⟨s.prevHead, c, s.page.consume c.head⟩] }

def step (area : Area) (s : Mapped) : Action → Option Mapped
  | .append b =>
    -- the kernel never overwrites what lies behind `data_tail`
    if s.written.length < s.page.dataTail + area.bytesize ∧ s.written.length + 1 < 2 ^ 63 then
      some { s with
        page := { s.page with ring := push area.bytesize s.page.ring s.written.length b }
        written := s.written ++ [b] }
    else none
  | .publish => some { s with page := { s.page with dataHead := s.written.length } }
  | .begin block =>
    match s.reader with
    | .copying .. => none
    | .idle =>
      if area.mmapSize = 0 then
        some { s with
          prevHead := 0
          calls := s.calls ++ [⟨s.prevHead, ⟨0, 0, block⟩, s.page⟩] }
      else some (s.begun area block)
  | .copy =>
    match s.reader with
    | .copying c (m :: todo) =>
      some { s with reader := .copying { c with data := move s.page.ring c.data m } todo }
    | _ => none
  | .finish =>
    match s.reader with
    | .copying c [] => some (s.finished c)
    | _ => none

/-- The mapping before the first append. -/
def mapped (ring : Mem) : Mapped := { page := { ring } }

/-- The head that the last call returned, 0 before the first one. -/
def Mapped.lastHead (s : Mapped) : Int := (s.calls.getLast?.map fun c => c.copied.head).getD 0

/-! ### A call that the kernel does not interrupt -/

/-- The actions of one call. -/
def callActions (area : Area) (block : Mem) : List Action :=
  .begin block :: (List.replicate area.bytesize .copy ++ [.finish])

theorem run_copy {area : Area} {s : Mapped} {c : Copied} :
    ∀ {todo : List (Int × Int)}, s.reader = .copying c todo →
      run (step area) s (List.replicate todo.length .copy) = some { s with
        reader := .copying { c with data := todo.foldl (move s.page.ring) c.data } [] } := by
  intro todo
  induction todo generalizing s c with
  | nil =>
    intro h
    simp [← h]
  | cons m todo ih =>
    intro h
    rw [List.length_cons, List.replicate_succ, run_cons]
    refine ⟨{ s with reader := .copying { c with data := move s.page.ring c.data m } todo }, ?_, ?_⟩
    · simp [step, h]
    · rw [ih rfl]
      rfl

theorem length_copyMoves {n w : Int} (hw : 0 ≤ w) (hn : w ≤ n) (hlt : n < 2 ^ 31) :
    (copyMoves n w).length = n.toNat := by
  have hfirst : toUnsigned 64 (n - w) = n - w := toUnsigned_of_range (by omega) (by omega)
  have hsecond : toUnsigned 64 w = w := toUnsigned_of_range hw (by omega)
  simp only [copyMoves, memcpyMoves, hfirst, hsecond, List.length_append, List.length_map,
    List.length_range]
  omega

/-- When the kernel does not interrupt it, a call copies out what `copyOut` says, and stores and
returns the head. -/
theorem run_callActions {area : Area} {s : Mapped} (block : Mem) {c : Copied}
    (hidle : s.reader = .idle) (hprev : 0 ≤ s.prevHead)
    (hc : copyOut area (some s.page) (some block) s.prevHead = .copied c) :
    run (step area) s (callActions area block) = some (s.finished c) := by
  unfold copyOut at hc
  split at hc
  · cases hc
  rename_i hsize
  obtain rfl := CopyResult.copied.inj hc
  have hpos : 0 < (area.bytesize : Int) := by exact_mod_cast area.bytesize_pos hsize
  have hlen : (copyMoves area.bytesize (s.prevHead.tmod area.bytesize)).length = area.bytesize := by
    have hlt : (area.bytesize : Int) < 2 ^ 31 := Int.ofNat_lt.2 area.product_lt
    rw [length_copyMoves (Int.tmod_nonneg _ hprev) (Int.tmod_lt_of_pos _ hpos).le hlt,
      Int.toNat_natCast]
  have hcopy : run (step area) (s.begun area block) _ = _ := run_copy rfl
  rw [hlen] at hcopy
  rw [callActions, run_cons]
  refine ⟨s.begun area block, by simp only [step, hidle, if_neg hsize], ?_⟩
  rw [run_append]
  refine ⟨_, hcopy, ?_⟩
  simp only [run, step, Option.bind_some, Mapped.begun, Mapped.finished]

/-! ### Every run -/

/-- The two `memcpy` calls take byte `k` from the cell of stream position `p + k`. -/
theorem copyMoves_eq {n : Nat} (p : Nat) (hn : 0 < n) (hlt : n < 2 ^ 31) :
    copyMoves n ((p : Int).tmod n) =
      (List.range n).map fun k : Nat => ((k : Int), slot n (p + k)) := by
  have hw : p % n < n := Nat.mod_lt p hn
  have hsplit : n = (n - p % n) + p % n := by omega
  have hwrap : ((p : Int).tmod n) = ((p % n : Nat) : Int) := by
    rw [Int.tmod_eq_emod_of_nonneg (Int.natCast_nonneg p), Int.natCast_mod]
  have hfirst : (n : Int) - ((p % n : Nat) : Int) = ((n - p % n : Nat) : Int) := by omega
  rw [hwrap, copyMoves, hfirst, memcpyMoves_natCast (by omega), memcpyMoves_natCast (by omega)]
  conv_rhs => rw [hsplit, List.range_add, List.map_append, List.map_map]
  congr 1
  · apply List.map_congr_left
    intro k hk
    have hk' : k < n - p % n := List.mem_range.1 hk
    have hslot : (p + k) % n = p % n + k := by
      rw [Nat.add_mod, Nat.mod_eq_of_lt (show k < n by omega), Nat.mod_eq_of_lt (by omega)]
    simp only [← hsplit, slot, hslot, Prod.mk.injEq]
    omega
  · apply List.map_congr_left
    intro k hk
    have hk' : k < p % n := List.mem_range.1 hk
    have hslot : (p + (n - p % n + k)) % n = k := by
      have hp := Nat.div_add_mod p n
      have hsum : p + (n - p % n + k) = k + n * (p / n + 1) := by
        rw [Nat.mul_add, Nat.mul_one]
        omega
      rw [hsum, Nat.add_mul_mod_self_left, Nat.mod_eq_of_lt (by omega)]
    simp only [Function.comp, ← hsplit, slot, hslot, Prod.mk.injEq]
    omega

/-- The call under way: what it has still to copy, and what it has copied of the bytes that the
kernel had published when it read the head. -/
structure Copying (area : Area) (s : Mapped) (c : Copied) (todo : List (Int × Int)) : Prop where
  head_nonneg : 0 ≤ c.head
  head_le : c.head ≤ s.page.dataHead
  tail_le : s.page.dataTail ≤ c.head
  size_eq : c.size = c.head - s.prevHead
  todo_slot : ∀ m ∈ todo, ∃ k : Nat, m = ((k : Int), slot area.bytesize (s.page.dataTail + k))
  done : ∀ k : Nat, (k : Int) < c.size →
    ((k : Int), slot area.bytesize (s.page.dataTail + k)) ∈ todo ∨
      s.written[s.page.dataTail + k]? = some (c.data k)

/-- What a returned call has done. -/
structure Call.Exact (area : Area) (c : Call) : Prop where
  tail_eq : c.page.dataTail = c.copied.head
  data_eq : ∀ k : Nat, (k : Int) < c.copied.size →
    c.copied.data k = c.page.ring ((c.prevHead + k) % area.bytesize)

structure Inv (area : Area) (s : Mapped) : Prop where
  head_le : s.page.dataHead ≤ s.written.length
  tail_le : s.page.dataTail ≤ s.page.dataHead
  room : s.written.length ≤ s.page.dataTail + area.bytesize
  length_lt : s.written.length < 2 ^ 63
  empty : area.mmapSize = 0 → s.written = []
  prevHead_eq : s.prevHead = s.page.dataTail
  lastHead_eq : s.lastHead = s.page.dataTail
  shows : Shows area.bytesize s.page.ring s.written s.page.dataTail
  bytes_eq : (s.calls.map Call.bytes).flatten = s.written.take s.page.dataTail
  calls : ∀ c ∈ s.calls, c.Exact area
  copying : ∀ c todo, s.reader = .copying c todo → area.mmapSize ≠ 0 ∧ Copying area s c todo

variable {area : Area} {s s' : Mapped}

theorem inv_mapped (ring : Mem) : Inv area (mapped ring) where
  head_le := Nat.le_refl 0
  tail_le := Nat.le_refl 0
  room := Nat.zero_le _
  length_lt := Nat.two_pow_pos 63
  empty := fun _ => rfl
  prevHead_eq := rfl
  lastHead_eq := rfl
  shows := shows_nil
  bytes_eq := rfl
  calls := by simp [mapped]
  copying := by simp [mapped]

/-- The copy sees what the kernel has published, whatever the kernel does meanwhile. -/
theorem Copying.of_eq {c : Copied} {todo : List (Int × Int)} (h : Copying area s c todo)
    (hprev : s'.prevHead = s.prevHead) (htail : s'.page.dataTail = s.page.dataTail)
    (hhead : s.page.dataHead ≤ s'.page.dataHead)
    (hwritten : ∀ (p : Nat) (b : UInt8), s.written[p]? = some b → s'.written[p]? = some b) :
    Copying area s' c todo where
  head_nonneg := h.head_nonneg
  head_le := by have := h.head_le; omega
  tail_le := by have := h.tail_le; omega
  size_eq := by rw [hprev, h.size_eq]
  todo_slot := by
    intro m hm
    rw [htail]
    exact h.todo_slot m hm
  done := by
    intro k hk
    rw [htail]
    exact (h.done k hk).imp id (hwritten _ _)

theorem step_append {b : UInt8} (hi : Inv area s) (h : step area s (.append b) = some s') :
    Inv area s' := by
  simp only [step] at h
  split at h
  · rename_i hroom
    obtain ⟨hroom, hlt⟩ := hroom
    cases h
    refine { hi with
      head_le := ?_, room := ?_, length_lt := ?_, empty := ?_, shows := hi.shows.push hroom
      bytes_eq := ?_, copying := ?_ }
    · have := hi.head_le
      simp only [List.length_append, List.length_singleton]
      omega
    · simp only [List.length_append, List.length_singleton]
      omega
    · simpa using hlt
    · intro hsize
      have hzero : area.bytesize = 0 := by simp [Area.bytesize, hsize]
      simp [hi.empty hsize, hzero] at hroom
      have := hi.tail_le
      have := hi.head_le
      simp [hi.empty hsize] at this
      omega
    · have hle : s.page.dataTail ≤ s.written.length := hi.tail_le.trans hi.head_le
      simp only [List.take_append_of_le_length hle]
      exact hi.bytes_eq
    · intro c todo hc
      obtain ⟨hsize, hcopy⟩ := hi.copying c todo hc
      refine ⟨hsize, hcopy.of_eq rfl rfl le_rfl ?_⟩
      intro p b' hp
      have hp' : p < s.written.length := (List.getElem?_eq_some_iff.1 hp).1
      rw [List.getElem?_append_left hp', hp]
  · cases h

theorem step_publish (hi : Inv area s) (h : step area s .publish = some s') : Inv area s' := by
  cases h
  refine { hi with
    head_le := le_rfl, tail_le := hi.tail_le.trans hi.head_le, copying := ?_ }
  intro c todo hc
  obtain ⟨hsize, hcopy⟩ := hi.copying c todo hc
  exact ⟨hsize, hcopy.of_eq rfl rfl hi.head_le fun _ _ hp => hp⟩

/-- No conversion of the call loses anything, and its moves go along the stream. -/
theorem begun_reader (block : Mem) (hi : Inv area s) (hsize : area.mmapSize ≠ 0) :
    (s.begun area block).reader =
      .copying ⟨s.page.dataHead, (s.page.dataHead : Int) - s.page.dataTail, block⟩
        ((List.range area.bytesize).map fun k : Nat =>
          ((k : Int), slot area.bytesize (s.page.dataTail + k))) := by
  have htail := hi.tail_le
  have hhead := hi.head_le
  have hroom := hi.room
  have hlt := hi.length_lt
  have hbytes : area.bytesize < 2 ^ 31 := area.product_lt
  have hread : toInt64 s.page.dataHead = s.page.dataHead :=
    toInt64_of_range (by omega) (by omega)
  have hnew : toInt32 ((s.page.dataHead : Int) - s.page.dataTail) =
      (s.page.dataHead : Int) - s.page.dataTail :=
    toInt32_of_range (by omega) (by omega)
  simp only [Mapped.begun, hread, hi.prevHead_eq, hnew, copyMoves_eq _ (area.bytesize_pos hsize)
    area.product_lt]

theorem step_begin {block : Mem} (hi : Inv area s) (h : step area s (.begin block) = some s') :
    Inv area s' := by
  simp only [step] at h
  split at h
  · cases h
  rename_i hidle
  have htail := hi.tail_le
  have hhead := hi.head_le
  split at h
  · -- an empty area, to which nothing was ever written
    rename_i hsize
    obtain rfl := Option.some.inj h
    have hzero : s.page.dataTail = 0 := by
      rw [hi.empty hsize] at hhead
      simp at hhead
      omega
    refine { hi with
      prevHead_eq := by simp [hzero], lastHead_eq := by simp [Mapped.lastHead, hzero]
      bytes_eq := ?_, calls := ?_, copying := by simp [hidle] }
    · simp [hi.bytes_eq, Call.bytes, Mem.load]
    · intro c hc
      rcases List.mem_append.1 hc with hc | hc
      · exact hi.calls c hc
      · rw [List.mem_singleton.1 hc]
        exact ⟨by simp [hzero], fun k hk => by simp at hk; omega⟩
  · rename_i hsize
    obtain rfl := Option.some.inj h
    have hreader := begun_reader block hi hsize
    refine { hi with copying := ?_ }
    intro c todo hc
    rw [hreader] at hc
    obtain ⟨rfl, rfl⟩ := ReaderState.copying.inj hc
    refine ⟨hsize, ⟨Int.natCast_nonneg _, le_rfl, Int.ofNat_le.2 htail, ?_, ?_, ?_⟩⟩
    · exact congrArg (fun p : Int => (s.page.dataHead : Int) - p) hi.prevHead_eq.symm
    · intro m hm
      obtain ⟨k, -, rfl⟩ := List.mem_map.1 hm
      exact ⟨k, rfl⟩
    · intro k hk
      have hk' : (k : Int) < (s.page.dataHead : Int) - s.page.dataTail := hk
      have hroom := hi.room
      exact .inl (List.mem_map.2 ⟨k, List.mem_range.2 (by omega), rfl⟩)

theorem step_copy (hi : Inv area s) (h : step area s .copy = some s') : Inv area s' := by
  simp only [step] at h
  split at h
  · rename_i c m todo hreader
    obtain rfl := Option.some.inj h
    obtain ⟨hsize, hc⟩ := hi.copying c (m :: todo) hreader
    refine { hi with copying := ?_ }
    rintro c' todo' ⟨⟩
    refine ⟨hsize, { hc with todo_slot := ?_, done := ?_ }⟩
    · exact fun m' hm' => hc.todo_slot m' (List.mem_cons_of_mem _ hm')
    · intro k hk
      change (k : Int) < c.size at hk
      obtain ⟨j, rfl⟩ := hc.todo_slot m List.mem_cons_self
      have hpos := area.bytesize_pos hsize
      by_cases hjk : k = j
      · -- the byte that is copied now stands in the ring
        subst hjk
        right
        have hlt : s.page.dataTail + k < s.written.length := by
          have := hc.head_le
          have := hc.size_eq
          have := hi.prevHead_eq
          have := hi.head_le
          omega
        have hring := hi.shows (s.page.dataTail + k) hlt (by omega)
        simp [move, hring, hlt]
      · have hne : (k : Int) ≠ j := by exact_mod_cast hjk
        rcases hc.done k hk with hmem | hdone
        · left
          rcases List.mem_cons.1 hmem with heq | hmem
          · exact absurd (congrArg Prod.fst heq) hne
          · exact hmem
        · right
          simpa [move, Function.update_of_ne hne] using hdone
  · cases h

/-- At the end of a call its copy is the stretch of the stream from the tail to the head. -/
theorem Copying.written_eq {c : Copied} (hc : Copying area s c []) {k : Nat}
    (hk : (k : Int) < c.size) : s.written[s.page.dataTail + k]? = some (c.data k) :=
  (hc.done k hk).resolve_left (by simp)

theorem Copying.load_eq {c : Copied} (hc : Copying area s c []) (hi : Inv area s) {n : Nat}
    (hn : c.head = n) :
    c.data.load 0 c.size.toNat = (s.written.drop s.page.dataTail).take (n - s.page.dataTail) := by
  have hprev := hi.prevHead_eq
  have hsize := hc.size_eq
  apply List.ext_getElem?
  intro k
  rw [List.getElem?_take, List.getElem?_drop]
  split
  · rename_i hk
    rw [hc.written_eq (by omega), Mem.load, List.getElem?_map, List.getElem?_range (by omega)]
    simp
  · rename_i hk
    simp [Mem.load]
    omega

theorem step_finish (hi : Inv area s) (h : step area s .finish = some s') : Inv area s' := by
  simp only [step] at h
  split at h
  · rename_i c hreader
    obtain rfl := Option.some.inj h
    obtain ⟨hsize, hc⟩ := hi.copying c [] hreader
    have hhead := hi.head_le
    have hlt := hi.length_lt
    obtain ⟨n, hn⟩ := Int.eq_ofNat_of_zero_le hc.head_nonneg
    have hle := hc.head_le
    have htail := hc.tail_le
    have hroom := hi.room
    have hstored : (s.finished c).page.dataTail = n := by
      simp only [Mapped.finished, MmapPage.consume, toUnsigned, hn]
      omega
    refine { hi with
      tail_le := by rw [hstored]; change n ≤ s.page.dataHead; omega
      room := by rw [hstored]; change s.written.length ≤ n + area.bytesize; omega
      prevHead_eq := by rw [hstored]; exact hn
      lastHead_eq := ?_
      shows := by rw [hstored]; exact hi.shows.mono (by omega)
      bytes_eq := ?_, calls := ?_, copying := by simp [Mapped.finished] }
    · rw [hstored, ← hn]
      simp [Mapped.lastHead, Mapped.finished]
    · rw [hstored]
      change ((s.calls ++ [_]).map Call.bytes).flatten = s.written.take n
      rw [List.map_append, List.flatten_append, hi.bytes_eq]
      simp only [List.map_cons, List.map_nil, List.flatten_cons, List.flatten_nil, List.append_nil,
        Call.bytes, hc.load_eq hi hn]
      rw [← List.take_add]
      congr 1
      omega
    · intro c' hc'
      rcases List.mem_append.1 hc' with hc' | hc'
      · exact hi.calls c' hc'
      · rw [List.mem_singleton.1 hc']
        refine ⟨(congrArg _ hstored).trans hn.symm, ?_⟩
        intro k hk
        obtain ⟨hlen, hget⟩ := List.getElem?_eq_some_iff.1 (hc.written_eq hk)
        have hring := hi.shows (s.page.dataTail + k) hlen (by omega)
        have hcell : (s.prevHead + k) % area.bytesize =
            slot area.bytesize (s.page.dataTail + k) := by
          rw [hi.prevHead_eq, slot]
          push_cast
          rfl
        change c.data k = s.page.ring ((s.prevHead + k) % area.bytesize)
        rw [hcell, hring, ← hget]
        rfl
  · cases h

theorem step_inv (s : Mapped) (a : Action) (s' : Mapped) (hi : Inv area s)
    (h : step area s a = some s') : Inv area s' := by
  cases a with
  | append b => exact step_append hi h
  | publish => exact step_publish hi h
  | begin block => exact step_begin hi h
  | copy => exact step_copy hi h
  | finish => exact step_finish hi h

/-! ## The heads that the calls find -/

/-- A call finds `data_head` as it is when it begins. -/
def Action.found (s : Mapped) : Action → List Int
  | .begin _ => [(s.page.dataHead : Int)]
  | _ => []

/-- What the calls of a run find, in order. -/
def foundHeads (area : Area) : Mapped → List Action → List Int
  | _, [] => []
  | s, a :: as => a.found s ++
    match step area s a with
    | some s' => foundHeads area s' as
    | none => []

/-- The heads of the calls that have returned, and of the one that is going on. -/
def Mapped.heads (s : Mapped) : List Int :=
  s.calls.map (·.copied.head) ++
    match s.reader with
    | .idle => []
    | .copying c _ => [c.head]

theorem step_heads {a : Action} (hi : Inv area s) (h : step area s a = some s') :
    s'.heads = s.heads ++ a.found s := by
  cases a with
  | append b =>
    simp only [step] at h
    split at h
    · cases h
      exact (List.append_nil _).symm
    · cases h
  | publish =>
    cases h
    exact (List.append_nil _).symm
  | begin block =>
    simp only [step] at h
    split at h
    · cases h
    · rename_i hidle
      unfold Mapped.heads Action.found
      split at h
      · -- nothing was ever written to an area without pages
        rename_i hsize
        obtain rfl := Option.some.inj h
        have hzero : s.page.dataHead = 0 := by
          have hhead := hi.head_le
          rw [hi.empty hsize] at hhead
          exact Nat.eq_zero_of_le_zero hhead
        simp [hidle, hzero]
      · rename_i hsize
        obtain rfl := Option.some.inj h
        have hcalls : (s.begun area block).calls = s.calls := rfl
        rw [begun_reader block hi hsize, hcalls, hidle]
        simp
  | copy =>
    simp only [step] at h
    split at h
    · rename_i hreader
      obtain rfl := Option.some.inj h
      unfold Mapped.heads Action.found
      simp [hreader]
    · cases h
  | finish =>
    simp only [step] at h
    split at h
    · rename_i hreader
      obtain rfl := Option.some.inj h
      unfold Mapped.heads Action.found Mapped.finished
      simp [hreader]
    · cases h

theorem run_heads {actions : List Action} (hi : Inv area s)
    (h : run (step area) s actions = some s') : s'.heads = s.heads ++ foundHeads area s actions := by
  induction actions generalizing s with
  | nil =>
    cases h
    exact (List.append_nil _).symm
  | cons a as ih =>
    obtain ⟨t, hstep, hrest⟩ := run_cons.1 h
    have hfound : foundHeads area s (a :: as) = a.found s ++ foundHeads area t as := by
      rw [foundHeads, hstep]
    rw [hfound, ih (step_inv s a t hi hstep) hrest, step_heads hi hstep, List.append_assoc]

/-! ## All calls -/

/-- In every interleaving of the kernel with the calls, the bytes that the calls copied out are
what the kernel had appended up to the last head read, `data_tail` is that head, the calls have read
the heads that were there when they began, and every call took its byte `k` from the cell of position
`prev_head + k`. -/
theorem calls_copy_stream (area : Area) (ring : Mem) (actions : List Action) (s : Mapped)
    (h : run (step area) (mapped ring) actions = some s) :
    (s.calls.map Call.bytes).flatten = s.written.take s.lastHead.toNat ∧
      s.lastHead ≤ s.page.dataHead ∧ s.page.dataTail = s.lastHead ∧
      s.calls.map (·.copied.head) <+: foundHeads area (mapped ring) actions ∧
      ∀ c ∈ s.calls, c.page.dataTail = c.copied.head ∧
        ∀ k : Nat, (k : Int) < c.copied.size →
          c.copied.data k = c.page.ring ((c.prevHead + k) % area.bytesize) := by
  have hi : Inv area s := run_invariant step_inv (inv_mapped ring) h
  have hheads : s.heads = foundHeads area (mapped ring) actions := run_heads (inv_mapped ring) h
  refine ⟨?_, ?_, hi.lastHead_eq.symm, ⟨_, hheads⟩, fun c hc => ?_⟩
  · rw [hi.lastHead_eq, Int.toNat_natCast]
    exact hi.bytes_eq
  · rw [hi.lastHead_eq]
    exact Int.ofNat_le.2 hi.tail_le
  · exact ⟨(hi.calls c hc).tail_eq, (hi.calls c hc).data_eq⟩

/-- Two pages of two bytes. -/
def smallArea : Area := ⟨2, 2, by decide, by decide⟩

/-- Three bytes and a call, then two bytes over the end of the ring, one of them while the second
call copies. -/
def wrapping : List Action :=
  [.append 1, .append 2, .append 3, .publish] ++ callActions smallArea (fun _ => 0) ++
    [.append 4, .append 5, .publish, .begin (fun _ => 0), .copy, .append 6, .copy, .copy, .copy,
      .finish]

theorem calls_copy_stream_wrapping :
    let s := (run (step smallArea) (mapped fun _ => 0) wrapping).get (by decide)
    (s.calls.map Call.bytes).flatten = [1, 2, 3, 4, 5, 6].take s.lastHead.toNat ∧
      s.lastHead = 5 ∧ s.page.dataTail = s.lastHead := by
  intro s
  obtain ⟨hbytes, -, htail, -⟩ :=
    calls_copy_stream smallArea (fun _ => 0) wrapping s (Option.some_get _).symm
  exact ⟨hbytes, by decide, htail⟩

end PerfEvent.ParseRecord
