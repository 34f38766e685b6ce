import PerfEventTests.ParseRecord.Parts

/-!
# The raw dumps of both readers

The two IBS decoders stand in `lib/parse_record.c` and, with the same text, in
`perf_data_fuzzer/parse_record.c`. They get the raw bytes and their number, and they have to tell
from the number which of the registers have been captured.
-/

namespace PerfEvent.PerfData

open ByteMemory ParseRecord

/-- `dump_raw_ibs_fetch` of `perf_data_fuzzer/parse_record.c`. -/
def dumpRawIbsFetch (env : Env) (size : Int) (d : Decoder) : Decoder :=
  ParseRecord.dumpRawIbsFetch env size d

/-- `dump_raw_ibs_op` of `perf_data_fuzzer/parse_record.c`. -/
def dumpRawIbsOp (env : Env) (size : Int) (d : Decoder) : Decoder :=
  ParseRecord.dumpRawIbsOp env size d

/-! ## Captured registers -/

/-- The two files that have the decoders. -/
inductive ReaderFile where
  | library
  | perfData

inductive IbsKind where
  | fetch
  | op
  deriving DecidableEq

namespace IbsKind

/-- The registers that are always captured. -/
def least : IbsKind → Nat
  | fetch => 3
  | op => 7

/-- The label of the one that comes behind them. -/
def lastLabel : IbsKind → String
  | fetch => "MSR IBS_BRTARGET"
  | op => "MSR IBS_OP_DATA4"

def dump : ReaderFile → IbsKind → Env → Int → Decoder → Decoder
  | .library, fetch => ParseRecord.dumpRawIbsFetch
  | .library, op => ParseRecord.dumpRawIbsOp
  | .perfData, fetch => dumpRawIbsFetch
  | .perfData, op => dumpRawIbsOp

end IbsKind

/-- A raw sample in memory, the header and the captured registers, and the call that dumps it.
Behind the registers there may be padding to a multiple of eight bytes, and anything behind that. -/
structure RawCall where
  file : ReaderFile
  kind : IbsKind
  header : UInt32
  msrs : List UInt64
  captured : kind.least ≤ msrs.length
  padding : Bytes
  padding_length : padding.length = 0 ∨ padding.length = 4
  env : Env
  position : Int
  holds : env.data.Holds position (u32 header ++ u64s msrs ++ padding)
  printing : env.quiet = false

namespace RawCall

variable (c : RawCall)

def size : Int := (4 + 8 * c.msrs.length + c.padding.length : Nat)

/-- What the call does, from a decoder that has done nothing yet. -/
def run : Decoder := c.kind.dump c.file c.env c.size { offset := c.position }

/-- The place of a register. -/
def register (j : Nat) : Access := .data (c.position + 4 + 8 * j) 8

/-- The header and captured registers are read and nothing else, and the optional register is
reported, with its value, exactly when it has been captured. -/
structure Decodes : Prop where
  reads : ∀ x ∈ c.run.accesses,
    x = .data c.position 4 ∨ ∃ j, j < c.msrs.length ∧ x = c.register j
  reports : ∀ v, .value c.kind.lastLabel v ∈ c.run.printed ↔
    ∃ r, c.msrs[c.kind.least]? = some r ∧ v = toSigned 64 r.toNat

end RawCall

/-! ## What a dump looks at -/

namespace IbsKind

/-- The labels of the registers, in order. -/
def labels : IbsKind → List String
  | fetch => ["MSR IBS_FETCH_CONTROL", "MSR IBS_FETCH_LINEAR_ADDRESS",
      "MSR IBS_FETCH_PHYSICAL_ADDRESS", "MSR IBS_BRTARGET"]
  | op => ["MSR IBS_EXECUTION_CONTROL", "MSR IBS_OP_LOGICAL_ADDRESS", "MSR IBS_OP_DATA",
      "MSR IBS_OP_DATA2", "MSR IBS_OP_DATA3", "MSR IBS_DC_LINEAR_ADDRESS",
      "MSR IBS_DC_PHYSICAL_ADDRESS", "MSR IBS_OP_DATA4"]

/-- What the size is compared with before the last register is read. -/
def limit : IbsKind → Int
  | fetch => 24
  | op => 64

/-- The registers that are asked for whatever the size is, when the fifth is `data3`. -/
def wanted (data3 : Nat) : IbsKind → List Nat
  | fetch => [0, 1, 2]
  | op => [0, 1, 2, 3, 4] ++ (if bitAnd data3 (1 <<< 17) then [5] else []) ++
      if bitAnd data3 (1 <<< 18) then [6] else []

/-- All that are asked for. -/
def looks (kind : IbsKind) (data3 : Nat) (size : Int) : List Nat :=
  kind.wanted data3 ++ if size > kind.limit then [kind.least] else []

theorem wanted_lt {kind : IbsKind} {data3 j : Nat} (h : j ∈ kind.wanted data3) : j < kind.least := by
  cases kind with
  | fetch =>
    simp only [wanted, List.mem_cons, List.not_mem_nil, or_false] at h
    simp only [least]
    omega
  | op =>
    simp only [wanted, List.mem_append, List.mem_cons, List.not_mem_nil, or_false] at h
    simp only [least]
    obtain (h | h) | h := h
    · omega
    · have h5 : j = 5 := by split at h <;> simp_all
      omega
    · have h6 : j = 6 := by split at h <;> simp_all
      omega

/-- No other register has the label of the last one. -/
theorem label_ne_last (kind : IbsKind) : ∀ j < kind.least, kind.labels.getD j "" ≠ kind.lastLabel := by
  cases kind <;> decide

theorem mem_looks {kind : IbsKind} {data3 j : Nat} {size : Int} : j ∈ kind.looks data3 size ↔
    j ∈ kind.wanted data3 ∨ size > kind.limit ∧ j = kind.least := by
  unfold looks
  rw [List.mem_append]
  split <;> simp_all

end IbsKind

variable {env : Env}

/-- The decoders of both files look at the header and at what they want, one after the other. -/
theorem dump_eq (file : ReaderFile) (kind : IbsKind) (size : Int) (d : Decoder) :
    kind.dump file env size d = (kind.looks (env.data.word 8 (d.offset + 36)) size).foldl
      (fun d j => d.look env 8 (4 + 8 * j) (kind.labels.getD j "")) (d.look env 4 0 "Header") := by
  have hlibrary : kind.dump file env size d = kind.dump .library env size d := by
    cases file <;> cases kind <;> rfl
  have hite : ∀ (c : Prop) [Decidable c] (f : Decoder → Nat → Decoder) (d : Decoder) (j : Nat),
      (if c then [j] else []).foldl f d = if c then f d j else d := by
    intro c _ f d j
    split <;> rfl
  rw [hlibrary]
  cases kind <;>
    simp only [IbsKind.looks, IbsKind.wanted, List.foldl_append, hite] <;> rfl

theorem look_eq (n : Nat) (rel : Int) (label : String) (d : Decoder) : d.look env n rel label =
    { d with
      printed := d.printed ++ env.shown
        (.value label (toSigned (8 * n) (env.data.word n (d.offset + rel))))
      accesses := d.accesses ++ [.data (d.offset + rel) n] } :=
  Decoder.print_eq _ _

theorem foldl_look_accesses (label : Nat → String) (js : List Nat) (d : Decoder) :
    (js.foldl (fun d j => d.look env 8 (4 + 8 * j) (label j)) d).accesses =
      d.accesses ++ js.map fun j => .data (d.offset + (4 + 8 * j)) 8 := by
  induction js generalizing d with
  | nil => simp
  | cons j js ih =>
    rw [List.foldl_cons, ih, look_eq]
    simp

theorem shown_loud (hprint : env.quiet = false) (p : Printed) : env.shown p = [p] := by
  rw [Env.shown, hprint]
  rfl

theorem foldl_look_printed (hprint : env.quiet = false) (label : Nat → String) (js : List Nat)
    (d : Decoder) : (js.foldl (fun d j => d.look env 8 (4 + 8 * j) (label j)) d).printed =
      d.printed ++ js.map fun j =>
        .value (label j) (toSigned 64 (env.data.word 8 (d.offset + (4 + 8 * j)))) := by
  induction js generalizing d with
  | nil => simp
  | cons j js ih =>
    rw [List.foldl_cons, ih, look_eq, shown_loud hprint, List.map_cons, List.append_assoc]
    rfl

theorem word_of_u64s {m : Mem} {vs : List UInt64} {a : Int} (h : m.Holds a (u64s vs)) {j : Nat}
    {v : UInt64} (hv : vs[j]? = some v) : m.word 8 (a + 8 * j) = v.toNat := by
  induction vs generalizing a j with
  | nil => simp at hv
  | cons w vs ih =>
    have hcons : m.Holds a (u64 w ++ u64s vs) := h
    cases j with
    | zero =>
      rw [List.getElem?_cons_zero, Option.some.injEq] at hv
      subst hv
      simpa using hcons.word_eq w.toNat_lt
    | succ j =>
      have hrest := (Mem.holds_append.1 hcons).2
      rw [length_u64] at hrest
      rw [List.getElem?_cons_succ] at hv
      rw [← ih hrest hv]
      congr 1
      push_cast
      ring

/-! ## The calls -/

namespace RawCall

variable (c : RawCall)

/-- The registers that the call asks for. -/
def looks : List Nat := c.kind.looks (c.env.data.word 8 (c.position + 36)) c.size

theorem run_eq : c.run = c.looks.foldl (fun d j => d.look c.env 8 (4 + 8 * j)
    (c.kind.labels.getD j "")) (Decoder.look c.env 4 0 "Header" { offset := c.position }) :=
  dump_eq c.file c.kind c.size _

theorem run_accesses : c.run.accesses = .data c.position 4 :: c.looks.map c.register := by
  rw [run_eq, foldl_look_accesses]
  simp [look_eq, register, add_assoc]

theorem run_printed : ∃ v, c.run.printed = .value "Header" v :: c.looks.map fun j =>
    .value (c.kind.labels.getD j "")
      (toSigned 64 (c.env.data.word 8 (c.position + (4 + 8 * j)))) := by
  rw [run_eq, foldl_look_printed c.printing, look_eq, shown_loud c.printing]
  exact ⟨_, rfl⟩

theorem word_register {j : Nat} {r : UInt64} (hr : c.msrs[j]? = some r) :
    c.env.data.word 8 (c.position + (4 + 8 * j)) = r.toNat := by
  have hregisters := (Mem.holds_append.1 (Mem.holds_append.1 c.holds).1).2
  rw [length_u32] at hregisters
  rw [← word_of_u64s hregisters hr, add_assoc]
  rfl

/-- The size is above the limit of the decoder. -/
def TakesLast : Prop := c.size > c.kind.limit

theorem mem_accesses {x : Access} : x ∈ c.run.accesses ↔ x = .data c.position 4 ∨
    (∃ j ∈ c.kind.wanted (c.env.data.word 8 (c.position + 36)), x = c.register j) ∨
    c.TakesLast ∧ x = c.register c.kind.least := by
  rw [run_accesses, List.mem_cons, List.mem_map]
  apply or_congr_right
  constructor
  · rintro ⟨j, hj, rfl⟩
    obtain hwanted | ⟨hsize, rfl⟩ := IbsKind.mem_looks.1 hj
    · exact .inl ⟨j, hwanted, rfl⟩
    · exact .inr ⟨hsize, rfl⟩
  · rintro (⟨j, hwanted, rfl⟩ | ⟨hsize, rfl⟩)
    · exact ⟨j, IbsKind.mem_looks.2 (.inl hwanted), rfl⟩
    · exact ⟨_, IbsKind.mem_looks.2 (.inr ⟨hsize, rfl⟩), rfl⟩

theorem reports_last {v : Int} : .value c.kind.lastLabel v ∈ c.run.printed ↔
    c.TakesLast ∧ v = toSigned 64 (c.env.data.word 8 (c.position + (4 + 8 * c.kind.least))) := by
  obtain ⟨header, hprinted⟩ := c.run_printed
  have hlabel : c.kind.labels.getD c.kind.least "" = c.kind.lastLabel := by
    cases c.kind <;> rfl
  have hheader : c.kind.lastLabel ≠ "Header" := by
    cases c.kind <;> decide
  rw [hprinted, List.mem_cons, List.mem_map]
  constructor
  · rintro (heq | ⟨j, hj, heq⟩)
    · injection heq with hfirst
      exact absurd hfirst hheader
    · injection heq with hname hvalue
      obtain hwanted | ⟨hsize, rfl⟩ := IbsKind.mem_looks.1 hj
      · exact absurd hname (c.kind.label_ne_last j (IbsKind.wanted_lt hwanted))
      · exact ⟨hsize, hvalue.symm⟩
  · rintro ⟨hsize, hvalue⟩
    have hmem : c.kind.least ∈ c.looks := IbsKind.mem_looks.2 (.inr ⟨hsize, rfl⟩)
    refine .inr ⟨c.kind.least, hmem, ?_⟩
    rw [hlabel, hvalue]

/-- The limit of the one decoder lies between the sizes that it has to tell apart; the limit of the
other is below both of them. -/
theorem takesLast_iff : c.TakesLast ↔
    c.kind.least < c.msrs.length ∨ c.kind = .fetch ∧ c.msrs.length = 3 := by
  have hcaptured := c.captured
  have hpadding := c.padding_length
  unfold TakesLast size
  push_cast
  cases hkind : c.kind with
  | fetch =>
    simp only [hkind, IbsKind.least, IbsKind.limit, true_and] at hcaptured ⊢
    omega
  | op =>
    simp only [hkind, IbsKind.least, IbsKind.limit, reduceCtorEq, false_and, or_false]
      at hcaptured ⊢
    omega

/-- The dumps read and report what has been captured exactly when it is not a fetch sample with the
three registers that are always there. -/
theorem dumpRawIbs_decodes_iff : c.Decodes ↔ ¬(c.kind = .fetch ∧ c.msrs.length = 3) := by
  have hcaptured := c.captured
  constructor
  · rintro ⟨hreads, -⟩ hshort
    have hlast := hreads _ (c.mem_accesses.2 (.inr (.inr ⟨c.takesLast_iff.2 (.inr hshort), rfl⟩)))
    obtain hheader | ⟨j, hj, heq⟩ := hlast
    · injection hheader with _ hlength
      exact absurd hlength (by decide)
    · have hleast : c.kind.least = 3 := by
        rw [hshort.1]
        rfl
      injection heq with hplace
      rw [hleast] at hplace
      omega
  · intro hlong
    have htakes : c.TakesLast ↔ c.kind.least < c.msrs.length := by
      rw [takesLast_iff, or_iff_left hlong]
    constructor
    · intro x hx
      obtain hheader | ⟨j, hj, hplace⟩ | ⟨hsize, hplace⟩ := c.mem_accesses.1 hx
      · exact .inl hheader
      · have hwanted := IbsKind.wanted_lt hj
        exact .inr ⟨j, by omega, hplace⟩
      · exact .inr ⟨_, htakes.1 hsize, hplace⟩
    · intro v
      rw [reports_last, htakes]
      constructor
      · rintro ⟨hlt, hvalue⟩
        obtain ⟨r, hr⟩ : ∃ r, c.msrs[c.kind.least]? = some r := ⟨_, List.getElem?_eq_getElem hlt⟩
        rw [c.word_register hr] at hvalue
        exact ⟨r, hr, hvalue⟩
      · rintro ⟨r, hr, hvalue⟩
        rw [c.word_register hr]
        exact ⟨(List.getElem?_eq_some_iff.1 hr).1, hvalue⟩

/-- Memory that holds a fetch sample without a branch target. -/
def shortFetchData : Mem := Mem.ofList (u32 0 ++ u64s [0, 0, 0] ++ [])

def shortFetch : RawCall where
  file := .library
  kind := .fetch
  header := 0
  msrs := [0, 0, 0]
  captured := by decide
  padding := []
  padding_length := by decide
  env :=
    { data := shortFetchData
      sampleType := 0
      readFormat := 0
      regMask := 0
      quiet := false }
  position := 0
  holds := Mem.ofList_holds _
  printing := rfl

theorem shortFetch_not_decodes : ¬shortFetch.Decodes := by
  intro h
  have hlast : shortFetch.TakesLast := shortFetch.takesLast_iff.2 (.inr ⟨rfl, rfl⟩)
  obtain hheader | ⟨j, hj, heq⟩ :=
    h.reads _ (shortFetch.mem_accesses.2 (.inr (.inr ⟨hlast, rfl⟩)))
  · injection hheader with hplace
    exact absurd hplace (by decide)
  · injection heq with hplace
    have hcount : shortFetch.msrs.length = 3 := rfl
    have hleast : shortFetch.kind.least = 3 := rfl
    omega

end RawCall

end PerfEvent.PerfData
