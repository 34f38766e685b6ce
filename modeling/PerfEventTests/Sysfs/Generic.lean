import Mathlib.Data.Nat.Count
import PerfEventTests.Lib.Masks
import PerfEventTests.Sysfs.Format

/-!
# Generic events

`tools/event_parser.c`: `parse_generic` reads the value of an event, such as
`event=0x3c,umask=0x1,inv`, and puts the value of each term into the bits of its field. The bits of
the three words are those of the terms together, so that the order of the terms does not matter.
-/

namespace PerfEvent.Sysfs

open Scanning ByteMemory
open Text (Str bufsiz digitVal?)

/-! ## Fields -/

structure FormatType where
  name : Str
  field : Nat
  mask : BitVec 64

/-- The fields of a PMU. -/
structure FormatTable where
  formats : List FormatType
  distinct : (formats.map FormatType.name).Nodup

@[ext]
structure Configs where
  config : BitVec 64 := 0
  config1 : BitVec 64 := 0
  config2 : BitVec 64 := 0

/-- The loop over the bits of the mask, with `result` and `value_bit`. -/
def separateLoop (value mask : BitVec 64) (i : Nat) (r : BitVec 64 × Nat) : BitVec 64 × Nat :=
  if ((1 : BitVec 64) <<< i) &&& mask ≠ 0 then
    (r.1 ||| (((value >>> r.2) &&& (1 : BitVec 64)) <<< i), r.2 + 1)
  else r

def separateBits (value mask : BitVec 64) : BitVec 64 :=
  (Nat.fold 64 (fun i _ r => separateLoop value mask i r) (0, 0)).1

/-- A name whose field is unknown is passed over. -/
def updateConfigs : List FormatType → Str → BitVec 64 → Configs → Configs
  | [], _, _, c => c
  | f :: formats, field, value, c =>
    if field = f.name then
      if f.field = fieldConfig then { c with config := c.config ||| separateBits value f.mask }
      else if f.field = fieldConfig1 then
        { c with config1 := c.config1 ||| separateBits value f.mask }
      else if f.field = fieldConfig2 then
        { c with config2 := c.config2 ||| separateBits value f.mask }
      else updateConfigs formats field value c
    else updateConfigs formats field value c

/-! ## The scanner -/

def fieldKind (c : Char) : Kind := if c = '=' ∨ c = ',' then .stop else .go

def valueKind (c : Char) : Kind := if c = ',' then .stop else .go

/-- What a character adds to `temp`; one that is unexpected is reported, and taken like a capital
letter. -/
def charValue (c : Char) : Int :=
  if '0' ≤ c ∧ c ≤ '9' then (c.toNat : Int) - '0'.toNat
  else if 'a' ≤ c ∧ c ≤ 'f' then (c.toNat : Int) - 'a'.toNat + 10
  else toSigned 8 c.toNat - 'A'.toNat + 10

/-- `temp*=base; temp+=...` -/
def addChar (base : BitVec 64) (temp : BitVec 64) (c : Char) : BitVec 64 :=
  temp * base + BitVec.ofInt 64 (charValue c)

/-- The base of a number, and where its digits begin. -/
def readBase (rest : Str) (ptr : Nat) : Except Fault (BitVec 64 × Str × Nat) := do
  match rest with
  | '0' :: rest' =>
    let ptr' ← next ptr
    match rest' with
    | 'x' :: rest'' =>
      let ptr'' ← next ptr'
      return (16, rest'', ptr'')
    | _ => return (10, rest, ptr)
  | _ => return (10, rest, ptr)

/-- The number behind `=`. -/
def readValue (rest : Str) (ptr : Nat) : Except Fault (BitVec 64 × Str × Nat) := do
  let ptr ← next ptr
  let (base, rest, ptr) ← readBase rest ptr
  match ← scan valueKind (addChar base) rest ptr 0 with
  | none => throw .outside
  | some r => return r

/-- One term: its field and its value, what is left, and `ptr`. Neither loop fails at a character. -/
def readTerm (rest : Str) (ptr : Nat) : Except Fault (Str × BitVec 64 × Str × Nat) := do
  match ← scan fieldKind (fun field c => field ++ [c]) rest ptr [] with
  | none => throw .outside
  | some (field, rest, ptr) =>
    if bufsiz ≤ field.length then throw .overflow
    else match rest with
      | '=' :: rest => do
        let r ← readValue rest ptr
        return (field, r)
      | _ => return (field, 1, rest, ptr)

theorem readBase_length {rest rest' : Str} {ptr ptr' : Nat} {base : BitVec 64}
    (h : readBase rest ptr = .ok (base, rest', ptr')) : rest'.length ≤ rest.length := by
  unfold readBase at h
  split at h
  case h_1 =>
    obtain ⟨k, -, h⟩ := bind_eq_ok h
    split at h
    · obtain ⟨k', -, h⟩ := bind_eq_ok h
      cases h
      simp only [List.length_cons]
      omega
    · cases h
      exact Nat.le_refl _
  case h_2 =>
    cases h
    exact Nat.le_refl _

theorem readValue_length {rest rest' : Str} {ptr ptr' : Nat} {temp : BitVec 64}
    (h : readValue rest ptr = .ok (temp, rest', ptr')) : rest'.length ≤ rest.length := by
  obtain ⟨k, -, h⟩ := bind_eq_ok h
  obtain ⟨⟨base, digits, k'⟩, hbase, h⟩ := bind_eq_ok h
  obtain ⟨r, hvalue, h⟩ := bind_eq_ok h
  split at h
  · cases h
  · cases h
    exact Nat.le_trans (scan_length hvalue) (readBase_length hbase)

theorem readTerm_length {rest rest' field : Str} {ptr ptr' : Nat} {temp : BitVec 64}
    (h : readTerm rest ptr = .ok (field, temp, rest', ptr')) : rest'.length ≤ rest.length := by
  obtain ⟨r, hname, h⟩ := bind_eq_ok h
  split at h
  case h_1 => cases h
  case h_2 field behind k =>
    have hlength := scan_length hname
    split at h
    · cases h
    split at h
    case h_1 =>
      obtain ⟨⟨temp', rest'', k'⟩, hvalue, h⟩ := bind_eq_ok h
      cases h
      exact Nat.le_trans (readValue_length hvalue) (Nat.le_of_succ_le hlength)
    case h_2 =>
      cases h
      exact hlength

/-- The rounds of the loop. -/
def readTerms (formats : List FormatType) (rest : Str) (ptr : Nat) (c : Configs) :
    Except Fault Configs :=
  match _hround : readTerm rest ptr with
  | .error e => .error e
  | .ok (field, temp, [], _) => .ok (updateConfigs formats field temp c)
  | .ok (field, temp, _ :: rest', ptr) => do
    let ptr ← next ptr
    readTerms formats rest' ptr (updateConfigs formats field temp c)
termination_by rest.length
decreasing_by
  have := readTerm_length _hround
  rw [List.length_cons] at this
  omega

def parseGeneric (formats : List FormatType) (value : Str) : Except Fault Configs :=
  readTerms formats value 0 {}

/-! ## Terms -/

/-- A number in a base, with digits in either case. -/
def IsNumeral (base : Nat) (t : Str) (n : Nat) : Prop :=
  ∃ ds : List Nat, ds ≠ [] ∧ t.map (digitVal? base) = ds.map some ∧
    ds.foldl (fun n d => n * base + d) 0 = n

/-- A flag, or a number in decimal or in hexadecimal. -/
inductive TermText : Str → Str → Nat → Prop where
  | flag {name : Str} : TermText name name 1
  | decimal {name t : Str} {n : Nat} (h : IsNumeral 10 t n) : TermText (name ++ '=' :: t) name n
  | hex {name t : Str} {n : Nat} (h : IsNumeral 16 t n) :
      TermText (name ++ '=' :: '0' :: 'x' :: t) name n

structure Term where
  text : Str
  name : Str
  value : Nat
  written : TermText text name value
  plain : ∀ c ∈ name, c ≠ '=' ∧ c ≠ ','

/-- The terms with commas between them. -/
def joined : List Term → Str
  | [] => []
  | [t] => t.text
  | t :: t' :: ts => t.text ++ ',' :: joined (t' :: ts)

/-- The digits of a number are not commas, and their values are those of the code. -/
theorem charValue_digit {base d : Nat} {c : Char} (h : digitVal? base c = some d) :
    charValue c = d ∧ c ≠ ',' := by
  unfold digitVal? at h
  unfold charValue
  split at h
  case isTrue hdigit =>
    have hlow : 48 ≤ c.toNat := hdigit.1
    dsimp only at h
    split at h
    · cases h
      rw [if_pos hdigit]
      refine ⟨?_, ?_⟩
      · change (c.toNat : Int) - 48 = (c.toNat - 48 : Nat)
        omega
      · rintro rfl
        exact absurd hlow (by decide)
    · cases h
  case isFalse hdigit =>
    rw [if_neg hdigit]
    split at h
    case isTrue hlower =>
      have hlow : 97 ≤ c.toNat := hlower.1
      dsimp only at h
      split at h
      · cases h
        rw [if_pos hlower]
        refine ⟨?_, ?_⟩
        · change (c.toNat : Int) - 97 + 10 = (c.toNat - 87 : Nat)
          omega
        · rintro rfl
          exact absurd hlow (by decide)
      · cases h
    case isFalse hlower =>
      rw [if_neg hlower]
      split at h
      case isTrue hupper =>
        have hlow : 65 ≤ c.toNat := hupper.1
        have hhigh : c.toNat ≤ 70 := hupper.2
        dsimp only at h
        split at h
        · cases h
          refine ⟨?_, ?_⟩
          · rw [toSigned_of_range (by omega) (by omega)]
            change (c.toNat : Int) - 65 + 10 = (c.toNat - 55 : Nat)
            omega
          · rintro rfl
            exact absurd hlow (by decide)
        · cases h
      case isFalse => simp at h

variable {base : Nat} {t u : Str} {ds : List Nat}

theorem foldl_addChar (h : t.map (digitVal? base) = ds.map some) (m : Nat) :
    t.foldl (addChar (BitVec.ofNat 64 base)) (BitVec.ofNat 64 m) =
      BitVec.ofNat 64 (ds.foldl (fun n d => n * base + d) m) := by
  induction t generalizing ds m with
  | nil =>
    cases ds with
    | nil => rfl
    | cons d ds => cases h
  | cons c t ih =>
    cases ds with
    | nil => cases h
    | cons d ds =>
      obtain ⟨hc, ht⟩ := List.cons.inj h
      have hstep : addChar (BitVec.ofNat 64 base) (BitVec.ofNat 64 m) c =
          BitVec.ofNat 64 (m * base + d) := by
        rw [addChar, (charValue_digit hc).1, BitVec.ofInt_natCast, ← BitVec.ofNat_mul,
          ← BitVec.ofNat_add]
      rw [List.foldl_cons, hstep, List.foldl_cons, ih ht]

theorem digits_valueKind (h : t.map (digitVal? base) = ds.map some) :
    ∀ c ∈ t, valueKind c = .go := by
  intro c hc
  obtain ⟨d, -, hd⟩ := List.mem_map.1 (h ▸ List.mem_map_of_mem hc)
  simp [valueKind, (charValue_digit hd.symm).2]

/-- The end of a term: the end of the value, or a comma. -/
def Ends (u : Str) : Prop := u = [] ∨ ∃ w, u = ',' :: w

theorem Ends.stops {u : Str} (h : Ends u) {kind : Char → Kind} (hcomma : kind ',' = .stop) :
    ∀ c ∈ u.head?, kind c = .stop := by
  obtain rfl | ⟨w, rfl⟩ := h
  · simp
  · simpa using hcomma

variable {ptr : Nat}

/-- A number in decimal is not taken for one in hexadecimal. -/
theorem readBase_decimal (hne : ds ≠ []) (h : t.map (digitVal? 10) = ds.map some) (hu : Ends u) :
    Yields (readBase (t ++ u) ptr) (t.head? = some '0' → ptr + 1 < indexLimit)
      (10, t ++ u, ptr) := by
  cases ds with
  | nil => exact absurd rfl hne
  | cons d ds =>
    cases t with
    | nil => cases h
    | cons c t =>
      have ht := (List.cons.inj h).2
      by_cases hc : c = '0'
      · subst hc
        -- behind the zero there is a digit, a comma or nothing
        have hx : ∀ c' w, t ++ u = c' :: w → c' ≠ 'x' := by
          rintro c' w heq rfl
          cases t with
          | nil =>
            obtain rfl | ⟨w', rfl⟩ := hu
            · cases heq
            · exact absurd (List.cons.inj heq).1 (by decide)
          | cons c'' t =>
            obtain rfl := (List.cons.inj heq).1
            cases ds with
            | nil => cases ht
            | cons d' ds =>
              have hnone : digitVal? 10 'x' = none := by decide
              have hsome := (List.cons.inj ht).1
              rw [hnone] at hsome
              cases hsome
        have hrest : Yields
            (match t ++ u with
              | 'x' :: rest => do
                let ptr ← next (ptr + 1)
                return (16, rest, ptr)
              | _ => (.ok (10, '0' :: t ++ u, ptr) : Except Fault (BitVec 64 × Str × Nat)))
            True (10, '0' :: t ++ u, ptr) := by
          split
          case h_1 w hw => exact absurd rfl (hx 'x' w hw)
          case h_2 => exact yields_ok _
        exact ((yields_next ptr).bind fun _ => hrest).congr (by simp)
      · have hbase : readBase (c :: t ++ u) ptr = .ok (10, c :: t ++ u, ptr) := by
          unfold readBase
          split
          case h_1 heq => exact absurd (List.cons.inj heq).1 hc
          case h_2 => rfl
        rw [hbase]
        exact (yields_ok _).congr (by simp [hc])

theorem readBase_hex : Yields (readBase ('0' :: 'x' :: u) ptr)
    (ptr + 1 < indexLimit ∧ ptr + 2 < indexLimit) (16, u, ptr + 2) :=
  ((yields_next ptr).bind fun _ => (yields_next (ptr + 1)).bind fun _ =>
    yields_ok ((16 : BitVec 64), u, ptr + 2)).congr (by simp)

theorem IsNumeral.foldl {n : Nat} (h : IsNumeral base t n) :
    t.foldl (addChar (BitVec.ofNat 64 base)) 0 = BitVec.ofNat 64 n := by
  obtain ⟨ds, -, hds, hvalue⟩ := h
  have hfold := foldl_addChar hds 0
  rw [hvalue] at hfold
  exact hfold

theorem readValue_decimal {n : Nat} (h : IsNumeral 10 t n) (hu : Ends u) :
    Yields (readValue (t ++ u) ptr) (ptr + 1 + t.length < indexLimit)
      (BitVec.ofNat 64 n, u, ptr + 1 + t.length) := by
  have hfold : t.foldl (addChar 10) 0 = BitVec.ofNat 64 n := h.foldl
  obtain ⟨ds, hne, hds, -⟩ := h
  have hlength : 1 ≤ t.length := by
    have := congrArg List.length hds
    rw [List.length_map, List.length_map] at this
    have := List.length_pos_iff.2 hne
    omega
  have hvalue (hlimit : ptr + 1 < indexLimit) :
      Yields (scan valueKind (addChar 10) (t ++ u) (ptr + 1) 0)
        (ptr + 1 + t.length < indexLimit) (some (BitVec.ofNat 64 n, u, ptr + 1 + t.length)) := by
    have hscan := yields_scan (c := addChar 10) (digits_valueKind hds) (hu.stops rfl) hlimit 0
    rwa [hfold] at hscan
  exact ((yields_next ptr).bind fun hlimit => (readBase_decimal hne hds hu).bind fun _ =>
    (hvalue hlimit).bind fun _ => yields_ok (BitVec.ofNat 64 n, u, ptr + 1 + t.length)).congr
      ⟨fun h => h.2.2.1, fun h => ⟨by omega, fun _ => by omega, h, trivial⟩⟩

theorem readValue_hex {n : Nat} (h : IsNumeral 16 t n) (hu : Ends u) :
    Yields (readValue ('0' :: 'x' :: (t ++ u)) ptr) (ptr + 3 + t.length < indexLimit)
      (BitVec.ofNat 64 n, u, ptr + 3 + t.length) := by
  have hfold : t.foldl (addChar 16) 0 = BitVec.ofNat 64 n := h.foldl
  obtain ⟨ds, -, hds, -⟩ := h
  have hvalue (hlimit : ptr + 3 < indexLimit) :
      Yields (scan valueKind (addChar 16) (t ++ u) (ptr + 3) 0)
        (ptr + 3 + t.length < indexLimit) (some (BitVec.ofNat 64 n, u, ptr + 3 + t.length)) := by
    have hscan := yields_scan (c := addChar 16) (digits_valueKind hds) (hu.stops rfl) hlimit 0
    rwa [hfold] at hscan
  exact ((yields_next ptr).bind fun _ => readBase_hex.bind fun hlimit =>
    (hvalue hlimit.2).bind fun _ =>
      yields_ok (BitVec.ofNat 64 n, u, ptr + 3 + t.length)).congr
        ⟨fun h => h.2.2.1, fun h => ⟨by omega, ⟨by omega, by omega⟩, h, trivial⟩⟩

/-- The name of a term is read up to what ends it. -/
theorem yields_field {name b : Str} (hname : ∀ c ∈ name, c ≠ '=' ∧ c ≠ ',')
    (hb : ∀ c ∈ b.head?, fieldKind c = .stop) (hptr : ptr < indexLimit) :
    Yields (scan fieldKind (fun field c => field ++ [c]) (name ++ b) ptr [])
      (ptr + name.length < indexLimit) (some (name, b, ptr + name.length)) := by
  have hgo : ∀ c ∈ name, fieldKind c = .go := fun c hc => by simp [fieldKind, hname c hc]
  have hscan := yields_scan (c := fun field c => field ++ [c]) hgo hb hptr []
  rwa [foldl_snoc, List.nil_append] at hscan

variable {name : Str}

theorem readTerm_flag (hname : ∀ c ∈ name, c ≠ '=' ∧ c ≠ ',') (hu : Ends u)
    (hptr : ptr < indexLimit) : Yields (readTerm (name ++ u) ptr)
      (ptr + name.length < indexLimit ∧ ¬ bufsiz ≤ name.length)
      (name, 1, u, ptr + name.length) := by
  have hrest := yields_guard (c := bufsiz ≤ name.length) (e := .overflow) fun _ =>
    yields_ok (name, (1 : BitVec 64), u, ptr + name.length)
  have hscan := yields_field (b := u) hname (hu.stops rfl) hptr
  obtain rfl | ⟨w, rfl⟩ := hu
  · exact (hscan.bind fun _ => hrest).congr (by simp)
  · exact (hscan.bind fun _ => hrest).congr (by simp)

theorem readTerm_value {b : Str} {v : BitVec 64} {k : Nat} {q : Prop}
    (hname : ∀ c ∈ name, c ≠ '=' ∧ c ≠ ',') (hptr : ptr < indexLimit)
    (hvalue : Yields (readValue b (ptr + name.length)) q (v, u, k)) :
    Yields (readTerm (name ++ '=' :: b) ptr)
      (ptr + name.length < indexLimit ∧ ¬ bufsiz ≤ name.length ∧ q) (name, v, u, k) := by
  have hrest := yields_guard (c := bufsiz ≤ name.length) (e := .overflow) fun _ =>
    hvalue.bind (f := fun r => .ok (name, r)) fun _ => yields_ok (name, v, u, k)
  have hscan := yields_field (b := '=' :: b) hname (by simp [fieldKind]) hptr
  exact (hscan.bind fun _ => hrest).congr (by simp)

/-- A term is one round, when its name fits into the buffer and its end can be indexed. -/
theorem readTerm_term (t : Term) (hu : Ends u) (hptr : ptr < indexLimit) :
    Yields (readTerm (t.text ++ u) ptr)
      (t.name.length < bufsiz ∧ ptr + t.text.length < indexLimit)
      (t.name, BitVec.ofNat 64 t.value, u, ptr + t.text.length) := by
  obtain ⟨text, name, value, hwritten, hname⟩ := t
  cases hwritten with
  | flag =>
    dsimp only
    exact (readTerm_flag hname hu hptr).congr (by omega)
  | @decimal name t n h =>
    have hend : ptr + (name ++ '=' :: t).length = ptr + name.length + 1 + t.length := by
      rw [List.length_append, List.length_cons]
      omega
    dsimp only
    rw [hend, List.append_assoc, List.cons_append]
    exact (readTerm_value hname hptr (readValue_decimal h hu)).congr (by omega)
  | @hex name t n h =>
    have hend : ptr + (name ++ '=' :: '0' :: 'x' :: t).length = ptr + name.length + 3 + t.length := by
      simp only [List.length_append, List.length_cons]
      omega
    dsimp only
    rw [hend, List.append_assoc]
    exact (readTerm_value hname hptr (readValue_hex h hu)).congr (by omega)

/-! ## The loop over the terms -/

def addTerm (formats : List FormatType) (c : Configs) (t : Term) : Configs :=
  updateConfigs formats t.name (BitVec.ofNat 64 t.value) c

/-- The names fit into the buffer, and the end of the value can be indexed. -/
def Fits (ptr : Nat) (terms : List Term) : Prop :=
  (∀ t ∈ terms, t.name.length < bufsiz) ∧ ptr + (joined terms).length < indexLimit

theorem readTerms_error {formats : List FormatType} {rest : Str} {c : Configs} {e : Fault}
    (h : readTerm rest ptr = .error e) : readTerms formats rest ptr c = .error e := by
  rw [readTerms]
  split <;> simp_all

theorem readTerms_last {formats : List FormatType} {rest field : Str} {c : Configs}
    {temp : BitVec 64} {k : Nat} (h : readTerm rest ptr = .ok (field, temp, [], k)) :
    readTerms formats rest ptr c = .ok (updateConfigs formats field temp c) := by
  rw [readTerms]
  split <;> simp_all

theorem readTerms_more {formats : List FormatType} {rest field w : Str} {c : Configs}
    {temp : BitVec 64} {k : Nat} {d : Char} (h : readTerm rest ptr = .ok (field, temp, d :: w, k)) :
    readTerms formats rest ptr c =
      next k >>= fun k => readTerms formats w k (updateConfigs formats field temp c) := by
  rw [readTerms]
  split <;> simp_all

/-- The induction is over the terms: `temp` and `field` are new for each. -/
theorem readTerms_joined (formats : List FormatType) (t : Term) (ts : List Term)
    (hptr : ptr < indexLimit) (c : Configs) :
    Yields (readTerms formats (joined (t :: ts)) ptr c) (Fits ptr (t :: ts))
      ((t :: ts).foldl (addTerm formats) c) := by
  induction ts generalizing t ptr c with
  | nil =>
    have hround := readTerm_term t (.inl rfl) hptr
    rw [List.append_nil] at hround
    have hfits : t.name.length < bufsiz ∧ ptr + t.text.length < indexLimit ↔ Fits ptr [t] := by
      simp [Fits, joined]
    obtain ⟨hp, hok⟩ | ⟨hp, e, herror⟩ := hround.congr hfits
    · exact .inl ⟨hp, readTerms_last hok⟩
    · exact .inr ⟨hp, e, readTerms_error herror⟩
  | cons t' ts ih =>
    have hround := readTerm_term t (.inr ⟨joined (t' :: ts), rfl⟩) hptr
    change Yields (readTerms formats (t.text ++ ',' :: joined (t' :: ts)) ptr c) _ _
    have hlength : ptr + (joined (t :: t' :: ts)).length =
        ptr + t.text.length + 1 + (joined (t' :: ts)).length := by
      change ptr + (t.text ++ ',' :: joined (t' :: ts)).length = _
      rw [List.length_append, List.length_cons]
      omega
    have hfits : (t.name.length < bufsiz ∧ ptr + t.text.length < indexLimit) ∧
        ptr + t.text.length + 1 < indexLimit ∧ Fits (ptr + t.text.length + 1) (t' :: ts) ↔
        Fits ptr (t :: t' :: ts) := by
      unfold Fits
      rw [hlength, List.forall_mem_cons (a := t)]
      constructor
      · rintro ⟨⟨hname, -⟩, -, hnames, hend⟩
        exact ⟨⟨hname, hnames⟩, hend⟩
      · rintro ⟨⟨hname, hnames⟩, hend⟩
        exact ⟨⟨hname, by omega⟩, by omega, hnames, hend⟩
    obtain ⟨hp, hok⟩ | ⟨hp, e, herror⟩ := hround
    · rw [readTerms_more hok]
      exact ((yields_next _).bind fun hnext => ih t' hnext (addTerm formats c t)).congr
        ⟨fun h => hfits.1 ⟨hp, h⟩, fun h => (hfits.2 h).2⟩
    · exact .inr ⟨fun h => hp (hfits.2 h).1, e, readTerms_error herror⟩

/-! ## The bits -/

/-- Bit `k` of the mask gets a bit of the value that is set: the bits of the value go to the bits of
the mask in their order. -/
def Deposits (value : Nat) (mask : BitVec 64) (k : Nat) : Prop :=
  mask.getLsbD k = true ∧ value.testBit (Nat.count (mask.getLsbD · = true) k) = true

/-- Bit `k` of the word with this number is set by one of the terms. -/
def Adds (formats : List FormatType) (terms : List Term) (field k : Nat) : Prop :=
  ∃ t ∈ terms, ∃ f ∈ formats, f.name = t.name ∧ f.field = field ∧ Deposits t.value f.mask k

theorem mask_test (mask : BitVec 64) {n : Nat} (hn : n < 64) :
    ((1 : BitVec 64) <<< n) &&& mask ≠ 0 ↔ mask.getLsbD n = true := by
  have hne : BitVec.twoPow 64 n ≠ 0 := by
    intro h
    have := congrArg (BitVec.getLsbD · n) h
    simp [hn] at this
  have hone : (1 : BitVec 64) <<< n = BitVec.twoPow 64 n := (BitVec.twoPow_eq 64 n).symm
  rw [hone, BitVec.twoPow_and]
  cases mask.getLsbD n with
  | false => simp
  | true => simpa using hne

/-- One bit of the value comes to bit `n`. -/
theorem deposited_bit (v : BitVec 64) (j : Nat) {n k : Nat} (hk : k < 64) :
    (((v >>> j) &&& (1 : BitVec 64)) <<< n).getLsbD k = (decide (k = n) && v.getLsbD j) := by
  have hone (i : Nat) : (1 : BitVec 64).getLsbD i = decide (i = 0) := by
    change (1#64).getLsbD i = _
    rw [BitVec.getLsbD_one]
    simp
  rw [BitVec.getLsbD_shiftLeft, BitVec.getLsbD_and, BitVec.getLsbD_ushiftRight, hone]
  obtain hlt | rfl | hgt := Nat.lt_trichotomy k n
  · simp [hlt, Nat.ne_of_lt hlt]
  · simp [hk]
  · simp [Nat.ne_of_gt hgt, show ¬ k - n = 0 by omega]

/-- The state of the loop over the bits of the mask before bit `n`. -/
theorem separateLoop_fold (value : Nat) (mask : BitVec 64) {n : Nat} (hn : n ≤ 64) :
    let r := Nat.fold n (fun i _ r => separateLoop (BitVec.ofNat 64 value) mask i r) (0, 0)
    r.2 = Nat.count (mask.getLsbD · = true) n ∧
      ∀ k < 64, (r.1.getLsbD k = true ↔ k < n ∧ Deposits value mask k) := by
  induction n with
  | zero => simp
  | succ n ih =>
    obtain ⟨hcount, hbits⟩ := ih (by omega)
    intro r
    have hr : r = separateLoop (BitVec.ofNat 64 value) mask n
        (Nat.fold n (fun i _ r => separateLoop (BitVec.ofNat 64 value) mask i r) (0, 0)) := rfl
    generalize Nat.fold n (fun i _ r => separateLoop (BitVec.ofNat 64 value) mask i r) (0, 0) = r₀
      at hcount hbits hr
    have hvaluebit (j : Nat) (hj : j < 64) :
        (BitVec.ofNat 64 value).getLsbD j = value.testBit j := by
      rw [BitVec.getLsbD_ofNat]
      simp [hj]
    have hle : r₀.2 ≤ n := hcount ▸ Nat.count_le _
    rw [separateLoop] at hr
    by_cases hmask : mask.getLsbD n = true
    · rw [if_pos ((mask_test mask (by omega)).2 hmask)] at hr
      rw [hr]
      refine ⟨?_, fun k hk => ?_⟩
      · rw [Nat.count_succ, if_pos hmask, hcount]
      · rw [BitVec.getLsbD_or, deposited_bit _ _ hk, Bool.or_eq_true, hbits k hk, Bool.and_eq_true,
          decide_eq_true_eq, hvaluebit _ (by omega), hcount]
        constructor
        · rintro (⟨hlt, hdeposits⟩ | ⟨rfl, hbit⟩)
          · exact ⟨by omega, hdeposits⟩
          · exact ⟨by omega, hmask, hbit⟩
        · rintro ⟨hlt, hdeposits⟩
          obtain hlt | rfl := Nat.lt_succ_iff_lt_or_eq.1 hlt
          · exact .inl ⟨hlt, hdeposits⟩
          · exact .inr ⟨rfl, hdeposits.2⟩
    · rw [if_neg fun h => hmask ((mask_test mask (by omega)).1 h)] at hr
      rw [hr]
      refine ⟨?_, fun k hk => ?_⟩
      · rw [Nat.count_succ, if_neg hmask, hcount]
        rfl
      · rw [hbits k hk]
        constructor
        · exact fun h => ⟨by omega, h.2⟩
        · rintro ⟨hlt, hdeposits⟩
          obtain hlt | rfl := Nat.lt_succ_iff_lt_or_eq.1 hlt
          · exact ⟨hlt, hdeposits⟩
          · exact absurd hdeposits.1 hmask

theorem separateBits_getLsbD (value : Nat) (mask : BitVec 64) {k : Nat} (hk : k < 64) :
    (separateBits (BitVec.ofNat 64 value) mask).getLsbD k = true ↔
      Deposits value mask k := by
  rw [separateBits, (separateLoop_fold value mask (Nat.le_refl 64)).2 k hk]
  exact and_iff_right hk

/-! ### Reading the bits back -/

/-- The number of bits of a mask. -/
def popcount (mask : BitVec 64) : Nat := Nat.count (mask.getLsbD · = true) 64

/-- The bits that a word has at the positions of the mask, from the lowest position to the
highest. -/
def bitsAt (word mask : BitVec 64) : Nat :=
  Masks.gather word.getLsbD (Masks.positions mask.getLsbD 64)

theorem separateBits_bit (value mask : BitVec 64) {k : Nat} (hk : k < 64) :
    (separateBits value mask).getLsbD k = true ↔ Deposits value.toNat mask k := by
  rw [← separateBits_getLsbD value.toNat mask hk, BitVec.ofNat_toNat, BitVec.setWidth_eq]

theorem separateBits_deposited (value mask : BitVec 64) :
    Masks.Deposited value.toNat mask.getLsbD (separateBits value mask).getLsbD 64 := by
  intro k hk hmask
  rw [Bool.eq_iff_iff, separateBits_bit value mask hk]
  exact and_iff_right hmask

theorem separateBits_and_not (value mask : BitVec 64) : separateBits value mask &&& ~~~mask = 0 := by
  ext k hk
  have hbit := separateBits_bit value mask hk
  rw [BitVec.getLsbD_eq_getElem hk] at hbit
  cases hresult : (separateBits value mask)[k] with
  | false => simp [hresult]
  | true =>
    have hmask := (hbit.1 hresult).1
    rw [BitVec.getLsbD_eq_getElem hk] at hmask
    simp [hresult, hmask]

theorem bitsAt_separateBits (value mask : BitVec 64) :
    bitsAt (separateBits value mask) mask = value.toNat % 2 ^ popcount mask :=
  Masks.gather_deposited (separateBits_deposited value mask)

theorem separateBits_congr {value value' mask : BitVec 64}
    (h : value.toNat % 2 ^ popcount mask = value'.toNat % 2 ^ popcount mask) :
    separateBits value mask = separateBits value' mask := by
  ext k hk
  rw [← BitVec.getLsbD_eq_getElem hk, ← BitVec.getLsbD_eq_getElem hk, Bool.eq_iff_iff,
    separateBits_bit value mask hk, separateBits_bit value' mask hk]
  apply and_congr_right
  intro hmask
  rw [Masks.testBit_of_mod_eq hk hmask h]

theorem separateBits_law (value mask : BitVec 64) :
    separateBits value mask &&& ~~~mask = 0 ∧
      bitsAt (separateBits value mask) mask = value.toNat % 2 ^ popcount mask ∧
      ∀ value', separateBits value mask = separateBits value' mask ↔
        value.toNat % 2 ^ popcount mask = value'.toNat % 2 ^ popcount mask := by
  refine ⟨separateBits_and_not value mask, bitsAt_separateBits value mask, fun value' => ?_⟩
  constructor
  · intro h
    rw [← bitsAt_separateBits, ← bitsAt_separateBits, h]
  · exact separateBits_congr

example : separateBits 0b101 0b1100100 = 0b1000100 := by decide

/-- The word of a field that is known. -/
def Configs.word (c : Configs) (field : Nat) : BitVec 64 :=
  if field = fieldConfig then c.config
  else if field = fieldConfig1 then c.config1
  else c.config2

def KnownField (field : Nat) : Prop :=
  field = fieldConfig ∨ field = fieldConfig1 ∨ field = fieldConfig2

variable {formats : List FormatType} {value field k : Nat}

/-- One arm of the update. -/
theorem or_word (c : Configs) (f : FormatType) (hf : KnownField f.field) (hfield : KnownField field)
    (v : BitVec 64) (formats : List FormatType) :
    (updateConfigs (f :: formats) f.name v c).word field =
      if f.field = field then c.word field ||| separateBits v f.mask else c.word field := by
  obtain ⟨name, fieldOf, mask⟩ := f
  obtain rfl | rfl | rfl := hf <;> obtain rfl | rfl | rfl := hfield <;>
    simp [updateConfigs, Configs.word, fieldConfig, fieldConfig1, fieldConfig2]

theorem updateConfigs_word (hdistinct : (formats.map FormatType.name).Nodup)
    (hfield : KnownField field) (hk : k < 64) (c : Configs) :
    ((updateConfigs formats name (BitVec.ofNat 64 value) c).word field).getLsbD k = true ↔
      (c.word field).getLsbD k = true ∨
        ∃ f ∈ formats, f.name = name ∧ f.field = field ∧ Deposits value f.mask k := by
  induction formats with
  | nil => simp [updateConfigs]
  | cons f formats ih =>
    obtain ⟨hnew, hrest⟩ := List.nodup_cons.1 hdistinct
    have ih := ih hrest
    by_cases hname : name = f.name
    · subst hname
      have hnone : ¬ ∃ g ∈ formats, g.name = f.name ∧ g.field = field ∧ Deposits value g.mask k := by
        rintro ⟨g, hg, heq, -⟩
        exact hnew (heq ▸ List.mem_map_of_mem hg)
      have hhead : (∃ g ∈ f :: formats, g.name = f.name ∧ g.field = field ∧
          Deposits value g.mask k) ↔ f.field = field ∧ Deposits value f.mask k := by
        rw [List.exists_mem_cons_iff, or_iff_left hnone]
        exact and_iff_right rfl
      rw [hhead]
      by_cases hf : KnownField f.field
      · rw [or_word c f hf hfield]
        by_cases heq : f.field = field
        · rw [if_pos heq, BitVec.getLsbD_or, Bool.or_eq_true, separateBits_getLsbD value f.mask hk,
            and_iff_right heq]
        · rw [if_neg heq]
          exact (or_iff_left fun h => heq h.1).symm
      · -- a field that is unknown is passed over
        have hskip : updateConfigs (f :: formats) f.name (BitVec.ofNat 64 value) c =
            updateConfigs formats f.name (BitVec.ofNat 64 value) c := by
          obtain ⟨h1, h2, h3⟩ : f.field ≠ fieldConfig ∧ f.field ≠ fieldConfig1 ∧
              f.field ≠ fieldConfig2 := by
            simpa [KnownField, not_or] using hf
          rw [updateConfigs, if_pos rfl, if_neg h1, if_neg h2, if_neg h3]
        rw [hskip, ih, or_iff_left hnone]
        refine (or_iff_left ?_).symm
        rintro ⟨rfl, -⟩
        exact hf hfield
    · have hskip : updateConfigs (f :: formats) name (BitVec.ofNat 64 value) c =
          updateConfigs formats name (BitVec.ofNat 64 value) c := by
        rw [updateConfigs, if_neg hname]
      rw [hskip, ih, List.exists_mem_cons_iff]
      refine or_congr Iff.rfl (or_iff_right ?_).symm
      rintro ⟨heq, -⟩
      exact hname heq.symm

/-- The words after the terms: the induction is over them. -/
theorem foldl_addTerm_word (hdistinct : (formats.map FormatType.name).Nodup)
    (hfield : KnownField field) (hk : k < 64) (terms : List Term) (c : Configs) :
    ((terms.foldl (addTerm formats) c).word field).getLsbD k = true ↔
      (c.word field).getLsbD k = true ∨ Adds formats terms field k := by
  induction terms generalizing c with
  | nil => simp [Adds]
  | cons t terms ih =>
    rw [List.foldl_cons, ih, addTerm, updateConfigs_word hdistinct hfield hk, or_assoc]
    refine or_congr Iff.rfl ?_
    unfold Adds
    rw [List.exists_mem_cons_iff]

/-! ## What `parse_generic` gives -/

/-- Each word is the union of the terms of its field. -/
def Ors (formats : List FormatType) (terms : List Term) (c : Configs) : Prop :=
  ∀ k < 64, (c.config.getLsbD k = true ↔ Adds formats terms fieldConfig k) ∧
    (c.config1.getLsbD k = true ↔ Adds formats terms fieldConfig1 k) ∧
    (c.config2.getLsbD k = true ↔ Adds formats terms fieldConfig2 k)

theorem ors_foldl (table : FormatTable) (terms : List Term) :
    Ors table.formats terms (terms.foldl (addTerm table.formats) {}) := by
  intro k hk
  have hword {field} (hfield : KnownField field) :=
    foldl_addTerm_word table.distinct hfield hk terms {}
  refine ⟨?_, ?_, ?_⟩
  · simpa [Configs.word] using hword (.inl rfl)
  · simpa [Configs.word, fieldConfig, fieldConfig1] using hword (.inr (.inl rfl))
  · simpa [Configs.word, fieldConfig, fieldConfig1, fieldConfig2] using hword (.inr (.inr rfl))

theorem adds_perm {terms terms' : List Term} (h : terms'.Perm terms) :
    Adds formats terms' field k ↔ Adds formats terms field k :=
  exists_congr fun _ => and_congr_left fun _ => h.mem_iff

/-- The union says what the words are, and the order of the terms does not count. -/
theorem Ors.unique {terms terms' : List Term} (h : terms'.Perm terms) {c c' : Configs}
    (hc : Ors formats terms c) (hc' : Ors formats terms' c') : c' = c := by
  have hbits {v v' : BitVec 64} {field : Nat}
      (hv : ∀ k < 64, (v.getLsbD k = true ↔ Adds formats terms field k))
      (hv' : ∀ k < 64, (v'.getLsbD k = true ↔ Adds formats terms' field k)) : v' = v := by
    apply BitVec.eq_of_getLsbD_eq
    intro k hk
    rw [Bool.eq_iff_iff, hv k hk, hv' k hk, adds_perm h]
  apply Configs.ext
  · exact hbits (fun k hk => (hc k hk).1) fun k hk => (hc' k hk).1
  · exact hbits (fun k hk => (hc k hk).2.1) fun k hk => (hc' k hk).2.1
  · exact hbits (fun k hk => (hc k hk).2.2) fun k hk => (hc' k hk).2.2

theorem joined_length (t : Term) (ts : List Term) :
    (joined (t :: ts)).length + 1 = ((t :: ts).map fun t => t.text.length + 1).sum := by
  induction ts generalizing t with
  | nil => rfl
  | cons t' ts ih =>
    change (t.text ++ ',' :: joined (t' :: ts)).length + 1 = _
    rw [List.length_append, List.length_cons, ih]
    simp only [List.map_cons, List.sum_cons]
    omega

theorem Fits.perm {t t' : Term} {ts ts' : List Term} (h : (t' :: ts').Perm (t :: ts))
    (hfits : Fits ptr (t :: ts)) : Fits ptr (t' :: ts') := by
  have hsum := (h.map fun t => t.text.length + 1).sum_nat
  have hlength := joined_length t ts
  have hlength' := joined_length t' ts'
  refine ⟨fun u hu => hfits.1 u (h.mem_iff.1 hu), ?_⟩
  have hend := hfits.2
  omega

/-- The three words are the union of the terms, and they are the same for every order of them. -/
def Sets (table : FormatTable) (terms : List Term) : Prop :=
  ∃ c, parseGeneric table.formats (joined terms) = .ok c ∧ Ors table.formats terms c ∧
    ∀ terms' : List Term, terms'.Perm terms → parseGeneric table.formats (joined terms') = .ok c

/-- For every table of fields and every list of terms. -/
theorem parseGeneric_sets_iff (table : FormatTable) (t : Term) (ts : List Term) :
    Sets table (t :: ts) ↔ Fits 0 (t :: ts) := by
  have hrun (t : Term) (ts : List Term) :
      Yields (parseGeneric table.formats (joined (t :: ts))) (Fits 0 (t :: ts)) _ :=
    readTerms_joined table.formats t ts (by decide) {}
  constructor
  · rintro ⟨c, hok, -⟩
    obtain ⟨hfits, -⟩ | ⟨-, e, herror⟩ := hrun t ts
    · exact hfits
    · rw [herror] at hok
      cases hok
  · intro hfits
    have hors := ors_foldl table (t :: ts)
    refine ⟨_, (hrun t ts).ok hfits, hors, fun terms' hperm => ?_⟩
    cases terms' with
    | nil => exact absurd hperm.nil_eq (List.cons_ne_nil t ts).symm
    | cons t' ts' =>
      rw [(hrun t' ts').ok (hfits.perm hperm), hors.unique hperm (ors_foldl table (t' :: ts'))]

theorem Term.name_length (t : Term) : t.name.length ≤ t.text.length := by
  obtain ⟨text, name, value, written, -⟩ := t
  cases written with
  | flag => exact Nat.le_refl _
  | decimal | hex =>
    rw [List.length_append]
    exact Nat.le_add_right _ _

theorem text_length_le_joined {u : Term} {ts : List Term} (hu : u ∈ ts) :
    u.text.length ≤ (joined ts).length := by
  fun_induction joined ts with
  | case1 => cases hu
  | case2 t => exact List.mem_singleton.1 hu ▸ Nat.le_refl _
  | case3 t t' ts ih =>
    rw [List.length_append, List.length_cons]
    obtain rfl | hu := List.mem_cons.1 hu
    · exact Nat.le_add_right _ _
    · have hrest := ih hu
      omega

/-- Every term is a part of the value, so a value that fits its buffer has names that fit theirs. -/
theorem fits_of_length {ts : List Term} (h : (joined ts).length < bufsiz) : Fits 0 ts := by
  refine ⟨fun u hu => ?_, ?_⟩
  · calc u.name.length
      _ ≤ u.text.length := u.name_length
      _ ≤ (joined ts).length := text_length_le_joined hu
      _ < bufsiz := h
  · rw [Nat.zero_add]
    exact Nat.lt_trans h (by decide)

/-- The only caller reads the value into `event_value[BUFSIZ]`. -/
theorem parseGeneric_sets (table : FormatTable) (t : Term) (ts : List Term)
    (h : (joined (t :: ts)).length < bufsiz) : Sets table (t :: ts) :=
  (parseGeneric_sets_iff table t ts).2 (fits_of_length h)

/-- `event=0x3C` of an event. -/
def eventTerm : Term where
  text := ['e', 'v', 'e', 'n', 't'] ++ '=' :: '0' :: 'x' :: ['3', 'C']
  name := ['e', 'v', 'e', 'n', 't']
  value := 60
  written := .hex (t := ['3', 'C']) ⟨[3, 12], by decide, by decide, rfl⟩
  plain := by simp

def invTerm : Term where
  text := ['i', 'n', 'v']
  name := ['i', 'n', 'v']
  value := 1
  written := .flag
  plain := by simp

def x86Formats : FormatTable where
  formats := [⟨eventTerm.name, fieldConfig, 0xff⟩, ⟨invTerm.name, fieldConfig, 0x800000⟩]
  distinct := by decide

theorem parseGeneric_sets_event : Sets x86Formats [eventTerm, invTerm] :=
  parseGeneric_sets x86Formats eventTerm [invTerm] (by decide)

end PerfEvent.Sysfs
