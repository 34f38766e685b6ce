import Mathlib.Tactic.IntervalCases
import PerfEventTests.Lib.Words

/-!
# Printing and scanning numbers

The integer conversions of `printf` and `sscanf`, on lists of characters. A scanned number is
what `strtol` or `strtoul` returns, cut down to the type of the conversion. The main fact is that
a number which is printed with a blank behind it is scanned as it was.
-/

namespace Text

open ByteMemory

abbrev Str := List Char

/-- `BUFSIZ` -/
def bufsiz : Nat := 8192

/-- `isspace` in the C locale. -/
def isSpace (c : Char) : Bool :=
  c = ' ' || c = '\t' || c = '\n' || c = '\x0b' || c = '\x0c' || c = '\r'

/-- The value of a digit, if it is one in this base. -/
def digitVal? (base : Nat) (c : Char) : Option Nat :=
  let v :=
    if '0' ≤ c ∧ c ≤ '9' then c.toNat - 48
    else if 'a' ≤ c ∧ c ≤ 'f' then c.toNat - 87
    else if 'A' ≤ c ∧ c ≤ 'F' then c.toNat - 55
    else base
  if v < base then some v else none

/-- The longest run of digits in front of a text, read behind the digits of `acc`, and the rest. -/
def readDigits (base : Nat) : Nat → Str → Nat × Str
  | acc, [] => (acc, [])
  | acc, c :: cs =>
    match digitVal? base c with
    | some d => readDigits base (acc * base + d) cs
    | none => (acc, c :: cs)

/-! ## Conversions -/

/-- The integer conversions: `%d`, `%hd`, `%ld` or `%lld`, `%x`, `%lx` or `%llx`. -/
inductive Conv where
  | d
  | hd
  | ld
  | x
  | lx
  deriving DecidableEq

namespace Conv

def base : Conv → Nat
  | d | hd | ld => 10
  | x | lx => 16

/-- `strtol`: out of range numbers become the nearest `long`. -/
def strtol (neg : Bool) (magnitude : Nat) : Int :=
  max (-2 ^ 63) (min (2 ^ 63 - 1) (if neg then -(magnitude : Int) else magnitude))

def strtoul (neg : Bool) (magnitude : Nat) : Int :=
  if 2 ^ 64 ≤ magnitude then 2 ^ 64 - 1
  else if neg then toUnsigned 64 (-(magnitude : Int))
  else magnitude

/-- What is stored for a scanned number. -/
def value (neg : Bool) (magnitude : Nat) : Conv → Int
  | d => toInt32 (strtol neg magnitude)
  | hd => toSigned 16 (strtol neg magnitude)
  | ld => strtol neg magnitude
  | x => toUnsigned 32 (strtoul neg magnitude)
  | lx => strtoul neg magnitude

end Conv

/-- The sign in front of a number. -/
def readSign : Str → Bool × Str
  | '-' :: s => (true, s)
  | '+' :: s => (false, s)
  | s => (false, s)

/-- What stands behind `0x`, which a hexadecimal number may have in front. -/
def stripHexPrefix (base : Nat) : Str → Option Str
  | '0' :: c :: s => if base = 16 ∧ (c = 'x' ∨ c = 'X') then some s else none
  | _ => none

def readMagnitude (base : Nat) (s : Str) : Option (Nat × Str) :=
  match stripHexPrefix base s with
  | some s => some (readDigits base 0 s)
  | none =>
    match s with
    | [] => none
    | c :: _ => (digitVal? base c).map fun _ => readDigits base 0 s

/-- One conversion: the value and the rest of the text, or a matching failure. -/
def scanNumber (c : Conv) (s : Str) : Option (Int × Str) :=
  let (neg, s) := readSign (s.dropWhile isSpace)
  (readMagnitude c.base s).map fun (m, rest) => (c.value neg m, rest)

/-- The values that `sscanf` assigns. The first conversion that does not match ends the scan. -/
def sscanf : List Conv → Str → List Int
  | [], _ => []
  | c :: cs, s =>
    match scanNumber c s with
    | none => []
    | some (v, rest) => v :: sscanf cs rest

/-- `sscanf` with `%*c` in front: every reader of a log line skips the letter. -/
def sscanfLine (cs : List Conv) (line : Str) : List Int := sscanf cs (line.drop 1)

/-! ## Printed numbers -/

/-- A signed number in decimal. -/
def decimal (v : Int) : Str :=
  if v < 0 then '-' :: Nat.toDigits 10 v.natAbs else Nat.toDigits 10 v.natAbs

/-- An unsigned number in hexadecimal. -/
def hex (n : Nat) : Str := Nat.toDigits 16 n

theorem digitVal?_digitChar {base d : Nat} (hb : base ≤ 16) (hd : d < base) :
    digitVal? base d.digitChar = some d := by
  have hd16 : d < 16 := by omega
  interval_cases d <;> simp [digitVal?, Nat.digitChar] <;> omega

theorem mem_toDigits {base : Nat} (hlo : 1 < base) (n : Nat) :
    ∀ c ∈ Nat.toDigits base n, ∃ d < base, c = Nat.digitChar d := by
  induction n using Nat.strong_induction_on with
  | _ n ih =>
    by_cases hn : n < base
    · rw [Nat.toDigits_of_lt_base hn]
      intro c hc
      exact ⟨n, hn, List.mem_singleton.1 hc⟩
    · have hle : base ≤ n := Nat.le_of_not_lt hn
      have hmod : n % base < base := Nat.mod_lt n (by omega)
      rw [Nat.toDigits_of_base_le hlo hle]
      intro c hc
      rcases List.mem_append.1 hc with hc | hc
      · exact ih (n / base) (Nat.div_lt_self (by omega) hlo) c hc
      · exact ⟨n % base, hmod, List.mem_singleton.1 hc⟩

theorem readDigits_toDigits {base : Nat} (hlo : 1 < base) (hhi : base ≤ 16) (n : Nat) (rest : Str) :
    readDigits base 0 (Nat.toDigits base n ++ rest) = readDigits base n rest := by
  induction n using Nat.strong_induction_on generalizing rest with
  | _ n ih =>
    by_cases hn : n < base
    · rw [Nat.toDigits_of_lt_base hn]
      simp [readDigits, digitVal?_digitChar hhi hn]
    · have hle : base ≤ n := Nat.le_of_not_lt hn
      have hmod : n % base < base := Nat.mod_lt n (by omega)
      rw [Nat.toDigits_of_base_le hlo hle, List.append_assoc,
        ih (n / base) (Nat.div_lt_self (by omega) hlo), List.singleton_append, readDigits,
        digitVal?_digitChar hhi hmod]
      simp only [Nat.div_add_mod']

theorem digitChar_ne_x {d : Nat} (hd : d < 16) : Nat.digitChar d ≠ 'x' ∧ Nat.digitChar d ≠ 'X' := by
  interval_cases d <;> decide

theorem isSpace_cases {c : Char} (h : isSpace c = true) :
    c = ' ' ∨ c = '\t' ∨ c = '\n' ∨ c = '\x0b' ∨ c = '\x0c' ∨ c = '\r' := by
  simpa [isSpace, or_assoc] using h

section Magnitude

variable {base : Nat} (hlo : 1 < base) (hhi : base ≤ 16) (n : Nat) {sep : Char}
  (hsep : isSpace sep = true) (rest : Str)
include hlo hhi hsep

/-- A printed magnitude starts with a digit and has no `0x` in front. -/
theorem exists_cons_toDigits :
    ∃ d s, d < base ∧ Nat.toDigits base n ++ sep :: rest = Nat.digitChar d :: s ∧
      stripHexPrefix base (Nat.digitChar d :: s) = none := by
  have hmem := mem_toDigits hlo n
  cases hdigits : Nat.toDigits base n with
  | nil => exact absurd hdigits Nat.toDigits_ne_nil
  | cons c t =>
    rw [hdigits] at hmem
    obtain ⟨d, hd, rfl⟩ := hmem c List.mem_cons_self
    refine ⟨d, t ++ sep :: rest, hd, rfl, ?_⟩
    have hsecond : ∀ c' s, t ++ sep :: rest = c' :: s → c' ≠ 'x' ∧ c' ≠ 'X' := by
      intro c' s heq
      cases t with
      | nil =>
        obtain ⟨rfl, -⟩ := List.cons.inj heq
        rcases isSpace_cases hsep with rfl | rfl | rfl | rfl | rfl | rfl <;> decide
      | cons c'' t =>
        obtain ⟨rfl, -⟩ := List.cons.inj heq
        obtain ⟨d', hd', rfl⟩ := hmem c'' (by simp)
        exact digitChar_ne_x (by omega)
    unfold stripHexPrefix
    split
    · rename_i c' s heq
      obtain ⟨-, heq⟩ := List.cons.inj heq
      have := hsecond c' s heq
      simp [this.1, this.2]
    · rfl

theorem readMagnitude_toDigits :
    readMagnitude base (Nat.toDigits base n ++ sep :: rest) = some (n, sep :: rest) := by
  have hread := readDigits_toDigits hlo hhi n (sep :: rest)
  have hblank : readDigits base n (sep :: rest) = (n, sep :: rest) := by
    rcases isSpace_cases hsep with rfl | rfl | rfl | rfl | rfl | rfl <;>
      simp [readDigits, digitVal?]
  obtain ⟨d, s, hd, hs, hprefix⟩ := exists_cons_toDigits hlo hhi n hsep rest
  rw [hblank, hs] at hread
  rw [hs, readMagnitude, hprefix]
  simp [digitVal?_digitChar hhi hd, hread]

end Magnitude

/-! ## Printed numbers are scanned back -/

/-- The text `t` with white space behind it is scanned as `v`. -/
def Scans (c : Conv) (t : Str) (v : Int) : Prop :=
  ∀ sep rest, isSpace sep = true → scanNumber c (t ++ sep :: rest) = some (v, sep :: rest)

theorem scanNumber_blank (c : Conv) (s : Str) : scanNumber c (' ' :: s) = scanNumber c s := by
  simp [scanNumber, isSpace]

theorem digitChar_ne_sign {d : Nat} (hd : d < 16) :
    isSpace (Nat.digitChar d) = false ∧ Nat.digitChar d ≠ '-' ∧ Nat.digitChar d ≠ '+' := by
  interval_cases d <;> decide

theorem Conv.base_bounds (c : Conv) : 1 < c.base ∧ c.base ≤ 16 := by
  cases c <;> decide

theorem scans_toDigits (c : Conv) (n : Nat) :
    Scans c (Nat.toDigits c.base n) (c.value false n) := by
  intro sep rest hsep
  obtain ⟨hlo, hhi⟩ := c.base_bounds
  have hread := readMagnitude_toDigits hlo hhi n hsep rest
  obtain ⟨d, s, hd, hs, -⟩ := exists_cons_toDigits hlo hhi n hsep rest
  obtain ⟨hspace, hminus, hplus⟩ := digitChar_ne_sign (show d < 16 by omega)
  have hsign : readSign (Nat.digitChar d :: s) = (false, Nat.digitChar d :: s) := by
    unfold readSign
    split
    · rename_i heq
      exact absurd (List.cons.inj heq).1 hminus
    · rename_i heq
      exact absurd (List.cons.inj heq).1 hplus
    · rfl
  rw [hs] at hread ⊢
  simp only [scanNumber, List.dropWhile_cons, hspace, Bool.false_eq_true, if_false, hsign, hread,
    Option.map_some]

theorem scans_minus_toDigits (c : Conv) (n : Nat) :
    Scans c ('-' :: Nat.toDigits c.base n) (c.value true n) := by
  intro sep rest hsep
  obtain ⟨hlo, hhi⟩ := c.base_bounds
  have hread := readMagnitude_toDigits hlo hhi n hsep rest
  have hspace : isSpace '-' = false := by decide
  simp only [List.cons_append, scanNumber, List.dropWhile_cons, hspace, Bool.false_eq_true,
    if_false, readSign, hread, Option.map_some]

theorem strtol_of_range {v : Int} (hlo : -2 ^ 63 ≤ v) (hhi : v < 2 ^ 63) :
    Conv.strtol (decide (v < 0)) v.natAbs = v := by
  unfold Conv.strtol
  by_cases hv : v < 0
  · simp only [hv, decide_true, if_true]
    omega
  · simp only [hv, decide_false, Bool.false_eq_true, if_false]
    omega

/-- A signed number is scanned back up to the conversion to the type that the scan stores. -/
theorem scans_decimal {c : Conv} (hc : c.base = 10) (v : Int) :
    Scans c (decimal v) (c.value (decide (v < 0)) v.natAbs) := by
  unfold decimal
  rw [← hc]
  by_cases hv : v < 0
  · rw [if_pos hv, decide_eq_true hv]
    exact scans_minus_toDigits c _
  · rw [if_neg hv, decide_eq_false hv]
    exact scans_toDigits c _

theorem scans_d {v : Int} (hlo : -2 ^ 31 ≤ v) (hhi : v < 2 ^ 31) : Scans .d (decimal v) v := by
  have h := scans_decimal (c := .d) rfl v
  simp only [Conv.value, strtol_of_range (show -2 ^ 63 ≤ v by omega) (by omega)] at h
  rwa [toInt32_of_range hlo hhi] at h

theorem scans_ld {v : Int} (hlo : -2 ^ 63 ≤ v) (hhi : v < 2 ^ 63) : Scans .ld (decimal v) v := by
  have h := scans_decimal (c := .ld) rfl v
  rwa [Conv.value, strtol_of_range hlo hhi] at h

theorem scans_hd {v : Int} (hlo : -2 ^ 15 ≤ v) (hhi : v < 2 ^ 15) : Scans .hd (decimal v) v := by
  have h := scans_decimal (c := .hd) rfl v
  rw [Conv.value, strtol_of_range (by omega) (by omega), toSigned_of_range (by omega) (by omega)] at h
  exact h

theorem scans_lx {n : Nat} (h : n < 2 ^ 64) : Scans .lx (hex n) n := by
  have hs := scans_toDigits .lx n
  rwa [Conv.value, Conv.strtoul, if_neg (by omega), if_neg (by decide)] at hs

theorem scans_x {n : Nat} (h : n < 2 ^ 32) : Scans .x (hex n) n := by
  have hs := scans_toDigits .x n
  rw [Conv.value, Conv.strtoul, if_neg (by omega), if_neg (by decide)] at hs
  rwa [toUnsigned_natCast h] at hs

theorem sscanf_blank (cs : List Conv) (s : Str) : sscanf cs (' ' :: s) = sscanf cs s := by
  cases cs with
  | nil => rfl
  | cons c cs => rw [sscanf, sscanf, scanNumber_blank]

/-- A text with the conversion that reads it and the value that it stores. -/
structure Item where
  conv : Conv
  text : Str
  value : Int

/-- Texts with blanks behind them are scanned one after the other. -/
theorem sscanf_items (rest : Str) :
    ∀ items : List Item, (∀ i ∈ items, Scans i.conv i.text i.value) →
      sscanf (items.map Item.conv) (items.flatMap (fun i => i.text ++ [' ']) ++ rest) =
        items.map Item.value
  | [], _ => rfl
  | i :: items, h => by
    have hi := h i List.mem_cons_self
    have ih := sscanf_items rest items fun j hj => h j (List.mem_cons_of_mem _ hj)
    have htext : (i :: items).flatMap (fun i => i.text ++ [' ']) ++ rest =
        i.text ++ ' ' :: (items.flatMap (fun i => i.text ++ [' ']) ++ rest) := by
      simp
    rw [htext, List.map_cons, sscanf, hi _ _ rfl]
    simp only [sscanf_blank, ih, List.map_cons]

/-! ## Lines -/

/-- A letter, the texts with a blank in front of each, and a newline. -/
def line (letter : Char) (texts : List Str) : Str :=
  letter :: (texts.flatMap fun t => ' ' :: t) ++ ['\n']

/-- `%d` -/
def intText (v : Int) : Str := decimal (BitVec.ofInt 32 v).toInt

/-- `%ld` and `%lld` -/
def longText (v : Int) : Str := decimal (BitVec.ofInt 64 v).toInt

theorem scans_intText (v : Int) : Scans .d (intText v) (BitVec.ofInt 32 v).toInt :=
  scans_d (BitVec.le_toInt _) BitVec.toInt_lt

theorem scans_longText (v : Int) : Scans .ld (longText v) (BitVec.ofInt 64 v).toInt :=
  scans_ld (BitVec.le_toInt _) BitVec.toInt_lt

theorem sscanf_newline (cs : List Conv) : sscanf cs ['\n'] = [] := by
  cases cs <;> rfl

/-- A line is scanned back, and conversions that it has no text for find nothing. -/
theorem sscanfLine_line (letter : Char) (more : List Conv) :
    ∀ items : List Item, (∀ i ∈ items, Scans i.conv i.text i.value) →
      sscanfLine (items.map Item.conv ++ more) (line letter (items.map Item.text)) =
        items.map Item.value
  | [], _ => sscanf_newline more
  | i :: items, h => by
    have ih := sscanfLine_line letter more items fun j hj => h j (List.mem_cons_of_mem _ hj)
    have htail : (line letter ((i :: items).map Item.text)).drop 1 =
        ' ' :: (i.text ++ (line letter (items.map Item.text)).drop 1) := by
      simp [line]
    obtain ⟨sep, rest, hsep, hrest⟩ : ∃ sep rest, isSpace sep = true ∧
        (line letter (items.map Item.text)).drop 1 = sep :: rest := by
      cases items with
      | nil => exact ⟨'\n', [], rfl, rfl⟩
      | cons j items => exact ⟨' ', _, rfl, rfl⟩
    rw [sscanfLine, htail, hrest, sscanf_blank, List.map_cons, List.cons_append, sscanf,
      h i List.mem_cons_self sep rest hsep]
    rw [sscanfLine, hrest] at ih
    simp only [ih, List.map_cons]

/-- No number has a character in it that is neither a digit nor a sign. -/
theorem mem_decimal {v : Int} {c : Char} (h : c ∈ decimal v) :
    c = '-' ∨ ∃ d < 10, c = Nat.digitChar d := by
  unfold decimal at h
  split at h
  · rcases List.mem_cons.1 h with rfl | h
    · exact .inl rfl
    · exact .inr (mem_toDigits (by decide) _ c h)
  · exact .inr (mem_toDigits (by decide) _ c h)

end Text
