import PerfEventTests.Lib.Scanning
import PerfEventTests.Lib.Text

/-!
# Format strings

`tools/event_parser.c`: `parse_format` reads the description of a register field, such as
`config1:1,6-10,44`. It accepts the descriptions that it should, and every other text behind a `:`
that has only digits, minuses and commas; a text without a `:` is read behind its terminator.
-/

namespace PerfEvent.Sysfs

open Scanning ByteMemory
open Text (Str bufsiz)

/-! ## The scanner -/

def fieldUnknown : Nat := 0
def fieldConfig : Nat := 1
def fieldConfig1 : Nat := 2
def fieldConfig2 : Nat := 3

/-- The name goes up to the first `:`. -/
def nameKind (c : Char) : Kind := if c = ':' then .stop else .go

def formatField (name : Str) : Nat :=
  if name = "config".toList then fieldConfig
  else if name = "config1".toList then fieldConfig1
  else if name = "config2".toList then fieldConfig2
  else fieldUnknown

def numberKind (c : Char) : Kind :=
  if c = '-' then .stop
  else if c = ',' then .stop
  else if c < '0' ∨ '9' < c then .fail
  else .go

/-- `num*=10; num+=string[i]-'0';` -/
def addDigit (num : Int) (c : Char) : Int :=
  toInt32 (toInt32 (num * 10) + ((c.toNat : Int) - '0'.toNat))

/-- The value of `v<<n`, which is anything where C does not define it. -/
def shl (wild : BitVec 64 → Int → BitVec 64) (v : BitVec 64) (n : Int) : BitVec 64 :=
  if 0 ≤ n ∧ n < 64 then v <<< n.toNat else wild v n

variable (wild : BitVec 64 → Int → BitVec 64)

def addBits (mask : BitVec 64) (bits shift : Int) : BitVec 64 :=
  if bits = 64 then mask ||| BitVec.allOnes 64
  else mask ||| shl wild (shl wild 1 bits - 1) shift

/-- The second number of a range, from the minus at `i`. -/
def readSecond (firstnum : Int) (rest : Str) (i : Nat) :
    Except Fault (Option (Int × Int × Str × Nat)) := do
  let i ← next i
  match ← scan numberKind addDigit rest i 0 with
  | none => return none
  | some (secondnum, rest, i) =>
    return some (firstnum, toInt32 (toInt32 (secondnum - firstnum) + 1), rest, i)

/-- One round of the loop, from the separator at `i`: `shift`, `bits` and what is left, or nothing
where a character is unknown. -/
def readItem (rest : Str) (i : Nat) : Except Fault (Option (Int × Int × Str × Nat)) := do
  let i ← next i
  match ← scan numberKind addDigit rest i 0 with
  | none => return none
  | some (firstnum, '-' :: rest, i) => readSecond firstnum rest i
  | some (firstnum, rest, i) => return some (firstnum, 1, rest, i)

/-! ### The shapes of a round -/

/-- The text behind a number: its end, or a separator. -/
def Stops (u : Str) : Prop := ∀ c ∈ u.head?, numberKind c = .stop

def Digits (t : Str) : Prop := ∀ c ∈ t, numberKind c = .go

def numberValue (t : Str) : Int := t.foldl addDigit 0

/-- What stands behind a separator: a number or two, and then a separator, the end or a character
that is unknown. -/
inductive Shape : Str → Prop where
  | single {t u : Str} (ht : Digits t) (hu : u = [] ∨ ∃ w, u = ',' :: w) : Shape (t ++ u)
  | pair {t v u : Str} (ht : Digits t) (hv : Digits v) (hu : Stops u) :
      Shape (t ++ '-' :: (v ++ u))
  | bad {t u : Str} {c : Char} (ht : Digits t) (hc : numberKind c = .fail) : Shape (t ++ c :: u)
  | pairBad {t v u : Str} {c : Char} (ht : Digits t) (hv : Digits v) (hc : numberKind c = .fail) :
      Shape (t ++ '-' :: (v ++ c :: u))

theorem numberKind_stop {c : Char} (h : numberKind c = .stop) : c = '-' ∨ c = ',' := by
  unfold numberKind at h
  split at h
  · exact .inl ‹_›
  · split at h
    · exact .inr ‹_›
    · split at h <;> cases h

theorem digits_taken (s : Str) : Digits (taken numberKind s) := by
  intro c hc
  have hall := List.all_eq_true.1 (List.all_takeWhile (p := (numberKind · = .go)) (l := s)) c hc
  simpa using hall

theorem shape (rest : Str) : Shape rest := by
  have ht := digits_taken rest
  rw [← taken_append_remaining numberKind rest]
  cases hrest : remaining numberKind rest with
  | nil => exact .single ht (.inl rfl)
  | cons c w =>
    have hc := remaining_head hrest
    cases hkind : numberKind c with
    | go => exact absurd hkind hc
    | fail => exact .bad ht hkind
    | stop =>
      obtain rfl | rfl := numberKind_stop hkind
      · -- the second number
        have hv := digits_taken w
        rw [← taken_append_remaining numberKind w]
        cases hw : remaining numberKind w with
        | nil => exact .pair ht hv (by simp [Stops])
        | cons c' w' =>
          have hc' := remaining_head hw
          cases hkind' : numberKind c' with
          | go => exact absurd hkind' hc'
          | fail => exact .pairBad ht hv hkind'
          | stop => exact .pair ht hv (by simpa [Stops] using hkind')
      · exact .single ht (.inr ⟨w, rfl⟩)

variable {t v u : Str} {c : Char} {i : Nat}

theorem readItem_single (ht : Digits t) (hu : u = [] ∨ ∃ w, u = ',' :: w) :
    readItem (t ++ u) i =
      if i + 1 + t.length < indexLimit then .ok (some (numberValue t, 1, u, i + 1 + t.length))
      else .error .outside := by
  have hstops : Stops u := by
    obtain rfl | ⟨w, rfl⟩ := hu
    · simp [Stops]
    · simp only [Stops, List.head?_cons, Option.mem_some_iff, forall_eq']
      decide
  by_cases hnext : i + 1 < indexLimit
  · by_cases hend : i + 1 + t.length < indexLimit
    · simp only [readItem, next, if_pos hnext, scan_run ht hstops hnext, if_pos hend, bind,
        Except.bind]
      obtain rfl | ⟨w, rfl⟩ := hu <;> rfl
    · simp only [readItem, next, if_pos hnext, scan_run ht hstops hnext, if_neg hend, bind,
        Except.bind]
  · have hend : ¬ i + 1 + t.length < indexLimit := by omega
    simp only [readItem, next, if_neg hnext, if_neg hend, bind, Except.bind]

theorem readItem_bad (ht : Digits t) (hc : numberKind c = .fail) :
    readItem (t ++ c :: u) i =
      if i + 1 + t.length < indexLimit then .ok none else .error .outside := by
  by_cases hnext : i + 1 < indexLimit
  · by_cases hend : i + 1 + t.length < indexLimit
    · simp only [readItem, next, if_pos hnext, scan_fail ht hc hnext, if_pos hend, bind, Except.bind]
      rfl
    · simp only [readItem, next, if_pos hnext, scan_fail ht hc hnext, if_neg hend, bind, Except.bind]
  · have hend : ¬ i + 1 + t.length < indexLimit := by omega
    simp only [readItem, next, if_neg hnext, if_neg hend, bind, Except.bind]

/-- The first number of a pair is read, and the scanner is at the minus. -/
theorem readItem_minus (ht : Digits t) (w : Str) :
    readItem (t ++ '-' :: w) i =
      if i + 1 + t.length < indexLimit then readSecond (numberValue t) w (i + 1 + t.length)
      else .error .outside := by
  have hstops : Stops ('-' :: w) := by
    simp only [Stops, List.head?_cons, Option.mem_some_iff, forall_eq']
    decide
  by_cases hnext : i + 1 < indexLimit
  · by_cases hend : i + 1 + t.length < indexLimit
    · simp only [readItem, next, if_pos hnext, scan_run ht hstops hnext, if_pos hend, bind,
        Except.bind]
      rfl
    · simp only [readItem, next, if_pos hnext, scan_run ht hstops hnext, if_neg hend, bind,
        Except.bind]
  · have hend : ¬ i + 1 + t.length < indexLimit := by omega
    simp only [readItem, next, if_neg hnext, if_neg hend, bind, Except.bind]

theorem readSecond_number (a : Int) (hv : Digits v) (hu : Stops u) :
    readSecond a (v ++ u) i =
      if i + 1 + v.length < indexLimit then .ok (some (a,
        toInt32 (toInt32 (numberValue v - a) + 1), u, i + 1 + v.length))
      else .error .outside := by
  by_cases hnext : i + 1 < indexLimit
  · by_cases hend : i + 1 + v.length < indexLimit
    · simp only [readSecond, next, if_pos hnext, scan_run hv hu hnext, if_pos hend, bind,
        Except.bind]
      rfl
    · simp only [readSecond, next, if_pos hnext, scan_run hv hu hnext, if_neg hend, bind,
        Except.bind]
  · have hend : ¬ i + 1 + v.length < indexLimit := by omega
    simp only [readSecond, next, if_neg hnext, if_neg hend, bind, Except.bind]

theorem readSecond_bad (a : Int) (hv : Digits v) (hc : numberKind c = .fail) :
    readSecond a (v ++ c :: u) i =
      if i + 1 + v.length < indexLimit then .ok none else .error .outside := by
  by_cases hnext : i + 1 < indexLimit
  · by_cases hend : i + 1 + v.length < indexLimit
    · simp only [readSecond, next, if_pos hnext, scan_fail hv hc hnext, if_pos hend, bind,
        Except.bind]
      rfl
    · simp only [readSecond, next, if_pos hnext, scan_fail hv hc hnext, if_neg hend, bind,
        Except.bind]
  · have hend : ¬ i + 1 + v.length < indexLimit := by omega
    simp only [readSecond, next, if_neg hnext, if_neg hend, bind, Except.bind]

theorem readItem_pair (ht : Digits t) (hv : Digits v) (hu : Stops u) :
    readItem (t ++ '-' :: (v ++ u)) i =
      if i + t.length + v.length + 2 < indexLimit then .ok (some (numberValue t,
        toInt32 (toInt32 (numberValue v - numberValue t) + 1), u, i + t.length + v.length + 2))
      else .error .outside := by
  have hlength : i + 1 + t.length + 1 + v.length = i + t.length + v.length + 2 := by omega
  rw [readItem_minus ht, readSecond_number _ hv hu, hlength]
  by_cases hend : i + t.length + v.length + 2 < indexLimit
  · rw [if_pos (show i + 1 + t.length < indexLimit by omega)]
  · rw [if_neg hend, ite_self]

theorem readItem_pairBad (ht : Digits t) (hv : Digits v) (hc : numberKind c = .fail) :
    readItem (t ++ '-' :: (v ++ c :: u)) i =
      if i + t.length + v.length + 2 < indexLimit then .ok none else .error .outside := by
  have hlength : i + 1 + t.length + 1 + v.length = i + t.length + v.length + 2 := by omega
  rw [readItem_minus ht, readSecond_bad _ hv hc, hlength]
  by_cases hend : i + t.length + v.length + 2 < indexLimit
  · rw [if_pos (show i + 1 + t.length < indexLimit by omega)]
  · rw [if_neg hend, ite_self]

theorem readItem_length {rest rest' : Str} {i i' : Nat} {shift bits : Int}
    (h : readItem rest i = .ok (some (shift, bits, rest', i'))) : rest'.length ≤ rest.length := by
  cases shape rest with
  | single ht hu =>
    rw [readItem_single ht hu] at h
    split at h <;> simp_all
  | pair ht hv hu =>
    rw [readItem_pair ht hv hu] at h
    split at h <;> simp_all
    omega
  | bad ht hc =>
    rw [readItem_bad ht hc] at h
    split at h <;> cases h
  | pairBad ht hv hc =>
    rw [readItem_pairBad ht hv hc] at h
    split at h <;> cases h

/-- The rounds of the loop: the value returned and the mask. -/
def readItems (rest : Str) (i : Nat) (mask : BitVec 64) : Except Fault (Int × BitVec 64) :=
  match h : readItem rest i with
  | .error e => .error e
  | .ok none => .ok (-1, mask)
  | .ok (some (shift, bits, [], _)) => .ok (0, addBits wild mask bits shift)
  | .ok (some (shift, bits, _ :: rest', i)) => readItems rest' i (addBits wild mask bits shift)
termination_by rest.length
decreasing_by
  have := readItem_length h
  rw [List.length_cons] at this
  omega

structure FormatResult where
  value : Int
  fieldType : Nat
  mask : BitVec 64

def parseFormat (string : Str) : Except Fault FormatResult := do
  match ← scan nameKind (fun name c => name ++ [c]) string 0 [] with
  | none => throw .outside
  | some (name, rest, i) =>
    if bufsiz ≤ name.length then throw .overflow
    match rest with
    -- `i` is at the terminator: the loop goes on behind it
    | [] => throw .outside
    | _ :: rest =>
      let (value, mask) ← readItems wild rest i 0
      return ⟨value, formatField name, mask⟩

/-! ## What is returned -/

/-- A digit, a minus or a comma. -/
def FormatChar (c : Char) : Prop := numberKind c ≠ .fail

instance (c : Char) : Decidable (FormatChar c) := inferInstanceAs (Decidable (_ ≠ _))

/-- The text up to the first character that is unknown. -/
def known (rest : Str) : Str := rest.takeWhile (FormatChar ·)

theorem known_append {t u : Str} (ht : ∀ c ∈ t, FormatChar c) : known (t ++ u) = t ++ known u :=
  List.takeWhile_append_of_pos fun c hc => decide_eq_true (ht c hc)

theorem known_bad {c : Char} (hc : numberKind c = .fail) (u : Str) : known (c :: u) = [] := by
  simp [known, FormatChar, hc]

theorem known_cons {c : Char} (hc : FormatChar c) (u : Str) : known (c :: u) = c :: known u := by
  simp [known, hc]

theorem Digits.known {t : Str} (ht : Digits t) : ∀ c ∈ t, FormatChar c := by
  intro c hc
  simp [FormatChar, ht c hc]

/-- The scan goes up to the end or up to an unknown character; it fails at the latter. -/
def Outcome (g : Str) (rest : Str) (i : Nat) (r : Except Fault (Int × BitVec 64)) : Prop :=
  (i + 1 + g.length < indexLimit ∧ ∃ mask, r = .ok (if g = rest then 0 else -1, mask)) ∨
    (indexLimit ≤ i + 1 + g.length ∧ r = .error .outside)

variable {wild}

variable {mask : BitVec 64} {rest w : Str} {a b : Int}

theorem readItems_error {e : Fault} (h : readItem rest i = .error e) :
    readItems wild rest i mask = .error e := by
  rw [readItems]
  split <;> simp_all

theorem readItems_bad (h : readItem rest i = .ok none) :
    readItems wild rest i mask = .ok (-1, mask) := by
  rw [readItems]
  split <;> simp_all

theorem readItems_last {k : Nat} (h : readItem rest i = .ok (some (a, b, [], k))) :
    readItems wild rest i mask = .ok (0, addBits wild mask b a) := by
  rw [readItems]
  split <;> simp_all

theorem readItems_more {k : Nat} (h : readItem rest i = .ok (some (a, b, c :: w, k))) :
    readItems wild rest i mask = readItems wild w k (addBits wild mask b a) := by
  rw [readItems]
  split <;> simp_all

/-- A round that comes to its end before the scan does. -/
theorem Outcome.behind {g p : Str} {r : Except Fault (Int × BitVec 64)} {k : Nat}
    (h : Outcome g w k r) (hk : k = i + p.length) : Outcome (p ++ g) (p ++ w) i r := by
  have hlength : i + 1 + (p ++ g).length = k + 1 + g.length := by
    rw [List.length_append]
    omega
  unfold Outcome
  rw [hlength]
  simpa only [Outcome, List.append_cancel_left_eq] using h

/-- A round that ends with an unknown character. -/
theorem outcome_bad {p : Str} (hp : ∀ d ∈ p, FormatChar d) (hc : numberKind c = .fail)
    (h : readItem (p ++ c :: u) i =
      if i + p.length + 1 < indexLimit then .ok none else .error .outside) :
    Outcome (known (p ++ c :: u)) (p ++ c :: u) i (readItems wild (p ++ c :: u) i mask) := by
  have hknown : known (p ++ c :: u) = p := by
    rw [known_append hp, known_bad hc, List.append_nil]
  have hlength : i + 1 + p.length = i + p.length + 1 := by omega
  unfold Outcome
  rw [hknown, hlength]
  by_cases hend : i + p.length + 1 < indexLimit
  · rw [if_pos hend] at h
    refine .inl ⟨hend, mask, ?_⟩
    rw [readItems_bad h, if_neg (by simp)]
  · rw [if_neg hend] at h
    exact .inr ⟨Nat.not_lt.1 hend, readItems_error h⟩

/-- A round that ends at the end of the text or at a separator. -/
theorem outcome_round {p : Str} (hp : ∀ d ∈ p, FormatChar d) (hu : Stops u)
    (h : readItem (p ++ u) i =
      if i + p.length + 1 < indexLimit then .ok (some (a, b, u, i + p.length + 1))
      else .error .outside)
    (hrest : ∀ d w, u = d :: w → i + p.length + 1 < indexLimit →
      Outcome (known w) w (i + p.length + 1)
        (readItems wild w (i + p.length + 1) (addBits wild mask b a))) :
    Outcome (known (p ++ u)) (p ++ u) i (readItems wild (p ++ u) i mask) := by
  by_cases hend : i + p.length + 1 < indexLimit
  · rw [if_pos hend] at h
    cases u with
    | nil =>
      rw [readItems_last h, known_append hp]
      refine .inl ⟨?_, addBits wild mask b a, by simp [known]⟩
      rw [List.length_append]
      simp only [known, List.takeWhile_nil, List.length_nil]
      omega
    | cons d w =>
      have hd : FormatChar d := by
        have hstop : numberKind d = .stop := hu d rfl
        simp [FormatChar, hstop]
      have hsplit : p ++ d :: w = (p ++ [d]) ++ w := by simp
      have hknown : known (p ++ d :: w) = (p ++ [d]) ++ known w := by
        rw [known_append hp, known_cons hd]
        simp
      rw [readItems_more h, hknown, hsplit]
      exact (hrest d w rfl hend).behind (by simp; omega)
  · rw [if_neg hend] at h
    refine .inr ⟨?_, readItems_error h⟩
    rw [known_append hp, List.length_append]
    omega

variable (wild) in
/-- The induction is over the length of what is left, one round at a time. -/
theorem readItems_outcome (rest : Str) (i : Nat) (mask : BitVec 64) :
    Outcome (known rest) rest i (readItems wild rest i mask) := by
  induction hn : rest.length using Nat.strongRecOn generalizing rest i mask with
  | ind n ih =>
    subst hn
    cases shape rest with
    | @single t u ht hu =>
      have hstops : Stops u := by
        obtain rfl | ⟨w, rfl⟩ := hu
        · simp [Stops]
        · simp only [Stops, List.head?_cons, Option.mem_some_iff, forall_eq']
          decide
      have hround := readItem_single ht hu (i := i)
      rw [show i + 1 + t.length = i + t.length + 1 by omega] at hround
      refine outcome_round ht.known hstops hround fun d w hw _ => ih _ ?_ w _ _ rfl
      rw [hw, List.length_append, List.length_cons]
      omega
    | @pair t v u ht hv hu =>
      have hsplit : t ++ '-' :: (v ++ u) = (t ++ '-' :: v) ++ u := by simp
      have hp : ∀ d ∈ t ++ '-' :: v, FormatChar d := by
        simp only [List.mem_append, List.mem_cons]
        rintro d (hd | rfl | hd)
        · exact ht.known d hd
        · decide
        · exact hv.known d hd
      have hround := readItem_pair ht hv hu (i := i)
      rw [hsplit, show i + t.length + v.length + 2 = i + (t ++ '-' :: v).length + 1 by
        simp; omega] at hround
      rw [hsplit]
      refine outcome_round hp hu hround fun d w hw _ => ih _ ?_ w _ _ rfl
      rw [hw, List.length_append, List.length_cons, List.length_append, List.length_cons]
      omega
    | @bad t u c ht hc =>
      have hround := readItem_bad ht hc (i := i) (u := u)
      rw [show i + 1 + t.length = i + t.length + 1 by omega] at hround
      exact outcome_bad ht.known hc hround
    | @pairBad t v u c ht hv hc =>
      have hsplit : t ++ '-' :: (v ++ c :: u) = (t ++ '-' :: v) ++ c :: u := by simp
      have hp : ∀ d ∈ t ++ '-' :: v, FormatChar d := by
        simp only [List.mem_append, List.mem_cons]
        rintro d (hd | rfl | hd)
        · exact ht.known d hd
        · decide
        · exact hv.known d hd
      have hround := readItem_pairBad ht hv hc (i := i) (u := u)
      rw [hsplit, show i + t.length + v.length + 2 = i + (t ++ '-' :: v).length + 1 by
        simp; omega] at hround
      rw [hsplit]
      exact outcome_bad hp hc hround

/-! ## Descriptions -/

/-- A number in decimal. -/
def IsNumber (t : Str) (n : Nat) : Prop :=
  t ≠ [] ∧ Digits t ∧ t.foldl (fun n c => n * 10 + (c.toNat - '0'.toNat)) 0 = n

/-- A bit number, or a range of them. -/
inductive ItemText : Str → Nat → Nat → Prop where
  | bit {t : Str} {a : Nat} (ht : IsNumber t a) (ha : a ≤ 63) : ItemText t a a
  | range {t v : Str} {a b : Nat} (ht : IsNumber t a) (hv : IsNumber v b) (hab : a ≤ b)
      (hb : b ≤ 63) : ItemText (t ++ '-' :: v) a b

/-- Items behind commas, with the ranges that they stand for. -/
inductive ItemsText : Str → List (Nat × Nat) → Prop where
  | last {t : Str} {a b : Nat} (h : ItemText t a b) : ItemsText t [(a, b)]
  | more {t v : Str} {a b : Nat} {items : List (Nat × Nat)} (h : ItemText t a b)
      (hrest : ItemsText v items) : ItemsText (t ++ ',' :: v) ((a, b) :: items)

/-- The description of a register field, for any notion of the names of registers. -/
def Describes (IsRegister : Str → Prop) (string : Str) (items : List (Nat × Nat)) : Prop :=
  ∃ name body, string = name ++ ':' :: body ∧ ':' ∉ name ∧ IsRegister name ∧ ItemsText body items

theorem digit_range {c : Char} (h : numberKind c = .go) :
    '0'.toNat ≤ c.toNat ∧ c.toNat < '0'.toNat + 10 := by
  unfold numberKind at h
  split at h
  · cases h
  · split at h
    · cases h
    · split at h
      · cases h
      · obtain ⟨hlow, hhigh⟩ := not_or.1 ‹¬ (c < '0' ∨ '9' < c)›
        have hge : '0'.toNat ≤ c.toNat := Char.not_lt.1 hlow
        have hle : c.toNat ≤ '9'.toNat := Char.not_lt.1 hhigh
        have hnine : '9'.toNat = '0'.toNat + 9 := rfl
        omega

/-- What a number is at least: its first digits. -/
theorem le_foldl_digits (t : Str) (m : Nat) :
    m ≤ t.foldl (fun n c => n * 10 + (c.toNat - '0'.toNat)) m := by
  induction t generalizing m with
  | nil => exact Nat.le_refl m
  | cons c t ih => exact Nat.le_trans (by omega) (ih (m * 10 + (c.toNat - '0'.toNat)))

/-- A number that fits is collected without overflow. -/
theorem foldl_addDigit {t : Str} (ht : Digits t) (m : Nat)
    (hfits : t.foldl (fun n c => n * 10 + (c.toNat - '0'.toNat)) m < 2 ^ 31) :
    t.foldl addDigit (m : Int) =
      (t.foldl (fun n c => n * 10 + (c.toNat - '0'.toNat)) m : Nat) := by
  induction t generalizing m with
  | nil => rfl
  | cons c t ih =>
    have hle := le_foldl_digits t (m * 10 + (c.toNat - '0'.toNat))
    rw [List.foldl_cons] at hfits ⊢
    have hstep : addDigit m c = (m * 10 + (c.toNat - '0'.toNat) : Nat) := by
      obtain ⟨hge, hlt⟩ := digit_range (ht c List.mem_cons_self)
      unfold addDigit
      rw [toInt32_of_range (x := (m : Int) * 10) (by omega) (by omega),
        toInt32_of_range (by omega) (by omega)]
      omega
    rw [hstep, List.foldl_cons]
    exact ih (fun d hd => ht d (List.mem_cons_of_mem c hd)) _ hfits

theorem IsNumber.value {t : Str} {n : Nat} (h : IsNumber t n) (hn : n ≤ 63) : numberValue t = n := by
  obtain ⟨-, hdigits, hvalue⟩ := h
  have hfold := foldl_addDigit hdigits 0 (by omega)
  rw [hvalue] at hfold
  exact hfold

/-- One item is one round. -/
theorem readItem_item {t : Str} {a b : Nat} (h : ItemText t a b)
    (hu : u = [] ∨ ∃ w, u = ',' :: w) (hend : i + 1 + t.length < indexLimit) :
    a ≤ b ∧ b ≤ 63 ∧
      readItem (t ++ u) i = .ok (some (a, b - a + 1, u, i + 1 + t.length)) := by
  have hstops : Stops u := by
    obtain rfl | ⟨w, rfl⟩ := hu
    · simp [Stops]
    · simp only [Stops, List.head?_cons, Option.mem_some_iff, forall_eq']
      decide
  cases h with
  | bit ht ha =>
    refine ⟨Nat.le_refl _, ha, ?_⟩
    rw [readItem_single ht.2.1 hu, if_pos hend, ht.value ha, Int.sub_self]
    rfl
  | @range t v a b ht hv hab hb =>
    have hlength : i + t.length + v.length + 2 = i + 1 + (t ++ '-' :: v).length := by
      simp
      omega
    have hbits : toInt32 (toInt32 ((b : Int) - a) + 1) = b - a + 1 := by
      rw [toInt32_of_range (x := (b : Int) - a) (by omega) (by omega),
        toInt32_of_range (by omega) (by omega)]
    refine ⟨hab, hb, ?_⟩
    rw [List.append_assoc, List.cons_append, readItem_pair ht.2.1 hv.2.1 hstops, hlength,
      if_pos hend, ht.value (by omega), hv.value hb, hbits]

theorem getLsbD_ones {n : Nat} (hn : n < 64) (k : Nat) :
    ((1 : BitVec 64) <<< n - 1).getLsbD k = decide (k < n) := by
  have hpow : 2 ^ n < 2 ^ 64 := Nat.pow_lt_pow_right (by decide) hn
  have hpos : 0 < 2 ^ n := Nat.two_pow_pos n
  have hones : ((1 : BitVec 64) <<< n - 1).toNat = 2 ^ n - 1 := by
    rw [BitVec.toNat_sub, BitVec.toNat_shiftLeft, Nat.shiftLeft_eq]
    change (2 ^ 64 - 1 + 1 * 2 ^ n % 2 ^ 64) % 2 ^ 64 = _
    rw [Nat.one_mul, Nat.mod_eq_of_lt hpow]
    omega
  rw [BitVec.getLsbD, hones, Nat.testBit_two_pow_sub_one]

/-- The bits of one item are added. -/
theorem addBits_getLsbD {a b : Nat} (hab : a ≤ b) (hb : b ≤ 63) (mask : BitVec 64) {k : Nat}
    (hk : k < 64) : (addBits wild mask (b - a + 1) a).getLsbD k = true ↔
      mask.getLsbD k = true ∨ (a ≤ k ∧ k ≤ b) := by
  have hbits : (b : Int) - a + 1 = (b - a + 1 : Nat) := by omega
  unfold addBits
  rw [hbits]
  split
  case isTrue hall =>
    -- the range is all of the mask
    have hinside : a ≤ k ∧ k ≤ b := by omega
    rw [BitVec.getLsbD_or, BitVec.getLsbD_allOnes]
    simp [hk, hinside]
  case isFalse hsome =>
    have hshift : (0 : Int) ≤ (a : Int) ∧ (a : Int) < 64 := by omega
    have hones : (0 : Int) ≤ (b - a + 1 : Nat) ∧ ((b - a + 1 : Nat) : Int) < 64 := by omega
    have hlt : b - a + 1 < 64 := by omega
    simp only [shl, if_pos hshift, if_pos hones, Int.toNat_natCast, BitVec.getLsbD_or,
      BitVec.getLsbD_shiftLeft, getLsbD_ones hlt, hk, decide_true, Bool.true_and, Bool.or_eq_true,
      Bool.and_eq_true, Bool.not_eq_true', decide_eq_false_iff_not, decide_eq_true_eq]
    refine or_congr Iff.rfl ?_
    omega

variable (wild) in
/-- The induction is over the items. -/
theorem readItems_items {body : Str} {items : List (Nat × Nat)} (h : ItemsText body items)
    (hend : i + 1 + body.length < indexLimit) (mask : BitVec 64) :
    ∃ mask', readItems wild body i mask = .ok (0, mask') ∧ ∀ k < 64,
      (mask'.getLsbD k = true ↔ mask.getLsbD k = true ∨ ∃ r ∈ items, r.1 ≤ k ∧ k ≤ r.2) := by
  induction h generalizing i mask with
  | @last t a b h =>
    obtain ⟨hab, hb, hround⟩ := readItem_item (i := i) h (.inl rfl) hend
    rw [List.append_nil] at hround
    refine ⟨_, readItems_last hround, fun k hk => ?_⟩
    rw [addBits_getLsbD hab hb mask hk]
    simp
  | @more t v a b items h hrest ih =>
    rw [List.length_append, List.length_cons] at hend
    obtain ⟨hab, hb, hround⟩ := readItem_item (i := i) h (.inr ⟨v, rfl⟩) (by omega)
    obtain ⟨mask', hrun, hmask'⟩ := ih (i := i + 1 + t.length) (by omega) (addBits wild mask (b - a + 1) a)
    refine ⟨mask', (readItems_more hround).trans hrun, fun k hk => ?_⟩
    rw [hmask' k hk, addBits_getLsbD hab hb mask hk]
    simp [or_assoc]

/-! ## What `parse_format` accepts -/

/-- The string is read inside, zero is returned exactly for descriptions, and then the mask is the
union of their items. -/
def Right (wild : BitVec 64 → Int → BitVec 64) (IsRegister : Str → Prop) (string : Str) : Prop :=
  ∃ result, parseFormat wild string = .ok result ∧
    (result.value = 0 ↔ ∃ items, Describes IsRegister string items) ∧
    ∀ items, Describes IsRegister string items → ∀ k < 64,
      (result.mask.getLsbD k = true ↔ ∃ r ∈ items, r.1 ≤ k ∧ k ≤ r.2)

/-- There is a `:` behind a name that fits, and then there is either a description that fits, or a
character that is unknown. -/
def Checked (IsRegister : Str → Prop) (string : Str) : Prop :=
  ∃ name body, string = name ++ ':' :: body ∧ ':' ∉ name ∧ name.length < bufsiz ∧
    ((IsRegister name ∧ (∃ items, ItemsText body items) ∧ string.length < indexLimit) ∨
      ∃ t c u, body = t ++ c :: u ∧ ¬ FormatChar c ∧ name.length + 1 + t.length < indexLimit)

theorem nameKind_go {name : Str} (h : ':' ∉ name) : ∀ c ∈ name, nameKind c = .go := by
  intro c hc
  have hne : c ≠ ':' := fun heq => h (heq ▸ hc)
  simp [nameKind, hne]

/-- The name is what stands before the first `:`. -/
theorem taken_name {name body : Str} (h : ':' ∉ name) :
    taken nameKind (name ++ ':' :: body) = name ∧
      remaining nameKind (name ++ ':' :: body) = ':' :: body :=
  taken_append (nameKind_go h) (by simp [nameKind])

theorem name_unique {name name' body body' : Str} (h : ':' ∉ name) (h' : ':' ∉ name')
    (heq : name ++ ':' :: body = name' ++ ':' :: body') : name = name' ∧ body = body' := by
  have hname : taken nameKind (name ++ ':' :: body) = name := (taken_name h).1
  rw [heq, (taken_name h').1] at hname
  subst hname
  simpa using heq

theorem foldl_snoc (t s : Str) : t.foldl (fun name c => name ++ [c]) s = s ++ t := by
  induction t generalizing s with
  | nil => simp
  | cons c t ih => simp [ih]

theorem parseFormat_colon {name body : Str} (h : ':' ∉ name) (hlength : name.length < bufsiz) :
    parseFormat wild (name ++ ':' :: body) =
      (readItems wild body name.length 0).map fun r => ⟨r.1, formatField name, r.2⟩ := by
  have hlimit : 0 + name.length < indexLimit := by
    unfold bufsiz at hlength
    unfold indexLimit
    omega
  have hname : scan nameKind (fun name c => name ++ [c]) (name ++ ':' :: body) 0 [] =
      .ok (some (name, ':' :: body, name.length)) := by
    rw [scan_eq _ (by decide), (taken_name h).1, (taken_name h).2, if_pos hlimit, foldl_snoc]
    simp [nameKind]
  simp only [parseFormat, hname, bind, Except.bind, if_neg (Nat.not_le.2 hlength)]
  cases readItems wild body name.length 0 <;> rfl

/-- Without a name that fits in front of a `:`, the scanner goes wrong. -/
theorem parseFormat_ok {string : Str} {result : FormatResult}
    (h : parseFormat wild string = .ok result) :
    ∃ name body, string = name ++ ':' :: body ∧ ':' ∉ name ∧ name.length < bufsiz := by
  have hname : ':' ∉ taken nameKind string := by
    intro hmem
    have hgo := List.all_eq_true.1 (List.all_takeWhile (p := (nameKind · = .go)) (l := string)) _ hmem
    simp [nameKind] at hgo
  have hscan : scan nameKind (fun name c => name ++ [c]) string 0 [] = _ :=
    scan_eq string (by decide) []
  have hsplit := taken_append_remaining nameKind string
  cases hrest : remaining nameKind string with
  | nil =>
    rw [hrest] at hscan
    simp only [parseFormat, hscan] at h
    by_cases hlimit : 0 + (taken nameKind string).length < indexLimit
    · simp only [if_pos hlimit, bind, Except.bind] at h
      split at h <;> cases h
    · simp only [if_neg hlimit, bind, Except.bind] at h
      cases h
  | cons c body =>
    have hc : c = ':' := by
      have hstop := remaining_head hrest
      by_contra hne
      simp [nameKind, hne] at hstop
    rw [hrest] at hsplit
    subst hc
    refine ⟨taken nameKind string, body, hsplit.symm, hname, ?_⟩
    by_contra hlong
    rw [hrest] at hscan
    simp only [parseFormat, hscan] at h
    by_cases hlimit : 0 + (taken nameKind string).length < indexLimit
    · rw [foldl_snoc, List.nil_append] at h
      simp only [if_pos hlimit, nameKind, if_true, reduceCtorEq, if_false, bind, Except.bind,
        if_pos (Nat.not_lt.1 hlong)] at h
    · simp only [if_neg hlimit, bind, Except.bind] at h
      cases h

/-- Where a character is unknown, the known part ends before it. -/
theorem known_length_le {t u : Str} {c : Char} (hc : ¬ FormatChar c) :
    (known (t ++ c :: u)).length ≤ t.length := by
  induction t with
  | nil => simp [known, hc]
  | cons d t ih =>
    by_cases hd : FormatChar d
    · rw [List.cons_append, known_cons hd, List.length_cons, List.length_cons]
      omega
    · simp [known, hd]

theorem known_split {body : Str} (h : known body ≠ body) :
    ∃ c u, body = known body ++ c :: u ∧ ¬ FormatChar c := by
  have hsplit : known body ++ body.dropWhile (FormatChar ·) = body :=
    List.takeWhile_append_dropWhile
  cases hrest : body.dropWhile (FormatChar ·) with
  | nil =>
    rw [hrest, List.append_nil] at hsplit
    exact absurd hsplit h
  | cons c u =>
    have hhead := List.head?_dropWhile_not (FormatChar ·) body
    rw [hrest] at hhead hsplit
    exact ⟨c, u, hsplit.symm, by simpa using hhead⟩

theorem ItemText.known {t : Str} {a b : Nat} (h : ItemText t a b) : ∀ c ∈ t, FormatChar c := by
  cases h with
  | bit ht ha => exact ht.2.1.known
  | range ht hv hab hb =>
    simp only [List.mem_append, List.mem_cons]
    rintro c (hc | rfl | hc)
    · exact ht.2.1.known c hc
    · decide
    · exact hv.2.1.known c hc

theorem ItemsText.known {body : Str} {items : List (Nat × Nat)} (h : ItemsText body items) :
    ∀ c ∈ body, FormatChar c := by
  induction h with
  | last h => exact h.known
  | more h hrest ih =>
    simp only [List.mem_append, List.mem_cons]
    rintro c (hc | rfl | hc)
    · exact h.known c hc
    · decide
    · exact ih c hc

/-- For every notion of register names, and whatever the shifts give that C does not define. -/
theorem parseFormat_right_iff (wild : BitVec 64 → Int → BitVec 64) (IsRegister : Str → Prop)
    (string : Str) : Right wild IsRegister string ↔ Checked IsRegister string := by
  constructor
  · rintro ⟨result, hrun, hzero, -⟩
    obtain ⟨name, body, rfl, hname, hlength⟩ := parseFormat_ok hrun
    refine ⟨name, body, rfl, hname, hlength, ?_⟩
    rw [parseFormat_colon hname hlength] at hrun
    obtain ⟨hend, mask, hitems⟩ | ⟨-, hitems⟩ := readItems_outcome wild body name.length 0
    · rw [hitems] at hrun
      cases hrun
      by_cases hall : known body = body
      · -- the text has no character that is unknown: zero is returned
        obtain ⟨items, name', body', heq, hname', hregister, hdescribed⟩ := hzero.1 (if_pos hall)
        obtain ⟨rfl, rfl⟩ := name_unique hname hname' heq
        refine .inl ⟨hregister, ⟨items, hdescribed⟩, ?_⟩
        rw [hall] at hend
        rw [List.length_append, List.length_cons]
        omega
      · obtain ⟨c, u, hsplit, hc⟩ := known_split hall
        exact .inr ⟨known body, c, u, hsplit, hc, hend⟩
    · rw [hitems] at hrun
      cases hrun
  · rintro ⟨name, body, rfl, hname, hlength, ⟨hregister, ⟨items, hitems⟩, hend⟩ |
      ⟨t, c, u, rfl, hc, hend⟩⟩
    · rw [List.length_append, List.length_cons] at hend
      obtain ⟨mask, hrun, -⟩ := readItems_items wild (i := name.length) hitems (by omega) 0
      refine ⟨⟨0, formatField name, mask⟩, ?_, ?_, ?_⟩
      · rw [parseFormat_colon hname hlength, hrun]
        rfl
      · exact iff_of_true rfl ⟨items, name, body, rfl, hname, hregister, hitems⟩
      · rintro items' ⟨name', body', heq, hname', -, hitems'⟩ k hk
        obtain ⟨rfl, rfl⟩ := name_unique hname hname' heq
        obtain ⟨mask', hrun', hmask'⟩ := readItems_items wild (i := name.length) hitems' (by omega) 0
        rw [hrun] at hrun'
        cases hrun'
        simpa using hmask' k hk
    · have hshort := known_length_le hc (t := t) (u := u)
      have hne : known (t ++ c :: u) ≠ t ++ c :: u := by
        intro heq
        have := congrArg List.length heq
        rw [List.length_append, List.length_cons] at this
        omega
      have hnot : ∀ items, ¬ Describes IsRegister (name ++ ':' :: (t ++ c :: u)) items := by
        rintro items ⟨name', body', heq, hname', -, hitems⟩
        obtain ⟨-, rfl⟩ := name_unique hname hname' heq
        exact hc (hitems.known c (by simp))
      obtain ⟨-, mask, hrun⟩ | ⟨hlimit, -⟩ := readItems_outcome wild (t ++ c :: u) name.length 0
      · rw [if_neg hne] at hrun
        refine ⟨⟨-1, formatField name, mask⟩, ?_, ?_, fun items h => absurd h (hnot items)⟩
        · rw [parseFormat_colon hname hlength, hrun]
          rfl
        · exact iff_of_false (by simp) fun ⟨items, h⟩ => hnot items h
      · omega

/-- The names that `parse_format` knows. -/
def KnownRegister (name : Str) : Prop := formatField name ≠ fieldUnknown

/-- A description without a `:` is read behind its terminator. -/
theorem parseFormat_not_right : ¬ Right (fun _ _ => 0) KnownRegister "config".toList := by
  rintro ⟨result, hrun, -⟩
  cases hrun

end PerfEvent.Sysfs
