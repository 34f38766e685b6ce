import PerfEventTests.Lib.Text

/-!
# Lines in a buffer

`fgets` with a buffer of a given size, and texts that it finds again: a text that ends with its
only newline, or one without newline that fills the buffer.
-/

namespace Text

/-- A line of at most `n` characters, and the rest. -/
def fgets : Nat → Str → Str × Str
  | 0, s => ([], s)
  | _ + 1, [] => ([], [])
  | n + 1, c :: cs =>
    if c = '\n' then (['\n'], cs)
    else
      let r := fgets n cs
      (c :: r.1, r.2)

/-- The lines that a buffer of the given size holds one after the other, at most `n` of them. -/
def readLines (size : Nat) : Nat → Str → List Str
  | 0, _ => []
  | n + 1, s =>
    if s = [] then []
    else
      let r := fgets (size - 1) s
      r.1 :: readLines size n r.2

/-- The lines of a file. -/
def fileLines (size : Nat) (s : Str) : List Str := readLines size s.length s

/-- A text that is read as one line wherever it stands in a file. -/
def Framed (size : Nat) (text : Str) : Prop :=
  (∃ body, text = body ++ ['\n'] ∧ '\n' ∉ body ∧ text.length < size) ∨
    ('\n' ∉ text ∧ text.length = size - 1)

theorem fgets_newline {body : Str} (h : '\n' ∉ body) (rest : Str) :
    ∀ n, body.length < n → fgets n (body ++ '\n' :: rest) = (body ++ ['\n'], rest) := by
  induction body with
  | nil =>
    intro n hn
    cases n with
    | zero => omega
    | succ n => simp [fgets]
  | cons c body ih =>
    intro n hn
    rw [List.mem_cons, not_or] at h
    cases n with
    | zero => omega
    | succ n =>
      rw [List.length_cons] at hn
      rw [List.cons_append, fgets, if_neg fun hc => h.1 hc.symm, ih h.2 n (by omega)]
      rfl

theorem fgets_full {text : Str} (h : '\n' ∉ text) (rest : Str) :
    fgets text.length (text ++ rest) = (text, rest) := by
  induction text with
  | nil => cases rest <;> rfl
  | cons c text ih =>
    rw [List.mem_cons, not_or] at h
    rw [List.length_cons, List.cons_append, fgets, if_neg fun hc => h.1 hc.symm, ih h.2]

theorem fgets_framed {size : Nat} {text : Str} (h : Framed size text) (rest : Str) :
    fgets (size - 1) (text ++ rest) = (text, rest) := by
  rcases h with ⟨body, rfl, hbody, hlen⟩ | ⟨htext, hlen⟩
  · rw [List.length_append, List.length_singleton] at hlen
    rw [List.append_assoc, List.singleton_append, fgets_newline hbody rest _ (by omega)]
  · rw [← hlen, fgets_full htext]

theorem readLines_framed {size : Nat} (hsize : 1 < size) :
    ∀ (texts : List Str) (n : Nat), (∀ t ∈ texts, Framed size t) → texts.flatten.length ≤ n →
      readLines size n texts.flatten = texts
  | [], n, _, _ => by cases n <;> simp [readLines]
  | t :: texts, n, h, hn => by
    have ht := h t List.mem_cons_self
    have hpos : 0 < t.length := by
      rcases ht with ⟨body, rfl, -, -⟩ | ⟨-, hlen⟩
      · simp
      · omega
    rw [List.flatten_cons, List.length_append] at hn
    cases n with
    | zero => omega
    | succ n =>
      have hne : t ++ texts.flatten ≠ [] := by
        intro hnil
        rw [(List.append_eq_nil_iff.1 hnil).1] at hpos
        exact absurd hpos (by decide)
      rw [List.flatten_cons, readLines, if_neg hne, fgets_framed ht]
      dsimp only
      rw [readLines_framed hsize texts n (fun t' ht' => h t' (List.mem_cons_of_mem _ ht')) (by omega)]

/-- A file made of such texts is split into them. -/
theorem fileLines_framed {size : Nat} (hsize : 1 < size) {texts : List Str}
    (h : ∀ t ∈ texts, Framed size t) : fileLines size texts.flatten = texts :=
  readLines_framed hsize texts _ h le_rfl

/-! ## Short texts without newlines -/

/-- At most `n` characters, none of them a newline. -/
def Short (n : Nat) (t : Str) : Prop := t.length ≤ n ∧ '\n' ∉ t

theorem Short.mono {n m : Nat} {t : Str} (h : Short n t) (hnm : n ≤ m) : Short m t :=
  ⟨h.1.trans hnm, h.2⟩

theorem Short.append {n m : Nat} {t t' : Str} (h : Short n t) (h' : Short m t') :
    Short (n + m) (t ++ t') := by
  refine ⟨by rw [List.length_append]; exact Nat.add_le_add h.1 h'.1, fun hmem => ?_⟩
  rcases List.mem_append.1 hmem with hmem | hmem
  · exact h.2 hmem
  · exact h'.2 hmem

theorem short_toDigits {base : Nat} (hlo : 1 < base) (hhi : base ≤ 16) {n k : Nat} (hk : 0 < k)
    (hn : n < base ^ k) : Short k (Nat.toDigits base n) := by
  refine ⟨(Nat.length_toDigits_le_iff hlo hk).2 hn, fun hmem => ?_⟩
  obtain ⟨d, hd, hc⟩ := mem_toDigits hlo n _ hmem
  have hspace := (digitChar_ne_sign (show d < 16 by omega)).1
  rw [← hc] at hspace
  exact absurd hspace (by decide)

theorem short_decimal {v : Int} {k : Nat} (hk : 0 < k) (hv : v.natAbs < 10 ^ k) :
    Short (k + 1) (decimal v) := by
  have hdigits := short_toDigits (by decide) (by decide) hk hv
  unfold decimal
  split
  · rw [Nat.add_comm k 1]
    exact Short.append (t := ['-']) ⟨by simp, by decide⟩ hdigits
  · exact hdigits.mono (by omega)

theorem short_intText (v : Int) : Short 11 (intText v) := by
  have hlo := BitVec.le_toInt (BitVec.ofInt 32 v)
  have hhi := BitVec.toInt_lt (x := BitVec.ofInt 32 v)
  exact short_decimal (by decide) (by omega)

theorem short_longText (v : Int) : Short 20 (longText v) := by
  have hlo := BitVec.le_toInt (BitVec.ofInt 64 v)
  have hhi := BitVec.toInt_lt (x := BitVec.ofInt 64 v)
  exact short_decimal (by decide) (by omega)

theorem short_hex {n k : Nat} (hk : 0 < k) (hn : n < 16 ^ k) : Short k (hex n) :=
  short_toDigits (by decide) (by decide) hk hn

theorem short_texts {n : Nat} : ∀ {texts : List Str}, (∀ t ∈ texts, Short n t) →
    Short ((n + 1) * texts.length) (texts.flatMap fun t => ' ' :: t)
  | [], _ => ⟨by simp, by simp⟩
  | t :: texts, h => by
    have ht : Short (n + 1) (' ' :: t) := by
      have := Short.append (t := [' ']) (n := 1) ⟨by simp, by decide⟩ (h t List.mem_cons_self)
      rwa [Nat.add_comm 1 n] at this
    have := ht.append (short_texts fun t' ht' => h t' (List.mem_cons_of_mem _ ht'))
    rwa [List.flatMap_cons, List.length_cons, Nat.mul_succ, Nat.add_comm ((n + 1) * texts.length)]

/-- A line of short texts is read as one line. -/
theorem framed_line {size n : Nat} {letter : Char} {texts : List Str} (hletter : letter ≠ '\n')
    (h : ∀ t ∈ texts, Short n t) (hsize : (n + 1) * texts.length + 2 < size) :
    Framed size (line letter texts) := by
  obtain ⟨hlen, hnewline⟩ := short_texts h
  refine .inl ⟨letter :: texts.flatMap fun t => ' ' :: t, rfl, ?_, ?_⟩
  · rw [List.mem_cons, not_or]
    exact ⟨hletter.symm, hnewline⟩
  · simp only [line, List.length_append, List.length_cons, List.length_nil]
    omega

end Text
