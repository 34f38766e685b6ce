import PerfEventTests.Lib.Tokens

/-!
# Lines of words

A line is a letter and words with a blank in front of each. Here is what `sscanf` and a splitting at
blanks find in it, for the first words and for all of them.
-/

namespace Text

/-- No blank, no newline and no zero byte. -/
def Word (t : Str) : Prop := ∀ c ∈ t, c ≠ ' ' ∧ c ≠ '\n' ∧ c ≠ '\x00'

theorem word_nil : Word [] := fun _ h => absurd h List.not_mem_nil

theorem word_digitChar {d : Nat} (hd : d < 16) :
    d.digitChar ≠ ' ' ∧ d.digitChar ≠ '\n' ∧ d.digitChar ≠ '\x00' := by
  interval_cases d <;> decide

theorem word_toDigits {base : Nat} (hlo : 1 < base) (hhi : base ≤ 16) (n : Nat) :
    Word (Nat.toDigits base n) := by
  intro c hc
  obtain ⟨d, hd, rfl⟩ := mem_toDigits hlo n c hc
  exact word_digitChar (hd.trans_le hhi)

theorem word_cons {c : Char} {t : Str} (hc : c ≠ ' ' ∧ c ≠ '\n' ∧ c ≠ '\x00') (ht : Word t) :
    Word (c :: t) :=
  List.forall_mem_cons.2 ⟨hc, ht⟩

theorem word_decimal (v : Int) : Word (decimal v) := by
  have hdigits : Word (Nat.toDigits 10 v.natAbs) := word_toDigits (by decide) (by decide) _
  unfold decimal
  split
  · exact word_cons (by decide) hdigits
  · exact hdigits

theorem word_hex (n : Nat) : Word (hex n) := word_toDigits (by decide) (by decide) n

theorem word_intText (v : Int) : Word (intText v) := word_decimal _

theorem word_longText (v : Int) : Word (longText v) := word_decimal _

theorem mem_line {letter c : Char} {texts : List Str} (h : c ∈ line letter texts) :
    c = letter ∨ c = ' ' ∨ c = '\n' ∨ ∃ t ∈ texts, c ∈ t := by
  rw [line, List.mem_append, List.mem_cons, List.mem_flatMap, List.mem_singleton] at h
  rcases h with (rfl | ⟨t, ht, hc⟩) | rfl
  · exact .inl rfl
  · rcases List.mem_cons.1 hc with rfl | hc
    · exact .inr (.inl rfl)
    · exact .inr (.inr (.inr ⟨t, ht, hc⟩))
  · exact .inr (.inr (.inl rfl))

/-- A line of words has no zero byte. -/
theorem zero_not_mem_line {letter : Char} {texts : List Str} (hletter : letter ≠ '\x00')
    (h : ∀ t ∈ texts, Word t) : '\x00' ∉ line letter texts := by
  intro hmem
  obtain hc | hc | hc | ⟨t, ht, hc⟩ := mem_line hmem
  · exact hletter hc.symm
  · exact absurd hc (by decide)
  · exact absurd hc (by decide)
  · exact (h t ht _ hc).2.2 rfl

/-! ## Scanning the first words -/

theorem flatMap_blank (items : List Item) (rest : Str) :
    items.flatMap (fun i => ' ' :: i.text) ++ ' ' :: rest =
      ' ' :: (items.flatMap (fun i => i.text ++ [' ']) ++ rest) := by
  induction items with
  | nil => rfl
  | cons i items ih =>
    rw [List.flatMap_cons, List.flatMap_cons, List.append_assoc, ih]
    simp

/-- The words in front are scanned, whatever stands behind them. -/
theorem sscanfLine_items (letter : Char) (items : List Item)
    (h : ∀ i ∈ items, Scans i.conv i.text i.value) (rest : Str) :
    sscanfLine (items.map Item.conv)
      (letter :: (items.flatMap (fun i => ' ' :: i.text) ++ ' ' :: rest)) =
        items.map Item.value := by
  rw [sscanfLine, List.drop_one, List.tail_cons, flatMap_blank, sscanf_blank, sscanf_items _ _ h]

theorem sscanfLine_front (letter : Char) (items : List Item)
    (h : ∀ i ∈ items, Scans i.conv i.text i.value) (t : Str) (texts : List Str) :
    sscanfLine (items.map Item.conv) (line letter (items.map Item.text ++ t :: texts)) =
      items.map Item.value := by
  have hline : line letter (items.map Item.text ++ t :: texts) =
      letter :: (items.flatMap (fun i => ' ' :: i.text) ++
        ' ' :: (t ++ (texts.flatMap fun t => ' ' :: t) ++ ['\n'])) := by
    simp [line, List.flatMap_map]
  rw [hline, sscanfLine_items letter items h]

/-! ## Splitting -/

variable {delim : Char → Bool}

theorem line_append (letter : Char) (texts : List Str) (t : Str) :
    line letter (texts ++ [t]) =
      [letter] ++ (texts.flatMap fun t => ' ' :: t) ++ ' ' :: (t ++ ['\n']) := by
  simp [line]

/-- A line is split into its letter, its words, and what its last text is split into. -/
theorem splits_line (hblank : delim ' ' = true) {letter : Char} (hletter : delim letter = false)
    (texts : List Str) (h : ∀ t ∈ texts, t ≠ [] ∧ ∀ c ∈ t, delim c = false) {t : Str} {ws : List Str}
    (ht : Splits delim (t ++ ['\n']) ws) :
    Splits delim (line letter (texts ++ [t])) ([letter] :: texts ++ ws) := by
  have hfirst : [letter] ≠ [] ∧ ∀ c ∈ [letter], delim c = false :=
    ⟨List.cons_ne_nil _ _, List.forall_mem_singleton.2 hletter⟩
  rw [line_append]
  exact ht.words hblank (List.forall_mem_cons.2 ⟨hfirst, h⟩)

/-! ## Numbers at the end of a text -/

theorem readMagnitude_ten (n : Nat) :
    readMagnitude 10 (Nat.toDigits 10 n) = some (n, []) := by
  have hread := readDigits_toDigits (by decide : 1 < 10) (by decide) n []
  rw [List.append_nil] at hread
  have hmem := mem_toDigits (by decide : 1 < 10) n
  rw [readMagnitude.eq_def, stripHexPrefix_ten]
  cases hdigits : Nat.toDigits 10 n with
  | nil => exact absurd hdigits Nat.toDigits_ne_nil
  | cons c t =>
    rw [hdigits] at hread hmem
    obtain ⟨d, hd, rfl⟩ := hmem c List.mem_cons_self
    change (digitVal? 10 d.digitChar).map _ = _
    rw [digitVal?_digitChar (by decide) hd, Option.map_some, hread]
    rfl

/-- The end of a text ends a number as well as white space does. -/
theorem scanNumber_decimal {c : Conv} (hc : c.base = 10) (v : Int) :
    scanNumber c (decimal v) = some (c.value (decide (v < 0)) v.natAbs, []) := by
  have hread := readMagnitude_ten v.natAbs
  unfold decimal scanNumber
  by_cases hv : v < 0
  · rw [if_pos hv, decide_eq_true hv, List.dropWhile_cons_of_neg (by decide)]
    simp only [readSign, hc, hread, Option.map_some]
  · rw [if_neg hv, decide_eq_false hv]
    have hmem := mem_toDigits (by decide : 1 < 10) v.natAbs
    cases hdigits : Nat.toDigits 10 v.natAbs with
    | nil => exact absurd hdigits Nat.toDigits_ne_nil
    | cons a t =>
      rw [hdigits] at hread hmem
      obtain ⟨d, hd, rfl⟩ := hmem a List.mem_cons_self
      obtain ⟨hspace, hminus, hplus⟩ := digitChar_ne_sign (show d < 16 by omega)
      have hsign : readSign (d.digitChar :: t) = (false, d.digitChar :: t) := by
        unfold readSign
        split
        · rename_i heq
          exact absurd (List.cons.inj heq).1 hminus
        · rename_i heq
          exact absurd (List.cons.inj heq).1 hplus
        · rfl
      rw [List.dropWhile_cons_of_neg (by simp [hspace]), hsign]
      simp only [hc, hread, Option.map_some]

end Text
