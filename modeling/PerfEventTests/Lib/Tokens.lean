import PerfEventTests.Lib.Text

/-!
# Texts in pieces

`strtok` and `atoi` of the C library. A call of `strtok` gives the next piece of a text, and what is
left for the call after it.
-/

namespace Text

/-! ## `strtok` -/

/-- The next piece, if there is one. The character behind it is overwritten. -/
def strtok (delim : Char → Bool) (s : Str) : Option Str × Str :=
  match s.dropWhile delim with
  | [] => (none, [])
  | c :: t => (some ((c :: t).takeWhile fun c => !delim c),
      ((c :: t).dropWhile fun c => !delim c).drop 1)

section Strtok

variable {delim : Char → Bool} {w rest : Str}

@[simp] theorem strtok_nil : strtok delim [] = (none, []) := rfl

theorem strtok_skip {c : Char} (h : delim c = true) (s : Str) :
    strtok delim (c :: s) = strtok delim s := by
  rw [strtok, List.dropWhile_cons_of_pos h]
  rfl

/-- A piece ends at a delimiter, or where the text ends. -/
theorem strtok_word (hne : w ≠ []) (hw : ∀ c ∈ w, delim c = false)
    (hrest : ∀ c ∈ rest.head?, delim c = true) : strtok delim (w ++ rest) = (some w, rest.drop 1) := by
  have hstop : rest.takeWhile (fun c => !delim c) = [] ∧ rest.dropWhile (fun c => !delim c) = rest := by
    cases rest with
    | nil => exact ⟨rfl, rfl⟩
    | cons c rest =>
      have hc : delim c = true := hrest c rfl
      exact ⟨List.takeWhile_cons_of_neg (by simp [hc]), List.dropWhile_cons_of_neg (by simp [hc])⟩
  have hgo : ∀ c ∈ w, (fun c => !delim c) c = true := fun c hc => by simp [hw c hc]
  obtain ⟨c, w, rfl⟩ := List.exists_cons_of_ne_nil hne
  have hc : ¬ delim c = true := by simp [hw c List.mem_cons_self]
  rw [strtok, List.cons_append, List.dropWhile_cons_of_neg hc]
  dsimp only
  rw [← List.cons_append, List.takeWhile_append_of_pos hgo, List.dropWhile_append_of_pos hgo,
    hstop.1, hstop.2, List.append_nil]

end Strtok

/-! ### All pieces of a text -/

/-- The pieces that calls of `strtok` give one after the other. -/
inductive Splits (delim : Char → Bool) : Str → List Str → Prop
  | nil {s r : Str} : strtok delim s = (none, r) → Splits delim s []
  | cons {s r w : Str} {ws : List Str} : strtok delim s = (some w, r) → Splits delim r ws →
      Splits delim s (w :: ws)

/-- All of them. -/
def tokens (delim : Char → Bool) (s : Str) : List Str := (s.splitOnP delim).filter (· ≠ [])

/-- A call that has to give a piece. -/
def token (delim : Char → Bool) : StateT Str Option Str := fun s =>
  match strtok delim s with
  | (some w, rest) => some (w, rest)
  | (none, _) => none

/-- The same for a list of pieces. -/
def pop {α : Type} : StateT (List α) Option α
  | [] => none
  | a :: as => some (a, as)

/-- A program over a text does what a program over its pieces does. -/
def Follows {α : Type} (delim : Char → Bool) (p : StateT Str Option α)
    (q : StateT (List Str) Option α) : Prop :=
  ∀ s ws, Splits delim s ws →
    Option.Rel (fun x y => x.1 = y.1 ∧ Splits delim x.2 y.2) (p s) (q ws)

section Splits

variable {delim : Char → Bool} {α β : Type}

theorem Splits.skip {c : Char} {s : Str} {ws : List Str} (hc : delim c = true) (h : Splits delim s ws) :
    Splits delim (c :: s) ws := by
  cases h with
  | nil h => exact .nil ((strtok_skip hc s).trans h)
  | cons h hrest => exact .cons ((strtok_skip hc s).trans h) hrest

theorem Splits.word {w s : Str} {ws : List Str} {c : Char} (hne : w ≠ []) (hw : ∀ c ∈ w, delim c = false)
    (hc : delim c = true) (h : Splits delim s ws) : Splits delim (w ++ c :: s) (w :: ws) := by
  refine .cons (strtok_word hne hw ?_) h
  intro c' hc'
  cases hc'
  exact hc

/-- The text ends with the last piece. -/
theorem Splits.last {w : Str} (hne : w ≠ []) (hw : ∀ c ∈ w, delim c = false) : Splits delim w [w] := by
  have hcall : strtok delim (w ++ []) = (some w, [].drop 1) := strtok_word hne hw (by simp)
  rw [List.append_nil] at hcall
  exact .cons hcall (.nil rfl)

/-- Words with a delimiter behind each, and what stands behind the last one. -/
theorem Splits.words {c : Char} (hc : delim c = true) {s : Str} {ws : List Str} (h : Splits delim s ws)
    {w : Str} {texts : List Str} (htexts : ∀ t ∈ w :: texts, t ≠ [] ∧ ∀ c ∈ t, delim c = false) :
    Splits delim (w ++ (texts.flatMap fun t => c :: t) ++ c :: s) (w :: texts ++ ws) := by
  induction texts generalizing w with
  | nil =>
    obtain ⟨hne, hw⟩ := htexts w List.mem_cons_self
    rw [List.flatMap_nil, List.append_nil]
    exact h.word hne hw hc
  | cons t texts ih =>
    obtain ⟨⟨hne, hw⟩, htexts⟩ := List.forall_mem_cons.1 htexts
    rw [List.flatMap_cons, List.append_assoc, List.append_assoc, List.cons_append, ← List.append_assoc]
    exact (ih htexts).word hne hw hc

/-- There is one way to split a text. -/
theorem Splits.unique {s : Str} {ws ws' : List Str} (h : Splits delim s ws) (h' : Splits delim s ws') :
    ws = ws' := by
  induction h generalizing ws' with
  | nil hcall =>
    cases h' with
    | nil => rfl
    | cons hcall' => cases hcall.symm.trans hcall'
  | cons hcall _ ih =>
    cases h' with
    | nil hcall' => cases hcall.symm.trans hcall'
    | cons hcall' hrest' =>
      cases hcall.symm.trans hcall'
      exact congrArg _ (ih hrest')

/-- A text starts with a word, and behind it nothing comes or a delimiter. -/
theorem exists_word (delim : Char → Bool) (s : Str) : ∃ w, (∀ c ∈ w, delim c = false) ∧
    (s = w ∨ ∃ d rest, delim d = true ∧ s = w ++ d :: rest) := by
  induction s with
  | nil => exact ⟨[], List.forall_mem_nil _, .inl rfl⟩
  | cons c s ih =>
    cases hc : delim c with
    | true => exact ⟨[], List.forall_mem_nil _, .inr ⟨c, s, hc, rfl⟩⟩
    | false =>
      obtain ⟨w, hw, h⟩ := ih
      refine ⟨c :: w, List.forall_mem_cons.2 ⟨hc, hw⟩, ?_⟩
      obtain rfl | ⟨d, rest, hd, rfl⟩ := h
      · exact .inl rfl
      · exact .inr ⟨d, rest, hd, rfl⟩

/-- The calls give what stands between the delimiters, as far as it is not empty. -/
theorem splits_tokens (delim : Char → Bool) (s : Str) : Splits delim s (tokens delim s) := by
  induction hn : s.length using Nat.strong_induction_on generalizing s with
  | _ n ih =>
    -- a call takes the word in front, the calls behind it go on with the rest
    obtain ⟨w, hw, rfl | ⟨d, rest, hd, rfl⟩⟩ := exists_word delim s
    · rw [tokens, List.splitOnP_eq_singleton hw]
      by_cases hne : s = []
      · rw [hne]
        exact .nil rfl
      · rw [List.filter_cons_of_pos (by simp [hne])]
        exact .last hne hw
    · have hlen : rest.length < n := by
        rw [← hn, List.length_append, List.length_cons]
        omega
      have hrest : Splits delim rest (tokens delim rest) := ih _ hlen rest rfl
      rw [tokens, List.splitOnP_append_cons_of_forall_mem hw d hd]
      by_cases hne : w = []
      · rw [hne]
        exact hrest.skip hd
      · rw [List.filter_cons_of_pos (by simp [hne])]
        exact hrest.word hne hw hd

theorem Splits.tokens_eq {s : Str} {ws : List Str} (h : Splits delim s ws) : tokens delim s = ws :=
  (splits_tokens delim s).unique h

namespace Follows

theorem token : Follows delim (token delim) pop := by
  intro s ws h
  cases h with
  | nil h =>
    rw [Text.token, h]
    exact .none
  | cons h hrest =>
    rw [Text.token, h]
    exact .some ⟨rfl, hrest⟩

theorem pure (a : α) : Follows delim (Pure.pure a) (Pure.pure a) := fun _ _ h => .some ⟨rfl, h⟩

theorem bind {p : StateT Str Option α} {q : StateT (List Str) Option α} {f : α → StateT Str Option β}
    {g : α → StateT (List Str) Option β} (h : Follows delim p q) (hfg : ∀ a, Follows delim (f a) (g a)) :
    Follows delim (p >>= f) (q >>= g) := by
  intro s ws hs
  change Option.Rel _ ((p s).bind fun x => f x.1 x.2) ((q ws).bind fun x => g x.1 x.2)
  have hrel := h s ws hs
  cases hp : p s with
  | none =>
    rw [hp] at hrel
    cases hq : q ws with
    | none => exact .none
    | some y => rw [hq] at hrel; cases hrel
  | some x =>
    rw [hp] at hrel
    cases hq : q ws with
    | none => rw [hq] at hrel; cases hrel
    | some y =>
      rw [hq] at hrel
      obtain ⟨a, s'⟩ := x
      obtain ⟨a', ws'⟩ := y
      cases hrel with
      | some hrel =>
        obtain ⟨rfl, hs'⟩ := hrel
        exact hfg a s' ws' hs'

theorem ite {c : Prop} [Decidable c] {p p' : StateT Str Option α} {q q' : StateT (List Str) Option α}
    (h : Follows delim p q) (h' : Follows delim p' q') :
    Follows delim (if c then p else p') (if c then q else q') := by
  split
  · exact h
  · exact h'

/-- The results are the same. -/
theorem fst_eq {p : StateT Str Option α} {q : StateT (List Str) Option α} (h : Follows delim p q)
    {s : Str} {ws : List Str} (hs : Splits delim s ws) : (p s).map Prod.fst = (q ws).map Prod.fst := by
  have hrel := h s ws hs
  cases hp : p s with
  | none =>
    rw [hp] at hrel
    cases hq : q ws with
    | none => rfl
    | some y => rw [hq] at hrel; cases hrel
  | some x =>
    rw [hp] at hrel
    cases hq : q ws with
    | none => rw [hq] at hrel; cases hrel
    | some y =>
      rw [hq] at hrel
      cases hrel with
      | some hrel => exact congrArg some hrel.1

end Follows

end Splits

/-! ## `atoi` -/

/-- `atoi`, on a text that may have anything in front and behind. -/
def atoi (s : Str) : Int := ((scanNumber .d s).map Prod.fst).getD 0

theorem readDigits_stop {base n : Nat} {s : Str} (h : ∀ c ∈ s.head?, digitVal? base c = none) :
    readDigits base n s = (n, s) := by
  cases s with
  | nil => rfl
  | cons c s => rw [readDigits, h c rfl]

theorem stripHexPrefix_ten (s : Str) : stripHexPrefix 10 s = none := by
  unfold stripHexPrefix
  split
  · exact if_neg fun h => absurd h.1 (by decide)
  · rfl

theorem readMagnitude_decimal {c : Char} {d : Nat} (h : digitVal? 10 c = some d) (s : Str) :
    readMagnitude 10 (c :: s) = some (readDigits 10 0 (c :: s)) := by
  rw [readMagnitude, stripHexPrefix_ten]
  dsimp only
  rw [h, Option.map_some]

/-- A number is read up to what is no digit. -/
theorem atoi_toDigits {n : Nat} (hn : n < 2 ^ 31) {s : Str}
    (hs : ∀ c ∈ s.head?, digitVal? 10 c = none) : atoi (Nat.toDigits 10 n ++ s) = n := by
  have hread : readDigits 10 0 (Nat.toDigits 10 n ++ s) = (n, s) := by
    rw [readDigits_toDigits (by decide) (by decide), readDigits_stop hs]
  have hdigits : ∀ c ∈ Nat.toDigits 10 n, ∃ d < 10, c = d.digitChar := mem_toDigits (by decide) n
  cases htext : Nat.toDigits 10 n with
  | nil => exact absurd htext Nat.toDigits_ne_nil
  | cons c t =>
    rw [htext] at hread hdigits
    obtain ⟨d, hd, rfl⟩ := hdigits c List.mem_cons_self
    obtain ⟨hspace, hminus, hplus⟩ := digitChar_ne_sign (show d < 16 by omega)
    have hsign : readSign (d.digitChar :: (t ++ s)) = (false, d.digitChar :: (t ++ s)) := by
      unfold readSign
      split
      · rename_i heq
        exact absurd (List.cons.inj heq).1 hminus
      · rename_i heq
        exact absurd (List.cons.inj heq).1 hplus
      · rfl
    have hvalue : Conv.value false n .d = n := by
      have hlong : Conv.strtol false n = n := by
        unfold Conv.strtol
        simp only [Bool.false_eq_true, if_false]
        omega
      rw [Conv.value, hlong, ByteMemory.toInt32_of_range (by omega) (by omega)]
    rw [List.cons_append] at hread ⊢
    unfold atoi scanNumber
    rw [List.dropWhile_cons_of_neg (by simp [hspace]), hsign]
    dsimp only
    rw [Conv.base, readMagnitude_decimal (digitVal?_digitChar (by decide) hd), hread]
    exact hvalue

end Text
