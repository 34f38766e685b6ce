import PerfEventTests.Lib.Lines

/-!
# Lines that are kept

A file is cut by `fgets` into framed texts and perhaps a last one that ends with the file. Some of
the texts may be left out: what remains, written one after the other, is cut at the same places.
-/

namespace Text

variable {size : Nat}

/-- The end of a file, without a newline, that does not fill the buffer. -/
def Rest (size : Nat) (text : Str) : Prop := text ≠ [] ∧ '\n' ∉ text ∧ text.length < size - 1

/-- Framed texts, and perhaps the end of a file behind them. -/
def Cut (size : Nat) (texts : List Str) : Prop :=
  ∃ (framed : List Str) (last : Option Str), texts = framed ++ last.toList ∧
    (∀ t ∈ framed, Framed size t) ∧ ∀ t ∈ last, Rest size t

theorem cut_nil : Cut size [] := ⟨[], none, rfl, List.forall_mem_nil _, fun _ h => by cases h⟩

theorem Cut.cons {t : Str} {texts : List Str} (ht : Framed size t) (h : Cut size texts) :
    Cut size (t :: texts) := by
  obtain ⟨framed, last, rfl, hframed, hlast⟩ := h
  exact ⟨t :: framed, last, rfl, List.forall_mem_cons.2 ⟨ht, hframed⟩, hlast⟩

/-- What `fgets` leaves is the rest of the text. -/
theorem fgets_append (n : Nat) (s : Str) : (fgets n s).1 ++ (fgets n s).2 = s := by
  induction n generalizing s with
  | zero => cases s <;> rfl
  | succ n ih =>
    cases s with
    | nil => rfl
    | cons c cs =>
      rw [fgets]
      split
      case isTrue h =>
        rw [h]
        rfl
      case isFalse => exact congrArg (c :: ·) (ih cs)

/-- A newline, a full buffer, or the end of the text. -/
theorem fgets_cases (n : Nat) (s : Str) :
    (∃ body, (fgets n s).1 = body ++ ['\n'] ∧ '\n' ∉ body ∧ body.length < n) ∨
      ('\n' ∉ (fgets n s).1 ∧ (fgets n s).1.length = n) ∨
      ('\n' ∉ (fgets n s).1 ∧ (fgets n s).1.length < n ∧ (fgets n s).2 = []) := by
  induction n generalizing s with
  | zero => exact .inr (.inl ⟨by cases s <;> exact List.not_mem_nil, by cases s <;> rfl⟩)
  | succ n ih =>
    cases s with
    | nil => exact .inr (.inr ⟨List.not_mem_nil, Nat.succ_pos n, rfl⟩)
    | cons c cs =>
      rw [fgets]
      split
      case isTrue h => exact .inl ⟨[], rfl, List.not_mem_nil, Nat.succ_pos n⟩
      case isFalse hc =>
        have hmem {t : Str} (ht : '\n' ∉ t) : '\n' ∉ c :: t :=
          fun h => (List.mem_cons.1 h).elim (fun heq => hc heq.symm) ht
        obtain ⟨body, hbody, hnew, hlen⟩ | ⟨hnew, hlen⟩ | ⟨hnew, hlen, hrest⟩ := ih cs
        · refine .inl ⟨c :: body, ?_, hmem hnew, Nat.succ_lt_succ hlen⟩
          exact congrArg (c :: ·) hbody
        · exact .inr (.inl ⟨hmem hnew, congrArg (· + 1) hlen⟩)
        · exact .inr (.inr ⟨hmem hnew, Nat.succ_lt_succ hlen, hrest⟩)

theorem cut_readLines (hsize : 1 < size) (n : Nat) (s : Str) : Cut size (readLines size n s) := by
  induction n generalizing s with
  | zero => exact cut_nil
  | succ n ih =>
    rw [readLines]
    split
    case isTrue => exact cut_nil
    case isFalse hne =>
      dsimp only
      obtain ⟨body, hbody, hnew, hlen⟩ | ⟨hnew, hlen⟩ | ⟨hnew, hlen, hrest⟩ :=
        fgets_cases (size - 1) s
      · refine .cons (.inl ⟨body, hbody, hnew, ?_⟩) (ih _)
        rw [hbody, List.length_append, List.length_singleton]
        omega
      · exact .cons (.inr ⟨hnew, hlen⟩) (ih _)
      · have hnone : readLines size n (fgets (size - 1) s).2 = [] := by
          rw [hrest]
          cases n <;> rfl
        have happend := fgets_append (size - 1) s
        rw [hrest, List.append_nil] at happend
        rw [hnone]
        refine ⟨[], some (fgets (size - 1) s).1, rfl, List.forall_mem_nil _, fun t ht => ?_⟩
        obtain rfl := Option.some.inj ht
        exact ⟨fun heq => hne (happend.symm.trans heq), hnew, hlen⟩

/-- Framed texts are read again, whatever stands behind them. -/
theorem readLines_append (hsize : 1 < size) (texts : List Str) (h : ∀ t ∈ texts, Framed size t)
    (rest : Str) (n : Nat) (hn : texts.flatten.length + rest.length ≤ n) :
    ∃ m, rest.length ≤ m ∧
      readLines size n (texts.flatten ++ rest) = texts ++ readLines size m rest := by
  induction texts generalizing n with
  | nil =>
    rw [List.flatten_nil, List.length_nil, Nat.zero_add] at hn
    exact ⟨n, hn, rfl⟩
  | cons t texts ih =>
    obtain ⟨ht, htexts⟩ := List.forall_mem_cons.1 h
    have hpos : 0 < t.length := by
      rcases ht with ⟨body, rfl, -, -⟩ | ⟨-, hlen⟩
      · simp
      · omega
    rw [List.flatten_cons, List.length_append] at hn
    cases n with
    | zero => omega
    | succ n =>
      obtain ⟨m, hm, hread⟩ := ih htexts n (by omega)
      have hne : t ++ texts.flatten ++ rest ≠ [] := by
        intro hnil
        have hlen := congrArg List.length hnil
        simp only [List.length_append, List.length_nil] at hlen
        omega
      refine ⟨m, hm, ?_⟩
      rw [List.flatten_cons, readLines, if_neg hne, List.append_assoc, fgets_framed ht]
      exact congrArg (t :: ·) hread

theorem fgets_short {n : Nat} {s : Str} (h : '\n' ∉ s) (hlen : s.length ≤ n) :
    fgets n s = (s, []) := by
  induction s generalizing n with
  | nil => cases n <;> rfl
  | cons c s ih =>
    rw [List.mem_cons, not_or] at h
    cases n with
    | zero => exact absurd hlen (Nat.not_succ_le_zero _)
    | succ n =>
      rw [fgets, if_neg fun hc => h.1 hc.symm, ih h.2 (Nat.le_of_succ_le_succ hlen)]

/-- A file of such texts is cut into them. -/
theorem Cut.fileLines (hsize : 1 < size) {texts : List Str} (h : Cut size texts) :
    fileLines size texts.flatten = texts := by
  obtain ⟨framed, last, rfl, hframed, hlast⟩ := h
  rw [List.flatten_append, Text.fileLines]
  obtain ⟨m, hm, hread⟩ := readLines_append hsize framed hframed last.toList.flatten _
    List.length_append.ge
  rw [hread]
  refine congrArg (framed ++ ·) ?_
  cases last with
  | none => cases m <;> rfl
  | some t =>
    obtain ⟨hne, hnew, hlen⟩ := hlast t rfl
    have hflat : (Option.toList (some t)).flatten = t := List.append_nil t
    rw [hflat] at hm ⊢
    cases m with
    | zero => exact absurd (List.length_eq_zero_iff.1 (Nat.le_zero.1 hm)) hne
    | succ m =>
      rw [readLines, if_neg hne, fgets_short hnew hlen.le]
      cases m <;> rfl

theorem Cut.filter {texts : List Str} (h : Cut size texts) (p : Str → Bool) :
    Cut size (texts.filter p) := by
  obtain ⟨framed, last, rfl, hframed, hlast⟩ := h
  refine ⟨framed.filter p, last.filter p, ?_, fun t ht => hframed t (List.mem_filter.1 ht).1,
    fun t ht => ?_⟩
  · rw [List.filter_append]
    refine congrArg (framed.filter p ++ ·) ?_
    cases last with
    | none => rfl
    | some t => cases hp : p t <;> simp [Option.filter, hp]
  · exact hlast t (Option.filter_eq_some_iff.1 ht).1

/-- The lines of a file that are kept are the lines of what is written. -/
theorem fileLines_filter (hsize : 1 < size) (p : Str → Bool) (s : Str) :
    fileLines size ((fileLines size s).filter p).flatten = (fileLines size s).filter p :=
  ((cut_readLines hsize _ s).filter p).fileLines hsize

/-- The characters of a line are in the file. -/
theorem mem_of_mem_readLines {c : Char} {t : Str} (hc : c ∈ t) (n : Nat) (s : Str)
    (ht : t ∈ readLines size n s) : c ∈ s := by
  induction n generalizing s with
  | zero => cases ht
  | succ n ih =>
    have happend := fgets_append (size - 1) s
    rw [readLines] at ht
    split at ht
    case isTrue => cases ht
    case isFalse =>
      rw [← happend]
      obtain rfl | ht := List.mem_cons.1 ht
      · exact List.mem_append_left _ hc
      · exact List.mem_append_right _ (ih _ ht)

end Text
