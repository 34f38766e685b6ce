import Mathlib.Algebra.Group.Int.Defs
import Mathlib.Algebra.Group.Nat.Defs
import Mathlib.Data.List.TakeDrop

/-!
# Scanners over terminated strings

A loop of C that walks over a string with an `int` as index: each character ends the loop, fails,
or goes into what the loop collects, and the terminator ends it. The string is kept as what is left
of it at the index; an index that does not fit reads outside of the string. `scan_eq` is the loop in
one step: it takes the longest run of characters that it collects.
-/

namespace Scanning

inductive Fault where
  /-- A read outside of the string. -/
  | outside
  /-- A write outside of a buffer. -/
  | overflow
  deriving DecidableEq

/-- What a loop does at a character. -/
inductive Kind where
  | go
  | stop
  | fail
  deriving DecidableEq

/-- One more than the largest index. -/
def indexLimit : Nat := 2 ^ 31

/-- `i++` -/
def next (i : Nat) : Except Fault Nat :=
  if i + 1 < indexLimit then .ok (i + 1) else .error .outside

variable {α : Type}

/-- The loop with what it has collected, what is left of the string, and the index. Nothing is
returned where it fails. -/
def scan (kind : Char → Kind) (collect : α → Char → α) :
    List Char → Nat → α → Except Fault (Option (α × List Char × Nat))
  | [], i, a => .ok (some (a, [], i))
  | c :: rest, i, a =>
    match kind c with
    | .stop => .ok (some (a, c :: rest, i))
    | .fail => .ok none
    | .go => do
      let i ← next i
      scan kind collect rest i (collect a c)

theorem bind_eq_ok {ε β : Type} {x : Except ε α} {f : α → Except ε β} {b : β}
    (h : x >>= f = .ok b) : ∃ a, x = .ok a ∧ f a = .ok b := by
  cases x with
  | error e => cases h
  | ok a => exact ⟨a, rfl, h⟩

variable {kind : Char → Kind} {collect : α → Char → α}

/-- The characters that are collected. -/
def taken (kind : Char → Kind) (s : List Char) : List Char := s.takeWhile (kind · = .go)

/-- What is left behind them. -/
def remaining (kind : Char → Kind) (s : List Char) : List Char := s.dropWhile (kind · = .go)

theorem taken_append_remaining (kind : Char → Kind) (s : List Char) :
    taken kind s ++ remaining kind s = s :=
  List.takeWhile_append_dropWhile

/-- The first character that is left is not one to collect. -/
theorem remaining_head {c : Char} {s rest : List Char} (h : remaining kind s = c :: rest) : kind c ≠ .go := by
  have hhead := List.head?_dropWhile_not (kind · = .go) s
  change List.dropWhile (kind · = .go) s = c :: rest at h
  rw [h] at hhead
  simpa using hhead

/-- A run that ends the string, or before a character that is not collected, is the longest. -/
theorem taken_append {t u : List Char} (ht : ∀ c ∈ t, kind c = .go)
    (hu : ∀ c ∈ u.head?, kind c ≠ .go) : taken kind (t ++ u) = t ∧ remaining kind (t ++ u) = u := by
  have htake : ∀ c ∈ t, decide (kind c = .go) = true := fun c hc => decide_eq_true (ht c hc)
  unfold taken remaining
  rw [List.takeWhile_append_of_pos htake, List.dropWhile_append_of_pos htake]
  cases u with
  | nil => simp
  | cons c u => simp [hu c rfl]

theorem scan_eq (s : List Char) {i : Nat} (hi : i < indexLimit) (a : α) :
    scan kind collect s i a =
      if i + (taken kind s).length < indexLimit then
        match remaining kind s with
        | [] => .ok (some ((taken kind s).foldl collect a, [], i + (taken kind s).length))
        | c :: rest =>
          if kind c = .fail then .ok none
          else .ok (some ((taken kind s).foldl collect a, c :: rest, i + (taken kind s).length))
      else .error .outside := by
  induction s generalizing i a with
  | nil => simp [scan, taken, remaining, hi]
  | cons c s ih =>
    cases hkind : kind c with
    | stop => simp [scan, taken, remaining, hkind, hi]
    | fail => simp [scan, taken, remaining, hkind, hi]
    | go =>
      have htaken : taken kind (c :: s) = c :: taken kind s := by simp [taken, hkind]
      have hremaining : remaining kind (c :: s) = remaining kind s := by simp [remaining, hkind]
      rw [htaken, hremaining, scan, hkind]
      by_cases hlimit : i + 1 < indexLimit
      · have hstep := ih hlimit (collect a c)
        have hlength : i + (c :: taken kind s).length = i + 1 + (taken kind s).length := by
          rw [List.length_cons]
          omega
        simp only [next, if_pos hlimit, bind, Except.bind, hstep, hlength, List.foldl_cons]
      · have hlong : ¬ i + (c :: taken kind s).length < indexLimit := by
          rw [List.length_cons]
          omega
        simp only [next, if_neg hlimit, bind, Except.bind, if_neg hlong]

/-- The loop over a run of characters, up to the end of the string or to one that ends it. -/
theorem scan_run {t u : List Char} (ht : ∀ c ∈ t, kind c = .go) (hu : ∀ c ∈ u.head?, kind c = .stop)
    {i : Nat} (hi : i < indexLimit) (a : α) : scan kind collect (t ++ u) i a =
      if i + t.length < indexLimit then .ok (some (t.foldl collect a, u, i + t.length))
      else .error .outside := by
  have hgo : ∀ c ∈ u.head?, kind c ≠ .go := fun c hc h => by
    rw [hu c hc] at h
    cases h
  obtain ⟨htaken, hremaining⟩ := taken_append ht hgo
  rw [scan_eq _ hi, htaken, hremaining]
  cases u with
  | nil => rfl
  | cons c u =>
    have hc : kind c = .stop := hu c rfl
    simp only [hc, reduceCtorEq, if_false]

/-- The loop over a run of characters before one where it fails. -/
theorem scan_fail {t u : List Char} {c : Char} (ht : ∀ d ∈ t, kind d = .go) (hc : kind c = .fail)
    {i : Nat} (hi : i < indexLimit) (a : α) : scan kind collect (t ++ c :: u) i a =
      if i + t.length < indexLimit then .ok none else .error .outside := by
  have hgo : ∀ d ∈ (c :: u).head?, kind d ≠ .go := by simp [hc]
  obtain ⟨htaken, hremaining⟩ := taken_append ht hgo
  rw [scan_eq _ hi, htaken, hremaining]
  simp only [hc, if_true]

theorem scan_length {s rest : List Char} {i k : Nat} {a b : α}
    (h : scan kind collect s i a = .ok (some (b, rest, k))) : rest.length ≤ s.length := by
  induction s generalizing i a with
  | nil =>
    cases h
    exact Nat.le_refl _
  | cons c s ih =>
    rw [scan] at h
    split at h
    · cases h
      exact Nat.le_refl _
    · cases h
    · unfold next at h
      split at h
      · exact Nat.le_succ_of_le (ih h)
      · cases h

/-! ## Scanners that end well under a condition -/

/-- The result is `x` when the condition holds, and a fault otherwise. -/
def Yields {β : Type} (r : Except Fault β) (p : Prop) (x : β) : Prop :=
  (p ∧ r = .ok x) ∨ (¬ p ∧ ∃ e, r = .error e)

variable {β γ : Type} {p q : Prop} {x : β} {y : γ} {r : Except Fault β} {f : β → Except Fault γ}

theorem Yields.ok (h : Yields r p x) (hp : p) : r = .ok x :=
  h.elim (·.2) fun hn => absurd hp hn.1

theorem Yields.congr (h : Yields r p x) (hpq : p ↔ q) : Yields r q x := by
  rwa [Yields, ← hpq]

theorem Yields.bind (h : Yields r p x) (hf : p → Yields (f x) q y) :
    Yields (r >>= f) (p ∧ q) y := by
  obtain ⟨hp, rfl⟩ | ⟨hp, e, rfl⟩ := h
  · obtain ⟨hq, hy⟩ | ⟨hq, e, he⟩ := hf hp
    · exact .inl ⟨⟨hp, hq⟩, hy⟩
    · exact .inr ⟨fun h => hq h.2, e, he⟩
  · exact .inr ⟨fun h => hp h.1, e, rfl⟩

theorem yields_ok (x : β) : Yields (.ok x) True x := .inl ⟨trivial, rfl⟩

theorem yields_guard {c : Prop} [Decidable c] {e : Fault} (h : ¬ c → Yields r q x) :
    Yields (if c then .error e else r) (¬ c ∧ q) x := by
  split
  case isTrue hc => exact .inr ⟨fun h => h.1 hc, e, rfl⟩
  case isFalse hc => exact (h hc).congr ⟨fun hq => ⟨hc, hq⟩, fun h => h.2⟩

theorem yields_next (i : Nat) : Yields (next i) (i + 1 < indexLimit) (i + 1) := by
  unfold next
  split
  case isTrue h => exact .inl ⟨h, rfl⟩
  case isFalse h => exact .inr ⟨h, _, rfl⟩

theorem yields_scan {c : α → Char → α} {t u : List Char} (ht : ∀ c ∈ t, kind c = .go)
    (hu : ∀ c ∈ u.head?, kind c = .stop) {i : Nat} (hi : i < indexLimit) (a : α) :
    Yields (scan kind c (t ++ u) i a) (i + t.length < indexLimit)
      (some (t.foldl c a, u, i + t.length)) := by
  rw [scan_run ht hu hi]
  split
  case isTrue h => exact .inl ⟨h, rfl⟩
  case isFalse h => exact .inr ⟨h, _, rfl⟩

end Scanning
