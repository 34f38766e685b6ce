import PerfEventTests.Fuzzer.Overflow
import PerfEventTests.Fuzzer.Steady
import PerfEventTests.Lib.Slots

/-!
# Files that are left open

`fuzzer/fuzz_access.c` leaves up to `MAX_FILES` files open. The counter `open_files` is looked at
before a file is opened, and the table `open_fds` afterwards, so that a store into the table stays
inside it as long as the two agree.
-/

namespace PerfEvent.Fuzzer

open Draws Programs Slots

/-- Calls of `access_random_file`, one after the other. -/
def accessFiles (c : Config) (n : Nat) : Fuzz Unit :=
  forRange (fun _ => accessRandomFile c.quiet) n 0

/-! ## The table -/

/-- The table over the descriptors that were open before the first call: it has all that are open
besides them. -/
structure FileTable (base fds : Int → Option Descriptor) (openFds : Nat → Int) (openFiles : Int) :
    Prop where
  count : openFiles = taken 0 openFds maxFiles
  inside : ∀ k, maxFiles ≤ k → openFds k = 0
  stored : ∀ k, openFds k ≠ 0 → base (openFds k) = none ∧ fds (openFds k) = some .file
  single : ∀ j k, openFds j ≠ 0 → openFds j = openFds k → j = k
  others : ∀ fd, (∀ k, openFds k = fd → fd = 0) → fds fd = base fd

variable {base : Int → Option Descriptor} {s : St} {E : St → Prop}

def Files (base : Int → Option Descriptor) (s : St) : Prop :=
  FileTable base s.fds s.openFds s.openFiles

/-- A file that has been opened, and not been stored. -/
structure Lent (base : Int → Option Descriptor) (fd : Int) (s : St) : Prop where
  positive : 0 < fd
  fresh : base fd = none
  opened : s.fds fd = some .file
  unstored : ∀ k, s.openFds k ≠ fd
  rest : FileTable base (s.setFd fd none).fds s.openFds s.openFiles

/-- The counter keeps the search inside the table. -/
theorem Files.freePlace (h : Files base s) (hroom : s.openFiles < maxFiles) :
    freePlace s < maxFiles ∧ s.openFds (freePlace s) = 0 := by
  have hcount := h.count
  have hfree := exists_free (o := 0) (t := s.openFds) (n := maxFiles) (by omega)
  exact firstFree_spec hfree (by decide)

theorem Files.lent (hstdin : base 0 ≠ none) (h : Files base s) {fd : Int} (hfd : 0 ≤ fd)
    (hnone : s.fds fd = none) : Lent base fd (s.setFd fd (some .file)) := by
  have hpos : fd ≠ 0 := by
    rintro rfl
    exact hstdin ((h.others 0 fun _ _ => rfl).symm.trans hnone)
  have hunstored : ∀ k, s.openFds k ≠ fd := by
    rintro k rfl
    exact nomatch hnone.symm.trans (h.stored k hpos).2
  have hback : ((s.setFd fd (some .file)).setFd fd none).fds = s.fds := by
    funext n
    simp only [St.setFd]
    by_cases hn : n = fd
    · rw [if_pos hn, hn, hnone]
    · rw [if_neg hn, if_neg hn]
  refine ⟨by omega, ?_, if_pos rfl, hunstored, ?_⟩
  · rw [← h.others fd fun k hk => absurd hk (hunstored k), hnone]
  · rw [hback]
    exact h

/-- The file gets a free place. -/
theorem Lent.store {fd : Int} (h : Lent base fd s) (hroom : s.openFiles < maxFiles) :
    FileTable base s.fds (put s.openFds (freePlace s) fd) (s.openFiles + 1) := by
  obtain ⟨hpos, hfresh, hopened, hunstored, hrest⟩ := h
  obtain ⟨hplace, hfree⟩ := Files.freePlace (s := s.setFd fd none) hrest hroom
  change Fuzzer.freePlace s < maxFiles at hplace
  change s.openFds (Fuzzer.freePlace s) = 0 at hfree
  generalize Fuzzer.freePlace s = p at hplace hfree
  have hother {n : Int} (hn : n ≠ fd) : (s.setFd fd none).fds n = s.fds n := if_neg hn
  refine ⟨?_, fun k hk => ?_, fun k hk => ?_, fun j k hj heq => ?_, fun n hn => ?_⟩
  · rw [taken_fill hplace hfree (by omega), hrest.count]
    rfl
  · rw [put_other (by omega)]
    exact hrest.inside k hk
  · by_cases hkp : k = p
    · subst hkp
      rw [put_self]
      exact ⟨hfresh, hopened⟩
    · rw [put_other hkp] at hk ⊢
      rw [← hother (hunstored k)]
      exact hrest.stored k hk
  · by_cases hjp : j = p <;> by_cases hkp : k = p
    · rw [hjp, hkp]
    · rw [hjp, put_self, put_other hkp] at heq
      exact absurd heq.symm (hunstored k)
    · rw [hkp, put_self, put_other hjp] at heq
      exact absurd heq (hunstored j)
    · rw [put_other hjp] at hj heq
      rw [put_other hkp] at heq
      exact hrest.single j k hj heq
  · have hne : n ≠ fd := by
      rintro rfl
      have := hn p put_self
      omega
    rw [← hother hne]
    apply hrest.others n
    intro k hk
    by_cases hkp : k = p
    · rw [← hk, hkp, hfree]
    · exact hn k ((put_other hkp).trans hk)

theorem Files.clear (h : Files base s) {k : Nat} (hk : k < maxFiles) (hne : s.openFds k ≠ 0) :
    FileTable base (s.setFd (s.openFds k) none).fds (put s.openFds k 0) (s.openFiles - 1) := by
  have hother {n : Int} (hn : n ≠ s.openFds k) :
      (s.setFd (s.openFds k) none).fds n = s.fds n := if_neg hn
  refine ⟨?_, fun j hj => ?_, fun j hj => ?_, fun i j hi heq => ?_, fun n hn => ?_⟩
  · have hclear := taken_clear hk hne
    have hcount := h.count
    omega
  · rw [put_other (by omega)]
    exact h.inside j hj
  · have hjk : j ≠ k := by
      rintro rfl
      exact hj put_self
    rw [put_other hjk] at hj ⊢
    rw [hother fun heq => hjk (h.single j k hj heq)]
    exact h.stored j hj
  · have hik : i ≠ k := by
      rintro rfl
      exact hi put_self
    rw [put_other hik] at hi heq
    by_cases hjk : j = k
    · rw [hjk, put_self] at heq
      exact absurd heq hi
    · rw [put_other hjk] at heq
      exact h.single i j hi heq
  · by_cases hnk : n = s.openFds k
    · -- the descriptor that is closed is none of the old ones
      rw [hnk, (h.stored k hne).1]
      exact if_pos rfl
    · rw [hother hnk]
      apply h.others n
      intro j hj
      have hjk : j ≠ k := fun hjk => hnk (hjk ▸ hj.symm)
      exact hn j ((put_other hjk).trans hj)

/-! ## The calls -/

theorem freeFd_spec {a : Int} (h : freeFd s a ≠ -1) :
    0 ≤ freeFd s a ∧ s.fds (freeFd s a) = none := by
  unfold freeFd at h ⊢
  split at h
  case isTrue hfree =>
    rw [if_pos hfree]
    exact ⟨hfree.1, hfree.2.2⟩
  case isFalse => exact absurd rfl h

theorem closeOpen_files (c : Config) {k : Nat} (hk : k < maxFiles) :
    Keeps (Files base) (closeOpen c.quiet k) E := by
  refine triple_bind (triple_getState (Q := fun s' s => Files base s ∧ s' = s)
    fun s hs => ⟨hs, rfl⟩) fun s' => triple_whenever (fun hne => ?_) fun _ s hs => hs.1
  refine triple_bind (Q := fun _ => Files base) ?_ fun _ => keeps_bind keeps_pure fun _ =>
    triple_logLine fun s hs => hs
  rintro w ⟨hs, heq⟩
  subst heq
  exact hs.clear hk hne

section Calls

variable (c : Config) (hstdin : base 0 ≠ none)
include hstdin

/-- The counter stays as it is. -/
theorem openFile_lent (room : Int → Prop) :
    Triple (fun s => Files base s ∧ room s.openFiles) openFile
      (fun fd s => (fd = -1 ∧ Files base s ∨ Lent base fd s) ∧ room s.openFiles) E := by
  refine triple_bind keeps_answer fun a => triple_bind (triple_getState
    (Q := fun s' s => (Files base s ∧ room s.openFiles) ∧ s' = s) fun s hs => ⟨hs, rfl⟩) fun s' => ?_
  refine triple_bind (Q := fun _ s =>
    (freeFd s' a = -1 ∧ Files base s ∨ Lent base (freeFd s' a) s) ∧ room s.openFiles)
    (triple_whenever (fun hfd => triple_update ?_) fun hfd s hs =>
      ⟨.inl ⟨not_not.1 hfd, hs.1.1⟩, hs.1.2⟩) fun _ => triple_pure fun _ hs => hs
  rintro s ⟨⟨hs, hroom⟩, rfl⟩
  obtain ⟨hlo, hnone⟩ := freeFd_spec hfd
  exact ⟨.inr (hs.lent hstdin hlo hnone), hroom⟩

/-- A file that is read or written is closed again. -/
theorem transferFile_files (kind which : Nat) (size : Draw Int) :
    Keeps (Files base) (transferFile c.quiet kind which size) E := by
  refine triple_bind ((openFile_lent hstdin fun _ => True).weaken_pre fun s hs => ⟨hs, trivial⟩)
    fun fd => triple_whenever (fun hpos => ?_) ?_
  · have hlent : ∀ s, (fd = -1 ∧ Files base s ∨ Lent base fd s) ∧ True → Lent base fd s := by
      rintro s ⟨⟨rfl, -⟩ | hs, -⟩
      · exact absurd hpos (by decide)
      · exact hs
    refine Triple.weaken_pre ?_ hlent
    refine triple_bind keeps_draw fun size => triple_bind keeps_pure fun _ => ?_
    refine triple_bind keeps_answer fun result => triple_bind keeps_pure fun _ => ?_
    refine triple_bind (triple_logLine fun s hs =>
      ⟨hs.positive, hs.fresh, hs.opened, hs.unstored, hs.rest⟩) fun _ => ?_
    refine triple_bind (Q := fun _ => Files base) ?_ fun _ => keeps_pure
    exact triple_bind keeps_getState fun _ => triple_bind (triple_update fun s hs => hs.rest) fun _ =>
      keeps_pure
  · rintro hneg s ⟨⟨-, hs⟩ | hs, -⟩
    · exact hs
    · exact absurd hs.positive hneg

theorem leaveOpen_files : Triple (fun s => Files base s ∧ s.openFiles < maxFiles)
    (leaveOpen c.quiet) (fun _ => Files base) E := by
  refine triple_bind (openFile_lent hstdin (· < maxFiles)) fun fd => triple_whenever (fun hpos => ?_) ?_
  · refine triple_bind (triple_getState (Q := fun s' s =>
      (Lent base fd s ∧ s.openFiles < maxFiles) ∧ s' = s) ?_) fun s' => ?_
    · rintro s ⟨⟨rfl, -⟩ | hs, hroom⟩
      · exact absurd hpos (by decide)
      · exact ⟨⟨hs, hroom⟩, rfl⟩
    refine triple_bind (triple_update (Q := fun _ => Files base) ?_) fun _ =>
      keeps_bind keeps_pure fun _ => triple_logLine fun s hs => hs
    rintro s ⟨⟨hs, hroom⟩, rfl⟩
    exact hs.store hroom
  · rintro hneg s ⟨⟨-, hs⟩ | hs, -⟩
    · exact hs
    · exact absurd (Int.le_of_lt hs.positive) hneg

/-- One call. -/
theorem accessRandomFile_files : Keeps (Files base) (accessRandomFile c.quiet) E := by
  refine keeps_bind keeps_rand fun file => keeps_bind keeps_rand fun readSize => ?_
  refine keeps_bind keeps_rand fun which => keeps_bind keeps_pure fun _ => ?_
  split
  · exact transferFile_files c hstdin _ _ _
  · exact transferFile_files c hstdin _ _ _
  · refine triple_bind (triple_getState (Q := fun s' s => Files base s ∧ s' = s)
      fun s hs => ⟨hs, rfl⟩) fun s' => triple_whenever (fun hroom => ?_) fun _ s hs => hs.1
    refine (leaveOpen_files c hstdin).weaken_pre ?_
    rintro s ⟨hs, rfl⟩
    exact ⟨hs, hroom⟩
  · exact keeps_bind keeps_rand fun k => closeOpen_files c (Nat.mod_lt k (by decide))

/-- All calls. -/
theorem accessFiles_files (n : Nat) : Keeps (Files base) (accessFiles c n) E :=
  keeps_forRange n 0 fun _ _ _ => accessRandomFile_files c hstdin

end Calls

/-! ## What is left open -/

/-- The files that are left open, since a state in which there were none. -/
structure LeftOpen (s₀ s : St) : Prop where
  count : s.openFiles = taken 0 s.openFds maxFiles
  /-- A file is only opened while there is a place for it in the table. -/
  place : s.openFiles < maxFiles → freePlace s < maxFiles
  inside : ∀ k, maxFiles ≤ k → s.openFds k = 0
  /-- What is open and was not open before is in one place. -/
  stored : ∀ fd, s₀.fds fd = none → s.fds fd ≠ none → ∃! k, k < maxFiles ∧ s.openFds k = fd
  /-- What is in a place is open and was not open before. -/
  opened : ∀ k, s.openFds k ≠ 0 → s₀.fds (s.openFds k) = none ∧ s.fds (s.openFds k) = some .file

theorem Files.leftOpen {s₀ : St} (hstdin : s₀.fds 0 ≠ none) (h : Files s₀.fds s) : LeftOpen s₀ s where
  count := h.count
  place hroom := (h.freePlace hroom).1
  inside := h.inside
  stored fd hbefore hopen := by
    have hne : fd ≠ 0 := by
      rintro rfl
      exact hstdin hbefore
    have hplace : ∃ k, s.openFds k = fd := by
      by_contra hnone
      push Not at hnone
      exact hopen ((h.others fd fun k hk => absurd hk (hnone k)).trans hbefore)
    obtain ⟨k, rfl⟩ := hplace
    have hk : k < maxFiles := by
      by_contra hle
      exact hne (h.inside k (Nat.not_lt.1 hle))
    exact ⟨k, ⟨hk, rfl⟩, fun j hj => (h.single k j hne hj.2.symm).symm⟩
  opened := h.stored

theorem accessFiles_leftOpen (c : Config) (s₀ : St) (hstdin : s₀.fds 0 ≠ none)
    (hfds : ∀ k, s₀.openFds k = 0) (hfiles : s₀.openFiles = 0) (n : Nat) (answers : Nat → Int) :
    ∃ w, exec (accessFiles c n) ⟨answers, s₀⟩ = (some (), w) ∧ LeftOpen s₀ w.state := by
  have hstart : Files s₀.fds s₀ := by
    have hnone : taken 0 s₀.openFds maxFiles = 0 :=
      Nat.count_iff_forall_not.2 fun k _ => not_not.2 (hfds k)
    exact ⟨by rw [hnone]; exact hfiles, fun k _ => hfds k, fun k hk => absurd (hfds k) hk,
      fun j _ hj => absurd (hfds j) hj, fun _ _ => rfl⟩
  have hrun := triple_iff.1 (accessFiles_files (E := fun _ => False) c hstdin n) ⟨answers, s₀⟩ hstart
  cases hexec : exec (accessFiles c n) ⟨answers, s₀⟩ with
  | mk result w =>
    rw [hexec] at hrun
    cases result with
    | none => exact hrun.elim
    | some u => exact ⟨w, rfl, Files.leftOpen hstdin hrun⟩

/-- Everything is done, and logged. -/
def accessConfig : Config :=
  ⟨fun _ => true, true, 4096, [], 100, 1, 1000, fun _ => 0, 3, 0, 0⟩

theorem accessFiles_leftOpen_start :
    ∃ w, exec (accessFiles accessConfig 3) ⟨fun _ => 6, startState accessConfig⟩ = (some (), w) ∧
      LeftOpen (startState accessConfig) w.state :=
  accessFiles_leftOpen _ _ (by decide) (fun _ => rfl) rfl 3 fun _ => 6

end PerfEvent.Fuzzer
