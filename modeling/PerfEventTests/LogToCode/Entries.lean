import PerfEventTests.LogToCode.Orderly

/-!
# The entries of a log, compiled

The printer as a compiler: its source language is that of the entries that the fuzzer writes, and
its target language is that of the printed program. A log of entries is printed as a program that
does what the entries stand for, on a condition that speaks of the values of the entries and of the
table of the replay, and of no text.
-/

namespace PerfEvent.LogToCode

open Text ByteMemory Replay Runs
open Fuzzer (InRange iocSetOutput iocSetFilter setFilterLine closeLine overflowLine ioctlLine mmapLine
  munmapLine trashLine pollLine affinityLine accessLine)

variable {e : Env} {s : State} {x : LogEntry}

/-- The condition for an entry. No entry about an open file has the size that its line is read
with. -/
def EntryOrderly (e : Env) (x : LogEntry) (s : State) : Prop :=
  match x with
  | .seed _ | .ownPid _ | .sampleRate _ | .write .. | .prctl _ | .fork _ => True
  | .open fd _ _ groupFd _ _ => InRange numValues fd.toInt ∧
    (groupFd.toInt = -1 ∨ Live groupFd.toInt s) ∧ Replaces e fd.toInt s
  | .close fd | .overflow fd | .mmap _ fd _ | .filter fd _ _ _ => Live (toInt32 fd) s
  | .ioctl fd request arg => Live (toInt32 fd) s ∧
    (requestInt request = requestInt iocSetOutput →
      toSigned 64 arg = -1 ∨ Live (toSigned 64 arg) s) ∧
    (FlagRequest (requestInt request) → toInt32 (toSigned 64 arg) = toSigned 64 arg)
  | .read fd size => Live (toInt32 fd) s ∧ toUnsigned 64 (toInt32 size) ≤ readRoom
  | .munmap fd size _ => LiveMapping (toInt32 fd) s ∧ (s.event (toInt32 fd)).size = toInt32 size
  | .trash _ _ fd => LiveMapping (toInt32 fd) s
  | .poll fds _ => ∀ fd ∈ fds, Live (toInt32 fd) s ∧ (s.event (toInt32 fd)).fdRemap = toInt32 fd
  | .affinity which _ => which = 0
  | .transfer kind which _ _ => InRange maxFilenames (toInt32 which) ∧
    (toInt32 kind = 0 ∨ e.next s = 0)
  | .place .. => False

/-- The numbers of an orderly entry are all printed. -/
theorem EntryOrderly.full (h : EntryOrderly e x s) (hx : x.WellFormed) : x.Full := by
  refine ⟨fun kind which heq => ?_, fun which heq => ?_⟩
  · subst heq
    exact h
  · subst heq
    have hwhich : which = 0 := h
    have hone : ([] : List Nat).length = 1 := hx.2.1 (by omega)
    exact Nat.zero_ne_one hone

theorem number_of_scan {convs : List Conv} {line : Str} {vs : List Int}
    (h : sscanfLine convs line = vs) (k : Nat) : number convs line k = vs.getD k 0 := by
  rw [number, scanned, h]

/-! ## Polls and masks -/

theorem pollPairs_words (fds : List Int) (rest : List Str) :
    pollPairs fds.length ((fds.flatMap fun fd => [intText fd, "1".toList]) ++ rest) =
      fds.map fun fd => (toInt32 fd, 1) := by
  have hone : toSigned 16 (atoi "1".toList) = 1 := by decide
  induction fds with
  | nil => rfl
  | cons fd fds ih =>
    rw [List.flatMap_cons, List.append_assoc, List.length_cons, List.cons_append, List.cons_append,
      List.nil_append, pollPairs, ih, atoi_intText, hone]
    rfl

theorem length_polled (fds : List Int) :
    (fds.flatMap fun fd => [intText fd, "1".toList]).length = 2 * fds.length := by
  induction fds with
  | nil => rfl
  | cons fd fds ih =>
    rw [List.flatMap_cons, List.length_append, ih]
    simp only [List.length_cons, List.length_nil]
    omega

theorem orderly_poll {fds : List Int} {timeout : Nat} (hfds : fds.length < 128)
    (h : ∀ fd ∈ fds, Live (toInt32 fd) s ∧ (s.event (toInt32 fd)).fdRemap = toInt32 fd) :
    CommandOrderly e (pollLine fds timeout) s .poll := by
  have hnum : number [.d] (pollLine fds timeout) 0 = fds.length := by
    rw [number_of_scan sscanf_pollLine, List.getD_cons_zero,
      toInt32_natCast (hfds.trans (by decide))]
  have htexts : (tokens isBlank (pollLine fds timeout)).drop 2 =
      (fds.flatMap fun fd => [intText fd, "1".toList]) ++ [intText timeout ++ ['\n']] := by
    rw [tokens_pollLine]
    rfl
  unfold CommandOrderly
  dsimp only
  rw [hnum, htexts, Int.toNat_natCast, pollPairs_words, List.length_append, length_polled]
  refine ⟨?_, Nat.lt_succ_self _, List.forall_mem_map.2 h⟩
  exact Int.ofNat_le.2 hfds.le

/-- The line is cut behind its letter, which names no event. -/
theorem orderly_affinity {cpus : List Nat} (hx : (LogEntry.affinity 0 cpus).WellFormed) :
    CommandOrderly e (affinityLine 0 cpus) s .affinity := by
  have hfirst : firstText (affinityLine 0 cpus) = ['a'] := firstText_line rfl _
  refine ⟨?_, ?_⟩
  · rintro ⟨fd, hscan, -⟩
    rw [hfirst] at hscan
    cases hscan
  · rw [tokens_affinityLine]
    refine ⟨?_, ?_⟩
    · rw [List.length_map]
      exact hx.2.2.1
    · exact atoi_intText 0

/-! ## What an orderly entry is printed for -/

theorem commandOrderly_ioctl {line : Str} {fd request arg : Int}
    (hvar : ∀ k, number [.d, .d, .ld] line k = [fd, request, arg].getD k 0)
    (h : Live fd s ∧ (request = requestInt iocSetOutput → arg = -1 ∨ Live arg s) ∧
      (FlagRequest request → toInt32 arg = arg)) : CommandOrderly e line s .ioctl := by
  change (let var := number [.d, .d, .ld] line
    Live (var 0) s ∧ (var 1 = requestInt iocSetOutput → var 2 = -1 ∨ Live (var 2) s) ∧
      (FlagRequest (var 1) → toInt32 (var 2) = var 2))
  dsimp only
  rw [hvar, hvar, hvar]
  exact h

theorem commandOrderly_text (hx : x.WellFormed) (h : EntryOrderly e x s)
    (hfilter : ∀ fd custom arg string, x ≠ .filter fd custom arg string) :
    CommandOrderly e x.text s (command (some x.letter)) := by
  cases x with
  | seed | ownPid | sampleRate | write | prctl | fork => exact trivial
  | filter fd custom arg string => exact absurd rfl (hfilter fd custom arg string)
  | place => exact h.elim
  | «open» fd pid cpu groupFd flags attr =>
    obtain ⟨hfd, -, -, hgroup, -, -⟩ :=
      parseOpenEvent_openLine fd pid cpu groupFd flags attr noVars
    obtain ⟨hin, hleader, hreplaces⟩ := h
    refine ⟨?_, ?_, ?_⟩
    · exact hfd.symm ▸ hin
    · exact hgroup.symm ▸ hleader
    · exact hfd.symm ▸ hreplaces
  | close fd =>
    change Live (number [.d] (closeLine fd) 0) s
    rw [number_of_scan sscanf_closeLine]
    exact h
  | overflow fd =>
    change Live (number [.d] (overflowLine fd) 0) s
    rw [number_of_scan sscanf_overflowLine]
    exact h
  | mmap size fd addr =>
    change Live (number [.d, .d] (mmapLine size fd addr) 1) s
    rw [number_of_scan sscanf_mmapLine]
    exact h
  | trash value pageSize fd =>
    change LiveMapping (number [.d, .d, .d] (trashLine value pageSize fd) 2) s
    rw [number_of_scan sscanf_trashLine]
    exact h
  | poll fds timeout => exact orderly_poll hx h
  | affinity which cpus =>
    obtain rfl : which = 0 := h
    exact orderly_affinity hx
  | ioctl fd request arg =>
    have hvar (k : Nat) : number [.d, .d, .ld] (ioctlLine fd request arg) k =
        [toInt32 fd, requestInt request, toSigned 64 arg].getD k 0 :=
      number_of_scan sscanf_ioctlLine k
    exact commandOrderly_ioctl hvar h
  | read fd size =>
    have hvar (k : Nat) : number [.d, .d] (line 'R' [intText fd, intText size]) k =
        [toInt32 fd, toInt32 size].getD k 0 := number_of_scan sscanf_readLine k
    change Live (number _ (line 'R' [intText fd, intText size]) 0) s ∧
      toUnsigned 64 (number _ (line 'R' [intText fd, intText size]) 1) ≤ readRoom
    rw [hvar, hvar]
    exact h
  | munmap fd size addr =>
    have hvar (k : Nat) : number [.d, .d] (munmapLine fd size addr) k =
        [toInt32 fd, toInt32 size].getD k 0 := number_of_scan sscanf_munmapLine k
    change LiveMapping (number _ (munmapLine fd size addr) 0) s ∧
      (s.event (number _ (munmapLine fd size addr) 0)).size = number _ (munmapLine fd size addr) 1
    rw [hvar, hvar]
    exact h
  | transfer kind which size result =>
    have hvar (k : Nat) : number [.d, .d, .ld, .d]
        (accessLine kind which [intText size, intText result]) k =
          [toInt32 kind, toInt32 which, toInt32 size, toInt32 result].getD k 0 :=
      number_of_scan sscanf_transferLine k
    change InRange maxFilenames (number _ (accessLine kind which [intText size, intText result]) 1) ∧
      (number _ (accessLine kind which [intText size, intText result]) 0 = 0 ∨ e.next s = 0)
    rw [hvar, hvar, List.getD_cons_zero, List.getD_cons_succ, List.getD_cons_zero]
    exact h

/-- The request of a line with a filter is none of those whose argument matters. -/
theorem commandOrderly_filter {fd : Int} {custom : Nat} {arg : Int} {string : Str}
    (h : Live (toInt32 fd) s) :
    CommandOrderly e (cString (setFilterLine fd custom arg string)) s .ioctl := by
  have hvar (k : Nat) : number [.d, .d, .ld] (cString (setFilterLine fd custom arg string)) k =
      [toInt32 fd, requestInt iocSetFilter, toInt32 custom].getD k 0 :=
    number_of_scan sscanf_setFilterLine k
  refine commandOrderly_ioctl hvar ⟨h, fun hrequest => ?_, fun hrequest => ?_⟩
  · exact absurd hrequest (by decide)
  · unfold FlagRequest at hrequest
    exact absurd hrequest (by decide)

theorem orderly_entry (hx : x.WellFormed) (h : EntryOrderly e x s) :
    Orderly e (.line x.text) s := by
  by_cases hfilter : ∃ fd custom arg string, x = .filter fd custom arg string
  · obtain ⟨fd, custom, arg, string, rfl⟩ := hfilter
    exact orderly_of_command command_setFilterLine (commandOrderly_filter h)
  · have hother : ∀ fd custom arg string, x ≠ .filter fd custom arg string :=
      fun fd custom arg string heq => hfilter ⟨fd, custom, arg, string, heq⟩
    have hwords := (ofWords_of_ne_filter hother).cString
    refine orderly_of_command (c := command (some x.letter)) ?_ ?_
    · rw [hwords, (lineOf_text hx).1]
    · rw [hwords]
      exact commandOrderly_text hx h hother

/-! ## Whole logs -/

/-- The replay of the lines and the run over the values meet the conditions side by side. -/
theorem orderly_entries {xs : List LogEntry} (hxs : ∀ x ∈ xs, x.WellFormed)
    (h : Throughout (LogEntry.step e) (EntryOrderly e) s xs) :
    Throughout (step (plainEnv e)) (Orderly e) s ((xs.map LogEntry.text).map .line) ∧
      ∀ x ∈ xs, x.Full := by
  induction xs generalizing s with
  | nil => exact ⟨trivial, List.forall_mem_nil _⟩
  | cons x xs ih =>
    obtain ⟨hx, hrest⟩ := List.forall_mem_cons.1 hxs
    obtain ⟨hfirst, hlater⟩ := h
    obtain ⟨hlines, hfull⟩ := ih hrest hlater
    refine ⟨⟨orderly_entry hx hfirst, ?_⟩, List.forall_mem_cons.2 ⟨hfirst.full hx, hfull⟩⟩
    rw [step_entry e s hx]
    exact hlines

/-- One event is opened and mapped, the mapping is written to, and everything is undone. -/
def oneMapping : List LogEntry :=
  [.open 5 0 (-1) (-1) 0 {}, .mmap 4096 5 0, .trash 1 4096 5, .munmap 5 4096 0, .close 5]

end PerfEvent.LogToCode
