import PerfEventTests.Fuzzer.Lines
import PerfEventTests.Lib.Fields
import PerfEventTests.Replay.FileAccesses
import PerfEventTests.Replay.LineWork
import PerfEventTests.Replay.OpenRoundTrip

/-!
# The language of the log

The lines that the fuzzer writes, as values, and what the replay makes of each of them. A log of
such lines is taken apart and replayed as the values say, one after the other.
-/

namespace PerfEvent.Replay

open Text ByteMemory Fuzzer

/-- A line of the log, with what the fuzzer prints into it. -/
inductive LogEntry where
  | seed (seed : Int)
  | ownPid (pid : BitVec 32)
  | sampleRate (rate : Int)
  | open (fd pid cpu groupFd : BitVec 32) (flags : BitVec 64) (attr : PerfEventAttr)
  | close (fd : Int)
  | overflow (fd : Int)
  | ioctl (fd request arg : Int)
  | filter (fd : Int) (custom : Nat) (arg : Int) (filter : Str)
  | read (fd size : Int)
  | write (fd size : Int)
  | mmap (size fd addr : Int)
  | munmap (fd size addr : Int)
  | trash (value pageSize : Nat) (fd : Int)
  | prctl (type : Int)
  | fork (type : Int)
  | poll (fds : List Int) (timeout : Nat)
  | affinity (which : Nat) (cpus : List Nat)
  | transfer (kind which : Nat) (size result : Int)
  | place (kind which : Nat)

namespace LogEntry

def letter : LogEntry → Char
  | seed _ => 'S'
  | ownPid _ => 'G'
  | sampleRate _ => 'r'
  | «open» .. => 'O'
  | close _ => 'C'
  | overflow _ => 'o'
  | ioctl .. | filter .. => 'I'
  | read .. => 'R'
  | write .. => 'W'
  | mmap .. => 'M'
  | munmap .. => 'U'
  | trash .. => 'Q'
  | prctl _ => 'P'
  | fork _ => 'F'
  | poll .. => 'p'
  | affinity .. => 'a'
  | transfer .. | place .. => 'A'

/-- The line itself. -/
def text : LogEntry → Str
  | seed v => line 'S' [intText v]
  | ownPid v => line 'G' [signedText v]
  | sampleRate v => line 'r' [intText v]
  | «open» fd pid cpu groupFd flags attr => openLine fd pid cpu groupFd flags attr
  | close fd => closeLine fd
  | overflow fd => overflowLine fd
  | ioctl fd request arg => ioctlLine fd request arg
  | filter fd custom arg string => setFilterLine fd custom arg string
  | read fd size => line 'R' [intText fd, intText size]
  | write fd size => line 'W' [intText fd, intText size]
  | mmap size fd addr => mmapLine size fd addr
  | munmap fd size addr => munmapLine fd size addr
  | trash value pageSize fd => trashLine value pageSize fd
  | prctl type => line 'P' [intText type]
  | fork type => line 'F' [intText type]
  | poll fds timeout => pollLine fds timeout
  | affinity which cpus => affinityLine which cpus
  | transfer kind which size result => accessLine kind which [intText size, intText result]
  | place kind which => accessLine kind which []

/-- What the operations of the fuzzer draw. A filter that shows a newline would be read as two
lines. -/
def WellFormed : LogEntry → Prop
  | filter fd custom arg string => '\n' ∉ shownFilter fd custom arg string
  | poll fds _ => fds.length < 128
  | affinity which cpus => which < 4 ∧ (which < 2 → cpus.length = 1) ∧ cpus.length ≤ 1024 ∧
    ∀ k ∈ cpus, k < 1024
  | _ => True

end LogEntry

/-! ## What the replay makes of a line -/

/-- The descriptors are polled as they are. -/
def handPolled : Nat → List Int → State → State
  | _, [], s => s
  | i, fd :: fds, s => handPolled (i + 1) fds ((s.touch .pollfds i).hand fd fd)

def pollFor (fds : List Int) (timeout : Int) (s : State) : State :=
  ((handPolled 0 fds s).access (.passed fds.length maxPollFds)).issue
    (.poll (fds.map fun fd => (fd, some 1)) fds.length timeout)

def touchCpus : Nat → Nat → State → State
  | 0, _, s => s
  | n + 1, j, s => touchCpus n (j + 1) (s.touch .cpuArray j)

/-- Each processor is read where it has been stored, and entered in its word of the mask. -/
def touchRead : Nat → List Nat → State → State
  | _, [], s => s
  | j, c :: cpus, s => touchRead (j + 1) cpus ((s.touch .cpuArray j).touch .cpuMask (c / 64 : Nat))

/-- A line for which there is no mask is read as one that closes an event. -/
def affinityFor (e : Env) (which : Nat) (cpus : List Nat) (s : State) : State :=
  match s.cpuMask <|> e.cpuAlloc with
  | none => closeFor which s
  | some _ =>
    let mask : Nat → Bool := fun n => decide (n ∈ cpus)
    { (touchRead 0 cpus (touchCpus cpus.length 0 s)).issue (.schedSetaffinity mask) with
      cpuMask := some mask }

/-- A child is made, or killed and waited for. -/
def forkAs (e : Env) (type : Int) (s : State) : State :=
  if type ≠ 0 then { s.issue .fork with forkedPid := e.forked s }
  else (s.issue (.kill s.forkedPid)).issue (.waitpid s.forkedPid)

/-- What an entry stands for. The attribute of an event has lost what is not printed, a filter has
become its third number, and the size of a line about an open file is whatever is on the stack. -/
def LogEntry.meaning (e : Env) (x : LogEntry) (s : State) : State :=
  match x with
  | seed _ | sampleRate _ | write _ _ => s
  | ownPid v => { s with originalPid := v.toInt }
  | «open» fd pid cpu groupFd flags attr => openAs e
    { noVars with fd := fd, pid := pid, cpu := cpu, groupFd := groupFd, flags := flags,
                  pe := reread attr {} } s
  | close fd => closeFor (toInt32 fd) s
  | overflow fd => overflowFor (toInt32 fd) s
  | ioctl fd request arg => ioctlAs (toInt32 fd) (requestInt request) (toSigned 64 arg) s
  | filter fd custom _ _ => ioctlAs (toInt32 fd) (requestInt iocSetFilter) (toInt32 custom) s
  | read fd size => readFor (toInt32 fd) (toInt32 size) s
  | mmap size fd _ => mmapIfOpen e (toInt32 fd) (toInt32 size) s
  | munmap fd size _ => munmapIfOpen e (toInt32 fd) (toInt32 size) s
  | trash value pageSize fd => trashIfOpen (toInt32 fd) (toInt32 value) (toInt32 pageSize) s
  | prctl type => s.issue (.prctl (toInt32 type ≠ 0))
  | fork type => forkAs e (toInt32 type) s
  | poll fds timeout => pollFor (fds.map toInt32) (toInt32 timeout) s
  | affinity which cpus => affinityFor e which cpus s
  | transfer kind which size _ => accessAs e (toInt32 kind) (toInt32 which) (toInt32 size) s
  | place kind which => accessAs e (toInt32 kind) (toInt32 which) (e.stack s.lineNum 2) s

variable {e : Env} {s : State}

/-! ## The characters of a line -/

theorem word_pointerText (addr : Int) : Word (pointerText addr) := by
  unfold pointerText
  split
  · have hnil : Word ['(', 'n', 'i', 'l', ')'] :=
      word_cons (by decide) (word_cons (by decide) (word_cons (by decide)
        (word_cons (by decide) (word_cons (by decide) word_nil))))
    exact hnil
  · exact word_cons (by decide) (word_cons (by decide) (word_hex _))

theorem word_attrTexts (attr : PerfEventAttr) : ∀ t ∈ attrTexts attr, Word t := by
  have hbit {w : Nat} (v : BitVec w) : Word (bitText v) := word_decimal _
  have hhex {w : Nat} (v : BitVec w) : Word (hexText v) := word_hex _
  have hint {w : Nat} (v : BitVec w) : Word (signedText v) := word_decimal _
  simp only [attrTexts, List.forall_mem_cons, hbit, hhex, hint, List.not_mem_nil, false_imp_iff,
    implies_true, and_true]

/-- The words of a poll line. -/
theorem word_polled (fds : List Int) :
    ∀ t ∈ fds.flatMap fun fd => [intText fd, "1".toList], Word t := by
  have hone : Word "1".toList := word_decimal 1
  intro t ht
  obtain ⟨fd, -, ht⟩ := List.mem_flatMap.1 ht
  simp only [List.mem_cons, List.not_mem_nil, or_false] at ht
  obtain rfl | rfl := ht
  · exact word_intText fd
  · exact hone

theorem word_cpus (cpus : List Nat) : ∀ t ∈ cpus.map fun j : Nat => intText j, Word t := by
  intro t ht
  obtain ⟨j, -, rfl⟩ := List.mem_map.1 ht
  exact word_intText j

/-- Every line but one with a filter is made of words. -/
def OfWords (x : LogEntry) : Prop :=
  ∃ texts, x.text = line x.letter texts ∧ ∀ t ∈ texts, Word t

theorem ofWords_open {fd pid cpu groupFd : BitVec 32} {flags : BitVec 64} {attr : PerfEventAttr} :
    OfWords (.open fd pid cpu groupFd flags attr) := by
  refine ⟨_, openLine_eq_line fd pid cpu groupFd flags attr, fun t ht => ?_⟩
  have hhead : ∀ t ∈ [signedText fd, signedText pid, signedText cpu, signedText groupFd,
      hexText flags], Word t := by
    simp only [List.forall_mem_cons, List.not_mem_nil, false_imp_iff, implies_true, and_true]
    exact ⟨word_decimal _, word_decimal _, word_decimal _, word_decimal _, word_hex _⟩
  obtain ht | ht := List.mem_append.1 ht
  · exact (List.mem_append.1 ht).elim (hhead t) (word_attrTexts attr t)
  · rw [List.mem_singleton.1 ht]
    exact word_nil

theorem ofWords_poll {fds : List Int} {timeout : Nat} : OfWords (.poll fds timeout) := by
  refine ⟨_, rfl, List.forall_mem_cons.2 ⟨word_intText _, fun t ht => ?_⟩⟩
  obtain ht | ht := List.mem_append.1 ht
  · exact word_polled fds t ht
  · rw [List.mem_singleton.1 ht]
    exact word_intText _

theorem ofWords_affinity {which : Nat} {cpus : List Nat} : OfWords (.affinity which cpus) := by
  refine ⟨_, rfl, List.forall_mem_cons.2 ⟨word_intText _,
    List.forall_mem_cons.2 ⟨word_intText _, fun t ht => ?_⟩⟩⟩
  obtain ht | ht := List.mem_append.1 ht
  · exact word_cpus cpus t ht
  · rw [List.mem_singleton.1 ht]
    exact word_nil

theorem letter_printed (x : LogEntry) : x.letter ≠ '\n' ∧ x.letter ≠ '\x00' := by
  cases x <;> simp only [LogEntry.letter] <;> decide

theorem cString_of_not_mem {text : Str} (h : '\x00' ∉ text) : cString text = text := by
  unfold cString
  rw [List.takeWhile_eq_self_iff]
  intro c hc
  exact decide_eq_true fun heq => h (heq ▸ hc)

/-- A line of words is a C string. -/
theorem OfWords.cString {x : LogEntry} (h : OfWords x) : cString x.text = x.text := by
  obtain ⟨texts, htext, hwords⟩ := h
  rw [htext]
  exact cString_of_not_mem (zero_not_mem_line (letter_printed x).2 hwords)

theorem ofWords_of_ne_filter {x : LogEntry}
    (hx : ∀ fd custom arg string, x ≠ .filter fd custom arg string) : OfWords x := by
  cases x with
  | «open» => exact ofWords_open
  | poll => exact ofWords_poll
  | affinity => exact ofWords_affinity
  | filter fd custom arg string => exact absurd rfl (hx fd custom arg string)
  | ownPid => exact ⟨_, rfl, List.forall_mem_singleton.2 (word_decimal _)⟩
  | _ =>
    refine ⟨_, rfl, ?_⟩
    simp only [List.forall_mem_cons, List.not_mem_nil, false_imp_iff, implies_true, word_intText,
      word_longText, word_pointerText, and_self]

/-- Each line is read as one line, by its letter. -/
theorem lineOf_text {x : LogEntry} (hx : x.WellFormed) : LineOf x.letter x.text := by
  have hletter := (letter_printed x).1
  cases x with
  | seed v => exact lineOf_ints hletter [v] (by simp)
  | ownPid v =>
    refine lineOf_line (n := 11) hletter ?_ (by simp [bufsiz])
    exact List.forall_mem_singleton.2 (short_signedText v)
  | sampleRate v => exact lineOf_ints hletter [v] (by simp)
  | «open» fd pid cpu groupFd flags attr => exact lineOf_openLine fd pid cpu groupFd flags attr
  | close fd => exact lineOf_closeLine fd
  | overflow fd => exact lineOf_overflowLine fd
  | ioctl fd request arg => exact lineOf_ioctlLine fd request arg
  | filter fd custom arg string => exact lineOf_setFilterLine hx
  | read fd size => exact lineOf_ints hletter [fd, size] (by simp)
  | write fd size => exact lineOf_ints hletter [fd, size] (by simp)
  | mmap size fd addr => exact lineOf_mmapLine size fd addr
  | munmap fd size addr => exact lineOf_munmapLine fd size addr
  | trash value pageSize fd => exact lineOf_trashLine value pageSize fd
  | prctl type => exact lineOf_ints hletter [type] (by simp)
  | fork type => exact lineOf_ints hletter [type] (by simp)
  | poll fds timeout => exact lineOf_pollLine hx timeout
  | affinity which cpus => exact lineOf_affinityLine hx.1 hx.2.2
  | transfer kind which size result =>
    exact lineOf_ints hletter [(kind : Int), which, size, result] (by simp)
  | place kind which => exact lineOf_ints hletter [(kind : Int), which] (by simp)

/-! ## The numbers of a line -/

theorem scans_int (v : Int) : Scans .d (intText v) (toInt32 v) := by
  have hscans := scans_intText v
  rwa [BitVec.toInt_ofInt] at hscans

/-- A `long` that is read as an `int`. -/
theorem scans_long_int (v : Int) : Scans .d (longText v) (toInt32 v) := by
  have hvalue : Conv.d.value (decide ((BitVec.ofInt 64 v).toInt < 0)) (BitVec.ofInt 64 v).toInt.natAbs =
      toInt32 v := by
    rw [Conv.value, strtol_of_range (BitVec.le_toInt _) BitVec.toInt_lt, BitVec.toInt_ofInt]
    exact Int.bmod_bmod_of_dvd (by decide)
  exact hvalue ▸ scans_decimal rfl _

/-- An `int` that is read as a `long`. -/
theorem scans_int_long (v : Int) : Scans .ld (intText v) (toInt32 v) := by
  have hvalue : (BitVec.ofInt 32 v).toInt = toInt32 v := BitVec.toInt_ofInt v
  have hscans : Scans .ld (intText v) _ := scans_toInt_ld (BitVec.ofInt 32 v)
  rwa [hvalue] at hscans

theorem scans_long (v : Int) : Scans .ld (longText v) (toSigned 64 v) := by
  have hscans := scans_longText v
  rwa [BitVec.toInt_ofInt] at hscans

/-- A line of `int`s, and conversions that it has no text for. -/
theorem sscanfLine_ints (letter : Char) (vs : List Int) (more : List Conv) :
    sscanfLine (vs.map (fun _ => Conv.d) ++ more) (line letter (vs.map intText)) =
      vs.map toInt32 := by
  have hscan := sscanfLine_line letter more (vs.map fun v => ⟨.d, intText v, toInt32 v⟩)
    (List.forall_mem_map.2 fun v _ => scans_int v)
  simpa only [List.map_map, Function.comp_def] using hscan

/-- Two `int`s with an address behind them. -/
theorem sscanfLine_pointer (letter : Char) (v w addr : Int) :
    sscanfLine [.d, .d] (line letter [intText v, intText w, pointerText addr]) =
      [toInt32 v, toInt32 w] :=
  sscanfLine_front letter [⟨.d, intText v, _⟩, ⟨.d, intText w, _⟩]
    (List.forall_mem_cons.2 ⟨scans_int v, List.forall_mem_singleton.2 (scans_int w)⟩)
    (pointerText addr) []

/-- An `int` with other words behind it. -/
theorem sscanfLine_first (letter : Char) (v : Int) (t : Str) (texts : List Str) :
    sscanfLine [.d] (line letter (intText v :: t :: texts)) = [toInt32 v] :=
  sscanfLine_front letter [⟨.d, intText v, toInt32 v⟩]
    (List.forall_mem_singleton.2 (scans_int v)) t texts

variable {fd size addr : Int}

theorem sscanf_closeLine : sscanfLine [.d] (closeLine fd) = [toInt32 fd] :=
  sscanfLine_ints 'C' [fd] []

theorem sscanf_overflowLine : sscanfLine [.d] (overflowLine fd) = [toInt32 fd] :=
  sscanfLine_ints 'o' [fd] []

theorem sscanf_readLine : sscanfLine [.d, .d] (line 'R' [intText fd, intText size]) =
    [toInt32 fd, toInt32 size] :=
  sscanfLine_ints 'R' [fd, size] []

theorem sscanf_mmapLine :
    sscanfLine [.d, .d] (mmapLine size fd addr) = [toInt32 size, toInt32 fd] :=
  sscanfLine_pointer 'M' size fd addr

theorem sscanf_munmapLine :
    sscanfLine [.d, .d] (munmapLine fd size addr) = [toInt32 fd, toInt32 size] :=
  sscanfLine_pointer 'U' fd size addr

theorem sscanf_trashLine {value pageSize : Nat} :
    sscanfLine [.d, .d, .d] (trashLine value pageSize fd) =
      [toInt32 value, toInt32 pageSize, toInt32 fd] :=
  sscanfLine_ints 'Q' [(value : Int), pageSize, fd] []

theorem sscanf_ioctlLine {request arg : Int} :
    sscanfLine [.d, .d, .ld] (ioctlLine fd request arg) =
      [toInt32 fd, requestInt request, toSigned 64 arg] := by
  refine sscanfLine_line 'I' [] [⟨.d, intText fd, toInt32 fd⟩,
    ⟨.d, longText request, requestInt request⟩, ⟨.ld, longText arg, toSigned 64 arg⟩] ?_
  simp only [List.forall_mem_cons]
  exact ⟨scans_int fd, scans_long_int request, scans_long arg, List.forall_mem_nil _⟩

theorem sscanf_transferLine {kind which : Nat} {size result : Int} :
    sscanfLine [.d, .d, .ld, .d] (accessLine kind which [intText size, intText result]) =
      [toInt32 kind, toInt32 which, toInt32 size, toInt32 result] := by
  have hitems : ∀ i ∈ [(⟨.d, intText kind, toInt32 kind⟩ : Item),
      ⟨.d, intText which, toInt32 which⟩, ⟨.ld, intText size, toInt32 size⟩,
      ⟨.d, intText result, toInt32 result⟩], Scans i.conv i.text i.value := by
    simp only [List.forall_mem_cons]
    exact ⟨scans_int kind, scans_int which, scans_int_long size, scans_int result,
      List.forall_mem_nil _⟩
  have hscans := sscanfLine_line 'A' [] _ hitems
  simp only [List.map_cons, List.map_nil, List.append_nil] at hscans
  exact hscans

theorem sscanf_pollLine {fds : List Int} {timeout : Nat} :
    sscanfLine [.d] (pollLine fds timeout) = [toInt32 fds.length] := by
  cases fds with
  | nil => exact sscanfLine_first 'p' _ _ _
  | cons fd fds => exact sscanfLine_first 'p' _ _ _

/-! ## What is dispatched -/

/-- The handler of a line, without options. -/
theorem dispatch_words {c : Command} {x : LogEntry} (hx : x.WellFormed) (hwords : OfWords x)
    (hc : command (some x.letter) = c) :
    dispatch (plainEnv e) (cString x.text) s = runCommand (plainEnv e) x.text s c := by
  rw [hwords.cString, dispatch, (lineOf_text hx).1, hc]

theorem dispatch_open {fd pid cpu groupFd : BitVec 32} {flags : BitVec 64} {attr : PerfEventAttr} :
    runCommand (plainEnv e) (openLine fd pid cpu groupFd flags attr) s .open =
      (LogEntry.open fd pid cpu groupFd flags attr).meaning e s := by
  obtain ⟨hfd, hpid, hcpu, hgroup, hflags, hpe⟩ := parseOpenEvent_openLine fd pid cpu groupFd flags
    attr { e.openStack s.lineNum with pe := {} }
  rw [runCommand, replayAs_plainEnv, openEvent]
  change openAs e (parseOpenEvent _ { e.openStack s.lineNum with pe := {} }) s = _
  unfold openAs
  rw [hfd, hpid, hcpu, hgroup, hflags, hpe]
  rfl

theorem dispatch_mmap :
    runCommand (plainEnv e) (mmapLine size fd addr) s .mmap =
      (LogEntry.mmap size fd addr).meaning e s := by
  have hcomplete : 2 ≤ (sscanfLine [.d, .d] (mmapLine size fd addr)).length := by
    rw [sscanf_mmapLine]
    rfl
  rw [runCommand, replayAs_plainEnv, mmapEvent, scanned_mmap (by decide) hcomplete,
    scanned_mmap (by decide) hcomplete, number, number, scanned, scanned, sscanf_mmapLine]
  simp only [List.getD_cons_zero, List.getD_cons_succ]
  rfl

theorem dispatch_munmap :
    runCommand (plainEnv e) (munmapLine fd size addr) s .munmap =
      (LogEntry.munmap fd size addr).meaning e s := by
  rw [runCommand, replayAs_plainEnv, munmapEvent, scanned, scanned, sscanf_munmapLine]
  simp only [List.getD_cons_zero, List.getD_cons_succ]
  rfl

theorem dispatch_trash {value pageSize : Nat} :
    runCommand (plainEnv e) (trashLine value pageSize fd) s .trash =
      (LogEntry.trash value pageSize fd).meaning e s := by
  rw [runCommand, replayAs_plainEnv, trashMmapEvent, scanned, scanned, scanned, sscanf_trashLine]
  simp only [List.getD_cons_zero, List.getD_cons_succ]
  rfl

theorem dispatch_close : runCommand (plainEnv e) (closeLine fd) s .close =
    (LogEntry.close fd).meaning e s := by
  rw [runCommand, replayAs_plainEnv, closeEvent, sscanf_closeLine]
  rfl

theorem dispatch_overflow : runCommand (plainEnv e) (overflowLine fd) s .overflow =
    (LogEntry.overflow fd).meaning e s := by
  rw [runCommand, replayAs_plainEnv, setupOverflow, scanned, sscanf_overflowLine]
  rfl

theorem dispatch_read :
    runCommand (plainEnv e) (line 'R' [intText fd, intText size]) s .read =
      (LogEntry.read fd size).meaning e s := by
  rw [runCommand, replayAs_plainEnv, readEvent, scanned, scanned, sscanf_readLine]
  simp only [List.getD_cons_zero, List.getD_cons_succ]
  rfl

/-- A line with one number, zero without. -/
theorem flagOf_line (letter : Char) (v : Int) : flagOf (line letter [intText v]) = toInt32 v := by
  have hscan : sscanfLine [.d] (line letter [intText v]) = [toInt32 v] :=
    sscanfLine_ints letter [v] []
  rw [flagOf, hscan]
  rfl

theorem dispatch_prctl {type : Int} : runCommand (plainEnv e) (line 'P' [intText type]) s .prctl =
    (LogEntry.prctl type).meaning e s := by
  rw [runCommand, replayAs_plainEnv, prctlEvent, flagOf_line]
  rfl

theorem dispatch_fork {type : Int} : runCommand (plainEnv e) (line 'F' [intText type]) s .fork =
    (LogEntry.fork type).meaning e s := by
  rw [runCommand, replayAs_plainEnv, forkEvent, flagOf_line]
  rfl

theorem dispatch_ownPid {v : BitVec 32} : runCommand (plainEnv e) (line 'G' [signedText v]) s .pid =
    (LogEntry.ownPid v).meaning e s := by
  have hscan : sscanfLine [.d] (line 'G' [signedText v]) = [v.toInt] :=
    sscanfLine_line 'G' [] [⟨.d, signedText v, v.toInt⟩]
      (List.forall_mem_singleton.2 (scans_toInt v))
  rw [runCommand, hscan]
  rfl

theorem dispatch_transfer {kind which : Nat} {size result : Int} :
    runCommand (plainEnv e) (accessLine kind which [intText size, intText result]) s .access =
      (LogEntry.transfer kind which size result).meaning e s := by
  rw [runCommand, replayAs_plainEnv, accessEvent, scanned, scanned, scanned, sscanf_transferLine]
  simp only [List.getD_cons_zero, List.getD_cons_succ]
  rfl

theorem dispatch_place {kind which : Nat} :
    runCommand (plainEnv e) (accessLine kind which []) s .access =
      (LogEntry.place kind which).meaning e s := by
  have hscan : sscanfLine [.d, .d, .ld, .d] (accessLine kind which []) =
      [toInt32 kind, toInt32 which] := sscanfLine_ints 'A' [(kind : Int), which] [.ld, .d]
  rw [runCommand, replayAs_plainEnv, accessEvent, scanned, scanned, scanned, hscan]
  simp only [List.getD_cons_zero, List.getD_cons_succ, List.getD_nil]
  rfl

theorem dispatch_ioctl {request arg : Int} :
    runCommand (plainEnv e) (ioctlLine fd request arg) s .ioctl =
      (LogEntry.ioctl fd request arg).meaning e s := by
  rw [runCommand, replayAs_plainEnv, ioctlEvent, scanned, scanned, scanned, sscanf_ioctlLine]
  simp only [List.getD_cons_zero, List.getD_cons_succ]
  rfl

/-- The first words of a line with a filter are never cut off. -/
theorem setFilterLine_front (fd : Int) (custom : Nat) (arg : Int) (string : Str) :
    ∃ rest, setFilterLine fd custom arg string =
      'I' :: ([intText fd, longText iocSetFilter, intText custom].flatMap (fun t => ' ' :: t) ++
        ' ' :: rest) := by
  have hshort : ∀ t ∈ [intText fd, longText iocSetFilter, intText custom], Short 20 t := by
    simp only [List.forall_mem_cons]
    exact ⟨(short_intText fd).mono (by decide), short_longText _, (short_intText _).mono (by decide),
      List.forall_mem_nil _⟩
  have hlen := (short_texts hshort).1
  set words := [intText fd, longText iocSetFilter, intText custom].flatMap (fun t => ' ' :: t)
    with hwords
  have hline : line 'I' (filterHead fd custom arg ++ [string]) =
      ('I' :: words) ++ (' ' :: (longText arg ++ ' ' :: (string ++ ['\n']))) := by
    simp [line, filterHead, hwords]
  obtain ⟨n, hn⟩ : ∃ n, bufsiz - 1 - ('I' :: words).length = n + 1 := by
    refine ⟨bufsiz - 2 - ('I' :: words).length, ?_⟩
    simp only [List.length_cons, List.length_nil, bufsiz] at hlen ⊢
    omega
  refine ⟨(longText arg ++ ' ' :: (string ++ ['\n'])).take n, ?_⟩
  rw [setFilterLine, hline, List.take_append, List.take_of_length_le (by omega), hn,
    List.take_succ_cons, List.cons_append]

theorem cString_append {text : Str} (h : '\x00' ∉ text) (rest : Str) :
    cString (text ++ rest) = text ++ cString rest := by
  refine List.takeWhile_append_of_pos fun c hc => decide_eq_true ?_
  rintro rfl
  exact h hc

theorem cString_setFilterLine (fd : Int) (custom : Nat) (arg : Int) (string : Str) :
    ∃ rest, cString (setFilterLine fd custom arg string) =
      'I' :: ([intText fd, longText iocSetFilter, intText custom].flatMap (fun t => ' ' :: t) ++
        ' ' :: rest) := by
  have hwords : ∀ t ∈ [intText fd, longText iocSetFilter, intText custom], Word t := by
    simp only [List.forall_mem_cons]
    exact ⟨word_intText _, word_longText _, word_intText _, List.forall_mem_nil _⟩
  obtain ⟨rest, hrest⟩ := setFilterLine_front fd custom arg string
  have hline := zero_not_mem_line (show 'I' ≠ '\x00' by decide) hwords
  refine ⟨cString rest, ?_⟩
  rw [hrest, ← List.cons_append, cString_append fun hmem => hline (List.mem_append_left _ hmem)]
  rfl

/-- A zero byte in the filter cuts off nothing that is read. -/
theorem sscanf_setFilterLine {custom : Nat} {arg : Int} {string : Str} :
    sscanfLine [.d, .d, .ld] (cString (setFilterLine fd custom arg string)) =
      [toInt32 fd, requestInt iocSetFilter, toInt32 custom] := by
  have hhead : ∀ i ∈ [(⟨.d, intText fd, toInt32 fd⟩ : Item),
      ⟨.d, longText iocSetFilter, requestInt iocSetFilter⟩, ⟨.ld, intText custom, toInt32 custom⟩],
      Scans i.conv i.text i.value := by
    simp only [List.forall_mem_cons]
    exact ⟨scans_int fd, scans_long_int _, scans_int_long _, List.forall_mem_nil _⟩
  obtain ⟨rest, hrest⟩ := cString_setFilterLine fd custom arg string
  have hscans := sscanfLine_items 'I' _ hhead rest
  simp only [List.map_cons, List.map_nil] at hscans
  rw [hrest]
  exact hscans

theorem command_setFilterLine {custom : Nat} {arg : Int} {string : Str} :
    command (cString (setFilterLine fd custom arg string)).head? = .ioctl := by
  obtain ⟨rest, hrest⟩ := cString_setFilterLine fd custom arg string
  rw [hrest]
  rfl

/-- The third number of a line with a filter says whether the argument is one of its own. -/
theorem dispatch_filter {custom : Nat} {arg : Int} {string : Str} :
    dispatch (plainEnv e) (cString (setFilterLine fd custom arg string)) s =
      (LogEntry.filter fd custom arg string).meaning e s := by
  have hline : dispatch (plainEnv e) (cString (setFilterLine fd custom arg string)) s =
      ioctlEvent (plainEnv e) (cString (setFilterLine fd custom arg string)) s := by
    rw [dispatch, command_setFilterLine]
    rfl
  rw [hline, ioctlEvent, scanned, scanned, scanned, sscanf_setFilterLine]
  simp only [List.getD_cons_zero, List.getD_cons_succ]
  rfl

/-! ## Poll lines -/

theorem intText_ne_nil (v : Int) : intText v ≠ [] := by
  unfold intText decimal
  split
  · exact List.cons_ne_nil _ _
  · exact Nat.toDigits_ne_nil

theorem atoi_intText (v : Int) : atoi (intText v) = toInt32 v := by
  have hvalue : (BitVec.ofInt 32 v).toInt = toInt32 v := BitVec.toInt_ofInt v
  have hcut : Conv.d.value (decide ((BitVec.ofInt 32 v).toInt < 0)) (BitVec.ofInt 32 v).toInt.natAbs =
      toInt32 v := by
    have hlow := BitVec.le_toInt (BitVec.ofInt 32 v)
    have hhigh := BitVec.toInt_lt (x := BitVec.ofInt 32 v)
    rw [Conv.value, strtol_of_range (by omega) (by omega), hvalue]
    exact toInt32_of_range (hvalue ▸ hlow) (hvalue ▸ hhigh)
  rw [atoi, intText, scanNumber_decimal rfl, hcut]
  rfl

/-- The last number of a line has the newline behind it. -/
theorem atoi_intText_newline (v : Int) : atoi (intText v ++ ['\n']) = toInt32 v := by
  rw [atoi, scans_int v '\n' [] rfl]
  rfl

theorem toInt32_natCast {n : Nat} (h : n < 2 ^ 31) : toInt32 n = n :=
  toInt32_of_range (by omega) (by omega)

theorem pollEntries_words (fds : List Int) (rest : List Str) : ∀ (i : Nat) (s : State),
    pollEntries fds.length i ((fds.flatMap fun fd => [intText fd, "1".toList]) ++ rest) s =
      (fds.map fun fd => (toInt32 fd, some 1), rest, handPolled i (fds.map toInt32) s) := by
  have hone : toSigned 16 (atoi "1".toList) = 1 := by decide
  induction fds with
  | nil => exact fun _ _ => rfl
  | cons fd fds ih =>
    intro i s
    rw [List.flatMap_cons, List.append_assoc, List.length_cons, List.cons_append, List.cons_append,
      List.nil_append, pollEntries, ih, atoi_intText, hone]
    rfl

theorem polled_ne_nil (fds : List Int) :
    ∀ t ∈ fds.flatMap fun fd => [intText fd, "1".toList], t ≠ [] := by
  intro t ht
  obtain ⟨fd, -, ht⟩ := List.mem_flatMap.1 ht
  simp only [List.mem_cons, List.not_mem_nil, or_false] at ht
  obtain rfl | rfl := ht
  · exact intText_ne_nil fd
  · exact List.cons_ne_nil _ _

/-- The newline stays behind the timeout. -/
theorem tokens_pollLine (fds : List Int) (timeout : Nat) :
    tokens isBlank (pollLine fds timeout) = ['p'] :: intText fds.length ::
      ((fds.flatMap fun fd => [intText fd, "1".toList]) ++ [intText timeout ++ ['\n']]) := by
  have hblank {t : Str} (h : Word t) : ∀ c ∈ t, isBlank c = false :=
    fun c hc => decide_eq_false (h c hc).1
  have hlast : Splits isBlank (intText timeout ++ ['\n']) [intText timeout ++ ['\n']] := by
    refine .last (fun h => List.cons_ne_nil _ _ (List.append_eq_nil_iff.1 h).2) ?_
    exact List.forall_mem_append.2 ⟨hblank (word_intText _), List.forall_mem_singleton.2 rfl⟩
  refine (splits_line rfl (show isBlank 'p' = false from rfl)
    (intText fds.length :: fds.flatMap fun fd => [intText fd, "1".toList]) ?_ hlast).tokens_eq
  refine List.forall_mem_cons.2 ⟨⟨intText_ne_nil _, hblank (word_intText _)⟩, fun t ht => ?_⟩
  exact ⟨polled_ne_nil fds t ht, hblank (word_polled fds t ht)⟩

theorem dispatch_poll {fds : List Int} (hfds : fds.length < 128) {timeout : Nat} :
    runCommand (plainEnv e) (pollLine fds timeout) s .poll =
      (LogEntry.poll fds timeout).meaning e s := by
  have hnum : toInt32 fds.length = fds.length := toInt32_natCast (hfds.trans (by decide))
  rw [runCommand, replayAs_plainEnv, pollEvent, scanned, sscanf_pollLine, tokens_pollLine]
  simp only [List.getD_cons_zero, List.drop_succ_cons, List.drop_zero]
  rw [hnum, pollAs, Int.toNat_natCast, pollEntries_words]
  change (((handPolled 0 (fds.map toInt32) s).access (.passed fds.length maxPollFds)).issue
    (.poll (fds.map fun fd => (toInt32 fd, some 1)) fds.length
      (atoi (intText timeout ++ ['\n'])))) = _
  rw [atoi_intText_newline, LogEntry.meaning, pollFor, List.map_map, List.length_map]
  rfl

/-! ## Affinity lines -/

theorem storeCpus_eq (texts : List Str) : ∀ (i : Nat) (s : State),
    storeCpus i texts s = touchCpus texts.length i s := by
  induction texts with
  | nil => exact fun _ _ => rfl
  | cons t texts ih => exact fun i s => ih (i + 1) _

theorem touchCpus_mask (mask : Option (Nat → Bool)) (n : Nat) : ∀ (j : Nat) (s : State),
    touchCpus n j { s with cpuMask := mask } = { touchCpus n j s with cpuMask := mask } := by
  induction n with
  | zero => exact fun _ _ => rfl
  | succ n ih => exact fun j s => ih (j + 1) (s.touch .cpuArray j)

theorem touchRead_mask (cpus : List Nat) (mask : Option (Nat → Bool)) : ∀ (j : Nat) (s : State),
    touchRead j cpus { s with cpuMask := mask } = { touchRead j cpus s with cpuMask := mask } := by
  induction cpus with
  | nil => exact fun _ _ => rfl
  | cons c cpus ih => exact fun j s => ih (j + 1) ((s.touch .cpuArray j).touch .cpuMask (c / 64 : Nat))

theorem touchMask_of_lt {cpu setSize : Nat} (h : cpu < 8 * setSize) (hbound : cpu < 2 ^ 64)
    (s : State) : touchMask cpu setSize s = s.touch .cpuMask (cpu / 64 : Nat) := by
  have hbyte : cpu / 8 < setSize := by omega
  unfold touchMask
  dsimp only
  rw [toUnsigned_natCast hbound, Int.toNat_natCast, if_pos hbyte]

/-- A processor that has a place in the mask. -/
theorem cpuSet_of_lt {cpu setSize : Nat} (h : cpu < 8 * setSize) (hbound : cpu < 2 ^ 64)
    (mask : Nat → Bool) (k : Nat) :
    cpuSet cpu setSize mask k = true ↔ k = cpu ∨ mask k = true := by
  have hbyte : cpu / 8 < setSize := by omega
  rw [cpuSet, toUnsigned_natCast hbound, Int.toNat_natCast]
  split
  case isTrue hk => exact iff_of_true rfl (.inl hk.2)
  case isFalse hk => exact ⟨.inr, fun h => h.resolve_left fun heq => hk ⟨hbyte, heq⟩⟩

/-- The processors from the `j`-th on are entered. -/
theorem readCpus_words (cpus : Int → Int) (ks : List Nat) :
    ∀ (j : Nat) (mask : Nat → Bool) (s : State),
    (∀ i (hi : i < ks.length), cpus ((j + i : Nat) : Int) = ks[i]) → (∀ k ∈ ks, k < maxCpus) →
    (∀ k, (readCpus cpus ks.length j mask s).1 k = true ↔ k ∈ ks ∨ mask k = true) ∧
      (readCpus cpus ks.length j mask s).2 = touchRead j ks s := by
  induction ks with
  | nil => exact fun _ _ _ _ _ => ⟨fun k => by simp [readCpus], rfl⟩
  | cons c ks ih =>
    intro j mask s hcpus hbound
    obtain ⟨hc, hks⟩ := List.forall_mem_cons.1 hbound
    have hfirst : cpus (j : Int) = c := hcpus 0 (Nat.succ_pos _)
    have hrest : ∀ i (hi : i < ks.length), cpus ((j + 1 + i : Nat) : Int) = ks[i] := by
      intro i hi
      have hnext := hcpus (i + 1) (Nat.succ_lt_succ hi)
      rwa [← Nat.add_assoc, Nat.add_right_comm] at hnext
    have hword : touchMask (c : Int) maxCpus (s.touch .cpuArray j) =
        (s.touch .cpuArray j).touch .cpuMask (c / 64 : Nat) :=
      touchMask_of_lt (by omega) (hc.trans (by decide)) _
    have hrounds := ih (j + 1) (cpuSet (cpus j) maxCpus mask)
      (touchMask (cpus j) maxCpus (s.touch .cpuArray j)) hrest hks
    rw [List.length_cons, readCpus]
    refine ⟨fun k => ?_, ?_⟩
    · rw [hrounds.1 k, hfirst, cpuSet_of_lt (by omega) (hc.trans (by decide)), List.mem_cons]
      tauto
    · rw [hrounds.2, hfirst, hword]
      rfl

theorem cpuArray_words {cpus : List Nat} (hcpus : ∀ k ∈ cpus, k < 1024) (stack : Nat → Int) {i : Nat}
    (hi : i < cpus.length) : cpuArray (cpus.map fun j : Nat => intText j) stack (i : Int) = cpus[i] := by
  have htext : (cpus.map fun j : Nat => intText j)[i]? = some (intText cpus[i]) := by
    rw [List.getElem?_map, List.getElem?_eq_getElem hi]
    rfl
  have hbound := hcpus cpus[i] (List.getElem_mem hi)
  unfold cpuArray
  rw [Int.toNat_natCast, htext]
  dsimp only
  rw [if_pos (Int.natCast_nonneg i), atoi_intText, toInt32_natCast (hbound.trans (by decide))]

/-- The processors of the line are those of the mask. -/
theorem affinityMask_words {which : Nat} {cpus : List Nat}
    (hx : (LogEntry.affinity which cpus).WellFormed)
    (stack : Nat → Int) (mask : Nat → Bool) (s : State) :
    affinityMask which cpus.length (cpuArray (cpus.map fun j : Nat => intText j) stack) mask s =
      (fun n => decide (n ∈ cpus), touchRead 0 cpus s) := by
  obtain ⟨hwhich, hone, -, hcpus⟩ := hx
  unfold affinityMask
  by_cases hfew : which < 2
  · obtain ⟨c, rfl⟩ := List.length_eq_one_iff.1 (hone hfew)
    have hc : c < 1024 := hcpus c List.mem_cons_self
    have hfirst : cpuArray ([c].map fun j : Nat => intText j) stack 0 = c :=
      cpuArray_words hcpus stack Nat.zero_lt_one
    have hroom : c < 8 * cpuSetSize := hc
    rw [if_pos (by omega), hfirst, touchMask_of_lt hroom (hc.trans (by decide))]
    refine Prod.ext (funext fun n => ?_) rfl
    have hset := cpuSet_of_lt hroom (hc.trans (by decide)) (fun _ => false) n
    rw [Bool.eq_iff_iff, hset, decide_eq_true_iff, List.mem_singleton]
    simp
  · have hread := readCpus_words (cpuArray (cpus.map fun j : Nat => intText j) stack) cpus 0
      (fun _ => false) s (fun i hi => by rw [Nat.zero_add]; exact cpuArray_words hcpus stack hi) hcpus
    rw [if_neg (by omega), if_pos (by omega), Int.toNat_natCast]
    refine Prod.ext (funext fun n => ?_) hread.2
    rw [Bool.eq_iff_iff, hread.1 n, decide_eq_true_iff]
    simp

/-- The blank at the end stands for nothing. -/
theorem tokens_affinityLine (which : Nat) (cpus : List Nat) :
    tokens isBlankOrNewline (affinityLine which cpus) =
      ['a'] :: intText which :: intText cpus.length :: cpus.map fun j : Nat => intText j := by
  have hblank {t : Str} (h : Word t) : ∀ c ∈ t, isBlankOrNewline c = false := by
    intro c hc
    obtain ⟨hspace, hnewline, -⟩ := h c hc
    exact decide_eq_false fun h => h.elim hspace hnewline
  have hword (v : Int) : intText v ≠ [] ∧ ∀ c ∈ intText v, isBlankOrNewline c = false :=
    ⟨intText_ne_nil v, hblank (word_intText v)⟩
  have hnewline : Splits isBlankOrNewline ([] ++ ['\n']) [] := .nil rfl
  have hsplits := splits_line rfl (show isBlankOrNewline 'a' = false from rfl)
    (intText which :: intText cpus.length :: cpus.map fun j : Nat => intText j) ?_ hnewline
  · exact hsplits.tokens_eq.trans (List.append_nil _)
  · exact List.forall_mem_cons.2 ⟨hword _, List.forall_mem_cons.2 ⟨hword _,
      List.forall_mem_map.2 fun j _ => hword j⟩⟩

theorem firstText_line {letter : Char} (hletter : isBlankOrNewline letter = false) (texts : List Str) :
    firstText (line letter texts) = [letter] := by
  have hcons : firstText (line letter texts) = letter ::
      ((texts.flatMap fun t => ' ' :: t) ++ ['\n']).takeWhile fun c => !isBlankOrNewline c := by
    rw [firstText, line, List.cons_append, List.takeWhile_cons_of_pos (by rw [hletter]; rfl)]
  rw [hcons]
  cases texts with
  | nil => rfl
  | cons t texts => rfl

theorem affinityAs_words {which : Nat} {cpus : List Nat}
    (hx : (LogEntry.affinity which cpus).WellFormed)
    (mask : Nat → Bool) (s : State) :
    affinityAs e (tokens isBlankOrNewline (affinityLine which cpus)) mask s =
      { (touchRead 0 cpus (touchCpus cpus.length 0 s)).issue
          (.schedSetaffinity fun n => decide (n ∈ cpus)) with
        cpuMask := some fun n => decide (n ∈ cpus) } := by
  have hwhich : atoi (intText which) = which := by
    rw [atoi_intText, toInt32_natCast (hx.1.trans (by decide))]
  have hnum : atoi (intText cpus.length) = cpus.length := by
    have hlen : cpus.length < 2 ^ 31 := lt_of_le_of_lt hx.2.2.1 (by decide)
    rw [atoi_intText, toInt32_natCast hlen]
  rw [tokens_affinityLine, affinityAs, hwhich, hnum, setAffinity, storeCpus_eq, List.length_map,
    affinityMask_words hx]

/-- The line is cut behind its letter, so that nothing is closed, unless there is no mask. -/
theorem dispatch_affinity {which : Nat} {cpus : List Nat}
    (hx : (LogEntry.affinity which cpus).WellFormed) :
    runCommand (plainEnv e) (affinityLine which cpus) s .affinity =
      (LogEntry.affinity which cpus).meaning e s := by
  have hline : runCommand (plainEnv e) (affinityLine which cpus) s .affinity =
      closeEvent (affinityEvent (plainEnv e) (affinityLine which cpus) s).1
        (affinityEvent (plainEnv e) (affinityLine which cpus) s).2 := rfl
  have halloc : (plainEnv e).cpuAlloc = e.cpuAlloc := rfl
  rw [hline, affinityEvent, halloc, LogEntry.meaning, affinityFor]
  cases s.cpuMask <|> e.cpuAlloc with
  | none =>
    have hscan : sscanfLine [.d] (affinityLine which cpus) = [toInt32 which] :=
      sscanfLine_first 'a' _ _ _
    dsimp only
    rw [closeEvent, hscan, toInt32_natCast (hx.1.trans (by decide))]
  | some mask =>
    have hfirst : (affinityLine which cpus).takeWhile (fun c => !isBlankOrNewline c) = ['a'] :=
      firstText_line rfl _
    dsimp only
    rw [hfirst, affinityAs_words hx, touchCpus_mask, touchRead_mask]
    rfl

/-! ## Numbers that are missing -/

/-- The line has all its numbers, unless it is about an open file or about no processor. -/
def LogEntry.Full (x : LogEntry) : Prop :=
  (∀ kind which, x ≠ .place kind which) ∧ ∀ which, x ≠ .affinity which []

theorem completeAs_text {x : LogEntry} (hfull : x.Full)
    (hx : ∀ fd custom arg string, x ≠ .filter fd custom arg string) :
    CompleteAs x.text (command (some x.letter)) := by
  cases x with
  | seed | ownPid | sampleRate | write | prctl | fork => exact trivial
  | filter fd custom arg string => exact absurd rfl (hx fd custom arg string)
  | place kind which => exact absurd rfl (hfull.1 kind which)
  | «open» fd pid cpu groupFd flags attr =>
    change 60 ≤ (openValues (openLine fd pid cpu groupFd flags attr)).length
    rw [openValues, sscanf_openLine, List.length_map]
    exact Nat.le_refl 60
  | close => exact (congrArg List.length sscanf_closeLine).ge
  | overflow => exact (congrArg List.length sscanf_overflowLine).ge
  | ioctl => exact (congrArg List.length sscanf_ioctlLine).ge
  | read => exact (congrArg List.length sscanf_readLine).ge
  | mmap => exact (congrArg List.length sscanf_mmapLine).ge
  | munmap => exact (congrArg List.length sscanf_munmapLine).ge
  | trash => exact (congrArg List.length sscanf_trashLine).ge
  | poll => exact (congrArg List.length sscanf_pollLine).ge
  | transfer =>
    exact (Nat.le_succ 3).trans (congrArg List.length sscanf_transferLine).ge
  | affinity which cpus =>
    intro letter which' num heq
    have htexts := (tokens_affinityLine which cpus).symm.trans heq
    have hnone : cpus.map (fun j : Nat => intText j) = [] := by
      simpa only [List.cons.injEq] using (List.cons.inj (List.cons.inj (List.cons.inj htexts).2).2).2
    exact hfull.2 which (congrArg _ (List.map_eq_nil_iff.1 hnone))

theorem complete_of_command {text : Str} {c : Command} (h : command (cString text).head? = c)
    (hc : CompleteAs (cString text) c) : Complete (.line text) := by
  subst h
  exact hc

theorem complete_text {x : LogEntry} (hx : x.WellFormed) (hfull : x.Full) :
    Complete (.line x.text) := by
  by_cases hfilter : ∃ fd custom arg string, x = .filter fd custom arg string
  · obtain ⟨fd, custom, arg, string, rfl⟩ := hfilter
    exact complete_of_command command_setFilterLine (congrArg List.length sscanf_setFilterLine).ge
  · have hother : ∀ fd custom arg string, x ≠ .filter fd custom arg string :=
      fun fd custom arg string heq => hfilter ⟨fd, custom, arg, string, heq⟩
    have hwords := (ofWords_of_ne_filter hother).cString
    refine complete_of_command (c := command (some x.letter)) ?_ ?_
    · rw [hwords, (lineOf_text hx).1]
    · rw [hwords]
      exact completeAs_text hfull hother

/-! ## Whole logs -/

/-- A line that the fuzzer has written does what its values stand for. -/
theorem dispatch_entry (e : Env) (s : State) {x : LogEntry} (hx : x.WellFormed) :
    dispatch (plainEnv e) (cString x.text) s = x.meaning e s := by
  by_cases hfilter : ∃ fd custom arg string, x = .filter fd custom arg string
  · obtain ⟨fd, custom, arg, string, rfl⟩ := hfilter
    exact dispatch_filter
  · have hwords : OfWords x := ofWords_of_ne_filter fun fd custom arg string heq =>
      hfilter ⟨fd, custom, arg, string, heq⟩
    cases x with
    | filter fd custom arg string => exact absurd ⟨fd, custom, arg, string, rfl⟩ hfilter
    | seed | sampleRate | write => exact dispatch_words hx hwords rfl
    | ownPid => exact (dispatch_words hx hwords rfl).trans dispatch_ownPid
    | «open» => exact (dispatch_words hx hwords rfl).trans dispatch_open
    | close => exact (dispatch_words hx hwords rfl).trans dispatch_close
    | overflow => exact (dispatch_words hx hwords rfl).trans dispatch_overflow
    | ioctl => exact (dispatch_words hx hwords rfl).trans dispatch_ioctl
    | read => exact (dispatch_words hx hwords rfl).trans dispatch_read
    | mmap => exact (dispatch_words hx hwords rfl).trans dispatch_mmap
    | munmap => exact (dispatch_words hx hwords rfl).trans dispatch_munmap
    | trash => exact (dispatch_words hx hwords rfl).trans dispatch_trash
    | prctl => exact (dispatch_words hx hwords rfl).trans dispatch_prctl
    | fork => exact (dispatch_words hx hwords rfl).trans dispatch_fork
    | poll => exact (dispatch_words hx hwords rfl).trans (dispatch_poll hx)
    | affinity => exact (dispatch_words hx hwords rfl).trans (dispatch_affinity hx)
    | transfer => exact (dispatch_words hx hwords rfl).trans dispatch_transfer
    | place => exact (dispatch_words hx hwords rfl).trans dispatch_place

/-- The loop over the lines goes on until a line ends it. -/
def LogEntry.step (e : Env) (s : State) (x : LogEntry) : State :=
  if s.progress = .running then
    let s := x.meaning e { s with lineNum := s.lineNum + 1 }
    if s.progress = .running then { s with totalSyscalls := s.totalSyscalls + 1 } else s
  else s

theorem step_entry (e : Env) (s : State) {x : LogEntry} (hx : x.WellFormed) :
    step (plainEnv e) s (.line x.text) = x.step e s := by
  unfold LogEntry.step step
  by_cases hrunning : s.progress = .running
  · rw [if_pos hrunning, if_pos hrunning]
    dsimp only
    unfold replayLine
    dsimp only
    rw [if_neg (by exact fun h => absurd h.2 (Nat.not_lt_zero _)), dispatch_entry e _ hx,
      countLine_plainEnv]
  · rw [if_neg hrunning, if_neg hrunning]

theorem replayFrom_entries (e : Env) {xs : List LogEntry} (hxs : ∀ x ∈ xs, x.WellFormed) (s : State) :
    replayFrom (plainEnv e) (xs.map fun x => .line x.text) s = xs.foldl (LogEntry.step e) s := by
  induction xs generalizing s with
  | nil => rfl
  | cons x xs ih =>
    obtain ⟨hx, hxs⟩ := List.forall_mem_cons.1 hxs
    rw [List.foldl_cons, ← step_entry e s hx]
    exact ih hxs _

/-- The lines of the file are those that have been written. -/
theorem fileLines_entries {xs : List LogEntry} (hxs : ∀ x ∈ xs, x.WellFormed) :
    fileLines bufsiz (xs.flatMap LogEntry.text) = xs.map LogEntry.text := by
  have hframed : ∀ t ∈ xs.map LogEntry.text, Framed bufsiz t := by
    intro t ht
    obtain ⟨x, hx, rfl⟩ := List.mem_map.1 ht
    exact (lineOf_text (hxs x hx)).2
  rw [List.flatMap_def]
  exact fileLines_framed (by decide) hframed

/-- A log is replayed as its entries say, one after the other, whatever they hold. -/
theorem replay_written_log (e : Env) (xs : List LogEntry) (hxs : ∀ x ∈ xs, x.WellFormed) :
    replay (plainEnv e) ((fileLines bufsiz (xs.flatMap LogEntry.text)).map .line) =
      killChild (xs.foldl (LogEntry.step e) (startState e)) := by
  have hstart : startState (plainEnv e) = startState e := rfl
  rw [fileLines_entries hxs, List.map_map, replay, hstart]
  exact congrArg killChild (replayFrom_entries e hxs _)

end PerfEvent.Replay
