import Mathlib.Data.List.TakeWhile
import PerfEventTests.Fuzzer.OpenFiles
import PerfEventTests.Replay.Forks

/-!
# Files that are accessed

`access_random_file` reads a file, writes one, leaves one open or closes one that was left open, and
logs each of them with a line of its own form. `access_event` takes all lines in one form, and reads
or writes.
-/

namespace PerfEvent.Fuzzer

open Draws Programs Text

/-- `MAX_FILENAMES` -/
def maxFilenames : Nat := 6

def filenames : List String :=
  ["/proc/sys/kernel/perf_cpu_time_max_percent",
   "/proc/sys/kernel/perf_event_paranoid",
   "/proc/sys/kernel/perf_event_max_sample_rate",
   "/proc/sys/kernel/perf_event_max_stack",
   "/proc/sys/kernel/perf_event_mlock_kb",
   "/proc/sys/kernel/nmi_watchdog"]

/-- What one call does: a file with the number of bytes that is asked for and with what comes of it,
or the place in the table where the descriptor of a file stands. -/
inductive FileOp where
  | read (file : Fin maxFilenames) (count result : BitVec 32)
  | write (file : Fin maxFilenames) (count result : BitVec 32)
  | leaveOpen (file : Fin maxFilenames) (place : Nat)
  | close (place : Nat)
  deriving DecidableEq

def FileOp.line : FileOp → Str
  | .read file count result => accessLine 0 file [decimal count.toInt, decimal result.toInt]
  | .write file count result => accessLine 1 file [decimal count.toInt, decimal result.toInt]
  | .leaveOpen _ place => accessLine 2 place []
  | .close place => accessLine 3 place []

/-! ## The recorder with what it does -/

section Accessing

variable (e : Env)

def transferring (op : BitVec 32 → BitVec 32 → FileOp) (size : Draw Int) : Fuzz (Option FileOp) := do
  let fd ← openFile
  if 0 < fd then do
    let size ← draw size
    e.pt .elsewhere
    let result ← answer
    e.pt .elsewhere
    let done := op (BitVec.ofInt 32 size) (BitVec.ofInt 32 result)
    logLine e 'A' done.line
    let _ ← closeFd fd
    return some done
  else return none

def leavingOpen (file : Fin maxFilenames) : Fuzz (Option FileOp) := do
  let fd ← openFile
  if 0 ≤ fd then do
    let s ← getState
    let k := freePlace s
    update fun s => { s with
      openFds := fun j => if j = k then fd else s.openFds j
      openFiles := s.openFiles + 1 }
    e.pt .elsewhere
    logLine e 'A' (FileOp.leaveOpen file k).line
    return some (.leaveOpen file k)
  else return none

def closing (k : Nat) : Fuzz (Option FileOp) := do
  let s ← getState
  if s.openFds k ≠ 0 then do
    closePlace k
    e.pt .elsewhere
    logLine e 'A' (FileOp.close k).line
    return some (.close k)
  else return none

/-- The four branches of `access_random_file`. -/
def accessOfKind (file : Fin maxFilenames) (readSize : Nat) : Nat → Fuzz (Option FileOp)
  | 0 => transferring e (.read file) (return ((readSize % 9000 : Nat) : Int))
  | 1 => transferring e (.write file) setupRandomWriteValue
  | 2 => do
    let s ← getState
    if s.openFiles < maxFiles then leavingOpen e file else return none
  | _ => do
    let k ← rand
    closing e (k % maxFiles)

/-- `access_random_file`, with the operation whose line it logs. -/
def accessing : Fuzz (Option FileOp) := do
  let file ← rand
  let readSize ← rand
  let which ← rand
  e.pt .elsewhere
  accessOfKind e ⟨file % 6, Nat.mod_lt file (by decide)⟩ readSize (which % 4)

/-- One call after the other. -/
def accessings : Nat → Fuzz (List FileOp)
  | 0 => return []
  | n + 1 => do
    let op ← accessing e
    let ops ← accessings n
    return op.toList ++ ops

end Accessing

/-! ### It is the recorder -/

section Forgotten

variable {e : Env}

theorem transferFile_eq {kind which : Nat} {op : BitVec 32 → BitVec 32 → FileOp} (size : Draw Int)
    (hline : ∀ count result, (op (BitVec.ofInt 32 count) (BitVec.ofInt 32 result)).line =
      accessLine kind which [intText count, intText result]) :
    transferFile e kind which size = (fun _ => ()) <$> transferring e op size := by
  unfold transferFile transferring
  simp only [map_bind, hline, whenever]
  congr 1
  funext fd
  split
  · simp only [map_bind, map_pure]
  · rw [map_pure]

theorem leaveOpen_eq (file : Fin maxFilenames) :
    leaveOpen e = (fun _ => ()) <$> leavingOpen e file := by
  unfold leaveOpen leavingOpen
  simp only [map_bind, whenever]
  congr 1
  funext fd
  split
  · simp only [map_bind, map_pure, bind_pure_unit]
    rfl
  · rw [map_pure]

theorem closeOpen_eq (k : Nat) : closeOpen e k = (fun _ => ()) <$> closing e k := by
  unfold closeOpen closing
  simp only [map_bind, whenever]
  congr 1
  funext s
  split
  · simp only [map_bind, map_pure, bind_pure_unit]
    rfl
  · rw [map_pure]

theorem accessRandomFile_eq : accessRandomFile e = (fun _ => ()) <$> accessing e := by
  unfold accessRandomFile accessing
  simp only [map_bind]
  congr 1
  funext file
  congr 1
  funext readSize
  congr 1
  funext which
  congr 1
  funext _
  generalize which % 4 = kind
  match kind with
  | 0 => exact transferFile_eq _ fun _ _ => rfl
  | 1 => exact transferFile_eq _ fun _ _ => rfl
  | 2 =>
    simp only [accessOfKind, map_bind, whenever]
    congr 1
    funext s
    split
    · exact leaveOpen_eq _
    · rw [map_pure]
  | _ + 3 =>
    simp only [accessOfKind, map_bind]
    congr 1
    funext k
    exact closeOpen_eq _

theorem accessFiles_eq (c : Config) (n : Nat) :
    accessFiles c n = (fun _ => ()) <$> accessings c.quiet n := by
  unfold accessFiles
  generalize 0 = i
  induction n generalizing i with
  | zero => rfl
  | succ n ih =>
    rw [forRange, ih (i + 1), accessRandomFile_eq, accessings]
    simp only [map_bind, bind_map_left, bind_pure_comp, Functor.map_map]

end Forgotten

/-! ### What it logs -/

section Logging

variable {c : Config} {text : Str} {E : St → Prop} (hlog : c.logging = true)

/-- The log has the line of what was done behind `text`. -/
def Logged (text : Str) (op : Option FileOp) (s : St) : Prop :=
  s.log = text ++ op.toList.flatMap FileOp.line

theorem logged_none {s : St} (h : s.log = text) : Logged text none s :=
  h.trans (List.append_nil text).symm

theorem openFile_log : Keeps (fun s => s.log = text) openFile E :=
  keeps_bind keeps_answer fun _ => keeps_bind keeps_getState fun _ =>
    keeps_bind (keeps_whenever fun _ => triple_update fun _ hs => hs) fun _ => keeps_pure

theorem closeFd_log (fd : Int) : Keeps (fun s => s.log = text) (closeFd fd) E :=
  keeps_bind keeps_getState fun _ => keeps_bind (triple_update fun _ hs => hs) fun _ => keeps_pure

include hlog

theorem logLine_logged (op : FileOp) :
    Triple (fun s => s.log = text) (logLine c.quiet 'A' op.line) (fun _ => Logged text (some op)) E := by
  refine triple_whenever (fun _ => triple_update fun s hs => ?_) fun hno => absurd hlog hno
  have hlines : [op].flatMap FileOp.line = op.line := List.append_nil _
  rw [Logged, Option.toList_some, hlines, ← hs]

theorem transferring_logged (op : BitVec 32 → BitVec 32 → FileOp) (size : Draw Int) :
    Triple (fun s => s.log = text) (transferring c.quiet op size) (Logged text) E := by
  refine triple_bind openFile_log fun fd => triple_ite (fun _ => ?_) fun _ =>
    triple_pure fun _ => logged_none
  refine triple_bind keeps_draw fun size => triple_bind keeps_pure fun _ => ?_
  refine triple_bind keeps_answer fun result => triple_bind keeps_pure fun _ => ?_
  refine triple_bind (logLine_logged hlog _) fun _ => triple_bind ?_ fun _ => triple_pure fun _ hs => hs
  exact closeFd_log fd

theorem leavingOpen_logged (file : Fin maxFilenames) :
    Triple (fun s => s.log = text) (leavingOpen c.quiet file) (Logged text) E := by
  refine triple_bind openFile_log fun fd => triple_ite (fun _ => ?_) fun _ =>
    triple_pure fun _ => logged_none
  refine triple_bind keeps_getState fun s => triple_bind (Q := fun _ s => s.log = text)
    (triple_update fun _ hs => hs) fun _ => ?_
  exact triple_bind keeps_pure fun _ => triple_bind (logLine_logged hlog _) fun _ =>
    triple_pure fun _ hs => hs

theorem closing_logged (k : Nat) :
    Triple (fun s => s.log = text) (closing c.quiet k) (Logged text) E := by
  refine triple_bind keeps_getState fun s => triple_ite (fun _ => ?_) fun _ =>
    triple_pure fun _ => logged_none
  have hclose : Keeps (fun s => s.log = text) (closePlace k) E :=
    keeps_bind keeps_getState fun s => keeps_bind (closeFd_log _) fun _ => triple_update fun _ hs => hs
  exact triple_bind hclose fun _ => triple_bind keeps_pure fun _ =>
    triple_bind (logLine_logged hlog _) fun _ => triple_pure fun _ hs => hs

theorem accessing_logged :
    Triple (fun s => s.log = text) (accessing c.quiet) (Logged text) E := by
  refine triple_bind keeps_rand fun file => triple_bind keeps_rand fun readSize => ?_
  refine triple_bind keeps_rand fun which => triple_bind keeps_pure fun _ => ?_
  generalize which % 4 = kind
  match kind with
  | 0 => exact transferring_logged hlog _ _
  | 1 => exact transferring_logged hlog _ _
  | 2 =>
    refine triple_bind keeps_getState fun s => triple_ite (fun _ => ?_) fun _ => ?_
    · exact leavingOpen_logged hlog _
    · exact triple_pure fun _ => logged_none
  | _ + 3 => exact triple_bind keeps_rand fun k => closing_logged hlog _

/-- The log of all calls. -/
theorem accessings_logged (n : Nat) : Triple (fun s => s.log = text) (accessings c.quiet n)
    (fun ops s => s.log = text ++ ops.flatMap FileOp.line) E := by
  induction n generalizing text with
  | zero => exact triple_pure fun s hs => hs.trans (List.append_nil text).symm
  | succ n ih =>
    refine triple_bind (accessing_logged hlog) fun op => triple_bind ih fun ops => ?_
    refine triple_pure fun s hs => ?_
    rw [hs, List.flatMap_append, List.append_assoc]

end Logging

end PerfEvent.Fuzzer

namespace PerfEvent.Replay

open Draws Programs Text Fuzzer

/-! ## The reader -/

def filenames : List String :=
  ["/proc/sys/kernel/perf_cpu_time_max_percent",
   "/proc/sys/kernel/perf_event_paranoid",
   "/proc/sys/kernel/perf_event_max_sample_rate",
   "/proc/sys/kernel/perf_event_max_stack",
   "/proc/sys/kernel/perf_event_mlock_kb",
   "/proc/sys/kernel/nmi_watchdog"]

/-- The index in the table of the reader has the name of the file. -/
def SameFile (file : Fin Fuzzer.maxFilenames) (index : Int) : Prop :=
  0 ≤ index ∧ filenames[index.toNat]? = Fuzzer.filenames[file.val]?

/-- The calls are what was done, with the same file and as many bytes. -/
def DoneBy (calls : List Call) : FileOp → Prop
  | .read file count _ => ∃ index, calls = [.fopen index false, .fread count.toInt, .fclose] ∧
      SameFile file index
  | .write file count _ => ∃ index text, calls = [.fopen index true, .fprintf text, .fclose] ∧
      SameFile file index ∧ (text.length : Int) = count.toInt
  | .leaveOpen file _ => ∃ index writing, calls = [.fopen index writing] ∧ SameFile file index
  | .close _ => calls = [.fclose]

/-- The numbers that stand in a line. -/
def lineValues : FileOp → List Int
  | .read file count result => [0, file.val, count.toInt, result.toInt]
  | .write file count result => [1, file.val, count.toInt, result.toInt]
  | .leaveOpen _ place => [2, (BitVec.ofInt 32 place).toInt]
  | .close place => [3, (BitVec.ofInt 32 place).toInt]

variable {e : Env} {s : State}

theorem scans_toInt (v : BitVec 32) : Scans .d (decimal v.toInt) v.toInt :=
  scans_d (BitVec.le_toInt v) BitVec.toInt_lt

theorem scans_toInt_ld (v : BitVec 32) : Scans .ld (decimal v.toInt) v.toInt := by
  have hlow := BitVec.le_toInt v
  have hhigh := BitVec.toInt_lt (x := v)
  exact scans_ld (by omega) (by omega)

theorem scans_file (file : Fin Fuzzer.maxFilenames) : Scans .d (intText file.val) file.val := by
  have hvalue : (BitVec.ofInt 32 (file.val : Int)).toInt = file.val := by
    revert file
    decide
  have hscans := scans_intText file.val
  rwa [hvalue] at hscans

theorem sscanfLine_fileOp (op : FileOp) : sscanfLine [.d, .d, .ld, .d] op.line = lineValues op := by
  cases op with
  | read file count result =>
    refine sscanfLine_line 'A' [] [⟨.d, intText 0, 0⟩, ⟨.d, intText file.val, file.val⟩,
      ⟨.ld, decimal count.toInt, count.toInt⟩, ⟨.d, decimal result.toInt, result.toInt⟩] ?_
    simp only [List.forall_mem_cons]
    exact ⟨scans_intText 0, scans_file file, scans_toInt_ld count, scans_toInt result,
      List.forall_mem_nil _⟩
  | write file count result =>
    refine sscanfLine_line 'A' [] [⟨.d, intText 1, 1⟩, ⟨.d, intText file.val, file.val⟩,
      ⟨.ld, decimal count.toInt, count.toInt⟩, ⟨.d, decimal result.toInt, result.toInt⟩] ?_
    simp only [List.forall_mem_cons]
    exact ⟨scans_intText 1, scans_file file, scans_toInt_ld count, scans_toInt result,
      List.forall_mem_nil _⟩
  | leaveOpen file place =>
    refine sscanfLine_line 'A' [.ld, .d] [⟨.d, intText 2, 2⟩, ⟨.d, intText place, _⟩] ?_
    simp only [List.forall_mem_cons]
    exact ⟨scans_intText 2, scans_intText place, List.forall_mem_nil _⟩
  | close place =>
    refine sscanfLine_line 'A' [.ld, .d] [⟨.d, intText 3, 3⟩, ⟨.d, intText place, _⟩] ?_
    simp only [List.forall_mem_cons]
    exact ⟨scans_intText 3, scans_intText place, List.forall_mem_nil _⟩

theorem cString_fileOp (op : FileOp) : cString op.line = op.line := by
  have hint (v : Int) : '\x00' ∉ decimal v := by
    intro h
    rcases mem_decimal h with h | ⟨d, hd, h⟩
    · exact absurd h (by decide)
    · interval_cases d <;> exact absurd h (by decide)
  have hline {texts : List Str} (h : ∀ t ∈ texts, '\x00' ∉ t) : '\x00' ∉ line 'A' texts := by
    simpa [line] using h
  have hnone : '\x00' ∉ op.line := by
    cases op <;> apply hline <;> simp only [List.forall_mem_cons] <;> simp [intText, hint]
  unfold cString
  rw [List.takeWhile_eq_self_iff]
  intro c hc
  exact decide_eq_true fun h => hnone (h ▸ hc)

/-- The calls that a line of three numbers stands for. -/
def accessCalls (type which size : Int) : List Call :=
  if which > maxFilenames then []
  else if type = 0 then [.fopen which false, .fread size, .fclose]
  else [.fopen which true, .fprintf (decimal size ++ ['\n']), .fclose]

theorem accessFile_calls (hopens : ∀ k, e.result k ≠ 0) (type which size : Int) :
    (accessFile e type which size s).calls = s.calls ++
      (if type = 0 then [.fopen which false, .fread size, .fclose]
        else [.fopen which true, .fprintf (decimal size ++ ['\n']), .fclose]) := by
  have hopened : e.next s ≠ 0 := hopens s.calls.length
  unfold accessFile
  dsimp only
  rw [if_neg hopened]
  split
  case isTrue htype => simp [State.issue, State.touch, State.access, htype]
  case isFalse htype => simp [State.issue, State.touch, State.access, htype]

theorem accessFile_progress (type which size : Int) :
    (accessFile e type which size s).progress = s.progress := by
  unfold accessFile State.issue State.touch State.access
  dsimp only
  split
  · rfl
  · split
    · rfl
    · rfl

theorem accessAs_calls (hopens : ∀ k, e.result k ≠ 0) (type which size : Int) :
    (accessAs e type which size s).calls = s.calls ++ accessCalls type which size ∧
      (accessAs e type which size s).progress =
        if which > maxFilenames then .exited else s.progress := by
  unfold accessAs accessCalls
  split
  · exact ⟨(List.append_nil _).symm, rfl⟩
  · exact ⟨accessFile_calls hopens type which size, accessFile_progress type which size⟩

/-- The third number of a line that has only two is what the stack holds. -/
def thirdNumber (e : Env) (s : State) (op : FileOp) : Int :=
  (lineValues op).getD 2 (e.stack (s.lineNum + 1) 2)

theorem step_fileOp (hopens : ∀ k, e.result k ≠ 0) (hrunning : s.progress = .running) (op : FileOp) :
    (step (plainEnv e) s (.line op.line)).calls = s.calls ++
        accessCalls ((lineValues op).getD 0 0) ((lineValues op).getD 1 0) (thirdNumber e s op) ∧
      ((lineValues op).getD 1 0 ≤ maxFilenames →
        (step (plainEnv e) s (.line op.line)).progress = .running) := by
  have hdispatch : dispatch (plainEnv e) (cString op.line) { s with lineNum := s.lineNum + 1 } =
      accessAs (plainEnv e) ((lineValues op).getD 0 0) ((lineValues op).getD 1 0) (thirdNumber e s op)
        { s with lineNum := s.lineNum + 1 } := by
    have hhead : command op.line.head? = .access := by cases op <;> rfl
    have htwo : ∀ k < 2, ∀ v, (lineValues op).getD k v = (lineValues op).getD k 0 := by
      intro k hk v
      cases op <;> interval_cases k <;> rfl
    rw [cString_fileOp, dispatch, hhead]
    change accessEvent (plainEnv e) op.line _ = _
    unfold accessEvent scanned
    rw [sscanfLine_fileOp]
    dsimp only
    rw [htwo 0 (by decide), htwo 1 (by decide)]
    rfl
  obtain ⟨hcalls, hprogress⟩ := accessAs_calls (e := plainEnv e)
    (s := { s with lineNum := s.lineNum + 1 }) hopens ((lineValues op).getD 0 0) ((lineValues op).getD 1 0)
    (thirdNumber e s op)
  by_cases hlarge : (lineValues op).getD 1 0 > maxFilenames
  · rw [if_pos hlarge] at hprogress
    have hstep : step (plainEnv e) s (.line op.line) =
        dispatch (plainEnv e) (cString op.line) { s with lineNum := s.lineNum + 1 } := by
      unfold step replayLine
      dsimp only
      rw [if_pos hrunning, if_neg (by exact fun h => absurd h.2 (Nat.not_lt_zero _)),
        if_neg (by rw [hdispatch, hprogress]; decide)]
    rw [hstep, hdispatch]
    exact ⟨hcalls, fun hle => absurd hlarge (not_lt.2 hle)⟩
  · rw [if_neg hlarge] at hprogress
    rw [step_plainEnv hrunning (by rw [hdispatch, hprogress]; exact hrunning), countLine_plainEnv,
      hdispatch]
    exact ⟨hcalls, fun _ => hprogress.trans hrunning⟩

/-! ## One line -/

/-- Whatever the reader has done before, and wherever all files can be opened, it does with the line
what the recorder has done. -/
def OpReplayed (op : FileOp) : Prop :=
  ∀ (e : Env) (s : State), (∀ k, e.result k ≠ 0) → s.progress = .running →
    ∃ calls, (step (plainEnv e) s (.line op.line)).calls = s.calls ++ calls ∧ DoneBy calls op

/-- A file is read, or two bytes are written. -/
def Repeatable : FileOp → Prop
  | .read .. => True
  | .write _ count _ => count = 2
  | .leaveOpen .. | .close _ => False

instance : DecidablePred Repeatable
  | .read .. => inferInstanceAs (Decidable True)
  | .write _ count _ => inferInstanceAs (Decidable (count = 2))
  | .leaveOpen .. => inferInstanceAs (Decidable False)
  | .close _ => inferInstanceAs (Decidable False)

theorem sameFile_val (file : Fin Fuzzer.maxFilenames) : SameFile file file.val :=
  ⟨Int.natCast_nonneg _, rfl⟩

/-- A number is as long as itself with a newline behind it if it is two. -/
theorem length_decimal_newline {v : Int} : ((decimal v ++ ['\n']).length : Int) = v ↔ v = 2 := by
  constructor
  · intro h
    rw [List.length_append, List.length_singleton] at h
    by_contra hne
    obtain ⟨n, rfl⟩ : ∃ n : Nat, v = n := ⟨v.toNat, by omega⟩
    have hdecimal : decimal n = Nat.toDigits 10 n := if_neg (by omega)
    rw [hdecimal] at h
    have hpos : 0 < (Nat.toDigits 10 n).length := List.length_pos_iff.2 Nat.toDigits_ne_nil
    -- a number from three on has at least two digits less than its value
    obtain ⟨m, rfl⟩ : ∃ m, n = m + 3 := ⟨n - 3, by omega⟩
    have hpow : m + 3 < 10 ^ (m + 1) := by
      have hself := Nat.lt_pow_self (show 1 < 10 by decide) (n := m)
      rw [Nat.pow_succ]
      omega
    have hlen := (Nat.length_toDigits_le_iff (by decide) (Nat.succ_pos m)).2 hpow
    omega
  · rintro rfl
    rfl

theorem file_le (file : Fin Fuzzer.maxFilenames) : ((file.val : Nat) : Int) ≤ maxFilenames := by
  have hlt := file.isLt
  simp only [Fuzzer.maxFilenames, maxFilenames] at hlt ⊢
  omega

theorem accessCalls_write (file : Fin Fuzzer.maxFilenames) (size : Int) : accessCalls 1 file.val size =
    [.fopen file.val true, .fprintf (decimal size ++ ['\n']), .fclose] := by
  rw [accessCalls, if_neg (not_lt.2 (file_le file)), if_neg (by decide)]

/-- The line of a repeatable operation is replayed, and the loop goes on. -/
theorem Repeatable.step {op : FileOp} (h : Repeatable op) (hopens : ∀ k, e.result k ≠ 0)
    (hrunning : s.progress = .running) :
    ∃ calls, (step (plainEnv e) s (.line op.line)).calls = s.calls ++ calls ∧ DoneBy calls op ∧
      (step (plainEnv e) s (.line op.line)).progress = .running := by
  obtain ⟨hcalls, hprogress⟩ := step_fileOp (s := s) hopens hrunning op
  cases op with
  | read file count result =>
    have hread : accessCalls 0 file.val count.toInt =
        [.fopen file.val false, .fread count.toInt, .fclose] := by
      rw [accessCalls, if_neg (not_lt.2 (file_le file)), if_pos rfl]
    exact ⟨_, hcalls, ⟨file.val, hread, sameFile_val file⟩, hprogress (file_le file)⟩
  | write file count result =>
    have htwo : count.toInt = 2 := by
      rw [show count = 2 from h]
      rfl
    exact ⟨_, hcalls, ⟨file.val, _, accessCalls_write file count.toInt, sameFile_val file,
      length_decimal_newline.2 htwo⟩, hprogress (file_le file)⟩
  | leaveOpen file place => exact h.elim
  | close place => exact h.elim

/-- The reader closes what it opens. -/
theorem accessCalls_cases (type which size : Int) : accessCalls type which size = [] ∨
    ∃ call call', accessCalls type which size = [call, call', .fclose] := by
  unfold accessCalls
  split
  · exact .inl rfl
  · split
    · exact .inr ⟨_, _, rfl⟩
    · exact .inr ⟨_, _, rfl⟩

theorem opReplayed_iff (op : FileOp) : OpReplayed op ↔ Repeatable op := by
  constructor
  · intro h
    have hopens : ∀ k, (zeroEnv fun _ => 1).result k ≠ 0 := fun _ => one_ne_zero
    obtain ⟨calls, hcalls, hdone⟩ := h (zeroEnv fun _ => 1) (startState (zeroEnv fun _ => 1)) hopens rfl
    obtain ⟨hstep, -⟩ := step_fileOp (s := startState (zeroEnv fun _ => 1)) hopens rfl op
    rw [hstep, List.append_cancel_left_eq] at hcalls
    subst hcalls
    cases op with
    | read file count result => trivial
    | write file count result =>
      obtain ⟨index, text, htext, -, hlen⟩ := hdone
      have heq := (accessCalls_write file count.toInt).symm.trans htext
      simp only [List.cons.injEq, Call.fprintf.injEq] at heq
      rw [← heq.2.1] at hlen
      have htwo := length_decimal_newline.1 hlen
      exact BitVec.eq_of_toInt_eq htwo
    | leaveOpen file place =>
      obtain ⟨index, writing, hone, -⟩ := hdone
      rcases accessCalls_cases 2 ((lineValues (.leaveOpen file place)).getD 1 0)
        (thirdNumber _ _ (.leaveOpen file place)) with hnone | ⟨call, call', hthree⟩
      · cases hnone.symm.trans hone
      · cases hthree.symm.trans hone
    | close place =>
      rcases accessCalls_cases 3 ((lineValues (.close place)).getD 1 0)
        (thirdNumber _ _ (.close place)) with hnone | ⟨call, call', hthree⟩
      · cases hnone.symm.trans hdone
      · cases hthree.symm.trans hdone
  · intro h e s hopens hrunning
    obtain ⟨calls, hcalls, hdone, -⟩ := h.step hopens hrunning
    exact ⟨calls, hcalls, hdone⟩

/-! ## All lines -/

/-- Calls of `access_random_file` by a recorder that writes a log. -/
structure Recording where
  config : Config
  logging : config.logging = true
  start : St
  answers : Nat → Int
  calls : Nat

namespace Recording

variable (r : Recording)

/-- What the calls do. -/
def ops : List FileOp := (exec (accessings r.config.quiet r.calls) ⟨r.answers, r.start⟩).1.getD []

/-- What they log. -/
def text : Str :=
  (exec (accessFiles r.config r.calls) ⟨r.answers, r.start⟩).2.state.log.drop r.start.log.length

/-- Each line is replayed as what it was logged for, and so are all of them. -/
structure Replayed : Prop where
  each : ∀ op ∈ r.ops, OpReplayed op
  all : ∀ (e : Env) (s : State), (∀ k, e.result k ≠ 0) → s.progress = .running →
    ∃ parts, List.Forall₂ DoneBy parts r.ops ∧
      (replayFrom (plainEnv e) ((fileLines bufsiz r.text).map .line) s).calls =
        s.calls ++ parts.flatten

theorem text_eq : r.text = r.ops.flatMap FileOp.line := by
  have hrun := triple_iff.1 (accessings_logged (E := fun _ => False) r.logging r.calls)
    ⟨r.answers, r.start⟩ rfl
  unfold text ops
  rw [accessFiles_eq, exec_map]
  revert hrun
  rcases exec (accessings r.config.quiet r.calls) ⟨r.answers, r.start⟩ with ⟨_ | ops, w⟩
  · exact False.elim
  · intro hrun
    rw [show w.state.log = r.start.log ++ ops.flatMap FileOp.line from hrun]
    exact List.drop_left

theorem lines_eq : fileLines bufsiz r.text = r.ops.map FileOp.line := by
  rw [text_eq, List.flatMap_def]
  refine fileLines_framed (by decide) fun text htext => ?_
  obtain ⟨op, -, rfl⟩ := List.mem_map.1 htext
  have hline : op.line = line 'A' ((lineValues op).map intText) := by
    cases op <;> simp [FileOp.line, accessLine, lineValues, intText]
  have hlen : (lineValues op).length < 600 := by cases op <;> simp [lineValues]
  rw [hline]
  exact (lineOf_ints (by decide) (lineValues op) hlen).2

/-- The lines of repeatable operations are replayed one after the other. -/
theorem replay_repeatable {ops : List FileOp} (h : ∀ op ∈ ops, Repeatable op) (hopens : ∀ k, e.result k ≠ 0)
    {s : State} (hrunning : s.progress = .running) :
    ∃ parts, List.Forall₂ DoneBy parts ops ∧
      (replayFrom (plainEnv e) ((ops.map FileOp.line).map .line) s).calls =
        s.calls ++ parts.flatten := by
  induction ops generalizing s with
  | nil => exact ⟨[], .nil, (List.append_nil _).symm⟩
  | cons op ops ih =>
    obtain ⟨hop, hops⟩ := List.forall_mem_cons.1 h
    obtain ⟨calls, hcalls, hdone, hnext⟩ := hop.step hopens hrunning
    obtain ⟨parts, hparts, hrest⟩ := ih hops hnext
    refine ⟨calls :: parts, .cons hdone hparts, ?_⟩
    rw [List.map_cons, List.map_cons, replayFrom, List.foldl_cons, ← replayFrom, hrest, hcalls,
      List.append_assoc, List.flatten_cons]

/-- The log is replayed as what was done exactly if nothing was done but reading and writing two
bytes. -/
theorem replayed_iff : r.Replayed ↔ ∀ op ∈ r.ops, Repeatable op := by
  constructor
  · intro h op hop
    exact (opReplayed_iff op).1 (h.each op hop)
  · intro h
    refine ⟨fun op hop => (opReplayed_iff op).2 (h op hop), fun e s hopens hrunning => ?_⟩
    rw [lines_eq]
    exact replay_repeatable h hopens hrunning

/-- One call that leaves a file open. -/
def leftOpen : Recording where
  config := accessConfig
  logging := rfl
  start := Fuzzer.startState accessConfig
  answers := fun _ => 6
  calls := 1

end Recording

/-- A file that was left open is opened for writing, and closed. -/
theorem leftOpen_not_replayed : ¬ ∀ r : Recording, r.Replayed := by
  intro hall
  have hop : FileOp.leaveOpen ⟨0, by decide⟩ 0 ∈ Recording.leftOpen.ops := by
    have hops : Recording.leftOpen.ops = [.leaveOpen ⟨0, by decide⟩ 0] := by
      decide +kernel
    rw [hops]
    exact List.mem_singleton_self _
  exact (opReplayed_iff _).1 ((hall Recording.leftOpen).each _ hop)

end PerfEvent.Replay
