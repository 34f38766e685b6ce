import PerfEventTests.Fuzzer.Main
import PerfEventTests.Lib.Lines

/-!
# The lines of the log

Every line that an operation logs fits the buffer of the readers and has no newline before its
end, as long as the filter that an ioctl line may hold has none.
-/

namespace PerfEvent.Fuzzer

open Draws Text

/-- A line that starts with the letter of its operation and is read as one line. -/
def LineOf (letter : Char) (text : Str) : Prop := text.head? = some letter ∧ Framed bufsiz text

theorem lineOf_line {n : Nat} {letter : Char} {texts : List Str} (hletter : letter ≠ '\n')
    (h : ∀ t ∈ texts, Short n t) (hsize : (n + 1) * texts.length + 2 < bufsiz) :
    LineOf letter (line letter texts) :=
  ⟨rfl, framed_line hletter h hsize⟩

theorem short_pointerText (addr : Int) : Short 18 (pointerText addr) := by
  unfold pointerText
  split
  · exact ⟨by decide, by decide⟩
  · exact Short.append (n := 2) (t := ['0', 'x']) ⟨by decide, by decide⟩
      (short_hex (k := 16) (by decide) (by omega))

theorem short_signedText (v : BitVec 32) : Short 11 (signedText v) := by
  have hlo := BitVec.le_toInt v
  have hhi := BitVec.toInt_lt (x := v)
  exact short_decimal (by decide) (by omega)

theorem short_two_ints_pointer (a b addr : Int) :
    ∀ t ∈ [intText a, intText b, pointerText addr], Short 18 t := by
  simp only [List.forall_mem_cons, List.not_mem_nil, false_imp_iff, implies_true, and_true]
  exact ⟨(short_intText a).mono (by decide), (short_intText b).mono (by decide),
    short_pointerText addr⟩

theorem lineOf_mmapLine (size fd addr : Int) : LineOf 'M' (mmapLine size fd addr) :=
  lineOf_line (by decide) (short_two_ints_pointer size fd addr) (by simp [bufsiz])

theorem lineOf_munmapLine (fd size addr : Int) : LineOf 'U' (munmapLine fd size addr) :=
  lineOf_line (by decide) (short_two_ints_pointer fd size addr) (by simp [bufsiz])

/-- A line of at most a few `int`s. -/
theorem lineOf_ints {letter : Char} (hletter : letter ≠ '\n') (vs : List Int)
    (hlen : vs.length < 600) : LineOf letter (line letter (vs.map intText)) := by
  refine lineOf_line (n := 11) hletter (fun t ht => ?_) ?_
  · obtain ⟨v, -, rfl⟩ := List.mem_map.1 ht
    exact short_intText v
  · rw [List.length_map]
    simp only [bufsiz]
    omega

theorem lineOf_trashLine (value pageSize : Nat) (fd : Int) :
    LineOf 'Q' (trashLine value pageSize fd) :=
  lineOf_ints (by decide) [(value : Int), pageSize, fd] (by simp)

theorem lineOf_closeLine (fd : Int) : LineOf 'C' (closeLine fd) :=
  lineOf_ints (by decide) [fd] (by simp)

theorem lineOf_overflowLine (fd : Int) : LineOf 'o' (overflowLine fd) :=
  lineOf_ints (by decide) [fd] (by simp)

theorem lineOf_ioctlLine (fd request arg : Int) : LineOf 'I' (ioctlLine fd request arg) := by
  refine lineOf_line (n := 20) (by decide) ?_ (by simp [bufsiz])
  simp only [List.forall_mem_cons, List.not_mem_nil, false_imp_iff, implies_true, and_true]
  exact ⟨(short_intText fd).mono (by decide), short_longText request, short_longText arg⟩

theorem lineOf_pollLine {fds : List Int} (h : fds.length < 128) (timeout : Nat) :
    LineOf 'p' (pollLine fds timeout) := by
  refine lineOf_line (n := 11) (by decide) (fun t ht => ?_) ?_
  · simp only [List.mem_cons, List.mem_append, List.mem_flatMap, List.not_mem_nil, or_false] at ht
    rcases ht with rfl | ⟨fd, -, rfl | rfl⟩ | rfl
    · exact short_intText _
    · exact short_intText _
    · exact ⟨by decide, by decide⟩
    · exact short_intText _
  · have hlen : (fds.flatMap fun fd => [intText fd, "1".toList]).length = 2 * fds.length := by
      rw [List.length_flatMap]
      simp only [List.length_cons, List.length_nil, List.map_const', List.sum_replicate_nat]
      omega
    simp only [List.length_cons, List.length_append, hlen, List.length_nil, bufsiz]
    omega

/-! ## Affinity -/

theorem short_intText_natCast {n : Nat} (h : n < 10 ^ 4) : Short 5 (intText n) := by
  have hv : (BitVec.ofInt 32 (n : Int)).toInt = n := by
    rw [BitVec.toInt_ofInt, Int.bmod_eq_of_le] <;> omega
  unfold intText
  rw [hv]
  exact short_decimal (by decide) (by omega)

theorem drawCpus_bounds (n j : Nat) : Always (drawCpus n j)
    fun cpus => cpus.length ≤ n ∧ ∀ k ∈ cpus, k < j + n := by
  induction n generalizing j with
  | zero => exact always_pure ⟨by simp, by simp⟩
  | succ n ih =>
    refine always_bind_any fun r => always_bind (ih (j + 1)) fun cpus hcpus => always_pure ?_
    split
    · refine ⟨by simpa using hcpus.1, fun k hk => ?_⟩
      rcases List.mem_cons.1 hk with rfl | hk
      · omega
      · have := hcpus.2 k hk
        omega
    · exact ⟨by have := hcpus.1; omega, fun k hk => by have := hcpus.2 k hk; omega⟩

theorem affinityCpus_bounds (which : Nat) : Always (affinityCpus which)
    fun cpus => cpus.length ≤ 1024 ∧ ∀ k ∈ cpus, k < 1024 := by
  unfold affinityCpus
  split
  · refine always_bind_any fun r => always_pure ⟨by simp, fun k hk => ?_⟩
    rw [List.mem_singleton.1 hk]
    omega
  · refine always_bind_any fun r => always_pure ⟨by simp, fun k hk => ?_⟩
    rw [List.mem_singleton.1 hk]
    omega
  · exact fun answers => ⟨(drawCpus_bounds 32 0 answers).1.trans (by decide),
      fun k hk => by have := (drawCpus_bounds 32 0 answers).2 k hk; omega⟩
  · exact fun answers => ⟨(drawCpus_bounds 1024 0 answers).1,
      fun k hk => by have := (drawCpus_bounds 1024 0 answers).2 k hk; omega⟩

theorem lineOf_affinityLine {which : Nat} (hwhich : which < 4) {cpus : List Nat}
    (h : cpus.length ≤ 1024 ∧ ∀ k ∈ cpus, k < 1024) : LineOf 'a' (affinityLine which cpus) := by
  obtain ⟨hlen, hcpus⟩ := h
  have htexts : ∀ t ∈ (cpus.map fun j : Nat => intText j) ++ [[]], Short 5 t := by
    intro t ht
    rcases List.mem_append.1 ht with ht | ht
    · obtain ⟨k, hk, rfl⟩ := List.mem_map.1 ht
      have := hcpus k hk
      exact short_intText_natCast (by omega)
    · rw [List.mem_singleton.1 ht]
      exact ⟨by simp, by simp⟩
  refine lineOf_line (n := 5) (by decide) ?_ ?_
  · rw [List.forall_mem_cons, List.forall_mem_cons]
    exact ⟨short_intText_natCast (by omega), short_intText_natCast (by omega), htexts⟩
  · simp only [List.length_cons, List.length_append, List.length_map, List.length_nil, bufsiz]
    omega

/-! ## Opening -/

theorem blank_spaced (texts : List Str) :
    ' ' :: spaced texts = (texts.flatMap fun t => ' ' :: t) ++ [' '] := by
  induction texts with
  | nil => rfl
  | cons t texts ih =>
    have hspaced : spaced (t :: texts) = t ++ ' ' :: spaced texts := by simp [spaced]
    rw [hspaced, ih]
    simp

theorem openLine_eq_line (fd pid cpu groupFd : BitVec 32) (flags : BitVec 64)
    (attr : PerfEventAttr) : openLine fd pid cpu groupFd flags attr =
      line 'O' ([signedText fd, signedText pid, signedText cpu, signedText groupFd,
        hexText flags] ++ attrTexts attr ++ [[]]) := by
  have happend : ∀ texts texts' : List Str, spaced texts ++ spaced texts' =
      spaced (texts ++ texts') := fun texts texts' => (List.flatMap_append ..).symm
  have hblank := blank_spaced ([signedText fd, signedText pid, signedText cpu,
    signedText groupFd, hexText flags] ++ attrTexts attr)
  unfold openLine perfLogAttr line
  rw [← List.append_assoc, happend, ← List.cons_append, hblank]
  simp only [List.flatMap_append, List.flatMap_cons, List.flatMap_nil, List.append_nil,
    List.cons_append, List.append_assoc, List.nil_append]

theorem short_decimal_bitVec {w : Nat} (v : BitVec w) (hw : w ≤ 64) : Short 20 (signedText v) := by
  have hpow : (2 : Int) ^ w ≤ 2 ^ 64 := pow_le_pow_right₀ (by decide) hw
  have hlo := BitVec.le_toInt v
  have hhi := BitVec.toInt_lt (x := v)
  have h2 : (2 : Int) ^ (w - 1) ≤ 2 ^ 63 := pow_le_pow_right₀ (by decide) (by omega)
  exact short_decimal (by decide) (by omega)

theorem short_bitText {w : Nat} (v : BitVec w) (hw : w ≤ 2) : Short 20 (bitText v) := by
  have hv := v.isLt
  have hpow : 2 ^ w ≤ 2 ^ 2 := Nat.pow_le_pow_right (by decide) hw
  exact (short_decimal (k := 1) (by decide) (by omega)).mono (by decide)

theorem short_hexText {w : Nat} (v : BitVec w) (hw : w ≤ 64) : Short 20 (hexText v) := by
  have hv := v.isLt
  have hpow : 2 ^ w ≤ 2 ^ 64 := Nat.pow_le_pow_right (by decide) hw
  exact (short_hex (k := 16) (by decide) (by omega)).mono (by decide)

theorem short_attrTexts (attr : PerfEventAttr) : ∀ t ∈ attrTexts attr, Short 20 t := by
  have hbit : ∀ v : BitVec 1, Short 20 (bitText v) := fun v => short_bitText v (by decide)
  have hhex : ∀ v : BitVec 64, Short 20 (hexText v) := fun v => short_hexText v (by decide)
  have hint : ∀ v : BitVec 32, Short 20 (signedText v) := fun v => short_decimal_bitVec v (by decide)
  have hlong : ∀ v : BitVec 64, Short 20 (signedText v) := fun v =>
    short_decimal_bitVec v (by decide)
  simp only [attrTexts, List.forall_mem_cons, List.not_mem_nil, false_imp_iff, implies_true,
    and_true, hbit, hhex, hint, hlong, true_and]
  exact ⟨short_hexText attr.type (by decide), short_hexText attr.size (by decide),
    short_bitText attr.preciseIp (by decide), short_decimal_bitVec attr.sampleMaxStack (by decide)⟩

theorem lineOf_openLine (fd pid cpu groupFd : BitVec 32) (flags : BitVec 64)
    (attr : PerfEventAttr) : LineOf 'O' (openLine fd pid cpu groupFd flags attr) := by
  have hhead : ∀ t ∈ [signedText fd, signedText pid, signedText cpu, signedText groupFd,
      hexText flags], Short 20 t := by
    simp only [List.forall_mem_cons, List.not_mem_nil, false_imp_iff, implies_true, and_true]
    exact ⟨(short_signedText fd).mono (by decide), (short_signedText pid).mono (by decide),
      (short_signedText cpu).mono (by decide), (short_signedText groupFd).mono (by decide),
      short_hexText flags (by decide)⟩
  rw [openLine_eq_line]
  refine lineOf_line (n := 20) (by decide) (fun t ht => ?_) (by simp [attrTexts, bufsiz])
  rcases List.mem_append.1 ht with ht | ht
  · rcases List.mem_append.1 ht with ht | ht
    · exact hhead t ht
    · exact short_attrTexts attr t ht
  · rw [List.mem_singleton.1 ht]
    exact ⟨by simp, by simp⟩

/-! ## Filters -/

theorem lineOf_setFilterLine {fd arg : Int} {custom : Nat} {filter : Str}
    (h : '\n' ∉ shownFilter fd custom arg filter) :
    LineOf 'I' (setFilterLine fd custom arg filter) := by
  have hhead : ∀ t ∈ filterHead fd custom arg, Short 20 t := by
    simp only [filterHead, List.forall_mem_cons, List.not_mem_nil, false_imp_iff, implies_true,
      and_true]
    exact ⟨(short_intText fd).mono (by decide), short_longText iocSetFilter,
      (short_intText custom).mono (by decide), short_longText arg⟩
  obtain ⟨hlen, hnewline⟩ := short_texts hhead
  have hfour : (filterHead fd custom arg).length = 4 := rfl
  rw [hfour] at hlen
  -- the line up to the filter, and how much of the buffer it takes
  set head := 'I' :: (((filterHead fd custom arg).flatMap fun t => ' ' :: t) ++ [' ']) with hdef
  have hsize : (line 'I' (filterHead fd custom arg)).length = head.length := by
    simp [line, hdef]
  have hheadLen : head.length < bufsiz - 1 := by
    simp only [hdef, List.length_cons, List.length_append, List.length_nil, bufsiz]
    omega
  have hheadNewline : '\n' ∉ head := by
    simp only [hdef, List.mem_cons, List.mem_append, List.not_mem_nil, or_false, not_or]
    exact ⟨by decide, hnewline, by decide⟩
  have hline : line 'I' (filterHead fd custom arg ++ [filter]) = head ++ (filter ++ ['\n']) := by
    simp [line, hdef]
  have hcut : setFilterLine fd custom arg filter =
      head ++ (filter ++ ['\n']).take (bufsiz - 1 - head.length) := by
    rw [setFilterLine, hline, List.take_append, List.take_of_length_le (by omega)]
  rw [shownFilter, hsize] at h
  rw [hcut]
  refine ⟨by rw [hdef]; rfl, ?_⟩
  by_cases hfit : filter.length < bufsiz - 1 - head.length
  · have hfit' : (filter ++ ['\n']).length ≤ bufsiz - 1 - head.length := by
      simp only [List.length_append, List.length_cons, List.length_nil]
      omega
    rw [List.take_of_length_le hfit']
    rw [List.take_of_length_le (by omega)] at h
    refine .inl ⟨head ++ filter, by rw [List.append_assoc], fun hmem => ?_, ?_⟩
    · exact (List.mem_append.1 hmem).elim hheadNewline h
    · simp only [List.length_append, List.length_cons, List.length_nil]
      omega
  · -- the line is cut, and what is cut off begins after a character that may be a newline
    obtain ⟨n, hn⟩ : ∃ n, bufsiz - 1 - head.length = n + 1 :=
      ⟨bufsiz - 2 - head.length, by omega⟩
    have hn' : bufsiz - 2 - head.length = n := by omega
    have hlt : n < filter.length := by omega
    rw [hn'] at h
    rw [hn, List.take_append_of_le_length (by omega), List.take_succ_eq_append_getElem hlt,
      ← List.append_assoc]
    have hlen : (head ++ filter.take n).length = bufsiz - 2 := by
      rw [List.length_append, List.length_take]
      omega
    have hbody : '\n' ∉ head ++ filter.take n := fun hmem =>
      (List.mem_append.1 hmem).elim hheadNewline h
    by_cases hlast : filter[n] = '\n'
    · refine .inl ⟨head ++ filter.take n, by rw [hlast], hbody, ?_⟩
      rw [List.length_append, hlen, List.length_singleton]
      decide
    · refine .inr ⟨fun hmem => ?_, ?_⟩
      · rcases List.mem_append.1 hmem with hmem | hmem
        · exact hbody hmem
        · exact hlast (List.mem_singleton.1 hmem).symm
      · rw [List.length_append, hlen, List.length_singleton]
        decide

end PerfEvent.Fuzzer
