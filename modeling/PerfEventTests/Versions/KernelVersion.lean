import Mathlib.Data.List.TakeWhile
import PerfEventTests.Lib.Packing
import PerfEventTests.Lib.Tokens

/-!
# Versions of the kernel

The functions of `lib/test_utils.c` and `lib/perf_helpers.c` that compare versions take the numbers out
of the release that `uname` reports and pack them into an `int`. The order of the packed numbers is the
lexicographic order of the fields of the word: two of the functions keep the lowest byte of each
number, and the third shifts the numbers over each other.
-/

namespace PerfEvent.Versions

open Text

/-! ## The functions -/

def isDot (c : Char) : Bool := c = '.'

/-- `if (ptr!=NULL) current_major=atoi(ptr);` -/
def number : Option Str → BitVec 32
  | some ptr => BitVec.ofInt 32 (atoi ptr)
  | none => 0

/-- The three numbers of a release. -/
def currentVersion (release : Str) : BitVec 32 × BitVec 32 × BitVec 32 :=
  let (major, rest) := strtok isDot release
  let (minor, rest) := strtok isDot rest
  let (subminor, _) := strtok isDot rest
  (number major, number minor, number subminor)

def checkVersion (v : BitVec 32 × BitVec 32 × BitVec 32) : BitVec 32 :=
  (v.1 &&& 0xff) <<< 24 ||| (v.2.1 &&& 0xff) <<< 16 ||| (v.2.2 &&& 0xff) <<< 8

def checkLinuxVersionNewer (release : Str) (major minor subminor : BitVec 32) : BitVec 32 :=
  if (checkVersion (major, minor, subminor)).sle (checkVersion (currentVersion release)) then 1
  else 0

def checkLinuxVersionOlder (release : Str) (major minor subminor : BitVec 32) : BitVec 32 :=
  if (checkVersion (currentVersion release)).slt (checkVersion (major, minor, subminor)) then 1
  else 0

def getKernelVersion (release : Str) : BitVec 32 :=
  let (major, minor, subminor) := currentVersion release
  major <<< 16 ||| minor <<< 8 ||| subminor

/-! ## Versions -/

/-- Three numbers that an `int` can hold. -/
structure Version where
  major : Nat
  minor : Nat
  subminor : Nat
  fits : major < 2 ^ 31 ∧ minor < 2 ^ 31 ∧ subminor < 2 ^ 31

namespace Version

variable (v : Version)

/-- The order of versions. -/
def order : Nat ×ₗ Nat ×ₗ Nat := toLex (v.major, toLex (v.minor, v.subminor))

def ints : BitVec 32 × BitVec 32 × BitVec 32 :=
  (BitVec.ofNat 32 v.major, BitVec.ofNat 32 v.minor, BitVec.ofNat 32 v.subminor)

/-- The lowest byte of each number, the first one with a sign. -/
def bytes : Int ×ₗ Nat ×ₗ Nat :=
  toLex ((BitVec.ofNat 8 v.major).toInt,
    toLex ((BitVec.ofNat 8 v.minor).toNat, (BitVec.ofNat 8 v.subminor).toNat))

/-- The halfword and the two bytes that three numbers leave which are shifted over each other. -/
def overlaid : Int ×ₗ Nat ×ₗ Nat :=
  toLex ((BitVec.ofNat 16 (v.major ||| v.minor >>> 8 ||| v.subminor >>> 16)).toInt,
    toLex ((BitVec.ofNat 8 (v.minor ||| v.subminor >>> 8)).toNat, (BitVec.ofNat 8 v.subminor).toNat))

/-- The release of a kernel: the numbers, and whatever is no digit behind them. -/
def Reports (release : Str) : Prop :=
  ∃ tail : Str, (∀ c ∈ tail.head?, digitVal? 10 c = none) ∧
    release = Nat.toDigits 10 v.major ++ '.' :: (Nat.toDigits 10 v.minor ++
      '.' :: (Nat.toDigits 10 v.subminor ++ tail))

end Version

variable {v w : Version} {release release' : Str}

theorem isDot_toDigits (n : Nat) : ∀ c ∈ Nat.toDigits 10 n, isDot c = false := by
  intro c hc
  obtain ⟨d, hd, rfl⟩ := mem_toDigits (by decide) n c hc
  interval_cases d <;> rfl

theorem number_toDigits {n : Nat} (hn : n < 2 ^ 31) {s : Str}
    (hs : ∀ c ∈ s.head?, digitVal? 10 c = none) :
    number (some (Nat.toDigits 10 n ++ s)) = BitVec.ofNat 32 n := by
  rw [number, atoi_toDigits hn hs, BitVec.ofInt_natCast]

/-- A number with a dot behind it. -/
theorem strtok_toDigits (n : Nat) (rest : Str) :
    strtok isDot (Nat.toDigits 10 n ++ '.' :: rest) = (some (Nat.toDigits 10 n ++ []), rest) := by
  rw [List.append_nil]
  exact strtok_word Nat.toDigits_ne_nil (isDot_toDigits n) (by simp [isDot])

/-- The last number with what stands behind it, up to a dot. -/
theorem strtok_tail (n : Nat) {tail : Str} (htail : ∀ c ∈ tail.head?, digitVal? 10 c = none) :
    ∃ s : Str, (∀ c ∈ s.head?, digitVal? 10 c = none) ∧
      (strtok isDot (Nat.toDigits 10 n ++ tail)).1 = some (Nat.toDigits 10 n ++ s) := by
  refine ⟨tail.takeWhile fun c => !isDot c, ?_, ?_⟩
  · cases tail with
    | nil => simp
    | cons c t =>
      by_cases hc : isDot c = true
      · simp [hc]
      · have hcons : (c :: t).takeWhile (fun c => !isDot c) = c :: t.takeWhile fun c => !isDot c :=
          List.takeWhile_cons_of_pos (by simpa using hc)
        rw [hcons]
        exact htail
  · have hword : ∀ c ∈ Nat.toDigits 10 n ++ tail.takeWhile fun c => !isDot c, isDot c = false := by
      intro c hc
      rcases List.mem_append.1 hc with hc | hc
      · exact isDot_toDigits n c hc
      · simpa using List.mem_takeWhile_imp hc
    have hrest : ∀ c ∈ (tail.dropWhile fun c => !isDot c).head?, isDot c = true := by
      intro c hc
      have := List.head?_dropWhile_not (fun c => !isDot c) tail
      rw [hc] at this
      simpa using this
    have hread := strtok_word (List.append_ne_nil_of_left_ne_nil Nat.toDigits_ne_nil _) hword hrest
    rw [List.append_assoc, List.takeWhile_append_dropWhile] at hread
    rw [hread]

theorem currentVersion_of_reports (h : v.Reports release) : currentVersion release = v.ints := by
  obtain ⟨tail, htail, rfl⟩ := h
  obtain ⟨hmajor, hminor, hsubminor⟩ := v.fits
  obtain ⟨s, hs, hlast⟩ := strtok_tail v.subminor htail
  simp only [currentVersion, strtok_toDigits, hlast]
  rw [number_toDigits hmajor (by simp), number_toDigits hminor (by simp), number_toDigits hsubminor hs]
  rfl

/-! ## The packed numbers -/

theorem and_byte (x : BitVec 32) : x &&& 0xff = (x.setWidth 8).setWidth 32 := by
  apply BitVec.eq_of_toNat_eq
  have hmod : x.toNat &&& 255 = x.toNat % 256 := Nat.and_two_pow_sub_one_eq_mod x.toNat 8
  rw [BitVec.toNat_and, BitVec.toNat_setWidth_of_le (by decide), BitVec.toNat_setWidth]
  exact hmod

theorem bytes_append (a b c : BitVec 8) :
    a.setWidth 32 <<< 24 ||| b.setWidth 32 <<< 16 ||| c.setWidth 32 <<< 8 =
      a ++ b ++ c ++ 0#8 := by
  apply BitVec.eq_of_getLsbD_eq
  intro i hi
  simp only [BitVec.getLsbD_or, BitVec.getLsbD_shiftLeft, BitVec.getLsbD_setWidth, BitVec.getLsbD_append,
    BitVec.getLsbD_zero]
  grind

theorem overlaid_append (a b c : BitVec 32) : a <<< 16 ||| b <<< 8 ||| c =
    (a ||| b >>> 8 ||| c >>> 16).setWidth 16 ++ (b ||| c >>> 8).setWidth 8 ++ c.setWidth 8 := by
  apply BitVec.eq_of_getLsbD_eq
  intro i hi
  simp only [BitVec.getLsbD_or, BitVec.getLsbD_shiftLeft, BitVec.getLsbD_setWidth, BitVec.getLsbD_append,
    BitVec.getLsbD_ushiftRight]
  grind

theorem ofNat_ushiftRight {n : Nat} (hn : n < 2 ^ 31) (k : Nat) :
    BitVec.ofNat 32 n >>> k = BitVec.ofNat 32 (n >>> k) := by
  have hle : n >>> k ≤ n := Nat.shiftRight_le n k
  apply BitVec.eq_of_toNat_eq
  rw [BitVec.toNat_ushiftRight, BitVec.toNat_ofNat, BitVec.toNat_ofNat, Nat.mod_eq_of_lt (by omega),
    Nat.mod_eq_of_lt (by omega)]

/-- The packed numbers are compared by their lowest bytes. -/
theorem checkVersion_lt_iff :
    (checkVersion v.ints).toInt < (checkVersion w.ints).toInt ↔ v.bytes < w.bytes := by
  have hpacked (v : Version) : checkVersion v.ints =
      BitVec.ofNat 8 v.major ++ BitVec.ofNat 8 v.minor ++ BitVec.ofNat 8 v.subminor ++ 0#8 := by
    rw [checkVersion, and_byte, and_byte, and_byte, bytes_append]
    simp only [Version.ints, BitVec.setWidth_ofNat_of_le (show 8 ≤ 32 by decide)]
  rw [hpacked, hpacked, Packing.toInt_append_zero_lt_iff (by decide)]
  exact Packing.toInt_append₃_lt_iff (by decide)

theorem getKernelVersion_lt_iff (h : v.Reports release) (h' : w.Reports release') :
    (getKernelVersion release).toInt < (getKernelVersion release').toInt ↔
      v.overlaid < w.overlaid := by
  have hpacked {v : Version} {release : Str} (h : v.Reports release) : getKernelVersion release =
      BitVec.ofNat 16 (v.major ||| v.minor >>> 8 ||| v.subminor >>> 16) ++
        BitVec.ofNat 8 (v.minor ||| v.subminor >>> 8) ++ BitVec.ofNat 8 v.subminor := by
    obtain ⟨-, hminor, hsubminor⟩ := v.fits
    rw [getKernelVersion, currentVersion_of_reports h]
    simp only [Version.ints]
    rw [overlaid_append, ofNat_ushiftRight hminor, ofNat_ushiftRight hsubminor,
      ofNat_ushiftRight hsubminor]
    simp only [BitVec.ofNat_or, BitVec.setWidth_or, BitVec.setWidth_ofNat_of_le (show 8 ≤ 32 by decide),
      BitVec.setWidth_ofNat_of_le (show 16 ≤ 32 by decide)]
  rw [hpacked h, hpacked h']
  exact Packing.toInt_append₃_lt_iff (by decide)

/-! ## The answers -/

theorem checkLinuxVersionOlder_eq_one_iff (h : v.Reports release) :
    checkLinuxVersionOlder release (BitVec.ofNat 32 w.major) (BitVec.ofNat 32 w.minor)
      (BitVec.ofNat 32 w.subminor) = 1 ↔ v.bytes < w.bytes := by
  rw [checkLinuxVersionOlder, currentVersion_of_reports h, ← checkVersion_lt_iff,
    ← BitVec.slt_iff_toInt_lt]
  change (if (checkVersion v.ints).slt (checkVersion w.ints) then (1 : BitVec 32) else 0) = 1 ↔ _
  split <;> simp_all

theorem checkLinuxVersionNewer_eq_one_iff (h : v.Reports release) :
    checkLinuxVersionNewer release (BitVec.ofNat 32 w.major) (BitVec.ofNat 32 w.minor)
      (BitVec.ofNat 32 w.subminor) = 1 ↔ ¬ v.bytes < w.bytes := by
  rw [checkLinuxVersionNewer, currentVersion_of_reports h, ← checkVersion_lt_iff, not_lt,
    ← BitVec.sle_iff_toInt_le]
  change (if (checkVersion w.ints).sle (checkVersion v.ints) then (1 : BitVec 32) else 0) = 1 ↔ _
  split <;> simp_all

/-- A kernel that reports `v` answers a program that asks for `w`, and packs its version below the
packed version of every kernel that reports a later one. -/
structure VersionsRight (release : Str) (v w : Version) : Prop where
  newer : checkLinuxVersionNewer release (BitVec.ofNat 32 w.major) (BitVec.ofNat 32 w.minor)
    (BitVec.ofNat 32 w.subminor) = 1 ↔ w.order ≤ v.order
  older : checkLinuxVersionOlder release (BitVec.ofNat 32 w.major) (BitVec.ofNat 32 w.minor)
    (BitVec.ofNat 32 w.subminor) = 1 ↔ v.order < w.order
  complement : checkLinuxVersionNewer release (BitVec.ofNat 32 w.major) (BitVec.ofNat 32 w.minor)
    (BitVec.ofNat 32 w.subminor) = 1 ↔
    ¬ checkLinuxVersionOlder release (BitVec.ofNat 32 w.major) (BitVec.ofNat 32 w.minor)
      (BitVec.ofNat 32 w.subminor) = 1
  increasing : v.order < w.order → ∀ release', w.Reports release' →
    (getKernelVersion release).toInt < (getKernelVersion release').toInt

namespace Version

theorem exists_reports (v : Version) : ∃ release, v.Reports release :=
  ⟨_, [], by simp, rfl⟩

/-- No number of the version is larger than that of the bound. -/
def Within (v bound : Version) : Prop :=
  v.major ≤ bound.major ∧ v.minor ≤ bound.minor ∧ v.subminor ≤ bound.subminor

/-- The numbers stay within the fields of the packed version. -/
def Small (v : Version) : Prop := v.major ≤ 127 ∧ v.minor ≤ 255 ∧ v.subminor ≤ 255

/-- The order of the packed versions is that of the versions. -/
def Embedded (v w : Version) : Prop :=
  (v.bytes < w.bytes ↔ v.order < w.order) ∧ (v.order < w.order → v.overlaid < w.overlaid)

instance : Decidable (v.Embedded w) :=
  inferInstanceAs (Decidable ((_ ↔ _) ∧ (_ → _)))

theorem lex_lt_iff {a b c a' b' c' : Nat} :
    toLex ((a : Int), toLex (b, c)) < toLex ((a' : Int), toLex (b', c')) ↔
      toLex (a, toLex (b, c)) < toLex (a', toLex (b', c')) := by
  simp only [Prod.Lex.toLex_lt_toLex, Int.ofNat_lt, Int.ofNat_inj]

theorem toInt_ofNat_of_le {n k : Nat} (hn : n ≤ 127) (hk : 8 ≤ k) : (BitVec.ofNat k n).toInt = n := by
  have hpow : 2 ^ 8 ≤ 2 ^ k := Nat.pow_le_pow_right (by decide) hk
  rw [BitVec.toInt_eq_toNat_of_lt, BitVec.toNat_ofNat, Nat.mod_eq_of_lt (by omega)]
  rw [BitVec.toNat_ofNat, Nat.mod_eq_of_lt (by omega)]
  omega

theorem Small.bytes_eq (h : v.Small) :
    v.bytes = toLex ((v.major : Int), toLex (v.minor, v.subminor)) := by
  obtain ⟨hmajor, hminor, hsubminor⟩ := h
  rw [bytes, toInt_ofNat_of_le hmajor (by decide), BitVec.toNat_ofNat, BitVec.toNat_ofNat,
    Nat.mod_eq_of_lt (by omega), Nat.mod_eq_of_lt (by omega)]

theorem Small.overlaid_eq (h : v.Small) :
    v.overlaid = toLex ((v.major : Int), toLex (v.minor, v.subminor)) := by
  obtain ⟨hmajor, hminor, hsubminor⟩ := h
  have hzero {n k : Nat} (hn : n ≤ 255) (hk : 8 ≤ k) : n >>> k = 0 := by
    have hpow : 2 ^ 8 ≤ 2 ^ k := Nat.pow_le_pow_right (by decide) hk
    rw [Nat.shiftRight_eq_div_pow]
    exact Nat.div_eq_of_lt (by omega)
  rw [overlaid, hzero hminor (by decide), hzero hsubminor (by decide), hzero hsubminor (by decide)]
  simp only [Nat.or_zero]
  rw [toInt_ofNat_of_le hmajor (by decide), BitVec.toNat_ofNat, BitVec.toNat_ofNat,
    Nat.mod_eq_of_lt (by omega), Nat.mod_eq_of_lt (by omega)]

theorem Small.embedded (hv : v.Small) (hw : w.Small) : v.Embedded w := by
  rw [Embedded, hv.bytes_eq, hw.bytes_eq, hv.overlaid_eq, hw.overlaid_eq, lex_lt_iff]
  exact ⟨Iff.rfl, id⟩

theorem Within.small (hv : v.Within w) (hw : w.Small) : v.Small :=
  ⟨hv.1.trans hw.1, hv.2.1.trans hw.2.1, hv.2.2.trans hw.2.2⟩

end Version

theorem versionsRight_iff_embedded (h : v.Reports release) :
    VersionsRight release v w ↔ v.Embedded w := by
  constructor
  · intro right
    obtain ⟨release', h'⟩ := w.exists_reports
    refine ⟨?_, fun hlt => ?_⟩
    · rw [← checkLinuxVersionOlder_eq_one_iff h]
      exact right.older
    · rw [← getKernelVersion_lt_iff h h']
      exact right.increasing hlt release' h'
  · rintro ⟨hbytes, hoverlaid⟩
    refine ⟨?_, ?_, ?_, fun hlt release' h' => ?_⟩
    · rw [checkLinuxVersionNewer_eq_one_iff h, hbytes, not_lt]
    · rw [checkLinuxVersionOlder_eq_one_iff h, hbytes]
    · rw [checkLinuxVersionNewer_eq_one_iff h, checkLinuxVersionOlder_eq_one_iff h]
    · rw [getKernelVersion_lt_iff h h']
      exact hoverlaid hlt

/-- A bound outside the fields leaves two versions whose packed versions stand in the wrong order. -/
theorem exists_not_embedded {bound : Version} (h : ¬ bound.Small) :
    ∃ v w : Version, v.Within bound ∧ w.Within bound ∧ ¬ v.Embedded w := by
  rw [Version.Small, not_and_or, not_and_or, not_le, not_le, not_le] at h
  rcases h with hmajor | hminor | hsubminor
  · refine ⟨⟨127, 0, 0, by decide⟩, ⟨128, 0, 0, by decide⟩, ?_, ?_, by decide⟩ <;>
      simp only [Version.Within] <;> omega
  · refine ⟨⟨0, 0, 0, by decide⟩, ⟨0, 256, 0, by decide⟩, ?_, ?_, by decide⟩ <;>
      simp only [Version.Within] <;> omega
  · refine ⟨⟨0, 0, 0, by decide⟩, ⟨0, 0, 256, by decide⟩, ?_, ?_, by decide⟩ <;>
      simp only [Version.Within] <;> omega

/-- Two versions are compared rightly exactly if the fields of the packed versions are in their order;
all versions up to a bound are if and only if the bound stays within the fields. -/
theorem versionsRight_iff (v w : Version) {release : Str} (h : v.Reports release) (bound : Version) :
    (VersionsRight release v w ↔ v.Embedded w) ∧
    ((∀ v w : Version, v.Within bound → w.Within bound → ∀ release, v.Reports release →
        VersionsRight release v w) ↔
      bound.major ≤ 127 ∧ bound.minor ≤ 255 ∧ bound.subminor ≤ 255) := by
  refine ⟨versionsRight_iff_embedded h, fun hall => ?_, ?_⟩
  · by_contra hsmall
    obtain ⟨v, w, hv, hw, hnot⟩ := exists_not_embedded hsmall
    obtain ⟨release, h⟩ := v.exists_reports
    exact hnot ((versionsRight_iff_embedded h).1 (hall v w hv hw release h))
  · intro hsmall v w hv hw release h
    exact (versionsRight_iff_embedded h).2 ((hv.small hsmall).embedded (hw.small hsmall))

/-- The kernels with a sublevel of 4.9.256 and of 4.9.3 that are asked for 4.9.1. -/
theorem versionsRight_iff_stable : ¬ (⟨4, 9, 256, by decide⟩ : Version).Embedded ⟨4, 9, 1, by decide⟩ ∧
    VersionsRight ['4', '.', '9', '.', '3'] ⟨4, 9, 3, by decide⟩ ⟨4, 9, 1, by decide⟩ :=
  ⟨by decide, ((versionsRight_iff _ _ ⟨[], by simp, by decide⟩ ⟨4, 9, 3, by decide⟩).1).2 (by decide)⟩

/-- A kernel 4.9.256 is older than 4.9.1. -/
theorem not_versionsRight_stable : ¬ ∀ v w : Version, ∀ release, v.Reports release →
    VersionsRight release v w := by
  intro hall
  have right := hall ⟨4, 9, 256, by decide⟩ ⟨4, 9, 1, by decide⟩ ['4', '.', '9', '.', '2', '5', '6']
    ⟨[], by simp, by decide⟩
  have holder := right.older
  revert holder
  decide

end PerfEvent.Versions
