import PerfEventTests.PerfData.Fitting

/-!
# The revisions of the cpu topology

A section does not say which revision of the format it has: the decoder goes on to the next part as
long as it is not at the end of the section, and it takes the number of cpus from the section that
announces them. A topology of any revision is read back as it was stored.
-/

namespace PerfEvent.PerfData

open ByteMemory Files Reading

/-- A string without its terminating zero. -/
structure CString where
  bytes : Bytes
  no_zero : 0 ∉ bytes

def CString.stored (s : CString) : Bytes := s.bytes ++ [0]

/-- What `printf("%s")` prints of a string that has been copied. -/
def printedText (bs : Bytes) : Bytes := bs.takeWhile (· ≠ 0)

/-- The parts that the later revisions have, with an element for each of the available cpus. -/
inductive LaterParts (available : UInt32) where
  | first
  | second (cpus : List CpuPlace) (h : cpus.length = available.toNat)
  | third (cpus : List CpuPlace) (h : cpus.length = available.toNat) (dies : List CString)
      (dieIds : List UInt32) (hd : dieIds.length = available.toNat)

/-- The topology of a machine, in one of the revisions. -/
structure Topology where
  available : UInt32
  available_pos : 0 < available.toNat
  online : UInt32
  cores : List CString
  threads : List CString
  later : LaterParts available

namespace Topology

variable (t : Topology)

/-- The section that it is stored in. -/
def stored : Section :=
  let cores := t.cores.map CString.stored
  let threads := t.threads.map CString.stored
  match t.later with
  | .first => .cpuTopology cores threads
  | .second cpus _ => .cpuTopology2 cores threads cpus
  | .third cpus _ dies dieIds _ => .cpuTopology3 cores threads cpus (dies.map CString.stored) dieIds

/-- Its strings, without the zeros. -/
def strings : List (List Bytes) :=
  match t.later with
  | .first | .second .. => [t.cores.map (·.bytes), t.threads.map (·.bytes)]
  | .third _ _ dies _ _ => [t.cores.map (·.bytes), t.threads.map (·.bytes), dies.map (·.bytes)]

end Topology

/-- The lists of strings in a topology that has been read. -/
def Section.strings : Section → List (List Bytes)
  | .cpuTopology cores threads | .cpuTopology2 cores threads _ => [cores, threads]
  | .cpuTopology3 cores threads _ dies _ => [cores, threads, dies]
  | _ => []

/-- `nr_cpus_avail`, behind a call of `read_section_nrcpus`. -/
def announcedCpus (o : Outcome) : UInt32 :=
  match o.result with
  | .ok (.nrcpus available _) => available
  | _ => 0

/-- A topology, and the files as they are when the two sections are read. -/
structure TopologyFiles where
  topology : Topology
  small : topology.stored.encode.length ≤ bufferSize
  nrcpusFile : File
  announced : nrcpusFile.slice nrcpusFile.pos 8 =
    (Section.nrcpus topology.available topology.online).encode
  file : File
  holds : file.slice file.pos topology.stored.encode.length = topology.stored.encode
  staleNrcpus : Mem
  stale : Mem

namespace TopologyFiles

variable (i : TopologyFiles)

def nrcpus : Outcome := readSectionNrcpus i.staleNrcpus 8 i.nrcpusFile

def outcome : Outcome :=
  readSectionCpuTopology (announcedCpus i.nrcpus) i.stale i.topology.stored.encode.length i.file

/-- The revision and everything in it is read back, the strings that are printed are those that were
stored, and the offset ends at the length of the section. -/
structure Recovers : Prop where
  result : i.outcome.result = .ok i.topology.stored
  printed : ∀ s, i.outcome.result = .ok s →
    s.strings.map (List.map printedText) = i.topology.strings
  offset : i.outcome.cursor.offset = i.topology.stored.encode.length

end TopologyFiles

/-! ## What is printed -/

theorem printedText_stored (s : CString) : printedText s.stored = s.bytes := by
  have hkept : ∀ b ∈ s.bytes, decide (b ≠ 0) = true := by
    intro b hb
    apply decide_eq_true
    rintro rfl
    exact s.no_zero hb
  unfold printedText CString.stored
  rw [List.takeWhile_append_of_pos hkept]
  simp

theorem Topology.strings_stored (t : Topology) :
    t.stored.strings.map (List.map printedText) = t.strings := by
  unfold Topology.stored Topology.strings
  cases t.later <;> simp [Section.strings, printedText_stored]

/-! ## The decoder -/

/-- The decoder, on a buffer that has been filled with the section. -/
theorem cpuTopology_stored (t : Topology) {n : Nat} {mem : Mem} (hn : n = t.stored.encode.length)
    (hon : On mem n t.stored.encode {}) :
    ∃ c, cpuTopology t.available n mem {} = (t.stored, c) ∧ c.offset = n := by
  unfold Topology.stored at hn hon ⊢
  -- each revision is told from the next one by where the section ends
  cases hlater : t.later with
  | first =>
    rw [hlater] at hn hon
    obtain ⟨c, hrun, ho, -⟩ := cpuTopology_first hn hon
    exact ⟨c, hrun, ho⟩
  | second cpus h =>
    rw [hlater] at hn hon
    obtain ⟨s, c, hrun, ho, -, hs⟩ := cpuTopology_second h hn hon
    rw [hs t.available_pos] at hrun
    exact ⟨c, hrun, ho⟩
  | third cpus h dies dieIds hd =>
    rw [hlater] at hn hon
    obtain ⟨c, hrun, ho, -⟩ := cpuTopology_third h hd hon
    exact ⟨c, hrun, ho.trans (congrArg Nat.cast hn.symm)⟩

namespace TopologyFiles

variable (i : TopologyFiles)

/-- The number of cpus is that of the section which announces it. -/
theorem announcedCpus_nrcpus : announcedCpus i.nrcpus = i.topology.available := by
  have hlength : (Section.nrcpus i.topology.available i.topology.online).encode.length = 8 := by
    simp [Section.encode]
  have hresult : i.nrcpus.result = .ok (.nrcpus i.topology.available i.topology.online) := by
    have hslice := i.announced
    rw [← hlength] at hslice
    have hsmall : (Section.nrcpus i.topology.available i.topology.online).encode.length ≤
        bufferSize := by
      rw [hlength]
      decide
    have hread : (readSectionNrcpus i.staleNrcpus
        (Section.nrcpus i.topology.available i.topology.online).encode.length
        i.nrcpusFile).result = _ := (readSection_fits hsmall hslice (List.append_nil _).symm
      (decodes_nrcpus i.topology.available i.topology.online)).1
    rw [hlength] at hread
    exact hread
  unfold announcedCpus
  rw [hresult]

/-- A topology that has been stored in one of the three revisions is read back. -/
theorem readSectionCpuTopology_recovers : i.Recovers := by
  obtain ⟨c, hrun, ho⟩ := cpuTopology_stored i.topology rfl
    (on_start i.small (List.append_nil _).symm : On (buffer _ i.stale) _ _ {})
  have hrefuses : tooBig i.topology.stored.encode.length = false :=
    decide_eq_false (by have hsmall := i.small; omega)
  have houtcome : i.outcome = readSectionCpuTopology i.topology.available i.stale
      i.topology.stored.encode.length i.file := by
    rw [outcome, announcedCpus_nrcpus]
  obtain ⟨hresult, hcursor⟩ := readSection_eq hrefuses i.small i.holds
  have hok : i.outcome.result = .ok i.topology.stored := by
    rw [houtcome, readSectionCpuTopology, hresult, hrun]
  constructor
  · exact hok
  · intro s hs
    have hstored : i.topology.stored = s := Except.ok.inj (hok.symm.trans hs)
    rw [← hstored]
    exact i.topology.strings_stored
  · rw [houtcome, readSectionCpuTopology, hcursor, hrun]
    exact ho

end TopologyFiles

/-- Two cores on one die, in the third revision. -/
def twoCores : Topology where
  available := 2
  available_pos := by decide
  online := 2
  cores := [⟨[0x30, 0x2d, 0x31], by decide⟩]
  threads := [⟨[0x30], by decide⟩, ⟨[0x31], by decide⟩]
  later := .third [⟨0, 0⟩, ⟨1, 0⟩] rfl [⟨[0x30, 0x2d, 0x31], by decide⟩] [0, 0] rfl

/-- The topology stands behind the section that announces the cpus. -/
def twoCoresFiles : TopologyFiles where
  topology := twoCores
  small := by decide
  nrcpusFile := ⟨(Section.nrcpus 2 2).encode ++ twoCores.stored.encode, 0⟩
  announced := by decide
  file := ⟨(Section.nrcpus 2 2).encode ++ twoCores.stored.encode, 8⟩
  holds := by decide
  staleNrcpus := fun _ => 0
  stale := fun _ => 0

theorem readSectionCpuTopology_twoCores :
    twoCoresFiles.outcome.result = .ok twoCores.stored ∧
      twoCores.stored.strings.map (List.map printedText) =
        [[[0x30, 0x2d, 0x31]], [[0x30], [0x31]], [[0x30, 0x2d, 0x31]]] ∧
      twoCoresFiles.outcome.cursor.offset = 64 := by
  obtain ⟨hresult, hprinted, hoffset⟩ := TopologyFiles.readSectionCpuTopology_recovers twoCoresFiles
  exact ⟨hresult, hprinted _ hresult, hoffset⟩

end PerfEvent.PerfData
