import PerfEventTests.PerfData.Sections

/-!
# Sections that fit their length

A decoder that starts on a complete section of its format decodes it and reads nothing else. The
decoders never look at the length again, so that this is the only case in which they are safe.
-/

namespace PerfEvent.PerfData

open ByteMemory Files Reading

/-! ## Words and strings -/

theorem decodes_nextUint32 (v : UInt32) : Decodes nextUint32 (u32 v) v := by
  have h := decodes_map (g := UInt32.ofNat) (decodes_word (n := 4) (v := v.toNat) v.toNat_lt)
  rwa [UInt32.ofNat_toNat] at h

theorem decodes_nextUint64 (v : UInt64) : Decodes nextUint64 (u64 v) v := by
  have h := decodes_map (g := UInt64.ofNat) (decodes_word (n := 8) (v := v.toNat) v.toNat_lt)
  rwa [UInt64.ofNat_toNat] at h

/-- The bytes of a buffer are fewer than an `int` counts. -/
theorem decodes_of_small {α : Type} {m : Reader α} {bs : Bytes} {v : α}
    (h : bs.length < 2 ^ 31 → Decodes m bs v) : Decodes m bs v := by
  intro mem n c hc
  have hroom := hc.room
  have hoffset := hc.offset
  have hsmall := hc.small
  exact h (by omega) mem n c hc

/-- A count that was stored in 4 bytes. -/
theorem decodes_count {n : Nat} (h : n < 2 ^ 32) :
    Decodes nextUint32 (le 4 n) (UInt32.ofNat n) := by
  have h' := decodes_nextUint32 (UInt32.ofNat n)
  rwa [u32, UInt32.toNat_ofNat_of_lt' h] at h'

theorem decodes_count64 {n : Nat} (h : n < 2 ^ 64) :
    Decodes nextUint64 (le 8 n) (UInt64.ofNat n) := by
  have h' := decodes_nextUint64 (UInt64.ofNat n)
  rwa [u64, UInt64.toNat_ofNat_of_lt' h] at h'

theorem decodes_nextString (s : Bytes) : Decodes nextString (headerString s) s := by
  intro mem n c hc
  have hroom := hc.room
  have hoffset := hc.offset
  have hsmall := hc.small
  unfold headerString at hroom
  rw [List.length_append, length_le] at hroom
  have hlt : s.length < 2 ^ 32 := by omega
  have hlen : UInt32.ofNat (mem.word 4 (c.offset + ((0 : Nat) : Int))) = UInt32.ofNat s.length := by
    rw [Nat.cast_zero, add_zero, hc.holds.word_eq hlt]
  have hto : (UInt32.ofNat s.length).toNat = s.length := UInt32.toNat_ofNat_of_lt' hlt
  have htotal : (4 + UInt32.ofNat s.length).toNat = 4 + s.length := by
    rw [UInt32.toNat_add, hto]
    show (4 + s.length) % 2 ^ 32 = 4 + s.length
    omega
  have hload : mem.load (c.offset + ((4 : Nat) : Int)) s.length = s := by
    have h := (Mem.holds_append.1 hc.holds).2.load_eq
    rwa [length_le] at h
  refine ⟨{ c with
    offset := c.offset + (headerString s).length
    reads := c.reads ++ [⟨c.offset + ((0 : Nat) : Int), 4⟩] ++
      [⟨c.offset + ((4 : Nat) : Int), s.length⟩]
    copies := c.copies ++ [s.length] }, ?_, rfl, ?_⟩
  · show (mem.load (c.offset + ((4 : Nat) : Int))
        (UInt32.ofNat (mem.word 4 (c.offset + ((0 : Nat) : Int)))).toNat,
      ({ offset := toInt32 (c.offset +
            (4 + UInt32.ofNat (mem.word 4 (c.offset + ((0 : Nat) : Int)))).toNat)
         reads := c.reads ++ [⟨c.offset + ((0 : Nat) : Int), 4⟩] ++ [⟨c.offset + ((4 : Nat) : Int),
            (UInt32.ofNat (mem.word 4 (c.offset + ((0 : Nat) : Int)))).toNat⟩]
         copies := c.copies ++
            [(UInt32.ofNat (mem.word 4 (c.offset + ((0 : Nat) : Int)))).toNat] } : Cursor)) = _
    rw [hlen, hto, htotal, hload, headerString, List.length_append, length_le,
      toInt32_of_range (by omega) (by omega)]
  · refine ⟨fun r hr => ?_, fun k hk => ?_⟩
    · rw [List.append_assoc] at hr
      rcases List.mem_append.1 hr with hr | hr
      · exact hc.inside.reads r hr
      · rcases List.mem_cons.1 hr with rfl | hr
        · exact ⟨by simpa using hoffset, by push_cast; omega⟩
        · rcases List.mem_singleton.1 hr with rfl
          exact ⟨by push_cast; omega, by push_cast; omega⟩
    · rcases List.mem_append.1 hk with hk | hk
      · exact hc.inside.copies k hk
      · rw [List.mem_singleton] at hk
        omega

/-! ## Lists -/

section Lists

variable {α : Type} {body : Reader α} {enc : α → Bytes} {vs : List α}

theorem length_le_flatMap (h : ∀ v ∈ vs, 0 < (enc v).length) :
    vs.length ≤ (vs.flatMap enc).length := by
  induction vs with
  | nil => exact Nat.zero_le _
  | cons v vs ih =>
    have hv := h v (List.mem_cons_self ..)
    have := ih fun u hu => h u (List.mem_cons_of_mem _ hu)
    rw [List.flatMap_cons, List.length_append, List.length_cons]
    omega

theorem headerString_pos (s : Bytes) : 0 < (headerString s).length := by
  rw [headerString, List.length_append, length_le]
  omega

/-- A loop whose bound is what was read from a word. -/
theorem decodes_times_of {n : Nat} (hn : n = vs.length) (h : ∀ v ∈ vs, Decodes body (enc v) v) :
    Decodes (times n body) (vs.flatMap enc) vs := by
  subst hn
  have hall := decodes_times (f := id) h
  rwa [List.map_id] at hall

/-- A list behind its length. -/
theorem decodes_list (hpos : ∀ v ∈ vs, 0 < (enc v).length) (h : ∀ v ∈ vs, Decodes body (enc v) v) :
    Decodes (do
      let n ← nextUint32
      times n.toNat body) (le 4 vs.length ++ vs.flatMap enc) vs := by
  refine decodes_of_small fun hsmall => ?_
  have hle := length_le_flatMap hpos
  rw [List.length_append, length_le] at hsmall
  exact decodes_bind (decodes_count (by omega))
    (decodes_times_of (UInt32.toNat_ofNat_of_lt' (show vs.length < 2 ^ 32 by omega)) h)

theorem decodes_topologyList (ss : List Bytes) :
    Decodes topologyList (headerStringList ss) ss := by
  refine decodes_of_small fun hsmall => ?_
  have hle : ss.length ≤ (ss.flatMap headerString).length :=
    length_le_flatMap fun s _ => headerString_pos s
  rw [headerStringList, List.length_append, length_le] at hsmall
  have hto : (UInt32.ofNat ss.length).toNat = ss.length :=
    UInt32.toNat_ofNat_of_lt' (show ss.length < 2 ^ 32 by omega)
  refine decodes_bind (decodes_count (by omega)) (decodes_times_of ?_ fun s _ =>
    decodes_nextString s)
  rw [hto, toInt32_of_range (by omega) (by omega), Int.toNat_natCast]

end Lists

/-! ## The elements of the lists -/

theorem decodes_uint64s (vs : List UInt64) {n : Nat} (hn : n = vs.length) :
    Decodes (times n nextUint64) (u64s vs) vs :=
  decodes_times_of hn fun v _ => decodes_nextUint64 v

/-- What is printed of an event. -/
def DescribedEvent.printed (e : DescribedEvent) : DescribedEvent := { e with attr := [] }

theorem decodes_describedEvent {attrSize : UInt32} {e : DescribedEvent}
    (h : e.attr.length = attrSize.toNat) :
    Decodes (describedEvent attrSize) e.encode e.printed := by
  refine decodes_of_small fun hsmall => ?_
  have hle : e.ids.length ≤ (u64s e.ids).length := by
    rw [length_u64s]
    omega
  simp only [DescribedEvent.encode, List.length_append, length_le] at hsmall
  have hto : (UInt32.ofNat e.ids.length).toNat = e.ids.length :=
    UInt32.toNat_ofNat_of_lt' (show e.ids.length < 2 ^ 32 by omega)
  unfold describedEvent DescribedEvent.encode
  rw [← h]
  refine decodes_bind (decodes_advance e.attr) (decodes_bind (decodes_count (by omega)) ?_)
  exact decodes_bind (decodes_nextString e.name) (decodes_map (g := DescribedEvent.mk [] e.name)
    (decodes_uint64s e.ids hto))

theorem decodes_cpuPlace (p : CpuPlace) : Decodes cpuPlace p.encode p :=
  decodes_bind (decodes_nextUint32 p.coreId)
    (decodes_map (g := CpuPlace.mk p.coreId) (decodes_nextUint32 p.socketId))

theorem decodes_numaNode (n : NumaNode) : Decodes numaNode n.encode n :=
  decodes_bind (decodes_nextUint32 n.nodenr) (decodes_bind (decodes_nextUint64 n.memTotal)
    (decodes_bind (decodes_nextUint64 n.memFree)
      (decodes_map (g := NumaNode.mk n.nodenr n.memTotal n.memFree) (decodes_nextString n.cpus))))

theorem decodes_pmu (p : Pmu) : Decodes pmu p.encode p :=
  decodes_bind (decodes_nextUint32 p.type)
    (decodes_map (g := Pmu.mk p.type) (decodes_nextString p.name))

theorem decodes_cacheLevel (l : CacheLevel) : Decodes cacheLevel l.encode l :=
  decodes_bind (decodes_nextUint32 l.level) (decodes_bind (decodes_nextUint32 l.lineSize)
    (decodes_bind (decodes_nextUint32 l.sets) (decodes_bind (decodes_nextUint32 l.ways)
      (decodes_bind (decodes_nextString l.type) (decodes_bind (decodes_nextString l.size)
        (decodes_map (g := CacheLevel.mk l.level l.lineSize l.sets l.ways l.type l.size)
          (decodes_nextString l.map)))))))

theorem decodes_memoryNode {n : MemoryNode} (h : n.entries.length = n.bitmapSize.toNat / 64 + 1) :
    Decodes memoryNode n.encode n :=
  decodes_bind (decodes_nextUint64 n.nodeId) (decodes_bind (decodes_nextUint64 n.size)
    (decodes_bind (decodes_nextUint64 n.bitmapSize)
      (decodes_map (g := MemoryNode.mk n.nodeId n.size n.bitmapSize)
        (decodes_uint64s n.entries h.symm))))

/-! ## Sections -/

/-- The format of a feature. -/
def Section.Of (which : Nat) : Section → Prop
  | .buildId _ => which = headerBuildId
  | .nrcpus .. => which = headerNrcpus
  | .string _ => which ∈ [headerHostname, headerOsrelease, headerVersion, headerArch, headerCpudesc,
      headerCpuid]
  | .stringList _ => which = headerCmdline
  | .u64 _ => which = headerTotalMem
  | .eventDesc .. => which = headerEventDesc
  | .cpuTopology .. | .cpuTopology2 .. | .cpuTopology3 .. => which = headerCpuTopology
  | .numaTopology _ => which = headerNumaTopology
  | .pmuMappings _ => which = headerPmuMappings
  | .cache .. => which = headerCache
  | .sampleTime .. => which = headerSampleTime
  | .sampleTopology .. => which = headerSampleTopology

/-- The revisions that are told from the next one by the end of the section. -/
def Section.EndsThere : Section → Prop
  | .cpuTopology .. | .cpuTopology2 .. => True
  | _ => False

/-- The payload begins with a complete section of the feature. -/
def Fits (which : Nat) (nrCpusAvail : UInt32) (payload : Bytes) : Prop :=
  ∃ s : Section, s.Of which ∧ s.WellFormed nrCpusAvail ∧
    ∃ rest, payload = s.encode ++ rest ∧ (s.EndsThere → rest = [])

/-- What is printed of a section. -/
def Section.printed : Section → Section
  | .eventDesc attrSize events => .eventDesc attrSize (events.map DescribedEvent.printed)
  | s => s

theorem buffer_holds {bs xs ys : Bytes} {stale : Mem} (h : bs = xs ++ ys) :
    (buffer bs stale).Holds 0 xs := by
  intro k hk
  subst h
  have hlt : k < (xs ++ ys).length := by
    rw [List.length_append]
    omega
  have hin : (0 : Int) ≤ 0 + (k : Int) ∧ (0 : Int) + (k : Int) < (xs ++ ys).length := by omega
  unfold buffer
  rw [if_pos hin, zero_add, Int.toNat_natCast, List.getD_eq_getElem?_getD,
    List.getElem?_eq_getElem hlt, List.getElem_append_left hk]
  rfl

/-- A word of a buffer that has been filled. -/
theorem buffer_word (xs ys zs : Bytes) (stale : Mem) :
    (buffer (xs ++ (ys ++ zs)) stale).word ys.length xs.length = ofLe ys := by
  have hholds : (buffer (xs ++ (ys ++ zs)) stale).Holds 0 (xs ++ ys) :=
    buffer_holds (List.append_assoc _ _ _).symm
  have hys := (Mem.holds_append.1 hholds).2
  rw [zero_add] at hys
  rw [Mem.word, hys.load_eq]

/-- A cursor at the start of a payload that has been read. -/
theorem on_start {bs rest payload : Bytes} {stale : Mem} (hlen : payload.length ≤ bufferSize)
    (h : payload = bs ++ rest) : On (buffer payload stale) payload.length bs {} := by
  refine ⟨le_refl (0 : Int), ?_, ?_, buffer_holds h, inside_start _ 0⟩
  · rw [h, List.length_append]
    push_cast
    omega
  · unfold bufferSize at hlen
    omega

section Outcomes

variable {refuses : Int → Bool} {wrongSize unread : String} {decode : Reader Section} {stale : Mem}
  {payload : Bytes} {f : File}

/-- The payload is read completely, and then decoded. -/
theorem readSection_eq (hrefuses : refuses payload.length = false)
    (hlen : payload.length ≤ bufferSize) (hf : f.slice f.pos payload.length = payload) :
    (readSection refuses wrongSize unread decode stale payload.length f).result =
      .ok (decode (buffer payload stale) {}).1 ∧
    (readSection refuses wrongSize unread decode stale payload.length f).cursor =
      (decode (buffer payload stale) {}).2 := by
  have hcount : readCount (payload.length : Int) = payload.length := by
    unfold readCount toUnsigned bufferSize at *
    omega
  have hread : f.read payload.length = (some payload, { f with pos := f.pos + payload.length }) := by
    rw [File.read_eq (by unfold bufferSize at hlen; omega), hf]
  have hrun : readSection refuses wrongSize unread decode stale payload.length f =
      decodeRead unread decode stale payload.length payload.length
        (some payload, { f with pos := f.pos + payload.length }) := by
    rw [readSection, hrefuses, hcount, hread]
    rfl
  have hdecoded : decodeRead unread decode stale payload.length payload.length
      (some payload, { f with pos := f.pos + payload.length }) =
      { result := .ok (decode (buffer payload stale) {}).1
        cursor := (decode (buffer payload stale) {}).2
        counts := [payload.length]
        file := { f with pos := f.pos + payload.length } } := if_neg (not_not.2 rfl)
  rw [hrun, hdecoded]
  exact ⟨rfl, rfl⟩

/-- A payload that its decoder reads from the start. -/
theorem readSection_inside {bs rest : Bytes} {v : Section} (hlen : payload.length ≤ bufferSize)
    (hf : f.slice f.pos payload.length = payload) (hbs : payload = bs ++ rest)
    (hdecode : ∀ mem, On mem payload.length bs {} →
      ∃ c, decode mem {} = (v, c) ∧ c.Inside payload.length) :
    (readSection tooBig wrongSize unread decode stale payload.length f).result = .ok v ∧
    (readSection tooBig wrongSize unread decode stale payload.length f).cursor.Inside
      payload.length := by
  obtain ⟨c, hrun, hinside⟩ := hdecode _ (on_start hlen hbs)
  have hrefuses : tooBig payload.length = false := decide_eq_false (by omega)
  obtain ⟨hresult, hcursor⟩ := readSection_eq
    hrefuses hlen hf
  rw [hresult, hcursor, hrun]
  exact ⟨rfl, hinside⟩

/-- A section of the format of its decoder. -/
theorem readSection_fits {bs rest : Bytes} {v : Section} (hlen : payload.length ≤ bufferSize)
    (hf : f.slice f.pos payload.length = payload) (hbs : payload = bs ++ rest)
    (hdecode : Decodes decode bs v) :
    (readSection tooBig wrongSize unread decode stale payload.length f).result = .ok v ∧
    (readSection tooBig wrongSize unread decode stale payload.length f).cursor.Inside
      payload.length :=
  readSection_inside hlen hf hbs fun mem hon =>
    match hdecode mem _ _ hon with
    | ⟨c, hrun, _, hinside⟩ => ⟨c, hrun, hinside⟩

end Outcomes

/-! ## The decoders -/

theorem decodes_nrcpus (available online : UInt32) :
    Decodes nrcpus (Section.nrcpus available online).encode (.nrcpus available online) :=
  decodes_bind (decodes_nextUint32 available)
    (decodes_map (g := Section.nrcpus available) (decodes_nextUint32 online))

theorem decodes_string (s : Bytes) : Decodes string (Section.string s).encode (.string s) :=
  decodes_map (g := Section.string) (decodes_nextString s)

theorem decodes_stringList (ss : List Bytes) :
    Decodes stringList (Section.stringList ss).encode (.stringList ss) :=
  decodes_map (g := Section.stringList)
    (decodes_list (fun s _ => headerString_pos s) fun s _ => decodes_nextString s)

theorem decodes_eventDesc {attrSize : UInt32} {events : List DescribedEvent}
    (h : ∀ e ∈ events, e.attr.length = attrSize.toNat) :
    Decodes eventDesc (Section.eventDesc attrSize events).encode
      (Section.eventDesc attrSize events).printed := by
  refine decodes_of_small fun hsmall => ?_
  have hle : events.length ≤ (events.flatMap DescribedEvent.encode).length :=
    length_le_flatMap fun e _ => by simp [DescribedEvent.encode]
  simp only [Section.encode, List.length_append, length_le] at hsmall
  have hto : (UInt32.ofNat events.length).toNat = events.length :=
    UInt32.toNat_ofNat_of_lt' (show events.length < 2 ^ 32 by omega)
  refine decodes_bind (decodes_count (by omega)) (decodes_bind (decodes_nextUint32 attrSize)
    (decodes_map (g := Section.eventDesc attrSize) ?_))
  rw [hto]
  exact decodes_times fun e he => decodes_describedEvent (h e he)

theorem decodes_numaTopology (nodes : List NumaNode) :
    Decodes numaTopology (Section.numaTopology nodes).encode (.numaTopology nodes) :=
  decodes_map (g := Section.numaTopology)
    (decodes_list (fun n _ => by simp [NumaNode.encode]) fun n _ => decodes_numaNode n)

theorem decodes_pmuMappings (pmus : List Pmu) :
    Decodes pmuMappings (Section.pmuMappings pmus).encode (.pmuMappings pmus) :=
  decodes_map (g := Section.pmuMappings)
    (decodes_list (fun p _ => by simp [Pmu.encode]) fun p _ => decodes_pmu p)

theorem decodes_cache (version : UInt32) (levels : List CacheLevel) :
    Decodes cache (Section.cache version levels).encode (.cache version levels) :=
  decodes_bind (decodes_nextUint32 version) (decodes_map (g := Section.cache version)
    (decodes_list (fun l _ => by simp [CacheLevel.encode]) fun l _ => decodes_cacheLevel l))

theorem decodes_sampleTime (begin end_ : UInt64) :
    Decodes sampleTime (Section.sampleTime begin end_).encode (.sampleTime begin end_) :=
  decodes_bind (decodes_nextUint64 begin)
    (decodes_map (g := Section.sampleTime begin) (decodes_nextUint64 end_))

theorem decodes_sampleTopology {version blockSize : UInt64} {nodes : List MemoryNode}
    (h : ∀ n ∈ nodes, n.entries.length = n.bitmapSize.toNat / 64 + 1) :
    Decodes sampleTopology (Section.sampleTopology version blockSize nodes).encode
      (.sampleTopology version blockSize nodes) := by
  refine decodes_of_small fun hsmall => ?_
  have hle : nodes.length ≤ (nodes.flatMap MemoryNode.encode).length :=
    length_le_flatMap fun n _ => by simp [MemoryNode.encode]
  simp only [Section.encode, List.length_append, length_le] at hsmall
  have hto : (UInt64.ofNat nodes.length).toNat = nodes.length :=
    UInt64.toNat_ofNat_of_lt' (show nodes.length < 2 ^ 64 by omega)
  exact decodes_bind (decodes_nextUint64 version) (decodes_bind (decodes_nextUint64 blockSize)
    (decodes_bind (decodes_count64 (by omega)) (decodes_map (g := Section.sampleTopology version blockSize)
      (decodes_times_of hto fun n hn => decodes_memoryNode (h n hn)))))

/-! ### The build id

The structure is read at fixed places, and its name up to the zero byte. -/

theorem buildId_decodes {e : BuildIdEvent} (hid : e.buildId.length = buildIdSize)
    (hname : 0 ∉ e.filename) {mem : Mem} {n : Nat} (hn : n ≤ bufferSize)
    (hon : On mem n e.encode {}) :
    ∃ c, buildId mem {} = (.buildId e, c) ∧ c.Inside n := by
  have hroom := hon.room
  simp only [BuildIdEvent.encode, List.length_append, length_u32, length_u16, hid,
    buildIdSize] at hroom
  obtain ⟨htype, h⟩ := Mem.holds_append.1 hon.holds
  obtain ⟨hmisc, h⟩ := Mem.holds_append.1 h
  obtain ⟨hsize, h⟩ := Mem.holds_append.1 h
  obtain ⟨hpid, h⟩ := Mem.holds_append.1 h
  obtain ⟨hbytes, hstring⟩ := Mem.holds_append.1 h
  simp only [length_u32, length_u16, hid, buildIdSize] at htype hmisc hsize hpid hbytes hstring
  have hword : ∀ {k v : Nat} {a : Int}, mem.Holds a (le k v) → v < 256 ^ k → mem.word k a = v :=
    fun {k v a} hk hv => by
      have hk' : mem.Holds a (le k v ++ []) := by rwa [List.append_nil]
      exact hk'.word_eq hv
  have hload : mem.load 12 buildIdSize = e.buildId := by
    rw [← hid]
    exact hbytes.load_eq
  -- the cursor only gathers what has been read
  let seen : List Span := [⟨0, 4⟩, ⟨4, 2⟩, ⟨6, 2⟩, ⟨8, 4⟩, ⟨12, buildIdSize⟩]
  have hseen : Cursor.Inside n { offset := 0, reads := seen } := by
    refine ⟨fun s hs => ?_, fun _ h => (nomatch h)⟩
    simp only [seen, List.mem_cons, List.not_mem_nil, or_false] at hs
    rcases hs with rfl | rfl | rfl | rfl | rfl <;> simp only [buildIdSize] <;> omega
  have hlt : e.filename.length < bufferSize - 36 + 1 := by
    have hb : bufferSize = 4096 := rfl
    rw [hb] at hn ⊢
    omega
  obtain ⟨c', hname, -, hinside⟩ := cStringAt_run (n := n) hname _ 36
    (c := { offset := 0, reads := seen }) hlt (le_refl _)
    (by rw [List.length_append]; push_cast at hroom ⊢; omega) hstring hseen
  refine ⟨c', ?_, hinside⟩
  have hrun : buildId mem {} = (cStringAt (bufferSize - 36 + 1) 36 >>= fun filename =>
      pure (Section.buildId ⟨UInt32.ofNat (mem.word 4 0), UInt16.ofNat (mem.word 2 4),
        UInt16.ofNat (mem.word 2 6), UInt32.ofNat (mem.word 4 8), mem.load 12 buildIdSize,
        filename⟩)) mem { offset := 0, reads := seen } := rfl
  rw [hrun, bind_run hname, hword (a := 0) htype e.type.toNat_lt,
    hword (a := 4) hmisc e.misc.toNat_lt, hword (a := 6) hsize e.size.toNat_lt,
    hword (a := 8) hpid e.pid.toNat_lt, hload, UInt32.ofNat_toNat, UInt16.ofNat_toNat,
    UInt16.ofNat_toNat, UInt32.ofNat_toNat]
  rfl

/-! ### The cpu topology

What is read next depends on where the section ends, so these lemmas are about a cursor in a
buffer of `n` bytes. -/

section CpuTopology

variable {nr : UInt32} {cores threads dies : List Bytes} {cpus : List CpuPlace}
  {dieIds : List UInt32} {mem : Mem} {n : Nat} {c : Cursor}

theorem headerStringList_pos (ss : List Bytes) : 0 < (headerStringList ss).length := by
  rw [headerStringList, List.length_append, length_le]
  omega

theorem cpuPlaces_decodes (h : cpus.length = nr.toNat) :
    Decodes (times nr.toNat cpuPlace) (cpus.flatMap CpuPlace.encode) cpus :=
  decodes_times_of h.symm fun p _ => decodes_cpuPlace p

theorem cpuDies_decodes (h : dieIds.length = nr.toNat) :
    Decodes (cpuDies nr cores threads cpus) (headerStringList dies ++ dieIds.flatMap u32)
      (.cpuTopology3 cores threads cpus dies dieIds) :=
  decodes_bind (decodes_topologyList dies) (decodes_map (g := Section.cpuTopology3 cores threads cpus dies)
    (decodes_times_of h.symm fun v _ => decodes_nextUint32 v))

/-- The section ends behind the cpus. -/
theorem cpuPlaces_end (h : cpus.length = nr.toNat) (hon : On mem n (cpus.flatMap CpuPlace.encode) c)
    (hend : c.offset + (cpus.flatMap CpuPlace.encode).length = n) :
    ∃ c', cpuPlaces nr n cores threads mem c = (.cpuTopology2 cores threads cpus, c') ∧
      c'.offset = n ∧ c'.Inside n := by
  obtain ⟨c', hrun, ho, hi⟩ := cpuPlaces_decodes h mem n c hon
  have hle : (n : Int) ≤ c'.offset := by omega
  refine ⟨c', ?_, by omega, hi⟩
  unfold cpuPlaces
  rw [bind_run hrun, getOffset_run, if_pos hle]
  rfl

/-- The dies follow. -/
theorem cpuPlaces_dies (h : cpus.length = nr.toNat) (hd : dieIds.length = nr.toNat)
    (hon : On mem n (cpus.flatMap CpuPlace.encode ++ (headerStringList dies ++ dieIds.flatMap u32))
      c) :
    ∃ c', cpuPlaces nr n cores threads mem c = (.cpuTopology3 cores threads cpus dies dieIds, c') ∧
      c'.offset = c.offset + (cpus.flatMap CpuPlace.encode ++
        (headerStringList dies ++ dieIds.flatMap u32)).length ∧ c'.Inside n := by
  obtain ⟨c', hrun, ho, hi⟩ := cpuPlaces_decodes h mem n c hon.left
  have hright := hon.right ho hi
  have hroom := hright.room
  have hpos := headerStringList_pos dies
  rw [List.length_append] at hroom
  have hlt : ¬(n : Int) ≤ c'.offset := by omega
  obtain ⟨c'', hrun', ho', hi'⟩ :=
    (cpuDies_decodes hd) mem n c' hright
  refine ⟨c'', ?_, ?_, hi'⟩
  · unfold cpuPlaces
    rw [bind_run hrun, getOffset_run, if_neg hlt, hrun']
  · rw [ho', ho]
    simp only [List.length_append]
    push_cast
    ring

/-- The decoder behind the two lists that all revisions have. -/
theorem cpuTopology_run {ys : Bytes}
    (hon : On mem n (headerStringList cores ++ (headerStringList threads ++ ys)) {}) :
    ∃ c', On mem n ys c' ∧
      c'.offset = ((headerStringList cores ++ headerStringList threads).length : Int) ∧
      cpuTopology nr n mem {} =
        (if (n : Int) ≤ c'.offset then pure (.cpuTopology cores threads)
          else cpuPlaces nr n cores threads : Reader Section) mem c' := by
  obtain ⟨c₁, hcores, ho₁, hi₁⟩ := decodes_topologyList cores mem n {} hon.left
  have hon₁ := hon.right ho₁ hi₁
  obtain ⟨c₂, hthreads, ho₂, hi₂⟩ := decodes_topologyList threads mem n c₁ hon₁.left
  refine ⟨c₂, hon₁.right ho₂ hi₂, ?_, ?_⟩
  · rw [ho₂, ho₁, List.length_append]
    have hzero : ({} : Cursor).offset = 0 := rfl
    omega
  · rw [cpuTopology, bind_run hcores, bind_run hthreads, getOffset_run]

theorem cpuTopology_first (hn : n = (Section.cpuTopology cores threads).encode.length)
    (hon : On mem n (Section.cpuTopology cores threads).encode {}) :
    ∃ c, cpuTopology nr n mem {} = (.cpuTopology cores threads, c) ∧ c.offset = n ∧
      c.Inside n := by
  have hon' : On mem n (headerStringList cores ++ (headerStringList threads ++ [])) {} := by
    rw [List.append_nil]
    exact hon
  obtain ⟨c', hc', ho, hrun⟩ := cpuTopology_run hon'
  have hle : (n : Int) ≤ c'.offset := by
    rw [ho, hn]
    exact le_refl _
  refine ⟨c', ?_, ?_, hc'.inside⟩
  · rw [hrun, if_pos hle]
    rfl
  · rw [ho, hn]
    rfl

theorem cpuTopology_second (h : cpus.length = nr.toNat)
    (hn : n = (Section.cpuTopology2 cores threads cpus).encode.length)
    (hon : On mem n (Section.cpuTopology2 cores threads cpus).encode {}) :
    ∃ s c, cpuTopology nr n mem {} = (s, c) ∧ c.offset = n ∧ c.Inside n ∧
      (0 < nr.toNat → s = .cpuTopology2 cores threads cpus) := by
  obtain ⟨c', hc', ho, hrun⟩ := cpuTopology_run hon
  have hend : c'.offset + (cpus.flatMap CpuPlace.encode).length = n := by
    rw [ho, hn]
    simp only [Section.encode, List.length_append]
    push_cast
    ring
  have hcpus : cpus.length ≤ (cpus.flatMap CpuPlace.encode).length :=
    length_le_flatMap fun p _ => by simp [CpuPlace.encode]
  rw [hrun]
  -- without available cpus this section is one of the first revision
  by_cases hle : (n : Int) ≤ c'.offset
  · rw [if_pos hle]
    exact ⟨_, c', rfl, by omega, hc'.inside, fun hpos => by omega⟩
  · rw [if_neg hle]
    obtain ⟨c'', hplaces, ho', hi⟩ := cpuPlaces_end h hc' hend
    exact ⟨_, c'', hplaces, ho', hi, fun _ => rfl⟩

theorem cpuTopology_third (h : cpus.length = nr.toNat) (hd : dieIds.length = nr.toNat)
    (hon : On mem n (Section.cpuTopology3 cores threads cpus dies dieIds).encode {}) :
    ∃ c, cpuTopology nr n mem {} = (.cpuTopology3 cores threads cpus dies dieIds, c) ∧
      c.offset = (Section.cpuTopology3 cores threads cpus dies dieIds).encode.length ∧
      c.Inside n := by
  obtain ⟨c', hc', ho, hrun⟩ := cpuTopology_run hon
  have hroom := hc'.room
  have hpos := headerStringList_pos dies
  simp only [List.length_append] at hroom
  have hlt : ¬(n : Int) ≤ c'.offset := by omega
  obtain ⟨c'', hplaces, ho', hi⟩ := cpuPlaces_dies h hd hc'
  refine ⟨c'', ?_, ?_, hi⟩
  · rw [hrun, if_neg hlt, hplaces]
  · rw [ho', ho]
    simp only [Section.encode, List.length_append]
    push_cast
    ring

end CpuTopology

/-! ## All decoders -/

section All

variable {which : Nat} {nr : UInt32} {D : Mem → Int → File → Outcome}

/-- The check of the length: all decoders but one compare it with the size of the buffer. -/
def refuses (which : Nat) : Int → Bool :=
  if which = headerTotalMem then fun len => len ≠ 8 else tooBig

theorem decoder_shape (hD : decoder nr which = some D) (stale : Mem) (len : Int) (f : File) :
    ∃ wrongSize unread decode,
      D stale len f = readSection (refuses which) wrongSize unread decode stale len f := by
  unfold decoder at hD
  split at hD <;> cases hD <;> exact ⟨_, _, _, rfl⟩

variable {stale : Mem} {payload : Bytes} {f : File}

/-- A section that fits is decoded inside its length. -/
theorem decoder_fits (hD : decoder nr which = some D) (hne : which ≠ headerTotalMem)
    (hlen : payload.length ≤ bufferSize) (hf : f.slice f.pos payload.length = payload)
    (hfits : Fits which nr payload) : (D stale payload.length f).cursor.Inside payload.length := by
  obtain ⟨s, hof, hwf, rest, hpayload, hend⟩ := hfits
  cases s with
  | buildId e =>
    cases (show which = headerBuildId from hof)
    cases hD
    exact (readSection_inside hlen hf hpayload fun mem hon =>
      buildId_decodes hwf.1 hwf.2 hlen hon).2
  | nrcpus available online =>
    cases (show which = headerNrcpus from hof)
    cases hD
    exact (readSection_fits hlen hf hpayload (decodes_nrcpus available online)).2
  | string str =>
    simp only [Section.Of, List.mem_cons, List.not_mem_nil, or_false] at hof
    rcases hof with rfl | rfl | rfl | rfl | rfl | rfl <;> cases hD <;>
      exact (readSection_fits hlen hf hpayload (decodes_string str)).2
  | stringList ss =>
    cases (show which = headerCmdline from hof)
    cases hD
    exact (readSection_fits hlen hf hpayload (decodes_stringList ss)).2
  | u64 v => exact absurd hof hne
  | eventDesc attrSize events =>
    cases (show which = headerEventDesc from hof)
    cases hD
    exact (readSection_fits hlen hf hpayload (decodes_eventDesc hwf)).2
  | cpuTopology cores threads =>
    cases (show which = headerCpuTopology from hof)
    cases hD
    rw [hend trivial, List.append_nil] at hpayload
    exact (readSection_inside hlen hf (hpayload.trans (List.append_nil _).symm) fun mem hon =>
      have ⟨c, hrun, _, hinside⟩ := cpuTopology_first (congrArg List.length hpayload) hon
      ⟨c, hrun, hinside⟩).2
  | cpuTopology2 cores threads cpus =>
    cases (show which = headerCpuTopology from hof)
    cases hD
    rw [hend trivial, List.append_nil] at hpayload
    subst hpayload
    obtain ⟨_, c, hrun, -, hinside, -⟩ := cpuTopology_second hwf rfl
      (on_start hlen (List.append_nil _).symm)
    unfold readSectionCpuTopology
    rw [(readSection_eq (decide_eq_false (by omega)) hlen hf).2, hrun]
    exact hinside
  | cpuTopology3 cores threads cpus dies dieIds =>
    cases (show which = headerCpuTopology from hof)
    cases hD
    exact (readSection_inside hlen hf hpayload fun mem hon =>
      have ⟨c, hrun, _, hinside⟩ := cpuTopology_third hwf.1 hwf.2 hon
      ⟨c, hrun, hinside⟩).2
  | numaTopology nodes =>
    cases (show which = headerNumaTopology from hof)
    cases hD
    exact (readSection_fits hlen hf hpayload (decodes_numaTopology nodes)).2
  | pmuMappings pmus =>
    cases (show which = headerPmuMappings from hof)
    cases hD
    exact (readSection_fits hlen hf hpayload (decodes_pmuMappings pmus)).2
  | cache version levels =>
    cases (show which = headerCache from hof)
    cases hD
    exact (readSection_fits hlen hf hpayload (decodes_cache version levels)).2
  | sampleTime begin end_ =>
    cases (show which = headerSampleTime from hof)
    cases hD
    exact (readSection_fits hlen hf hpayload (decodes_sampleTime begin end_)).2
  | sampleTopology version blockSize nodes =>
    cases (show which = headerSampleTopology from hof)
    cases hD
    exact (readSection_fits hlen hf hpayload (decodes_sampleTopology hwf)).2

/-- Once a section has been read, nothing is refused. -/
theorem decoder_ok (hD : decoder nr which = some D) (hne : which ≠ headerTotalMem)
    (hlen : payload.length ≤ bufferSize) (hf : f.slice f.pos payload.length = payload) :
    ∃ s, (D stale payload.length f).result = .ok s := by
  obtain ⟨wrongSize, unread, decode, hshape⟩ := decoder_shape hD stale payload.length f
  have hrefuses : refuses which payload.length = false := by
    rw [refuses, if_neg hne]
    exact decide_eq_false (by omega)
  rw [hshape, (readSection_eq hrefuses hlen hf).1]
  exact ⟨_, rfl⟩

/-- What is asked of a decoder for a payload: it reads nothing behind the payload, copies no more
than the destination holds, and refuses a payload that is no section. -/
def Checked (which : Nat) (nrCpusAvail : UInt32) (payload : Bytes) (o : Outcome) : Prop :=
  (∀ s ∈ o.cursor.reads, 0 ≤ s.start ∧ s.start + s.length ≤ payload.length) ∧
  (∀ k ∈ o.cursor.copies, k ≤ bufferSize) ∧
  (¬Fits which nrCpusAvail payload → ∃ message, o.result = .error message)

/-- A decoder does what is asked of it for the payloads that begin with a complete section, and
for no other. -/
theorem decoder_checked_iff (hD : decoder nr which = some D) (hne : which ≠ headerTotalMem)
    (hlen : payload.length ≤ bufferSize) (hf : f.slice f.pos payload.length = payload) :
    Checked which nr payload (D stale payload.length f) ↔ Fits which nr payload := by
  constructor
  · rintro ⟨-, -, hrefuses⟩
    by_contra hfits
    obtain ⟨message, herror⟩ := hrefuses hfits
    obtain ⟨s, hok⟩ := decoder_ok hD hne hlen hf
    rw [hok] at herror
    exact nomatch herror
  · intro hfits
    have hinside : (D stale payload.length f).cursor.Inside payload.length :=
      decoder_fits hD hne hlen hf hfits
    exact ⟨hinside.reads, fun k hk => (hinside.copies k hk).trans hlen, fun h => absurd hfits h⟩

/-- A host name of three bytes. -/
theorem decoder_checked_hostname :
    Checked headerHostname 0 [3, 0, 0, 0, 86, 77, 87]
      (readSectionString "hostname" (fun _ => 0) 7 ⟨[3, 0, 0, 0, 86, 77, 87], 0⟩) :=
  (decoder_checked_iff
    (f := ⟨[3, 0, 0, 0, 86, 77, 87], 0⟩) rfl (by decide) (by decide) rfl).2
    ⟨.string [86, 77, 87], List.mem_cons_self .., trivial, [], rfl, fun _ => rfl⟩

/-- A host name whose length says more than the section holds. -/
theorem readSectionString_outside :
    ¬Checked headerHostname 0 [9, 0, 0, 0, 86]
      (readSectionString "hostname" (fun _ => 0) 5 ⟨[9, 0, 0, 0, 86], 0⟩) := by
  rintro ⟨hreads, -, -⟩
  exact absurd (hreads ⟨4, 9⟩ (by decide)) (by decide)

end All

end PerfEvent.PerfData
