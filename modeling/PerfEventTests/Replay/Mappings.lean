import PerfEventTests.Replay.Bounds

/-!
# The mappings of a replay

When the table records exactly the mappings that the replay has made and not undone, and a line
that undoes one of them is replayed as a `munmap` of it.
-/

namespace PerfEvent.Replay

open Text ByteMemory Fuzzer Runs

variable {e : Env} {s s' s'' : State} {line : Str}

/-! ## Exact tables -/

def Region.IsMapped : Region → Prop
  | .mapped _ _ => True
  | _ => False

instance : (r : Region) → Decidable r.IsMapped
  | .mapped .. => isTrue trivial
  | .failed => isFalse id
  | .null => isFalse id

/-- Every mapping is recorded in one entry of the table, and no entry records anything else. -/
structure Exact (s : State) : Prop where
  recorded : ∀ h ∈ s.held, ∃ fd, InRemap fd ∧
    (s.event fd).mmapRemap = .mapped h.call h.length ∧
    ∀ other length, InRemap other → (s.event other).mmapRemap = .mapped h.call length → other = fd
  held : ∀ fd call length, InRemap fd → (s.event fd).mmapRemap = .mapped call length →
    ∃ h ∈ s.held, h.call = call

/-- A line that undoes a mapping is replayed: a mapping with its descriptor and size, if there is
one, is passed to `munmap`. -/
def Undoes (e : Env) (line : Str) (s : State) : Prop :=
  let var := scanned [.d, .d] line (e.stack s.lineNum)
  ∀ h ∈ s.held, h.fd = var 0 → h.length = var 1 →
    .munmap (.mapped h.call h.length) (var 1) ∈ (munmapEvent e line s).calls.drop s.calls.length

/-- The lines that are handled in a step. -/
def Handles (e : Env) (h : Happening) (s : State) (P : Str → State → Prop) : Prop :=
  match h with
  | .line text => s.progress = .running → ¬(2 < s.lineNum + 1 ∧ s.lineNum + 1 < e.skipLines) →
      P (cString text) { s with lineNum := s.lineNum + 1 }
  | .signal _ => True

/-- The table is exact behind a step, and the step undoes what it should. -/
def KeepsTrack (e : Env) (h : Happening) (s : State) : Prop :=
  Exact (step e s h) ∧ Handles e h s fun line s =>
    command line.head? = .munmap → e.which .munmap → Undoes e line s

/-! ## The conditions -/

/-- Nothing is recorded for the descriptor that is mapped. -/
def MapFree (fd : Int) (s : State) : Prop :=
  (s.event fd).fdRemap = -1 ∨ InRemap fd ∧ ¬(s.event fd).mmapRemap.IsMapped

/-- Nothing is recorded for the descriptor that a successful open is recorded for. -/
def OpenFree (recorded result : Int) (s : State) : Prop :=
  result < 0 ∨ recorded > fdRemapSize ∨
    InRemap recorded ∧ ¬(s.event recorded).mmapRemap.IsMapped

/-- A recorded mapping is only undone while its descriptor is open, with its own size, and the
kernel does it. -/
def UnmapFree (fd size result : Int) (s : State) : Prop :=
  InRemap fd ∧ ((s.event fd).mmapRemap.IsMapped →
    if (s.event fd).fdRemap = -1 then (s.event fd).size ≠ size
    else (s.event fd).size = size ∧ 0 ≤ result)

def CommandTracked (e : Env) (line : Str) (s : State) : Command → Prop
  | .mmap => e.which .mmap → MapFree (scanned [.d, .d, .lx] line (e.stack s.lineNum) 1) s
  | .open => e.which .open → OpenFree
    (parseOpenEvent line { e.openStack s.lineNum with pe := {} }).fd.toInt (e.next s) s
  | .munmap => let var := scanned [.d, .d] line (e.stack s.lineNum)
    e.which .munmap → UnmapFree (var 0) (var 1) (e.next s) s
  | _ => True

def Tracked (e : Env) (h : Happening) (s : State) : Prop :=
  Handles e h s fun line s => CommandTracked e line s (command line.head?)

/-! ## The invariant -/

/-- The mappings and their entries. -/
structure Booked (s : State) : Prop where
  recorded : ∀ h ∈ s.held, InRemap h.fd ∧ (s.event h.fd).mmapRemap = .mapped h.call h.length
  held : ∀ fd call length, InRemap fd → (s.event fd).mmapRemap = .mapped call length →
    ⟨call, fd, length⟩ ∈ s.held
  size : ∀ fd call length, InRemap fd → (s.event fd).mmapRemap = .mapped call length →
    (s.event fd).size = length
  unique : ∀ h ∈ s.held, ∀ h' ∈ s.held, h.call = h'.call → h = h'
  older : ∀ h ∈ s.held, h.call < s.calls.length

theorem Booked.exact (hs : Booked s) : Exact s where
  recorded h hh := by
    obtain ⟨hin, hregion⟩ := hs.recorded h hh
    refine ⟨h.fd, hin, hregion, fun other length hother hsame => ?_⟩
    have := hs.unique _ (hs.held other h.call length hother hsame) h hh rfl
    exact congrArg Held.fd this
  held fd call length hin hregion := ⟨_, hs.held fd call length hin hregion, rfl⟩

/-- The mappings and what the table says of them are the same. -/
structure SameMaps (s s' : State) : Prop where
  held : s'.held = s.held
  region : ∀ fd, (s'.event fd).mmapRemap = (s.event fd).mmapRemap
  size : ∀ fd, (s'.event fd).size = (s.event fd).size
  calls : s.calls.length ≤ s'.calls.length

namespace SameMaps

theorem refl (s : State) : SameMaps s s := ⟨rfl, fun _ => rfl, fun _ => rfl, le_rfl⟩

theorem trans (h : SameMaps s s') (h' : SameMaps s' s'') : SameMaps s s'' where
  held := h'.held.trans h.held
  region fd := (h'.region fd).trans (h.region fd)
  size fd := (h'.size fd).trans (h.size fd)
  calls := h.calls.trans h'.calls

theorem booked (h : SameMaps s s') (hs : Booked s) : Booked s' where
  recorded x hx := by
    rw [h.held] at hx
    rw [h.region]
    exact hs.recorded x hx
  held fd call length hin hregion := by
    rw [h.held]
    rw [h.region] at hregion
    exact hs.held fd call length hin hregion
  size fd call length hin hregion := by
    rw [h.size]
    rw [h.region] at hregion
    exact hs.size fd call length hin hregion
  unique x hx y hy := by
    rw [h.held] at hx hy
    exact hs.unique x hx y hy
  older x hx := by
    rw [h.held] at hx
    exact (hs.older x hx).trans_le h.calls

theorem issue (h : SameMaps s s') (c : Call) : SameMaps s (s'.issue c) where
  held := h.held
  region := h.region
  size := h.size
  calls := by
    change s.calls.length ≤ (s'.calls ++ [c]).length
    rw [List.length_append]
    exact Nat.le_add_right_of_le h.calls

theorem access (h : SameMaps s s') (x : Access) : SameMaps s (s'.access x) := ⟨h.1, h.2, h.3, h.4⟩

theorem touch (h : SameMaps s s') (table : Table) (index : Int) :
    SameMaps s (s'.touch table index) := h.access _

theorem hand (h : SameMaps s s') (fd passed : Int) : SameMaps s (s'.hand fd passed) :=
  ⟨h.1, h.2, h.3, h.4⟩

theorem memset (h : SameMaps s s') (m : Memset) : SameMaps s (s'.memset m) := ⟨h.1, h.2, h.3, h.4⟩

theorem setOpened (h : SameMaps s s') (fd n : Int) : SameMaps s (s'.setOpened fd n) :=
  ⟨h.1, h.2, h.3, h.4⟩

theorem setOverflows (h : SameMaps s s') (fd n : Int) : SameMaps s (s'.setOverflows fd n) :=
  ⟨h.1, h.2, h.3, h.4⟩

theorem setThrottles (h : SameMaps s s') (fd n : Int) : SameMaps s (s'.setThrottles fd n) :=
  ⟨h.1, h.2, h.3, h.4⟩

/-- Only the descriptor of an entry changes. -/
theorem setRemap (h : SameMaps s s') (fd n : Int) :
    SameMaps s (s'.setEvent fd fun ev => { ev with fdRemap := n }) where
  held := h.held
  region k := by
    rw [← h.region]
    by_cases hk : k = fd
    · subst hk
      rw [State.setEvent_self]
    · rw [State.setEvent_other _ hk]
  size k := by
    rw [← h.size]
    by_cases hk : k = fd
    · subst hk
      rw [State.setEvent_self]
    · rw [State.setEvent_other _ hk]
  calls := h.calls

end SameMaps

/-! ## The handlers that do not map -/

theorem closeFor_same (fd : Int) : SameMaps s (closeFor fd s) := by
  have htouch := (SameMaps.refl s).touch .event fd
  unfold closeFor
  dsimp only
  split
  · exact htouch
  · exact ((htouch.hand _ _).issue _).setRemap _ _

theorem closeEvent_same : SameMaps s (closeEvent line s) := by
  unfold closeEvent
  split
  · exact closeFor_same _
  · exact .refl s

theorem ioctlAs_same (fd request arg : Int) : SameMaps s (ioctlAs fd request arg s) := by
  have htouch := (SameMaps.refl s).touch .event fd
  unfold ioctlAs ioctlFor
  dsimp only
  split_ifs
  · exact (htouch.hand _ _).issue _
  · exact (((htouch.touch _ _).hand _ _).hand _ _).issue _
  · exact (htouch.hand _ _).issue _
  · exact (htouch.hand _ _).issue _
  · exact (htouch.hand _ _).issue _

theorem readFor_same (fd size : Int) : SameMaps s (readFor fd size s) := by
  unfold readFor
  dsimp only
  split
  · exact .refl s
  · exact ((((SameMaps.refl s).touch _ _).hand _ _).access _).issue _

theorem overflowFor_same (fd : Int) : SameMaps s (overflowFor fd s) := by
  have hfor : ∀ {s' : State} command, SameMaps s s' → SameMaps s (fcntlFor fd command s') :=
    fun command h => (h.hand _ _).issue _
  simp only [overflowFor, overflowCommands, List.foldl_cons, List.foldl_nil]
  exact hfor _ (hfor _ (hfor _ (((SameMaps.refl s).issue _).touch _ _)))

theorem accessAs_same (type which size : Int) : SameMaps s (accessAs e type which size s) := by
  have hopen := ((SameMaps.refl s).touch .filenames which).issue (.fopen which (type ≠ 0))
  unfold accessAs accessFile
  dsimp only
  split_ifs
  · exact ⟨rfl, fun _ => rfl, fun _ => rfl, le_rfl⟩
  · exact hopen
  · exact ((hopen.access _).issue _).issue _
  · exact (hopen.issue _).issue _

theorem storeCpus_same (texts : List Str) (i : Nat) (h : SameMaps s s') :
    SameMaps s (storeCpus i texts s') := by
  induction texts generalizing i s' with
  | nil => exact h
  | cons t ts ih => exact ih _ (h.touch _ _)

theorem touchMask_same (cpu : Int) (setSize : Nat) (h : SameMaps s s') :
    SameMaps s (touchMask cpu setSize s') :=
  touchMask_elim (P := SameMaps s) cpu setSize h fun word => h.touch .cpuMask word

theorem readCpus_same (cpus : Int → Int) (n j : Nat) (mask : Nat → Bool) (h : SameMaps s s') :
    SameMaps s (readCpus cpus n j mask s').2 := by
  induction n generalizing j mask s' with
  | zero => exact h
  | succ n ih => exact ih _ _ (touchMask_same _ _ (h.touch _ _))

theorem affinityAs_same (texts : List Str) (mask : Nat → Bool) :
    SameMaps s (affinityAs e texts mask s) := by
  rcases texts with _ | ⟨letter, _ | ⟨which, _ | ⟨num, texts⟩⟩⟩
  · exact .refl s
  · exact .refl s
  · exact .refl s
  · have hmask : ∀ cpus, SameMaps s
        (affinityMask (atoi which) (atoi num) cpus mask (storeCpus 0 texts s)).2 := by
      intro cpus
      have hstore := storeCpus_same texts 0 (SameMaps.refl s)
      unfold affinityMask
      split_ifs
      · exact touchMask_same _ _ (hstore.touch _ _)
      · exact readCpus_same _ _ _ _ hstore
      · exact hstore
    have hissue := (hmask (cpuArray texts (e.stack (storeCpus 0 texts s).lineNum))).issue
      (.schedSetaffinity (affinityMask (atoi which) (atoi num)
        (cpuArray texts (e.stack (storeCpus 0 texts s).lineNum)) mask (storeCpus 0 texts s)).1)
    exact ⟨hissue.1, hissue.2, hissue.3, hissue.4⟩

theorem affinityThenClose_same : SameMaps s (affinityThenClose e line s) := by
  have hfirst : SameMaps s (if e.which .affinity then affinityEvent e line s else (line, s)).2 := by
    split
    · unfold affinityEvent
      cases s.cpuMask <|> e.cpuAlloc with
      | none => exact .refl s
      | some mask =>
        have h := affinityAs_same (e := e) (s := { s with cpuMask := some mask })
          (tokens isBlankOrNewline line) mask
        exact ⟨h.1, h.2, h.3, h.4⟩
    · exact .refl s
  unfold affinityThenClose replayAs
  dsimp only
  split
  · exact hfirst.trans closeEvent_same
  · exact hfirst

theorem pollEntries_same (n : Nat) : ∀ (i : Nat) (texts : List Str) {s' : State}, SameMaps s s' →
    SameMaps s (pollEntries n i texts s').2.2 := by
  induction n with
  | zero => exact fun _ _ _ h => h
  | succ n ih =>
    rintro i (_ | ⟨fd, _ | ⟨events, texts⟩⟩) s' h
    · exact h
    · exact (h.touch _ _).hand _ _
    · exact ih _ _ ((h.touch _ _).hand _ _)

theorem pollAs_same (num : Int) (texts : List Str) : SameMaps s (pollAs num texts s) :=
  ((pollEntries_same _ _ _ (.refl s)).access _).issue _

theorem forkEvent_same : SameMaps s (forkEvent e line s) := by
  unfold forkEvent
  split
  · have h := (SameMaps.refl s).issue .fork
    exact ⟨h.1, h.2, h.3, h.4⟩
  · exact ((SameMaps.refl s).issue _).issue _

theorem trashIfOpen_same (fd value size : Int) : SameMaps s (trashIfOpen fd value size s) := by
  have htouch := (SameMaps.refl s).touch .event fd
  unfold trashIfOpen trashRegion
  dsimp only
  split
  · exact htouch
  · split
    · exact htouch
    · exact htouch
    · exact (htouch.access _).memset _

theorem ourHandler_same (fd : Int) : SameMaps s (ourHandler fd s) := by
  unfold ourHandler throttleOverflow
  dsimp only
  have hcount := (((SameMaps.refl s).issue (.ioctl fd perfEventIocDisable (.value 0))).touch
    .fdOverflows fd).setOverflows fd (s.fdOverflows fd + 1)
  split_ifs
  · exact ((((((hcount.touch _ _).setThrottles _ _).setOverflows _ _).issue _).touch _ _).setRemap
      _ _)
  · exact ((hcount.touch _ _).setThrottles _ _).setOverflows _ _
  · exact hcount.issue _

/-! ## The handlers that map, unmap and open -/

/-- An entry is cleared together with the mapping that it records, if there is one. -/
theorem Booked.clear {fd : Int} (hs : Booked s) (hmem : ∀ h, h ∈ s'.held ↔ h ∈ s.held ∧ h.fd ≠ fd)
    (hself : ¬(s'.event fd).mmapRemap.IsMapped) (hother : ∀ k, k ≠ fd → s'.event k = s.event k)
    (hcalls : s.calls.length ≤ s'.calls.length) : Booked s' := by
  have hne : ∀ {k call length}, (s'.event k).mmapRemap = .mapped call length → k ≠ fd := by
    rintro k call length hregion rfl
    rw [hregion] at hself
    exact hself trivial
  refine ⟨fun h hh => ?_, fun k call length hk hregion => ?_, fun k call length hk hregion => ?_,
    fun h hh h' hh' => ?_, fun h hh => ?_⟩
  · obtain ⟨hh, hfd⟩ := (hmem h).1 hh
    rw [hother _ hfd]
    exact hs.recorded h hh
  · have hkfd := hne hregion
    rw [hother _ hkfd] at hregion
    exact (hmem _).2 ⟨hs.held k call length hk hregion, hkfd⟩
  · have hkfd := hne hregion
    rw [hother _ hkfd] at hregion ⊢
    exact hs.size k call length hk hregion
  · exact hs.unique h ((hmem h).1 hh).1 h' ((hmem h').1 hh').1
  · exact (hs.older h ((hmem h).1 hh).1).trans_le hcalls

/-- A descriptor whose entry records nothing has no mapping. -/
theorem Booked.fd_ne {fd : Int} (hs : Booked s) (hfree : ¬(s.event fd).mmapRemap.IsMapped)
    (h : Held) (hh : h ∈ s.held) : h.fd ≠ fd := by
  rintro rfl
  rw [(hs.recorded h hh).2] at hfree
  exact hfree trivial

/-- A mapping is entered where nothing is recorded, under the number of the next call. -/
theorem Booked.add {fd length : Int} (hs : Booked s) (hin : InRemap fd)
    (hfree : ¬(s.event fd).mmapRemap.IsMapped)
    (hheld : s'.held = s.held ++ [⟨s.calls.length, fd, length⟩])
    (hregion : (s'.event fd).mmapRemap = .mapped s.calls.length length)
    (hsize : (s'.event fd).size = length) (hother : ∀ k, k ≠ fd → s'.event k = s.event k)
    (hcalls : s.calls.length < s'.calls.length) : Booked s' := by
  have hmem : ∀ h, h ∈ s'.held ↔ h ∈ s.held ∨ h = ⟨s.calls.length, fd, length⟩ := by
    intro h
    rw [hheld, List.mem_append, List.mem_singleton]
  refine ⟨fun h hh => ?_, fun k call len hk hrec => ?_, fun k call len hk hrec => ?_,
    fun h hh h' hh' heq => ?_, fun h hh => ?_⟩
  · obtain hh | rfl := (hmem h).1 hh
    · rw [hother _ (hs.fd_ne hfree h hh)]
      exact hs.recorded h hh
    · exact ⟨hin, hregion⟩
  · by_cases hkfd : k = fd
    · subst hkfd
      rw [hregion] at hrec
      cases hrec
      exact (hmem _).2 (.inr rfl)
    · rw [hother _ hkfd] at hrec
      exact (hmem _).2 (.inl (hs.held k call len hk hrec))
  · by_cases hkfd : k = fd
    · subst hkfd
      rw [hregion] at hrec
      cases hrec
      exact hsize
    · rw [hother _ hkfd] at hrec ⊢
      exact hs.size k call len hk hrec
  · -- The number of the new call is that of no mapping made before.
    obtain hh | rfl := (hmem h).1 hh <;> obtain hh' | rfl := (hmem h').1 hh'
    · exact hs.unique h hh h' hh' heq
    · exact absurd heq (hs.older h hh).ne
    · exact absurd heq.symm (hs.older h' hh').ne
    · rfl
  · obtain hh | rfl := (hmem h).1 hh
    · exact (hs.older h hh).trans hcalls
    · exact hcalls

theorem length_issue (c : Call) : (s.issue c).calls.length = s.calls.length + 1 :=
  List.length_append

/-- A mapping is made for a descriptor that has none, or the call fails. -/
theorem mapFor_booked {fd length : Int} (hs : Booked s) (hin : InRemap fd)
    (hfree : ¬(s.event fd).mmapRemap.IsMapped) : Booked (mapFor e fd length s) := by
  unfold mapFor
  dsimp only
  split
  · refine Booked.clear hs (fun h => ⟨fun hh => ⟨hh, hs.fd_ne hfree h hh⟩, And.left⟩) ?_
      (fun k hk => ?_) ?_
    · rw [State.event_issue, State.event_hand, State.setEvent_self]
      exact id
    · rw [State.event_issue, State.event_hand, State.setEvent_other _ hk]
    · rw [length_issue]
      exact Nat.le_succ _
  · refine hs.add hin hfree rfl ?_ ?_ (fun k hk => ?_) ?_
    · rw [State.event_hold, State.setEvent_self]
      rfl
    · rw [State.event_hold, State.setEvent_self]
    · rw [State.event_hold, State.setEvent_other _ hk, State.event_issue, State.event_hand,
        State.setEvent_other _ hk]
    · exact (Nat.lt_succ_self _).trans_eq (length_issue _).symm

theorem mmapIfOpen_booked {fd length : Int} (hs : Booked s) (hfree : MapFree fd s) :
    Booked (mmapIfOpen e fd length s) := by
  have htouch := ((SameMaps.refl s).touch .event fd).booked hs
  unfold mmapIfOpen
  dsimp only
  split
  case isTrue => exact htouch
  case isFalse hopen =>
    obtain hclosed | ⟨hin, hfree⟩ := hfree
    · exact absurd hclosed hopen
    · exact mapFor_booked htouch hin hfree

theorem unmap_released {call : Nat} {length size : Int} {t : State} (ht : 0 ≤ e.next t) :
    unmap e (.mapped call length) size t =
      (t.issue (.munmap (.mapped call length) size)).release call :=
  if_neg ht.not_gt

theorem munmapIfOpen_booked {fd size : Int} (hs : Booked s) (hfree : UnmapFree fd size (e.next s) s) :
    Booked (munmapIfOpen e fd size s) := by
  obtain ⟨hin, hfree⟩ := hfree
  have hcleared : ∀ k, k ≠ fd → (((s.touch .event fd).setEvent fd fun ev =>
      { ev with mmapRemap := .failed }).event k) = s.event k := by
    intro k hk
    rw [State.setEvent_other _ hk, State.event_touch]
  have hself : ¬(((s.touch .event fd).setEvent fd fun ev =>
      { ev with mmapRemap := .failed }).event fd).mmapRemap.IsMapped := by
    rw [State.setEvent_self]
    exact id
  -- Without a mapping nothing is lost, whatever is passed to the kernel.
  have hempty : ¬(s.event fd).mmapRemap.IsMapped → Booked ((s.touch .event fd).setEvent fd
      fun ev => { ev with mmapRemap := .failed }) := fun hnone =>
    hs.clear (fun h => ⟨fun hh => ⟨hh, hs.fd_ne hnone h hh⟩, And.left⟩) hself hcleared le_rfl
  unfold munmapIfOpen
  dsimp only
  split
  case isTrue => exact ((SameMaps.refl s).touch .event fd).booked hs
  case isFalse hopen =>
    rw [State.event_touch] at hopen ⊢
    rw [if_neg hopen] at hfree
    split
    case isTrue hsize => exact hempty fun hmapped => hsize (hfree hmapped).1
    case isFalse =>
      cases hregion : (s.event fd).mmapRemap with
      | failed =>
        rw [if_pos rfl]
        exact hempty (hregion ▸ id)
      | null =>
        rw [if_neg Region.noConfusion]
        exact ((SameMaps.refl _).issue _).booked (hempty (hregion ▸ id))
      | mapped call length =>
        rw [hregion] at hfree
        rw [if_neg Region.noConfusion, unmap_released (e := e)
          (t := (s.touch .event fd).setEvent fd _) (hfree trivial).2]
        have hheld := hs.held fd call length hin hregion
        refine hs.clear (fun h => ?_) hself hcleared ?_
        · refine List.mem_filter.trans (and_congr_right fun hh => decide_eq_true_iff.trans
            (not_congr ⟨fun heq => ?_, fun heq => ?_⟩))
          · exact congrArg Held.fd (hs.unique h hh _ hheld heq)
          · have hrec := (hs.recorded h hh).2
            rw [heq, hregion] at hrec
            cases hrec
            rfl
        · exact (Nat.le_succ _).trans_eq (length_issue _).symm

/-- A mapping with the descriptor and the size of the line is passed to the kernel. -/
theorem munmapIfOpen_undoes {fd size : Int} (hs : Booked s)
    (hfree : UnmapFree fd size (e.next s) s) (h : Held) (hh : h ∈ s.held) (hfd : h.fd = fd)
    (hsize : h.length = size) :
    .munmap (.mapped h.call h.length) size ∈ (munmapIfOpen e fd size s).calls.drop
      s.calls.length := by
  subst hfd hsize
  obtain ⟨hin, hregion⟩ := hs.recorded h hh
  have hentry := hs.size _ _ _ hin hregion
  have hmapped : (s.event h.fd).mmapRemap.IsMapped := hregion ▸ trivial
  have hfree := hfree.2 hmapped
  have hopen : (s.event h.fd).fdRemap ≠ -1 := by
    intro hclosed
    rw [if_pos hclosed] at hfree
    exact hfree hentry
  rw [if_neg hopen] at hfree
  unfold munmapIfOpen
  dsimp only
  rw [State.event_touch, if_neg hopen, if_neg (not_not.2 hentry), hregion,
    if_neg Region.noConfusion, unmap_released (e := e)
      (t := (s.touch .event h.fd).setEvent h.fd _) hfree.2]
  change _ ∈ (s.calls ++ [_]).drop s.calls.length
  rw [List.drop_left]
  exact List.mem_singleton_self _

theorem recordOpen_booked {recorded fd : Int} (hs : Booked s) (hfree : recorded > fdRemapSize ∨
    InRemap recorded ∧ ¬(s.event recorded).mmapRemap.IsMapped) :
    Booked (recordOpen recorded fd s) := by
  unfold recordOpen
  dsimp only
  split
  case isTrue => exact hs
  case isFalse hle =>
    obtain hgt | ⟨hin, hfree⟩ := hfree
    · exact absurd hgt hle
    · have hclear : Booked ((s.touch .event recorded).setEvent recorded fun ev =>
          { ev with fdRemap := fd, mmapRemap := .failed }) := by
        refine hs.clear (fun h => ⟨fun hh => ⟨hh, hs.fd_ne hfree h hh⟩, And.left⟩) ?_
          (fun k hk => ?_) le_rfl
        · rw [State.setEvent_self]
          exact id
        · rw [State.setEvent_other _ hk, State.event_touch]
      split
      · exact hclear
      · exact (((((SameMaps.refl _).touch _ _).setOverflows _ _).touch _ _).setThrottles _ _).booked
          hclear

theorem remapGroup_same (groupFd : Int) : SameMaps s (remapGroup groupFd s).2 := by
  unfold remapGroup
  split
  · exact .refl s
  · exact ((SameMaps.refl s).touch _ _).hand _ _

@[simp] theorem calls_remapGroup (groupFd : Int) (s : State) :
    (remapGroup groupFd s).2.calls = s.calls := by
  unfold remapGroup
  split <;> rfl

theorem openAs_booked {o : OpenVars} (hs : Booked s) (hfree : OpenFree o.fd.toInt (e.next s) s) :
    Booked (openAs e o s) := by
  have hnext : e.next (remapGroup o.groupFd.toInt s).2 = e.next s := by
    rw [Env.next, calls_remapGroup, Env.next]
  unfold openAs
  dsimp only
  rw [hnext]
  have hsame : SameMaps s (((remapGroup o.groupFd.toInt s).2.issue (.perfEventOpen o.pe
      (if o.pid.toInt = s.originalPid then e.ownPid else o.pid.toInt) o.cpu.toInt
      (remapGroup o.groupFd.toInt s).1 o.flags))) := (remapGroup_same _).issue _
  split
  case isTrue => exact hsame.booked hs
  case isFalse hpos =>
    have hopened := hsame.setOpened o.fd.toInt (e.next s)
    refine recordOpen_booked (hopened.booked hs) ?_
    rw [hopened.region]
    exact hfree.resolve_left hpos

/-! ## Steps and runs -/

theorem replayAs_booked {kind : Kind} {handler : State → State} (hs : Booked s)
    (hhandler : e.which kind → Booked (handler s)) : Booked (replayAs e kind handler s) := by
  unfold replayAs
  split
  case isTrue hwhich => exact hhandler hwhich
  case isFalse => exact hs

theorem runCommand_booked (hs : Booked s) (c : Command) (hc : CommandTracked e line s c) :
    Booked (runCommand e line s c) := by
  cases c with
  | access => exact replayAs_booked hs fun _ => (accessAs_same _ _ _).booked hs
  | affinity => exact affinityThenClose_same.booked hs
  | close => exact replayAs_booked hs fun _ => closeEvent_same.booked hs
  | fork => exact replayAs_booked hs fun _ => forkEvent_same.booked hs
  | ioctl => exact replayAs_booked hs fun _ => (ioctlAs_same _ _ _).booked hs
  | mmap => exact replayAs_booked hs fun hwhich => mmapIfOpen_booked hs (hc hwhich)
  | «open» => exact replayAs_booked hs fun hwhich => openAs_booked hs (hc hwhich)
  | overflow => exact replayAs_booked hs fun _ => (overflowFor_same _).booked hs
  | prctl => exact replayAs_booked hs fun _ => ((SameMaps.refl s).issue _).booked hs
  | poll => exact replayAs_booked hs fun _ => (pollAs_same _ _).booked hs
  | trash => exact replayAs_booked hs fun _ => (trashIfOpen_same _ _ _).booked hs
  | read => exact replayAs_booked hs fun _ => (readFor_same _ _).booked hs
  | munmap => exact replayAs_booked hs fun hwhich => munmapIfOpen_booked hs (hc hwhich)
  | pid =>
    have hsame : SameMaps s (runCommand e line s .pid) := ⟨rfl, fun _ => rfl, fun _ => rfl, le_rfl⟩
    exact hsame.booked hs
  | quit =>
    have hsame : SameMaps s (runCommand e line s .quit) := ⟨rfl, fun _ => rfl, fun _ => rfl, le_rfl⟩
    exact hsame.booked hs
  | other => exact hs

theorem countLine_same : SameMaps s (countLine e s) := by
  unfold countLine
  dsimp only
  split <;> exact ⟨rfl, fun _ => rfl, fun _ => rfl, le_rfl⟩

theorem step_booked (h : Happening) (hs : Booked s) (hh : Tracked e h s) : Booked (step e s h) := by
  unfold step
  split
  case isFalse => exact hs
  case isTrue hrunning =>
    cases h with
    | signal fd => exact (ourHandler_same fd).booked hs
    | line text =>
      have hcount : SameMaps s { s with lineNum := s.lineNum + 1 } :=
        ⟨rfl, fun _ => rfl, fun _ => rfl, le_rfl⟩
      unfold replayLine
      dsimp only
      split
      case isTrue => exact hcount.booked hs
      case isFalse hskip =>
        have hdispatch := runCommand_booked (hcount.booked hs) _ (hh hrunning hskip)
        split
        · exact countLine_same.booked hdispatch
        · exact hdispatch

theorem startState_booked (e : Env) : Booked (startState e) where
  recorded _ hh := nomatch hh
  held fd call length hin hregion := by
    rw [show (startState e).event fd = {} from if_pos hin] at hregion
    cases hregion
  size fd call length hin hregion := by
    rw [show (startState e).event fd = {} from if_pos hin] at hregion
    cases hregion
  unique _ hh := nomatch hh
  older _ hh := nomatch hh

/-- A step that meets the condition keeps track. -/
theorem step_keepsTrack (h : Happening) (hs : Booked s) (hh : Tracked e h s) :
    KeepsTrack e h s := by
  refine ⟨(step_booked h hs hh).exact, ?_⟩
  cases h with
  | signal fd => exact trivial
  | line text =>
    intro hrunning hskip hcommand hwhich
    have hfree : CommandTracked e _ _ _ := hh hrunning hskip
    rw [hcommand] at hfree
    have hcount : SameMaps s { s with lineNum := s.lineNum + 1 } :=
      ⟨rfl, fun _ => rfl, fun _ => rfl, le_rfl⟩
    exact munmapIfOpen_undoes (hcount.booked hs) (hfree hwhich)

/-- A replay all of whose lines map, open and unmap with one mapping for a descriptor keeps exact
track of its mappings. -/
theorem replay_keeps_track (e : Env) (hs : List Happening)
    (h : Throughout (step e) (Tracked e) (startState e) hs) :
    Throughout (step e) (KeepsTrack e) (startState e) hs :=
  throughout_of_invariant (fun _ a hs ha => ⟨step_booked a hs ha, step_keepsTrack a hs ha⟩)
    (startState_booked e) h

/-- The system calls of a log that opens one event and maps it. -/
def oneEventEnv : Env := zeroEnv fun n => if n = 0 then 3 else 4096

theorem replay_keeps_track_one : Throughout (step oneEventEnv) (KeepsTrack oneEventEnv)
    (startState oneEventEnv) [.line "O 5\n".toList, .line "M 4096 5 0\n".toList,
      .line "U 5 4096\n".toList, .line "C 5\n".toList] := by
  refine replay_keeps_track _ _ ⟨fun _ _ _ => .inr (.inr ?_), fun _ _ _ => .inr ?_,
    fun _ _ _ => ⟨?_, fun _ => ?_⟩, fun _ _ => trivial, trivial⟩
  · decide +kernel
  · decide +kernel
  · decide +kernel
  · decide +kernel

/-- A mapping whose descriptor has been closed before is not unmapped. -/
theorem replay_close_before_munmap : ¬Throughout (step oneEventEnv) (KeepsTrack oneEventEnv)
    (startState oneEventEnv) [.line "O 5\n".toList, .line "M 4096 5 0\n".toList,
      .line "C 5\n".toList, .line "U 5 4096\n".toList] := by
  rintro ⟨-, -, -, ⟨-, hundoes⟩, -⟩
  have hmem := hundoes (by decide +kernel) (by decide +kernel) (by decide +kernel) rfl ⟨1, 5, 4096⟩
    (by decide +kernel) (by decide +kernel) (by decide +kernel)
  exact List.not_mem_nil hmem

end PerfEvent.Replay
