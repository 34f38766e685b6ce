import PerfEventTests.PerfData.Create

/-!
# Where the sections are written

Every section is written at the place of its table entry, while the entry names the place behind
the table. So an entry names bytes that nobody has written, unless the section is empty.
-/

namespace PerfEvent.PerfData

open ByteMemory Draws

/-! ## Written cells -/

namespace Written

variable {f : Written} {a b : Nat} {bs cs : Bytes}

theorem write_cells_of_lt {x : Nat} (h : x < f.pos) : (f.write bs).cells x = f.cells x :=
  if_neg (by omega)

theorem write_cells_of_ge {x : Nat} (h : f.pos + bs.length ≤ x) :
    (f.write bs).cells x = f.cells x :=
  if_neg (by omega)

theorem write_holds : (f.write bs).Holds f.pos bs := by
  intro k hk
  show (if f.pos ≤ f.pos + k ∧ f.pos + k < f.pos + bs.length then bs[f.pos + k - f.pos]? else _) = _
  rw [if_pos (by omega), Nat.add_sub_cancel_left]

/-- A write leaves what does not meet it. -/
theorem Holds.write (h : f.Holds a bs) (hapart : a + bs.length ≤ f.pos ∨ f.pos + cs.length ≤ a) :
    (f.write cs).Holds a bs := by
  intro k hk
  rw [← h k hk]
  rcases hapart with hapart | hapart
  · exact write_cells_of_lt (by omega)
  · exact write_cells_of_ge (by omega)

theorem Holds.seek (h : f.Holds a bs) (pos : Nat) : (f.seek pos).Holds a bs := h

/-- A cell is written by the last write or by an earlier one. -/
theorem write_cells_ne {x : Nat} (h : (f.write bs).cells x ≠ none) :
    (f.pos ≤ x ∧ x < f.pos + bs.length) ∨ f.cells x ≠ none := by
  by_cases hx : f.pos ≤ x ∧ x < f.pos + bs.length
  · exact .inl hx
  · exact .inr fun hnone => h ((if_neg hx).trans hnone)

/-- The same place cannot hold two strings of one length. -/
theorem Holds.eq (h : f.Holds a bs) (h' : f.Holds a cs) (hlen : bs.length = cs.length) :
    bs = cs := by
  refine List.ext_getElem? fun k => ?_
  by_cases hk : k < bs.length
  · rw [← h k hk, ← h' k (by omega)]
  · rw [List.getElem?_eq_none (by omega), List.getElem?_eq_none (by omega)]

end Written

/-! ## Entries -/

theorem FileSection.encode_inj {s t : FileSection} (h : s.encode = t.encode) : s = t := by
  obtain ⟨ho, hs⟩ := List.append_inj h (by simp)
  have hword : ∀ {v w : UInt64}, u64 v = u64 w → v = w := by
    intro v w hvw
    have := congrArg ofLe hvw
    rw [u64, u64, ofLe_le_of_lt v.toNat_lt, ofLe_le_of_lt w.toNat_lt] at this
    exact UInt64.toNat_inj.1 this
  cases s
  cases t
  exact congrArg₂ FileSection.mk (hword ho) (hword hs)

/-- The number of bytes of some sections. -/
def total (gs : List Generated) : Nat := (gs.map fun g => g.payload.length).sum

theorem total_append (gs : List Generated) (g : Generated) :
    total (gs ++ [g]) = total gs + g.payload.length := by
  simp [total]

/-! ## Sizes of the sections -/

section Sizes

variable {env : CreateEnv}

theorem randBytes_length (n : Nat) : Always (randBytes n) fun bs => bs.length = n := by
  induction n with
  | zero => exact always_pure rfl
  | succ n ih =>
    refine always_bind_any fun b => always_bind ih fun bs h => always_pure ?_
    rw [List.length_cons, h]

theorem randomString_length (dest : Bytes) (size : Nat) :
    Always (randomString env dest size) fun bs => bs.length ≤ size + dest.length := by
  refine always_bind_any fun _ => always_ite (fun _ => always_pure (by omega)) fun hne => ?_
  have hlength : Always (stringLength size) fun length => length ≤ size :=
    always_bind_any fun r => always_ite (fun _ => always_bind_any fun r => always_pure
      (Nat.le_of_lt (Nat.mod_lt _ (Nat.pos_of_ne_zero hne)))) fun _ => always_pure (le_refl _)
  refine always_bind_any fun offset => ?_
  refine always_bind hlength fun length hle => always_bind_any fun page => always_bind_any fun r => ?_
  refine always_pure ?_
  rw [List.length_append, List.length_drop]
  have hstring : (if r % 16 = 0 ∨ length = 0 then
      (List.range length).map fun i => page (offset % (16384 - size) + i)
      else ((List.range length).map fun i => page (offset % (16384 - size) + i)).take (length - 1) ++
        [0]).length ≤ length := by
    split
    · rw [List.length_map, List.length_range]
    · rw [List.length_append, List.length_take, List.length_map, List.length_range]
      have : ([0] : Bytes).length = 1 := rfl
      omega
  omega

/-- A section is far smaller than a file may be. -/
theorem createFlagSection_length (which : Nat) :
    Always (createFlagSection env which) fun bs => bs.length < 2 ^ 32 := by
  have hstring : Always (createFlagSectionString env) fun bs => bs.length < 2 ^ 32 := by
    refine always_bind_any fun r => ?_
    split
    · exact always_pure (by decide)
    · refine always_bind_any fun len => always_bind (randBytes_length _) fun bs hbs =>
        always_bind_any fun r => always_pure ?_
      rw [List.length_append, length_le, hbs]
      omega
    · refine always_bind_any fun len => always_bind (randomString_length _ _) fun bs hbs =>
        always_pure ?_
      rw [List.length_map, List.length_range] at hbs
      rw [List.length_append, List.length_map, List.length_range]
      omega
    · refine always_bind_any fun len => always_bind (randBytes_length _) fun bs hbs =>
        always_pure ?_
      rw [List.length_append, length_le, hbs]
      omega
  unfold createFlagSection Generator.run
  cases generator which with
  | random =>
    refine always_bind_any fun len => fun answers => ?_
    rw [randBytes_length _ answers]
    omega
  | buildId =>
    refine always_bind_any fun pid => always_bind_any fun id => always_bind_any fun filename =>
      always_bind_any fun len => always_pure ?_
    rw [List.length_take]
    omega
  | string => exact hstring
  | nrcpus =>
    refine always_bind_any fun available => always_bind_any fun online => always_pure ?_
    rw [List.length_append, length_u32, length_u32]
    omega
  | u64 =>
    refine always_bind_any fun r => ?_
    split
    · exact always_bind_any fun v => always_pure (by rw [length_u64]; omega)
    · exact always_pure (by rw [length_u64]; omega)
    · exact always_bind_any fun v => always_pure (by rw [length_u64]; omega)
  | stringList => exact hstring

end Sizes

/-! ## The loop -/

/-- After `i` rounds, with the header written up to `header` and `base` behind the table. -/
structure Laid (header base i : Nat) (s : FlagState) : Prop where
  pos : s.file.pos = tableOffset + sectionSize * i
  count : s.generated.length = i
  which : ∀ (k : Nat) (g : Generated), s.generated[k]? = some g → g.which = k
  small : ∀ g ∈ s.generated, g.payload.length < 2 ^ 32
  offset : s.sectionOffset = base + total s.generated
  stored : ∀ (k : Nat) (g : Generated), s.generated[k]? = some g → s.file.Holds (tableOffset + sectionSize * k)
    (FileSection.encode ⟨UInt64.ofNat (base + total (s.generated.take k)),
      UInt64.ofNat g.payload.length⟩)
  /-- behind the table only what precedes the last entry's length of the sections is written -/
  bound : ∀ x, s.file.cells x ≠ none → x < header ∨ x < tableOffset + sectionSize * i ∨
    x + sectionSize < tableOffset + sectionSize * i + total s.generated

section Loop

variable {env : CreateEnv} {header base : Nat}

/-- An element of a list with one more at its end. -/
theorem getElem?_append_singleton {gs : List Generated} {g g' : Generated} {k : Nat}
    (h : (gs ++ [g])[k]? = some g') : gs[k]? = some g' ∨ (k = gs.length ∧ g' = g) := by
  by_cases hk : k < gs.length
  · rw [List.getElem?_append_left hk] at h
    exact .inl h
  · rw [List.getElem?_append_right (by omega)] at h
    obtain ⟨h0, hg⟩ := List.getElem?_eq_some_iff.1 h
    rw [List.length_singleton] at h0
    have hkey : k - gs.length = 0 := by omega
    simp only [hkey, List.getElem_cons_zero] at hg
    exact .inr ⟨by omega, hg.symm⟩

theorem createEntry_laid {i : Nat} {s : FlagState} (h : Laid header base i s) :
    Always (createEntry env i s) (Laid header base (i + 1)) := by
  refine always_bind (createFlagSection_length i) fun payload hsmall => always_pure ?_
  have hpos := h.pos
  have hcount := h.count
  have hsize : sectionSize = 16 := rfl
  have hlen : ∀ e : FileSection, e.encode.length = 16 := fun e => e.length_encode
  refine ⟨?_, ?_, fun k g hg => ?_, fun g hg => ?_, ?_, fun k g hg => ?_, fun x hx => ?_⟩
  · show s.file.pos + (FileSection.encode _).length = _
    rw [hlen, hpos, hsize]
    omega
  · rw [List.length_append, hcount, List.length_singleton]
  · rcases getElem?_append_singleton hg with hg | ⟨hk, rfl⟩
    · exact h.which k g hg
    · exact hcount.symm.trans hk.symm
  · rcases List.mem_append.1 hg with hg | hg
    · exact h.small g hg
    · rcases List.mem_singleton.1 hg with rfl
      exact hsmall
  · show s.sectionOffset + payload.length = _
    rw [h.offset, total_append, Nat.add_assoc]
  · rcases getElem?_append_singleton hg with hg | ⟨hk, rfl⟩
    · have hk : k < s.generated.length := (List.getElem?_eq_some_iff.1 hg).1
      have hbefore : tableOffset + sectionSize * k + 16 ≤ s.file.pos := by
        rw [hpos, hsize]
        omega
      show (Written.write _ _).Holds _ _
      rw [List.take_append_of_le_length (by omega)]
      exact (((h.stored k g hg).write (.inl (by rw [hlen]; exact hbefore))).seek _).write
        (.inl (by rw [hlen]; exact hbefore))
    · show (Written.write _ _).Holds _ _
      rw [hk, List.take_left, hcount, ← hpos, ← h.offset]
      exact Written.write_holds
  · show x < header ∨ x < tableOffset + sectionSize * (i + 1) ∨
      x + sectionSize < tableOffset + sectionSize * (i + 1) + total (s.generated ++ [_])
    rw [total_append, hsize]
    rcases Written.write_cells_ne hx with ⟨-, hlt⟩ | hx
    · rw [hlen] at hlt
      have hat : s.file.pos + 16 = tableOffset + 16 * (i + 1) := by
        rw [hpos, hsize]
        omega
      exact .inr (.inl (hat ▸ hlt))
    · rcases Written.write_cells_ne (f := s.file) hx with ⟨-, hlt⟩ | hx
      · rw [hpos, hsize] at hlt
        right; right
        show x + 16 < tableOffset + 16 * (i + 1) + (total s.generated + payload.length)
        omega
      · rcases h.bound x hx with hlt | hlt | hlt
        · exact .inl hlt
        · rw [hsize] at hlt
          exact .inr (.inl (by omega))
        · rw [hsize] at hlt
          right; right
          show x + 16 < tableOffset + 16 * (i + 1) + (total s.generated + payload.length)
          omega

theorem createEntries_laid {n i : Nat} {s : FlagState} (h : Laid header base i s) :
    Always (createEntries env n i s) (Laid header base (i + n)) := by
  induction n generalizing i s with
  | zero => exact always_pure h
  | succ n ih =>
    refine always_bind (createEntry_laid h) fun s' hs' => ?_
    have := ih hs'
    rwa [Nat.add_assoc, Nat.add_comm 1 n] at this

end Loop

/-! ## The file -/

section File

variable {env : CreateEnv}

theorem headerBytes_length (ph : PerfHeader) (n : Nat) : (headerBytes env ph n).length = n := by
  rw [headerBytes, List.length_take, List.length_append, List.length_map, List.length_range]
  omega

/-- What a file is like when the header is written for the second time. -/
theorem createPerfDataFile_laid (ph : PerfHeader) :
    Always (createPerfDataFile env ph) fun c => ∃ s bytes,
      Laid c.headerWrittenSize (tableOffset + weight c.ph.flags * sectionSize)
        (weight c.ph.flags) s ∧
      bytes.length = c.headerWrittenSize ∧ c.file = (s.file.seek 0).write bytes ∧
      c.generated = s.generated := by
  refine always_bind_any fun ph => always_bind_any fun n => ?_
  refine always_bind (randBytes_length 128) fun attrs hattrs =>
    always_bind (randBytes_length 1576) fun data hdata => ?_
  have hpos : (((((({} : Written).write (headerBytes env ph n)).seek 168).write attrs).write
      data)).pos = tableOffset := by
    show 168 + attrs.length + data.length = _
    rw [hattrs, hdata]
    rfl
  refine always_bind (P := Laid n (tableOffset + weight ph.flags * sectionSize)
    (0 + weight ph.flags)) (createEntries_laid ?_) fun s hs => always_pure ?_
  · refine ⟨hpos, rfl, fun k g hg => (nomatch hg), fun g hg => (nomatch hg), ?_,
      fun k g hg => (nomatch hg), fun x hx => ?_⟩
    · show Written.pos _ + weight ph.flags * sectionSize = _
      rw [hpos]
      rfl
    · have hend : (((({} : Written).write (headerBytes env ph n)).seek 168).write attrs).pos = 296 := by
        show 168 + attrs.length = _
        rw [hattrs]
      have htable : tableOffset = 1872 := rfl
      rcases Written.write_cells_ne hx with ⟨-, hlt⟩ | hx
      · rw [hend, hdata] at hlt
        omega
      · rcases Written.write_cells_ne hx with ⟨-, hlt⟩ | hx
        · have : (168 : Nat) + attrs.length = 296 := by rw [hattrs]
          have hlt' : x < 168 + attrs.length := hlt
          omega
        · rcases Written.write_cells_ne (f := {}) hx with ⟨-, hlt⟩ | hx
          · have hlt' : x < 0 + (headerBytes env ph n).length := hlt
            rw [headerBytes_length] at hlt'
            omega
          · exact absurd rfl hx
  · rw [Nat.zero_add] at hs
    exact ⟨s, _, hs, headerBytes_length _ _, rfl, rfl⟩

end File

/-! ## Consistency -/

/-- The bytes from `a` to `a + m` and those from `b` to `b + n` have none in common. -/
def Apart (a m b n : Nat) : Prop := m = 0 ∨ n = 0 ∨ a + m ≤ b ∨ b + n ≤ a

/-- The file and the sections that the table entries name, in the order of the set bits. -/
structure Consistent (c : Created) (entries : List FileSection) : Prop where
  /-- an entry for each set bit -/
  count : entries.length = (features c.ph.flags 0 64).length
  /-- at the place of its bit -/
  stored : ∀ (k : Nat) (e : FileSection), entries[k]? = some e →
    c.file.Holds (tableOffset + sectionSize * k) e.encode
  /-- that names the bytes that the generator of the feature has made -/
  payload : ∀ (k b : Nat) (e : FileSection), (features c.ph.flags 0 64)[k]? = some b →
    entries[k]? = some e → ∃ g, c.generated[k]? = some g ∧ generator g.which = generator b ∧
      e.size.toNat = g.payload.length ∧ c.file.Holds e.offset.toNat g.payload
  disjoint : ∀ (j k : Nat) (d e : FileSection), j ≠ k → entries[j]? = some d →
    entries[k]? = some e → Apart d.offset.toNat d.size.toNat e.offset.toNat e.size.toNat
  /-- the other parts of the file -/
  apart : ∀ e ∈ entries,
    Apart e.offset.toNat e.size.toNat tableOffset (sectionSize * entries.length) ∧
    Apart e.offset.toNat e.size.toNat 0 c.headerWrittenSize ∧
    Apart e.offset.toNat e.size.toNat attrsSection.offset.toNat attrsSection.size.toNat ∧
    Apart e.offset.toNat e.size.toNat dataSection.offset.toNat dataSection.size.toNat
  table : Apart tableOffset (sectionSize * entries.length) 0 c.headerWrittenSize

/-- Every section is empty and made by the generator of its feature, and the header ends before
the table. -/
def SectionsEmpty (c : Created) : Prop :=
  features c.ph.flags 0 64 = [] ∨ (c.headerWrittenSize ≤ tableOffset ∧
    ∀ k b : Nat, (features c.ph.flags 0 64)[k]? = some b →
      generator k = generator b ∧ ∃ g, c.generated[k]? = some g ∧ g.payload = [])

theorem features_length (flags : BitVec 64) : (features flags 0 64).length = weight flags := by
  unfold features weight
  rw [← List.range_eq_range', List.countP_eq_length_filter]

theorem weight_le (flags : BitVec 64) : weight flags ≤ 64 :=
  (List.countP_le_length).trans (by rw [List.length_range])

theorem total_le {gs : List Generated} (h : ∀ g ∈ gs, g.payload.length < 2 ^ 32) :
    total gs ≤ gs.length * 2 ^ 32 := by
  induction gs with
  | nil => exact Nat.zero_le _
  | cons g gs ih =>
    have hg := h g (List.mem_cons_self ..)
    have := ih fun g' hg' => h g' (List.mem_cons_of_mem _ hg')
    simp only [total, List.map_cons, List.sum_cons, List.length_cons] at this ⊢
    omega

/-- The last section that is not empty. -/
theorem exists_last {gs : List Generated} (h : total gs ≠ 0) :
    ∃ k g, gs[k]? = some g ∧ g.payload ≠ [] ∧ total gs = total (gs.take k) + g.payload.length := by
  induction gs using List.reverseRecOn with
  | nil => exact absurd rfl h
  | append_singleton gs g ih =>
    by_cases hg : g.payload = []
    · have hsame : total (gs ++ [g]) = total gs := by
        rw [total_append, hg]
        rfl
      rw [hsame] at h
      obtain ⟨k, g', hk, hne, hsum⟩ := ih h
      have hlt := (List.getElem?_eq_some_iff.1 hk).1
      refine ⟨k, g', ?_, hne, ?_⟩
      · rw [List.getElem?_append_left hlt]
        exact hk
      · rw [hsame, hsum, List.take_append_of_le_length (by omega)]
    · refine ⟨gs.length, g, ?_, hg, ?_⟩
      · rw [List.getElem?_append_right (le_refl _), Nat.sub_self]
        rfl
      · rw [List.take_left, total_append]

theorem payload_eq_nil {gs : List Generated} (h : total gs = 0) {k : Nat} {g : Generated}
    (hk : gs[k]? = some g) : g.payload = [] := by
  have hmem : g.payload.length ∈ gs.map fun g => g.payload.length :=
    List.mem_map_of_mem (List.mem_of_getElem? hk)
  exact List.eq_nil_of_length_eq_zero (List.sum_eq_zero_iff_forall_eq_nat.1 h _ hmem)

section Consistency

variable {header : Nat} {s : FlagState} {bytes : Bytes} {c : Created} {entries : List FileSection}

/-- The entries survive a header that ends before the table. -/
theorem Laid.holds {base n k : Nat} (h : Laid header base n s) (hlen : bytes.length = header)
    (htable : header ≤ tableOffset) {g : Generated} (hg : s.generated[k]? = some g) :
    ((s.file.seek 0).write bytes).Holds (tableOffset + sectionSize * k)
      (FileSection.encode ⟨UInt64.ofNat (base + total (s.generated.take k)),
        UInt64.ofNat g.payload.length⟩) := by
  refine ((h.stored k g hg).seek 0).write (.inr ?_)
  show 0 + bytes.length ≤ _
  omega

/-- A section that is not empty is named by an entry that reaches behind everything written. -/
theorem Consistent.sectionsEmpty
    (hs : Laid c.headerWrittenSize (tableOffset + weight c.ph.flags * sectionSize)
      (weight c.ph.flags) s) (hlen : bytes.length = c.headerWrittenSize)
    (hfile : c.file = (s.file.seek 0).write bytes) (hgen : c.generated = s.generated)
    (h : Consistent c entries) : SectionsEmpty c := by
  by_cases hne : features c.ph.flags 0 64 = []
  · exact .inl hne
  right
  have hcount := h.count
  have hn : (features c.ph.flags 0 64).length = weight c.ph.flags := features_length _
  have hpos : 0 < (features c.ph.flags 0 64).length := List.length_pos_iff.2 hne
  have hsize : sectionSize = 16 := rfl
  have htable : c.headerWrittenSize ≤ tableOffset := by
    have := h.table
    unfold Apart tableOffset at *
    rw [hsize] at this
    omega
  refine ⟨htable, fun k b hk => ?_⟩
  have hlt : k < entries.length := by
    rw [hcount]
    exact (List.getElem?_eq_some_iff.1 hk).1
  obtain ⟨g, hg, hsame, -⟩ := h.payload k b _ hk (List.getElem?_eq_getElem hlt)
  have hwhich := hs.which k g (hgen ▸ hg)
  refine ⟨hwhich ▸ hsame, g, hg, ?_⟩
  rw [hgen] at hg
  by_contra hfull
  have htotal : total s.generated ≠ 0 := fun hzero => hfull (payload_eq_nil hzero hg)
  -- the last byte that an entry names
  obtain ⟨m, g', hm, hfull', hsum⟩ := exists_last htotal
  have hmlt : m < weight c.ph.flags := by
    rw [← hs.count]
    exact (List.getElem?_eq_some_iff.1 hm).1
  obtain ⟨b', hb'⟩ : ∃ b', (features c.ph.flags 0 64)[m]? = some b' :=
    ⟨_, List.getElem?_eq_getElem (by omega)⟩
  have hmlt' : m < entries.length := by omega
  obtain ⟨g'', hg'', -, hsize'', hholds⟩ := h.payload m b' _ hb' (List.getElem?_eq_getElem hmlt')
  rw [hgen, hm] at hg''
  cases hg''
  have hentry : entries[m] = ⟨UInt64.ofNat (tableOffset + weight c.ph.flags * sectionSize +
      total (s.generated.take m)), UInt64.ofNat g'.payload.length⟩ := by
    refine FileSection.encode_inj ((h.stored m _ (List.getElem?_eq_getElem hmlt')).eq ?_ (by simp))
    rw [hfile]
    exact hs.holds hlen htable hm
  have hbound := total_le hs.small
  have hweight := weight_le c.ph.flags
  rw [hs.count] at hbound
  have hoffset : (entries[m]).offset.toNat = tableOffset + weight c.ph.flags * sectionSize +
      total (s.generated.take m) := by
    rw [hentry]
    refine UInt64.toNat_ofNat_of_lt' ?_
    show _ < 2 ^ 64
    rw [hsize]
    unfold tableOffset
    omega
  have hlast : 0 < g'.payload.length := List.length_pos_iff.2 hfull'
  have hcell := hholds (g'.payload.length - 1) (by omega)
  rw [List.getElem?_eq_getElem (by omega), hfile] at hcell
  have hwritten : ((s.file.seek 0).write bytes).cells
      ((entries[m]).offset.toNat + (g'.payload.length - 1)) ≠ none := by
    rw [hcell]
    exact Option.some_ne_none _
  rw [hoffset, hsize] at hwritten
  rcases Written.write_cells_ne hwritten with ⟨-, hin⟩ | hold
  · have hin' : tableOffset + weight c.ph.flags * 16 + total (s.generated.take m) +
        (g'.payload.length - 1) < 0 + bytes.length := hin
    omega
  · have := hs.bound _ hold
    rw [hsize] at this
    omega

/-- Empty sections are anywhere. -/
theorem SectionsEmpty.consistent
    (hs : Laid c.headerWrittenSize (tableOffset + weight c.ph.flags * sectionSize)
      (weight c.ph.flags) s) (hlen : bytes.length = c.headerWrittenSize)
    (hfile : c.file = (s.file.seek 0).write bytes) (hgen : c.generated = s.generated)
    (h : SectionsEmpty c) : ∃ entries, Consistent c entries := by
  rcases h with hnone | ⟨htable, hall⟩
  · refine ⟨[], by rw [hnone]; rfl, fun k e h => (nomatch h), fun k b e _ h => (nomatch h),
      fun j k d e _ h => (nomatch h), fun e h => (nomatch h), .inl rfl⟩
  · have hn := features_length c.ph.flags
    have hsize : sectionSize = 16 := rfl
    let e₀ : FileSection :=
      ⟨UInt64.ofNat (tableOffset + weight c.ph.flags * sectionSize), UInt64.ofNat 0⟩
    have hreplicate : ∀ {k : Nat} {e : FileSection},
        (List.replicate (weight c.ph.flags) e₀)[k]? = some e → k < weight c.ph.flags ∧ e = e₀ := by
      intro k e hk
      obtain ⟨hlt, he⟩ := List.getElem?_eq_some_iff.1 hk
      rw [List.length_replicate] at hlt
      rw [List.getElem_replicate] at he
      exact ⟨hlt, he.symm⟩
    have hempty : ∀ (k : Nat) (g : Generated), s.generated[k]? = some g → g.payload = [] := by
      intro k g hg
      have hk : k < (features c.ph.flags 0 64).length := by
        rw [hn, ← hs.count]
        exact (List.getElem?_eq_some_iff.1 hg).1
      obtain ⟨-, g', hg', hnil⟩ := hall k _ (List.getElem?_eq_getElem hk)
      rw [hgen, hg] at hg'
      cases hg'
      exact hnil
    have htotal : total s.generated = 0 := by
      by_contra hne
      obtain ⟨k, g, hg, hfull, -⟩ := exists_last hne
      exact hfull (hempty k g hg)
    have htake : ∀ k, total (s.generated.take k) = 0 := by
      intro k
      by_contra hne
      obtain ⟨j, g, hg, hfull, -⟩ := exists_last hne
      rw [List.getElem?_take] at hg
      split at hg
      · exact hfull (hempty j g hg)
      · exact nomatch hg
    have hzero : e₀.size.toNat = 0 := rfl
    refine ⟨List.replicate (weight c.ph.flags) e₀, ?_, fun k e hk => ?_, fun k b e hb hk => ?_,
      fun j k d e _ hj _ => ?_, fun e he => ?_, ?_⟩
    · rw [List.length_replicate, hn]
    · obtain ⟨hlt, rfl⟩ := hreplicate hk
      rw [← hs.count] at hlt
      have hholds := hs.holds hlen htable (List.getElem?_eq_getElem hlt)
      rw [htake, hempty k _ (List.getElem?_eq_getElem hlt)] at hholds
      rw [hfile]
      exact hholds
    · obtain ⟨-, rfl⟩ := hreplicate hk
      obtain ⟨hsame, g, hg, hnil⟩ := hall k b hb
      have hwhich := hs.which k g (hgen ▸ hg)
      refine ⟨g, hg, hwhich.symm ▸ hsame, by rw [hnil]; exact hzero, fun j hj => ?_⟩
      rw [hnil] at hj
      exact absurd hj (Nat.not_lt_zero j)
    · obtain ⟨-, rfl⟩ := hreplicate hj
      exact .inl hzero
    · have he' := List.eq_of_mem_replicate he
      subst he'
      exact ⟨.inl hzero, .inl hzero, .inl hzero, .inl hzero⟩
    · refine .inr (.inr (.inr ?_))
      rw [Nat.zero_add]
      exact htable

end Consistency

/-! ### What is drawn -/

/-- The draws of the sections alone. -/
def sectionDraws (env : CreateEnv) : Nat → Nat → Draw (List Bytes)
  | 0, _ => return []
  | n + 1, i => do
    let payload ← createFlagSection env i
    let payloads ← sectionDraws env n (i + 1)
    return payload :: payloads

/-- What a run draws: the header, how much of it is written, and the sections. -/
structure Drawn where
  flags : BitVec 64
  headerWrittenSize : Nat
  payloads : List Bytes

def fileDraws (env : CreateEnv) (ph : PerfHeader) : Draw Drawn := do
  let ph ← createHeader env ph
  let headerWrittenSize ← randomHeaderSize
  let _ ← randBytes 128
  let _ ← randBytes 1576
  let payloads ← sectionDraws env (weight ph.flags) 0
  return ⟨ph.flags, headerWrittenSize, payloads⟩

/-- There is nothing in the sections, each is made by the generator of its feature, and the header
ends before the table. -/
def Drawn.Empty (d : Drawn) : Prop :=
  features d.flags 0 64 = [] ∨ (d.headerWrittenSize ≤ tableOffset ∧
    ∀ k b : Nat, (features d.flags 0 64)[k]? = some b →
      generator k = generator b ∧ d.payloads[k]? = some [])

theorem createEntries_payloads (env : CreateEnv) (n : Nat) : ∀ (i : Nat) (s : FlagState)
    (answers : Nat → Int), (createEntries env n i s answers).1.generated.map Generated.payload =
      s.generated.map Generated.payload ++ (sectionDraws env n i answers).1 := by
  induction n with
  | zero => exact fun i s answers => (List.append_nil _).symm
  | succ n ih =>
    intro i s answers
    calc (createEntries env (n + 1) i s answers).1.generated.map Generated.payload
        = (createEntry env i s answers).1.generated.map Generated.payload ++
            (sectionDraws env n (i + 1) (unread answers (createEntry env i s answers).2)).1 :=
          ih (i + 1) _ _
      _ = s.generated.map Generated.payload ++ ([(createFlagSection env i answers).1] ++
            (sectionDraws env n (i + 1) (unread answers (createFlagSection env i answers).2)).1) := by
          rw [← List.append_assoc]
          exact congrArg (· ++ _) List.map_append

theorem createPerfDataFile_drawn (env : CreateEnv) (ph : PerfHeader) (answers : Nat → Int) :
    (createPerfDataFile env ph answers).1.ph.flags = (fileDraws env ph answers).1.flags ∧
    (createPerfDataFile env ph answers).1.headerWrittenSize =
      (fileDraws env ph answers).1.headerWrittenSize ∧
    (createPerfDataFile env ph answers).1.generated.map Generated.payload =
      (fileDraws env ph answers).1.payloads := by
  unfold createPerfDataFile fileDraws
  simp only [bind_fst]
  exact ⟨rfl, rfl, createEntries_payloads ..⟩

theorem sectionsEmpty_iff (env : CreateEnv) (ph : PerfHeader) (answers : Nat → Int) :
    SectionsEmpty (createPerfDataFile env ph answers).1 ↔ (fileDraws env ph answers).1.Empty := by
  obtain ⟨hflags, hsize, hpayloads⟩ := createPerfDataFile_drawn env ph answers
  have hpayload : ∀ k : Nat, (∃ g, (createPerfDataFile env ph answers).1.generated[k]? = some g ∧
      g.payload = []) ↔ (fileDraws env ph answers).1.payloads[k]? = some [] := by
    intro k
    rw [← hpayloads, List.getElem?_map, Option.map_eq_some_iff]
  unfold SectionsEmpty Drawn.Empty
  simp only [hflags, hsize, hpayload]

/-- The file that is written has the format that is read exactly when there is nothing in its
sections. -/
theorem createPerfDataFile_consistent_iff (env : CreateEnv) (ph : PerfHeader)
    (answers : Nat → Int) :
    (∃ entries, Consistent (createPerfDataFile env ph answers).1 entries) ↔
      (fileDraws env ph answers).1.Empty := by
  obtain ⟨s, bytes, hs, hlen, hfile, hgen⟩ := createPerfDataFile_laid ph answers
  rw [← sectionsEmpty_iff]
  exact ⟨fun ⟨_, h⟩ => h.sectionsEmpty hs hlen hfile hgen,
    fun h => h.consistent hs hlen hfile hgen⟩

/-! ### A section of one byte -/

/-- Every answer is one: the only feature is the first one, and its section is a single byte. -/
def ones : Nat → Int := fun _ => 1

theorem bind_ones {α β : Type} (m : Draw α) (f : α → Draw β) :
    ((m >>= f) ones).1 = (f (m ones).1 ones).1 := rfl

def zeroedEnv : CreateEnv where
  unicodePage := pure fun _ => 0
  behindHeader := fun _ => 0
  stack := fun _ => 0

def zeroedHeader : PerfHeader := ⟨[], 0, 0, ⟨0, 0⟩, ⟨0, 0⟩, ⟨0, 0⟩, 0, []⟩

theorem createHeader_ones (env : CreateEnv) (ph : PerfHeader) :
    (createHeader env ph ones).1.flags = 1#64 := rfl

theorem createEntry_ones (env : CreateEnv) (s : FlagState) :
    (createEntry env 0 s ones).1.generated = s.generated ++ [⟨0, [1]⟩] := rfl

theorem createPerfDataFile_ones (env : CreateEnv) (ph : PerfHeader) :
    (createPerfDataFile env ph ones).1.ph.flags = 1#64 ∧
      (createPerfDataFile env ph ones).1.generated = [⟨0, [1]⟩] := by
  unfold createPerfDataFile
  simp only [bind_ones]
  refine ⟨createHeader_ones env ph, ?_⟩
  have hweight : weight 1#64 = 1 := by decide
  show (createEntries env (weight (createHeader env ph ones).1.flags) 0 _ ones).1.generated = _
  rw [createHeader_ones, hweight]
  exact createEntry_ones env _

theorem createPerfDataFile_one_byte :
    ¬∃ entries, Consistent (createPerfDataFile zeroedEnv zeroedHeader ones).1 entries := by
  intro h
  obtain ⟨entries, h⟩ := h
  obtain ⟨s, bytes, hs, hlen, hfile, hgen⟩ :=
    createPerfDataFile_laid zeroedHeader ones
  obtain ⟨hflags, hone⟩ := createPerfDataFile_ones zeroedEnv zeroedHeader
  have hfeatures : features 1#64 0 64 = [0] := by decide
  rcases h.sectionsEmpty hs hlen hfile hgen with hnone | ⟨-, hall⟩
  · rw [hflags, hfeatures] at hnone
    cases hnone
  · rw [hflags, hfeatures, hone] at hall
    obtain ⟨-, g, hg, hnil⟩ := hall 0 0 rfl
    cases hg
    cases hnil

end PerfEvent.PerfData
