import PerfEventTests.Fuzzer.Books

/-!
# Closing, mapping and opening, with the books kept

Each operation owes the counters something between its first and its last step. What is owed at
each of its points is what `Books` is told; the handlers never change it.
-/

namespace PerfEvent.Fuzzer

open Draws Programs

section Booked

variable {c : Config} {r : Rules} {F : Prop} {R : St → Prop} {de dm : Int} {slot : Option Int}

/-- The assertion survives the closing of other events. -/
def Fading (F : Prop) (R : St → Prop) : Prop := ∀ s s', R s → Fades F s s' → R s'

theorem fading_true : Fading F fun _ => True := fun _ _ _ _ => trivial

theorem freeIndex_of_still {P : St → Prop} (h : ∀ s s', Still F s s' → P s → P s') : FreeIndex P :=
  fun s hs => h s _ ⟨fun _ => rfl, fun _ => rfl, fun _ => rfl, fun _ => rfl, rfl, fun _ => rfl, rfl,
    rfl, rfl, fun _ => rfl, fun _ => rfl⟩ hs

theorem still_addLine (s : St) (letter : Char) (text : Text.Str) : Still F s (s.addLine letter text) :=
  ⟨fun _ => rfl, fun _ => rfl, fun _ => rfl, fun _ => rfl, rfl, fun _ => rfl, rfl, rfl, rfl,
    fun _ => rfl, fun _ => rfl⟩

/-! ## Points -/

section Points

variable (hk : Kept r F) {P Q : St → Prop}
include hk

theorem triple_point {loc : Loc} (hP : ∀ s, P s → Owns F s)
    (hstep : ∀ s s', P s → Swept F s s' → Spared loc s s' → Q s') :
    Triple P ((c.env r).pt loc) (fun _ => Q) (Owns F) :=
  triple_from fun s hs =>
    (point_swept hk (fun _ hs' hF => hs'.owned hF (hP s hs hF)) loc).strengthen_post
      fun _ s' hs' => hstep s s' hs hs'.1 hs'.2

theorem keeps_point (hP : ∀ s, P s → Owns F s) (hswept : ∀ s s', P s → Swept F s s' → P s')
    (loc : Loc) : Keeps P ((c.env r).pt loc) (Owns F) :=
  triple_point hk hP fun s s' hs hs' _ => hswept s s' hs hs'

end Points

/-! ## The quiet operations -/

theorem Books.addCall {s : St} (h : Books F de dm slot s) (i : Int) {request : Request}
    (hrequest : request ≠ .close) : Books F de dm slot (s.addCall i request) := by
  refine ⟨h.events, h.live, h.eventRange, h.liveRange, h.settled, fun hF => ?_⟩
  have ho := h.owned hF
  refine ⟨ho.own, ho.distinct, ho.fresh, ho.files, ho.places, fun call hcall hwhich => ?_⟩
  rcases List.mem_cons.1 hcall with rfl | hcall
  · rcases hwhich with hactive | hclose
    · exact ho.own i hactive
    · exact absurd hclose hrequest
  · exact ho.calls call hcall hwhich

/-- Opening or closing a file is of no concern to the events. -/
theorem Books.setFile {s : St} (h : Books F de dm slot s) {fd : Int} {d : Option Descriptor}
    (hd : ∀ n, d ≠ some (.perf n)) {openFds : Nat → Int} {openFiles : Int}
    (hfree : F → ∀ n, s.fds fd ≠ some (.perf n))
    (hfiles : F → ∀ k, openFds k ≠ 0 → (if openFds k = fd then d else s.fds (openFds k)) = some .file)
    (hplaces : F → ∀ j k, openFds j ≠ 0 → openFds j = openFds k → j = k) :
    Books F de dm slot { s.setFd fd d with openFds := openFds, openFiles := openFiles } := by
  refine ⟨h.events, h.live, h.eventRange, h.liveRange, h.settled, fun hF => ?_⟩
  have ho := h.owned hF
  refine ⟨fun i hi => ?_, ho.distinct, fun n k hn => ?_, hfiles hF, hplaces hF, ho.calls⟩
  · show (if (s.eventData i).fd = fd then d else s.fds (s.eventData i).fd) = _
    have hown := ho.own i hi
    rw [if_neg fun h => hfree hF _ (h ▸ hown)]
    exact hown
  · change (if n = fd then d else s.fds n) = _ at hn
    split at hn
    · exact absurd hn (hd k)
    · exact ho.fresh n k hn

theorem steady_books (hk : Kept r F) :
    Steady (c.env r) (Books F 0 0 none) (OpenedFile F) (Owns F) where
  stops _ hs := hs.owned
  same _ _ h hs := hs.still h.still
  here := keeps_point hk (fun _ hs => hs.owned) (fun _ _ hs h => hs.swept h) _
  storm i := by
    by_cases hF : F
    · refine triple_bind ((triple_passPoint (fun _ hs => hs.owned) _).strengthen_post
        (S := fun _ _ => False) fun _ s hs => hk.storm i s hs.2 hF) fun _ => ?_
      exact fun _ hw => hw.elim
    · refine (keeps_point hk (fun _ hs => hs.owned) (fun _ _ hs h => hs.swept h) _).strengthen_post
        fun _ s hs => ⟨hs, fun s fd hs => hs.still ?_⟩
      exact ⟨fun _ => rfl, fun _ => rfl, fun _ => rfl, fun _ => rfl, rfl, fun _ => rfl, rfl, rfl, rfl,
        fun h => absurd h hF, fun h => absurd h hF⟩
  stored _ _ := .inl (freeIndex_of_still fun _ _ h hs => hs.still h)
  use _ := (keeps_point hk (fun _ hs => hs.owned) (fun _ _ hs h => hs.swept h) _).strengthen_post
    fun _ _ hs => ⟨hs, .inr (freeIndex_of_still fun _ _ h hs => hs.still h)⟩
  call _ i _ hrequest hs := hs.addCall i hrequest
  line _ _ s _ hs := hs.still (still_addLine s _ _)
  filterLine _ _ _ _ := (keeps_point hk (fun _ hs => hs.owned) (fun _ _ hs h => hs.swept h)
    _).strengthen_post fun _ _ hs => ⟨hs, fun s hs => hs.still (still_addLine s _ _)⟩
  opened s fd hs _ hnone := by
    have hfile : ∀ k, F → s.openFds k ≠ 0 → s.openFds k ≠ fd := fun k hF hopen h =>
      nomatch hnone.symm.trans ((congrArg s.fds h).symm.trans ((hs.owned hF).files k hopen))
    refine ⟨hs.setFile (by exact nofun) (fun _ _ h => nomatch hnone.symm.trans h) (fun hF k hopen => ?_)
      fun hF => (hs.owned hF).places, fun hF => ⟨if_pos rfl, fun k hk => ?_⟩⟩
    · rw [if_neg (hfile k hF hopen)]
      exact (hs.owned hF).files k hopen
    · by_contra h0
      exact hfile k hF (fun h => h0 (hk.symm.trans h)) hk
  closed s fd hs hfile := by
    refine hs.setFile (by exact nofun) (fun hF _ h => ?_) (fun hF k hopen => ?_) fun hF => (hs.owned hF).places
    · exact nomatch (hfile hF).1.symm.trans h
    · rw [if_neg fun h => hopen (h.trans ((hfile hF).2 k h))]
      exact (hs.owned hF).files k hopen
  hereFile fd := keeps_point hk (fun _ hs => hs.1.owned) (fun _ _ hs h =>
    ⟨hs.1.swept h, hs.2.fades hs.1.owned h.toFades⟩) _
  sameFile fd s s' h hs := by
    intro hF
    rw [h.fds, h.openFds]
    exact hs hF
  lineFile _ _ _ _ hs := hs
  place s k fd n hs hfile := by
    refine ⟨hs.events, hs.live, hs.eventRange, hs.liveRange, hs.settled, fun hF => ?_⟩
    obtain ⟨hfd, hfree⟩ := hfile hF
    have ho := hs.owned hF
    refine ⟨ho.own, ho.distinct, ho.fresh, fun j hj => ?_, fun i j hi hij => ?_, ho.calls⟩
    · dsimp only at hj ⊢
      split at hj
      · rename_i h
        rw [if_pos h]
        exact hfd
      · rename_i h
        rw [if_neg h]
        exact ho.files j hj
    · dsimp only at hi hij
      split_ifs at hi hij with h1 h2 h2
      · exact h1.trans h2.symm
      · exact absurd (hfree j hij.symm) hi
      · exact absurd (hij.trans (hfree i hij)) hi
      · exact ho.places i j hi hij
  unplace s k n hs hk0 := by
    refine hs.setFile (by exact nofun) (fun hF m h => ?_) (fun hF j hj => ?_) fun hF i j hi hij => ?_
    · exact nomatch ((hs.owned hF).files k hk0).symm.trans h
    · split at hj
      · exact absurd rfl hj
      · rename_i h
        rw [if_neg h, if_neg fun heq => h ((hs.owned hF).places j k hj heq)]
        exact (hs.owned hF).files j hj
    · split_ifs at hi hij
      · exact absurd rfl hi
      · exact absurd rfl hi
      · exact absurd hij hi
      · exact (hs.owned hF).places i j hi hij

/-! ## Unmapping -/

/-- The slot that `unmap_mmap` works on, before and after the call of `munmap`. -/
def Unmapping (F : Prop) (de dm : Int) (j : Int) (R : St → Prop) (s : St) : Prop :=
  Books F de dm (some j) s ∧ R s ∧ (s.mmaps j).active = false ∧
    (s.mmaps j).mapped = (s.mmaps j).live

def Unmapped (F : Prop) (de dm : Int) (j : Int) (R : St → Prop) (result : Int) (s : St) : Prop :=
  Books F de dm (some j) s ∧ R s ∧ (s.mmaps j).active = false ∧ (s.mmaps j).mapped = false ∧
    (result = 0 ↔ (s.mmaps j).live = true)

theorem unmapped_active {m : MmapEntry} (h : m.active = false) : m.unmapped.active = false := by
  unfold MmapEntry.unmapped
  split
  · exact h
  · rfl

theorem unmapped_mapped {m : MmapEntry} (h : m.mapped = m.live) : m.unmapped.mapped = false := by
  unfold MmapEntry.unmapped
  split
  · rename_i haddr
    rw [h]
    simp [MmapEntry.live, haddr]
  · show (m.mapped && decide (m.size = 0)) = false
    rw [h]
    by_cases hsize : m.size = 0 <;> simp [MmapEntry.live, hsize]

theorem unmapped_mapped_false {m : MmapEntry} (h : m.mapped = false) : m.unmapped.mapped = false := by
  unfold MmapEntry.unmapped
  split
  · exact h
  · rw [h]
    rfl

theorem swept_unmapping (hR : Fading F R) {j : Int} {s s' : St} (h : Unmapping F de dm j R s)
    (hs : Swept F s s') : Unmapping F de dm j R s' := by
  obtain ⟨hbooks, hr, hactive, hmapped⟩ := h
  refine ⟨hbooks.swept hs, hR _ _ hr hs.toFades, ?_⟩
  rcases hs.slot j with hsame | ⟨hgone, -⟩
  · rw [hsame]
    exact ⟨hactive, hmapped⟩
  · rw [hgone, unmapped_live]
    exact ⟨unmapped_active hactive, unmapped_mapped hmapped⟩

theorem Swept.live_iff {s s' : St} (h : Swept F s s') {j : Int}
    (hspared : (s.mmaps j).live = true → (s'.mmaps j).live = true) :
    (s'.mmaps j).live = (s.mmaps j).live := by
  rcases h.slot j with hsame | ⟨hgone, -⟩
  · rw [hsame]
  · cases hlive : (s.mmaps j).live
    · rw [hgone, unmapped_live]
    · exact hspared hlive

theorem swept_unmapped (hR : Fading F R) {j result : Int} {s s' : St}
    (h : Unmapped F de dm j R result s) (hs : Swept F s s') (hspared : Spared (.unmapped j) s s') :
    Unmapped F de dm j R result s' := by
  obtain ⟨hbooks, hr, hactive, hmapped, hresult⟩ := h
  refine ⟨hbooks.swept hs, hR _ _ hr hs.toFades, ?_, ?_, by rw [hs.live_iff hspared]; exact hresult⟩
  · rcases hs.slot j with hsame | ⟨hgone, -⟩
    · rw [hsame, hactive]
    · rw [hgone, unmapped_active hactive]
  · rcases hs.slot j with hsame | ⟨hgone, -⟩
    · rw [hsame, hmapped]
    · rw [hgone, unmapped_mapped_false hmapped]

theorem sysMunmap_unmapped (hR : Fading F R) (j : Int) :
    Triple (Unmapping F de dm j R) (sysMunmap j) (Unmapped F de dm j R) (Owns F) := by
  have hfree : FreeIndex (Unmapping F de dm j R) :=
    freeIndex_of_still fun s s' h hs => swept_unmapping hR hs h.swept
  refine triple_bind (triple_getMmap (.inr hfree)) fun m => triple_ite (fun hm => ?_) fun hm => ?_
  · refine triple_pure fun s hs => ?_
    obtain ⟨⟨hbooks, hr, hactive, hmapped⟩, rfl⟩ := hs
    have hlive : (s.mmaps j).live = false := by
      rw [← Bool.not_eq_true, ← munmapResult_eq_zero]
      exact fun h => absurd ((if_pos hm).symm.trans h) (by decide)
    refine ⟨hbooks, hr, hactive, hmapped.trans hlive, ?_⟩
    rw [hlive]
    exact ⟨fun h => absurd h (by decide), fun h => absurd h Bool.false_ne_true⟩
  · refine triple_bind (Q := fun _ => Unmapped F de dm j R 0) (triple_update fun s hs => ?_) fun _ =>
      triple_pure fun _ hs => hs
    obtain ⟨⟨hbooks, hr, hactive, hmapped⟩, rfl⟩ := hs
    have hstill : Still F s (s.checkMmap j) := checkMmap_keeps (.inr freeIndex_still) (Still.refl s)
    have hslot : ((s.checkMmap j).setMmap j fun m => { m with mapped := false }).mmaps j =
        { (s.checkMmap j).mmaps j with mapped := false } := if_pos rfl
    have hlive : (s.mmaps j).live = true := munmapResult_eq_zero.1 (if_neg hm)
    refine ⟨(hbooks.still hstill).setMmap ?_ ?_ (fun k _ hk => hk) fun h => absurd rfl h,
      hR _ _ (hR _ _ hr hstill.fades) (fades_of_eq rfl rfl rfl rfl rfl), ?_, ?_, ?_⟩
    · show dm = dm + MmapEntry.liveCount _ - MmapEntry.liveCount _
      exact (Int.add_sub_cancel dm _).symm
    · intro h
      exact (hbooks.still hstill).liveRange j h
    · rw [hslot, hstill.mmaps]
      exact hactive
    · rw [hslot]
    · rw [hslot, hstill.mmaps]
      exact ⟨fun _ => hlive, fun _ => rfl⟩

variable (hk : Kept r F)
include hk

theorem unmapMmap_books (hR : Fading F R) (j : Int) (fromSigio : Bool) :
    Keeps (fun s => Books F de dm none s ∧ R s) (unmapMmap (c.env r) j fromSigio) (Owns F) := by
  have hbooks : ∀ s s', (Books F de dm none s ∧ R s) → Swept F s s' → Books F de dm none s' ∧ R s' :=
    fun s s' hs h => ⟨hs.1.swept h, hR _ _ hs.2 h.toFades⟩
  have hpt : ∀ loc, Keeps (fun s => Books F de dm none s ∧ R s) ((c.env r).pt loc) (Owns F) :=
    keeps_point hk (fun s hs => hs.1.owned) hbooks
  have hfree : FreeIndex fun s => Books F de dm none s ∧ R s :=
    freeIndex_of_still fun s s' h hs => hbooks s s' hs h.swept
  have hpt' : ∀ result, Keeps (Unmapped F de dm j R result) ((c.env r).pt (.unmapped j)) (Owns F) :=
    fun result => triple_point hk (fun s hs => hs.1.owned) fun s s' hs h hsp =>
      swept_unmapped hR hs h hsp
  have hstill : ∀ result s s', Still F s s' → Unmapped F de dm j R result s →
      Unmapped F de dm j R result s' :=
    fun result s s' h hs => swept_unmapped hR hs h.swept (h.spared _)
  refine keeps_bind (hpt _) fun _ => keeps_bind (keeps_getMmap (.inr hfree)) fun m =>
    keeps_whenever fun _ => keeps_bind (hpt _) fun _ => ?_
  -- the slot is no longer active, and its mapping is still to be undone
  refine triple_bind (triple_setMmap (Q := fun _ => Unmapping F de dm j R) (.inr hfree)
    fun s hs => ?_) fun _ => ?_
  · have hset := hs.1.settled j nofun
    have hslot : (s.setMmap j fun m => { m with active := false }).mmaps j =
        { s.mmaps j with active := false } := if_pos rfl
    refine ⟨hs.1.setMmap ?_ (fun h => hs.1.liveRange j h) (fun k _ _ => nofun) fun h => absurd rfl h,
      hR _ _ hs.2 (fades_of_eq rfl rfl rfl rfl rfl), ?_, ?_⟩
    · exact (Int.add_sub_cancel dm _).symm
    · rw [hslot]
    · rw [hslot]
      exact hset.2
  refine triple_bind (keeps_point hk (fun s hs => hs.1.owned) (fun s s' hs h =>
    swept_unmapping hR hs h) _) fun _ => triple_bind (sysMunmap_unmapped hR j) fun result => ?_
  refine triple_bind (hpt' result) fun _ => triple_bind (Q := fun _ => Unmapped F de dm j R result)
    (keeps_whenever fun _ => ?_) fun _ => ?_
  · refine keeps_bind (keeps_getMmap (.inr (freeIndex_of_still (hstill result)))) fun m =>
      keeps_bind (triple_logLine fun s hs => hstill result s _ (still_addLine s _ _) hs) fun _ =>
        hpt' result
  -- the address goes, and the counter follows if there was a mapping
  refine triple_bind (triple_setMmap (Q := fun _ s =>
    Books F de (if result = 0 then dm + 1 else dm) none s ∧ R s)
    (.inr (freeIndex_of_still (hstill result))) fun s hs => ?_) fun _ => ?_
  · obtain ⟨hb, hr, hactive, hmapped, hresult⟩ := hs
    have hgone : ({ s.mmaps j with addr := mapFailed } : MmapEntry).live = false := by
      simp [MmapEntry.live]
    refine ⟨hb.setMmap ?_ (fun h => absurd (hgone.symm.trans h) Bool.false_ne_true)
      (fun k hkj _ => fun h => hkj (Option.some.inj h).symm) fun _ => ?_,
      hR _ _ hr (fades_of_eq rfl rfl rfl rfl rfl)⟩
    · unfold MmapEntry.liveCount
      rw [hgone]
      by_cases h0 : result = 0
      · rw [if_pos h0, if_pos (hresult.1 h0)]
        simp
      · rw [if_neg h0, if_neg (fun h => h0 (hresult.2 h))]
        simp
    · exact ⟨hactive.trans hgone.symm, hmapped.trans hgone.symm⟩
  refine triple_bind (keeps_point hk (fun s hs => hs.1.owned) (fun s s' hs h =>
    ⟨hs.1.swept h, hR _ _ hs.2 h.toFades⟩) _) fun _ => ?_
  refine triple_whenever (fun h0 => triple_update fun s hs => ?_) fun h0 s hs => ?_
  · rw [if_pos h0] at hs
    have hb := hs.1.countMmap (-1)
    rw [show dm + 1 + -1 = dm by omega] at hb
    exact ⟨hb, hR _ _ hs.2 (fades_of_eq rfl rfl rfl rfl rfl)⟩
  · rw [if_neg h0] at hs
    exact hs

theorem unmapOf_books (hR : Fading F R) (i : Int) (fromSigio : Bool) :
    Keeps (fun s => Books F de dm none s ∧ R s) (unmapOf (c.env r) i fromSigio) (Owns F) :=
  keeps_bind (keeps_getEvent (.inr (freeIndex_of_still (F := F) fun _ _ h hs =>
    ⟨hs.1.still h, hR _ _ hs.2 h.fades⟩))) fun _ => unmapMmap_books hk hR _ fromSigio

/-! ## Closing -/

omit hk in
theorem Books.closeFdOf {s : St} (h : Books F de dm slot s) {i : Int}
    (hloose : Loose F (s.eventData i).fd (s.eventData i).serial s) :
    Books F de dm slot (s.closeFdOf i) :=
  ⟨h.events, h.live, h.eventRange, h.liveRange, h.settled, fun hF =>
    owned_closeFdOf (h.owned hF) (hloose hF).1 fun k hk => ((hloose hF).2 k hk).1⟩

/-- The event in slot `i` is no longer active, and its descriptor is still open. -/
def Closing (F : Prop) (i : Int) (s : St) : Prop :=
  Loose F (s.eventData i).fd (s.eventData i).serial s

omit hk in
theorem fading_closing (i : Int) : Fading F (Closing F i) := fun s s' h hs => by
  unfold Closing
  rw [hs.fd, hs.serial]
  exact h.fades hs

omit hk in
theorem closeDescriptor_books (i : Int) :
    Triple (fun s => Books F de dm none s ∧ Closing F i s) (closeDescriptor i)
      (fun _ => Books F de dm none) (Owns F) := by
  refine triple_bind (triple_getEvent (.inr (freeIndex_of_still (F := F) fun _ _ h hs =>
    ⟨hs.1.still h, fading_closing i _ _ hs.2 h.fades⟩))) fun ev => ?_
  refine triple_bind (Q := fun _ s' => Books F de dm none (s'.setFd ev.fd none)) ?_ fun _ =>
    triple_bind (Q := fun _ => Books F de dm none) (triple_bind keeps_getState fun _ =>
      triple_bind (triple_update fun _ hs => hs) fun _ => keeps_pure) fun _ => keeps_pure
  refine triple_update fun s hs => ?_
  obtain ⟨⟨hbooks, hclosing⟩, rfl⟩ := hs
  exact hbooks.closeFdOf hclosing

theorem closeEvent_books (i : Int) :
    Triple (fun s => Books F 0 0 none s ∧ (0 ≤ i → (s.eventData i).active = true))
      (closeEvent (c.env r) i false) (fun _ => Books F 0 0 none) (Owns F) := by
  refine triple_whenever (fun h0 => ?_) fun _ s hs => hs.1
  refine Triple.weaken_pre (P := fun s => Books F 0 0 none s ∧ (s.eventData i).active = true) ?_
    fun s hs => ⟨hs.1, hs.2 h0⟩
  have hclosing : Keeps (fun s => Books F 0 0 none s ∧ (s.eventData i).active = true)
      ((c.env r).pt (.closing i)) (Owns F) :=
    triple_point hk (fun s hs => hs.1.owned) fun s s' hs h hsp => ⟨hs.1.swept h, hsp hs.2⟩
  refine triple_bind hclosing fun _ => ?_
  have hhere : ∀ d, Keeps (Books F d 0 none) ((c.env r).pt .elsewhere) (Owns F) := fun d =>
    keeps_point hk (fun _ hs => hs.owned) (fun _ _ hs h => hs.swept h) _
  have hhere' : Keeps (fun s => Books F 1 0 none s ∧ Closing F i s) ((c.env r).pt .elsewhere)
      (Owns F) :=
    keeps_point hk (fun _ hs => hs.1.owned) (fun _ _ hs h =>
      ⟨hs.1.swept h, fading_closing i _ _ hs.2 h.toFades⟩) _
  have hfree : ∀ d, FreeIndex (Books F d 0 none) := fun d =>
    freeIndex_of_still fun _ _ h hs => hs.still h
  have hrest : ∀ d, Keeps (Books F d 0 none) (unmapOf (c.env r) i false) (Owns F) := fun d =>
    (unmapOf_books hk (fading_true (F := F)) i false).consequence (fun _ hs => ⟨hs, trivial⟩)
      (fun _ _ hs => hs.1) fun _ hs => hs
  refine triple_bind keeps_rand fun n => triple_bind hclosing fun _ => ?_
  refine triple_bind (triple_setEvent (Q := fun _ s => Books F 1 0 none s ∧ Closing F i s)
    (.inr (freeIndex_of_still (F := F) fun _ _ h hs => ⟨hs.1.still h, (h.active i).trans hs.2⟩))
    fun s hs => ?_) fun _ => ?_
  · refine ⟨hs.1.deactivate hs.2, ?_⟩
    show Loose F ((s.deactivate i).eventData i).fd ((s.deactivate i).eventData i).serial _
    rw [deactivate_fd, deactivate_serial]
    exact loose_deactivate hs.1.owned hs.2
  refine triple_bind hhere' fun _ => triple_bind (keeps_whenever fun _ =>
    unmapOf_books hk (fading_closing i) i false) fun _ => ?_
  refine triple_bind hhere' fun _ => triple_bind (closeDescriptor_books i) fun _ => ?_
  refine triple_bind (hhere 1) fun _ => triple_bind (Q := fun _ => Books F 1 0 none)
    (keeps_whenever fun _ => ?_) fun _ => ?_
  · refine keeps_bind (keeps_getEvent (.inr (hfree 1))) fun ev => keeps_bind ?_ fun _ => hhere 1
    exact triple_logLine fun s hs => hs.still (still_addLine s _ _)
  · refine triple_bind (keeps_whenever fun _ => hrest 1) fun _ => triple_bind (hhere 1) fun _ => ?_
    refine triple_update fun s hs => ?_
    have hb := hs.countEvent (-1)
    rw [show (1 : Int) + -1 = 0 from rfl] at hb
    exact hb

theorem closeRandomEvent_books :
    Keeps (Books F 0 0 none) (closeRandomEvent (c.env r)) (Owns F) := by
  refine triple_bind (triple_findRandomSlot (fun _ hs => hs.owned) (keeps_point hk
    (fun _ hs => hs.owned) (fun _ _ hs h => hs.swept h) _)) fun i => ?_
  refine (closeEvent_books hk i.index).weaken_pre fun s hs => ⟨hs.1, fun h0 => ?_⟩
  rcases hs.2 with h | h
  · omega
  · exact h.2

/-! ## Mapping -/

/-- A slot that has been found empty. -/
def Empty (F : Prop) (j : Int) (s : St) : Prop :=
  Books F 0 0 none s ∧ (s.mmaps j).active = false

/-- The slot has no address, and the size that the call will be given. -/
def Prepared (F : Prop) (j size : Int) (s : St) : Prop :=
  Empty F j s ∧ (s.mmaps j).addr = mapFailed ∧ (s.mmaps j).size = size

/-- The slot has what `mmap` returned; `owed` is what the counter is behind if that is a mapping. -/
def Mapped (F : Prop) (owed : Int) (j : Int) (s : St) : Prop :=
  Books F 0 (if (s.mmaps j).live then owed else 0) (some j) s ∧ (s.mmaps j).active = false ∧
    (s.mmaps j).mapped = (s.mmaps j).live ∧
      ((s.mmaps j).addr ≠ mapFailed ↔ (s.mmaps j).live = true)

omit hk in
theorem unmapped_size (m : MmapEntry) : m.unmapped.size = m.size := by
  unfold MmapEntry.unmapped
  split <;> rfl

omit hk in
theorem Swept.slot_active {s s' : St} (h : Swept F s s') {j : Int}
    (hj : (s.mmaps j).active = false) : (s'.mmaps j).active = false := by
  rcases h.slot j with hsame | ⟨hgone, -⟩
  · rw [hsame, hj]
  · rw [hgone, unmapped_active hj]

omit hk in
theorem Empty.swept {j : Int} {s s' : St} (h : Empty F j s) (hs : Swept F s s') : Empty F j s' :=
  ⟨h.1.swept hs, hs.slot_active h.2⟩

omit hk in
theorem Empty.not_live {j : Int} {s : St} (h : Empty F j s) : (s.mmaps j).live = false := by
  rw [← (h.1.settled j nofun).1, h.2]

omit hk in
theorem Prepared.swept {j size : Int} {s s' : St} (h : Prepared F j size s) (hs : Swept F s s') :
    Prepared F j size s' := by
  refine ⟨h.1.swept hs, ?_⟩
  rcases hs.slot j with hsame | ⟨hgone, -⟩
  · rw [hsame]
    exact h.2
  · rw [hgone, unmapped_size, MmapEntry.unmapped, if_pos h.2.1]
    exact h.2

omit hk in
theorem Mapped.swept {owed j : Int} {s s' : St} (h : Mapped F owed j s) (hs : Swept F s s')
    (hspared : Spared (.mapped j) s s') : Mapped F owed j s' := by
  obtain ⟨hbooks, hactive, hmapped, haddr⟩ := h
  unfold Mapped
  rw [hs.live_iff hspared]
  refine ⟨hbooks.swept hs, hs.slot_active hactive, ?_⟩
  rcases hs.slot j with hsame | ⟨hgone, -⟩
  · rw [hsame]
    exact ⟨hmapped, haddr⟩
  · cases hlive : (s.mmaps j).live
    · rw [hlive] at haddr
      have hfailed : (s.mmaps j).addr = mapFailed := by
        by_contra h
        exact Bool.false_ne_true (haddr.1 h)
      have hsame : (s.mmaps j).unmapped = s.mmaps j := if_pos hfailed
      rw [hgone, hsame, hmapped, hlive]
      exact ⟨rfl, haddr⟩
    · have := hspared hlive
      rw [hgone, unmapped_live] at this
      exact absurd this Bool.false_ne_true

omit hk in
theorem Mapped.still {owed j : Int} {s s' : St} (h : Mapped F owed j s) (hs : Still F s s') :
    Mapped F owed j s' :=
  h.swept hs.swept (hs.spared _)

omit hk in
/-- What the slots say about an event's mapping is of no concern to the books. -/
theorem Mapped.setEvent {owed j which : Int} {s : St} (h : Mapped F owed j s)
    {f : EventData → EventData} (hf : ∀ ev, (f ev).active = ev.active ∧ (f ev).fd = ev.fd ∧
      (f ev).serial = ev.serial) : Mapped F owed j (s.setEvent which f) :=
  ⟨h.1.setEvent (hf _).1 fun _ => ⟨(hf _).2.1, (hf _).2.2⟩, h.2⟩

theorem mapped_point (owed j : Int) :
    Keeps (Mapped F owed j) ((c.env r).pt (.mapped j)) (Owns F) :=
  triple_point hk (fun _ hs => hs.1.owned) fun _ _ hs h hsp => hs.swept h hsp

omit hk in
theorem freeIndex_mapped (owed j : Int) : FreeIndex (Mapped F owed j) :=
  freeIndex_of_still fun _ _ h hs => hs.still h

theorem findEmptyMmap_books : Triple (Books F 0 0 none) (findEmptyMmap (c.env r))
    (fun j s => Books F 0 0 none s ∧ (0 ≤ j → InRange maxMmaps j ∧ (s.mmaps j).active = false))
    (Owns F) := by
  refine (triple_findRange (S := fun k s => (s.mmaps k).active = false) maxMmaps 0
    fun k _ hlt => ?_).strengthen_post fun j s hs => ⟨hs.1, fun hj => ?_⟩
  · refine triple_bind (keeps_point hk (fun _ hs => hs.owned) (fun _ _ hs h => hs.swept h) _)
      fun _ => triple_bind (triple_getMmap (.inl (inRange_natCast (by omega)))) fun m => ?_
    refine triple_pure fun s hs => ⟨hs.1, fun hm => ?_⟩
    rw [← hs.2]
    simpa using hm
  · rcases hs.2 with rfl | ⟨k, rfl, -, hlt, hoff⟩
    · omega
    · exact ⟨inRange_natCast (by omega), hoff⟩

theorem prepareMmap_books (j size : Int) {fill : MmapEntry → MmapEntry}
    (hfill : ∀ m, (fill m).active = m.active ∧ (fill m).addr = m.addr ∧ (fill m).mapped = m.mapped ∧
      (fill m).size = size) :
    Triple (Empty F j) (prepareMmap (c.env r) j fill) (fun _ => Prepared F j size) (Owns F) := by
  have hfree : FreeIndex (Empty F j) := freeIndex_of_still fun _ _ h hs => hs.swept h.swept
  refine triple_bind (keeps_point hk (fun _ hs => hs.1.owned) (fun _ _ hs h => hs.swept h) _)
    fun _ => ?_
  have hnone (k : Int) : none ≠ some k := (Option.some_ne_none k).symm
  have hgone : ∀ m : MmapEntry, m.addr = mapFailed → m.live = false := fun m h => by
    simp [MmapEntry.live, h]
  have howned : ∀ s, (∃ old, Prepared F j old s) → Owns F s := by
    rintro s ⟨old, hs⟩
    exact hs.1.1.owned
  have hswept : ∀ s s', (∃ old, Prepared F j old s) → Swept F s s' → ∃ old, Prepared F j old s' := by
    rintro s s' ⟨old, hs⟩ h
    exact ⟨old, hs.swept h⟩
  refine triple_bind (triple_setMmap (Q := fun _ s => ∃ old, Prepared F j old s) (.inr hfree)
    fun s hs => ?_) fun _ => triple_bind (keeps_point hk howned hswept _) fun _ => ?_
  · have hslot : (s.setMmap j fun m => { m with addr := mapFailed }).mmaps j =
        { s.mmaps j with addr := mapFailed } := if_pos rfl
    have hset := hs.1.settled j (hnone j)
    have hnew := hgone { s.mmaps j with addr := mapFailed } rfl
    refine ⟨(s.mmaps j).size, ⟨hs.1.setMmap ?_ ?_ (fun k _ _ => hnone k) fun _ => ?_, ?_⟩, ?_⟩
    · unfold MmapEntry.liveCount
      rw [hs.not_live, hnew]
      rfl
    · exact fun h => absurd (hnew.symm.trans h) Bool.false_ne_true
    · refine ⟨hs.2.trans hnew.symm, ?_⟩
      rw [hnew]
      exact hset.2.trans hs.not_live
    · rw [hslot]
      exact hs.2
    · rw [hslot]
      exact ⟨rfl, rfl⟩
  · refine triple_setMmap (.inr (freeIndex_of_still (F := F) fun s s' h hs => hswept s s' hs h.swept))
      fun s hs => ?_
    obtain ⟨old, hempty, haddr, -⟩ := hs
    obtain ⟨h1, h2, h3, h4⟩ := hfill (s.mmaps j)
    have hslot : (s.setMmap j fill).mmaps j = fill (s.mmaps j) := if_pos rfl
    have hnew := hgone (fill (s.mmaps j)) (h2.trans haddr)
    have hset := hempty.1.settled j (hnone j)
    refine ⟨⟨hempty.1.setMmap ?_ ?_ (fun k _ _ => hnone k) fun _ => ?_, ?_⟩, ?_⟩
    · unfold MmapEntry.liveCount
      rw [hempty.not_live, hnew]
      rfl
    · exact fun h => absurd (hnew.symm.trans h) Bool.false_ne_true
    · refine ⟨h1.trans (hempty.2.trans hnew.symm), ?_⟩
      rw [hnew, h3]
      exact hset.2.trans hempty.not_live
    · rw [hslot, h1, hempty.2]
    · rw [hslot, h2, h4]
      exact ⟨haddr, rfl⟩

omit hk in
theorem callMmap_books {j : Int} (hj : InRange maxMmaps j) (which size : Int) :
    Triple (Prepared F j size) (callMmap j which size) (fun _ => Mapped F (-1) j) (Owns F) := by
  have hfree : FreeIndex (Prepared F j size) := freeIndex_of_still fun _ _ h hs => hs.swept h.swept
  refine triple_bind (keeps_getEvent (.inr hfree)) fun ev => triple_bind
    (Q := fun addr s => Prepared F j size s ∧ (addr ≠ mapFailed → size ≠ 0))
    (triple_bind keeps_answer fun a => triple_pure fun s hs => ⟨hs, fun h h0 => ?_⟩) fun addr => ?_
  · exact h (if_pos h0)
  refine triple_of_pure_right fun haddr => triple_setMmap (.inr hfree) fun s hs => ?_
  obtain ⟨hempty, hfailed, hsize⟩ := hs
  have hslot : (s.setMmap j fun m => { m with
      addr := addr, serial := ev.serial, mapped := addr ≠ mapFailed }).mmaps j =
      { s.mmaps j with addr := addr, serial := ev.serial, mapped := addr ≠ mapFailed } := if_pos rfl
  have hlive : ({ s.mmaps j with addr := addr, serial := ev.serial, mapped := addr ≠ mapFailed } :
      MmapEntry).live = decide (addr ≠ mapFailed) := by
    unfold MmapEntry.live
    by_cases h : addr = mapFailed
    · simp [h]
    · simp [h, hsize, haddr h]
  unfold Mapped
  rw [hslot, hlive]
  refine ⟨hempty.1.setMmap ?_ (fun _ => hj) (fun _ _ _ => nofun) fun h => absurd rfl h, hempty.2, rfl,
    by simp⟩
  unfold MmapEntry.liveCount
  rw [hempty.not_live, hlive]
  by_cases h : addr = mapFailed <;> simp [h]

theorem recordMmap_books {j : Int} (which : Int) {own : MmapEntry → MmapEntry}
    (hown : ∀ m, (own m).active = m.active ∧ (own m).addr = m.addr ∧ (own m).mapped = m.mapped ∧
      (own m).size = m.size) :
    Triple (fun s => Mapped F (-1) j s ∧ (s.mmaps j).live = true) (recordMmap (c.env r) j which own)
      (fun _ => Books F 0 0 none) (Owns F) := by
  have hpoint : Keeps (fun s => Mapped F 0 j s ∧ (s.mmaps j).live = true)
      ((c.env r).pt (.mapped j)) (Owns F) :=
    triple_point hk (fun _ hs => hs.1.1.owned) fun _ _ hs h hsp => ⟨hs.1.swept h hsp, hsp hs.2⟩
  have hfree : FreeIndex fun s => Mapped F 0 j s ∧ (s.mmaps j).live = true :=
    freeIndex_of_still (F := F) fun _ _ h hs => ⟨hs.1.still h, by rw [h.mmaps]; exact hs.2⟩
  refine triple_bind (triple_update (Q := fun _ s => Mapped F 0 j s ∧ (s.mmaps j).live = true)
    fun s hs => ⟨⟨?_, hs.1.2⟩, hs.2⟩) fun _ => triple_bind hpoint fun _ => ?_
  · have := hs.1.1.countMmap 1
    rw [if_pos hs.2] at this
    rwa [ite_self]
  refine triple_bind (triple_setEvent (Q := fun _ s => Mapped F 0 j s ∧ (s.mmaps j).live = true)
    (.inr hfree) fun s hs => ⟨hs.1.setEvent fun _ => ⟨rfl, rfl, rfl⟩, hs.2⟩) fun _ => ?_
  refine triple_bind hpoint fun _ => triple_bind (keeps_getEvent (.inr hfree)) fun ev => ?_
  refine triple_bind (triple_setMmap (Q := fun _ s => Mapped F 0 j s ∧ (s.mmaps j).live = true)
    (.inr hfree) fun s hs => ?_) fun _ => triple_bind hpoint fun _ => ?_
  · obtain ⟨⟨hbooks, hactive, hmapped, haddr⟩, hlive⟩ := hs
    obtain ⟨h1, h2, h3, h4⟩ := hown { s.mmaps j with fd := ev.fd }
    have hsame : (own { s.mmaps j with fd := ev.fd }).live = (s.mmaps j).live := by
      unfold MmapEntry.live
      rw [h2, h4]
    have hslot : (s.setMmap j fun m => own { m with fd := ev.fd }).mmaps j =
        own { s.mmaps j with fd := ev.fd } := if_pos rfl
    unfold Mapped
    rw [hslot, hsame]
    rw [ite_self] at hbooks ⊢
    refine ⟨⟨hbooks.setMmap ?_ (fun h => hbooks.liveRange j (hsame ▸ h)) (fun _ _ h => h)
      fun h => absurd rfl h, h1.trans hactive, h3.trans hmapped, by rw [h2]; exact haddr⟩, hlive⟩
    unfold MmapEntry.liveCount
    rw [hsame]
    omega
  refine triple_bind (keeps_getMmap (.inr hfree)) fun m => triple_bind (keeps_getEvent (.inr hfree))
    fun ev => triple_bind (triple_logLine fun s hs => ⟨hs.1.still (still_addLine s _ _), hs.2⟩)
      fun _ => triple_bind hpoint fun _ => ?_
  refine triple_bind (triple_setMmap (Q := fun _ => Books F 0 0 none) (.inr hfree) fun s hs => ?_)
    fun _ => keeps_point hk (fun _ hs => hs.owned) (fun _ _ hs h => hs.swept h) _
  obtain ⟨⟨hbooks, hactive, hmapped, haddr⟩, hlive⟩ := hs
  rw [ite_self] at hbooks
  have hsame : ({ s.mmaps j with active := true } : MmapEntry).live = (s.mmaps j).live := rfl
  refine hbooks.setMmap ?_ (fun h => hbooks.liveRange j h)
    (fun k hkj _ h => hkj (Option.some.inj h).symm) fun _ => ⟨?_, hmapped⟩
  · exact (Int.add_sub_cancel 0 _).symm
  · rw [hsame, hlive]

/-- From the call on, whether it succeeds or not. -/
theorem mapAndRecord_books {j : Int} (hj : InRange maxMmaps j) (which size : Int)
    {rest : Fuzz Unit} (hrest : Triple (fun s => Mapped F (-1) j s ∧ (s.mmaps j).live = true) rest
      (fun _ => Books F 0 0 none) (Owns F)) :
    Triple (Prepared F j size) (do
      callMmap j which size
      (c.env r).pt (.mapped j)
      let m ← getMmap j
      whenever (m.addr ≠ mapFailed) rest) (fun _ => Books F 0 0 none) (Owns F) := by
  refine triple_bind (callMmap_books hj which size) fun _ => triple_bind (mapped_point hk (-1) j)
    fun _ => triple_bind (triple_getMmap (.inr (freeIndex_mapped (-1) j))) fun m => ?_
  refine triple_whenever (fun hm => hrest.weaken_pre fun s hs => ?_) fun hm s hs => ?_
  · rw [hs.2] at hm
    exact ⟨hs.1, hs.1.2.2.2.1 hm⟩
  · obtain ⟨⟨hbooks, hactive, hmapped, haddr⟩, rfl⟩ := hs
    have hlive : (s.mmaps j).live = false := by
      rw [← Bool.not_eq_true]
      exact fun h => hm (haddr.2 h)
    rw [hlive, if_neg Bool.false_ne_true] at hbooks
    refine ⟨hbooks.events, hbooks.live, hbooks.eventRange, hbooks.liveRange, fun k _ => ?_,
      hbooks.owned⟩
    rcases eq_or_ne k j with rfl | hkj
    · exact ⟨hactive.trans hlive.symm, hmapped⟩
    · exact hbooks.settled k fun h => hkj (Option.some.inj h).symm

theorem mapped_live_point (j : Int) :
    Keeps (fun s => Mapped F (-1) j s ∧ (s.mmaps j).live = true) ((c.env r).pt (.mapped j)) (Owns F) :=
  triple_point hk (fun _ hs => hs.1.1.owned) fun _ _ hs h hsp => ⟨hs.1.swept h hsp, hsp hs.2⟩

theorem setupMmapAux_books (which parent : Int) :
    Keeps (Books F 0 0 none) (setupMmapAux (c.env r) which parent) (Owns F) := by
  refine triple_bind (findEmptyMmap_books hk) fun j => triple_whenever (fun h0 => ?_)
    fun _ _ hs => hs.1
  refine Triple.weaken_pre (P := fun s => Empty F j s ∧ InRange maxMmaps j) ?_
    fun s hs => ⟨⟨hs.1, (hs.2 h0).2⟩, (hs.2 h0).1⟩
  refine triple_of_pure_right fun hj => triple_bind keeps_draw fun size => triple_bind keeps_draw
    fun prot => triple_bind keeps_draw fun flags => ?_
  refine triple_bind (prepareMmap_books hk j size fun _ => ⟨rfl, rfl, rfl, rfl⟩) fun _ => ?_
  refine triple_bind (keeps_point hk (fun _ hs => hs.1.1.owned) (fun _ _ hs h => hs.swept h) _)
    fun _ => triple_bind (keeps_getMmap (.inr (freeIndex_of_still (F := F)
      fun _ _ h hs => hs.swept h.swept))) fun _ => ?_
  exact mapAndRecord_books hk hj which size (triple_bind (mapped_live_point hk j) fun _ =>
    recordMmap_books hk which fun _ => ⟨rfl, rfl, rfl, rfl⟩)

theorem setupMmap_books (which : Found) :
    Keeps (Books F 0 0 none) (setupMmap (c.env r) which) (Owns F) := by
  refine triple_bind (findEmptyMmap_books hk) fun j => triple_whenever (fun h0 => ?_)
    fun _ _ hs => hs.1
  refine Triple.weaken_pre (P := fun s => Empty F j s ∧ InRange maxMmaps j) ?_
    fun s hs => ⟨⟨hs.1, (hs.2 h0).2⟩, (hs.2 h0).1⟩
  refine triple_of_pure_right fun hj => triple_bind keeps_draw fun size => triple_bind keeps_draw
    fun prot => triple_bind keeps_draw fun flags => ?_
  refine triple_bind (prepareMmap_books hk j size fun _ => ⟨rfl, rfl, rfl, rfl⟩) fun _ => ?_
  have hpoint : ∀ loc, Keeps (Prepared F j size) ((c.env r).pt loc) (Owns F) :=
    keeps_point hk (fun _ hs => hs.1.1.owned) fun _ _ hs h => hs.swept h
  refine triple_bind keeps_draw fun _ => triple_bind (hpoint _) fun _ =>
    triple_bind (hpoint _) fun _ => ?_
  refine mapAndRecord_books hk hj which.index size (triple_bind (mapped_live_point hk j) fun _ => ?_)
  refine triple_bind (recordMmap_books hk which.index fun _ => ⟨rfl, rfl, rfl, rfl⟩) fun _ => ?_
  exact keeps_bind keeps_rand fun n => keeps_whenever fun _ => setupMmapAux_books hk _ _

theorem mmapRandomEvent_books : Keeps (Books F 0 0 none) (mmapRandomEvent (c.env r)) (Owns F) := by
  have hs := steady_books (c := c) hk
  refine keeps_bind keeps_rand fun n => ?_
  split
  · refine triple_bind hs.findRandomSlot fun which => ?_
    exact (setupMmap_books hk which).weaken_pre fun _ hs => hs.1
  · refine triple_bind hs.findRandomActiveMmap fun j => Triple.weaken_pre
      (keeps_whenever fun _ => ?_) fun _ hs => hs.1
    exact (unmapMmap_books hk (fading_true (F := F)) j false).consequence
      (fun _ hs => ⟨hs, trivial⟩) (fun _ _ hs => hs.1) fun _ hs => hs
  · refine triple_bind hs.findRandomActiveMmap fun j => triple_of_pure_right fun hj => ?_
    exact keeps_whenever fun h0 => keeps_bind (hs.perfMmapRead (.inl (hj h0))) fun _ => keeps_pure
  · exact keeps_whenever fun _ => hs.trashRandomMmap
  · exact keeps_pure

/-! ## Opening -/

/-- A slot that has been found empty, and what is written into it before it is active. -/
def Reserved (F : Prop) (i : Int) (s : St) : Prop :=
  Books F 0 0 none s ∧ (s.eventData i).active = false

omit hk in
theorem Reserved.swept {i : Int} {s s' : St} (h : Reserved F i s) (hs : Swept F s s') :
    Reserved F i s' := by
  refine ⟨h.1.swept hs, ?_⟩
  have hoff := h.2
  rw [← Bool.not_eq_true] at hoff ⊢
  exact fun hon => hoff (hs.active i hon)

omit hk in
theorem freeIndex_reserved (i : Int) : FreeIndex (Reserved F i) :=
  freeIndex_of_still fun _ _ h hs => hs.swept h.swept

theorem reserved_point (i : Int) (loc : Loc) :
    Keeps (Reserved F i) ((c.env r).pt loc) (Owns F) :=
  keeps_point hk (fun _ hs => hs.1.owned) (fun _ _ hs h => hs.swept h) loc

omit hk in
theorem keeps_setEvent_reserved {i j : Int} {f : EventData → EventData}
    (hf : ∀ ev, (f ev).active = ev.active ∧ (f ev).fd = ev.fd ∧ (f ev).mmap = ev.mmap ∧
      (f ev).serial = ev.serial) : Keeps (Reserved F i) (setEvent j f) (Owns F) :=
  triple_setEvent (.inr (freeIndex_reserved i)) fun s hs =>
    hs.swept (still_setEvent s j hf).swept

theorem prepareEvent_books (i : Int) : Keeps (Reserved F i) (prepareEvent (c.env r) i) (Owns F) := by
  refine keeps_bind keeps_getState fun s => keeps_bind keeps_draw fun n => keeps_bind keeps_draw
    fun cpu => keeps_bind (triple_update fun s hs => hs.swept (Still.swept
      ⟨fun _ => rfl, fun _ => rfl, fun _ => rfl, fun _ => rfl, rfl, fun _ => rfl, rfl, rfl, rfl,
        fun _ => rfl, fun _ => rfl⟩)) fun _ => ?_
  refine keeps_bind (reserved_point hk i _) fun _ => keeps_bind
    (keeps_setEvent_reserved fun _ => ⟨rfl, rfl, rfl, rfl⟩) fun _ => ?_
  refine keeps_bind keeps_rand fun group => keeps_bind (reserved_point hk i _) fun _ =>
    keeps_bind (keeps_whenever fun _ => ?_) fun _ => ?_
  · refine triple_bind (triple_findRandomSlot (fun _ hs => hs.1.owned) (reserved_point hk i _))
      fun j => Triple.weaken_pre (P := Reserved F i) ?_ fun _ hs => hs.1
    refine keeps_bind (reserved_point hk i _) fun _ => keeps_bind
      (keeps_getEvent (.inr (freeIndex_reserved i))) fun _ => ?_
    exact keeps_setEvent_reserved fun _ => ⟨rfl, rfl, rfl, rfl⟩
  · refine keeps_bind (reserved_point hk i _) fun _ => keeps_bind
      (keeps_getEvent (.inr (freeIndex_reserved i))) fun ev => keeps_bind keeps_getState fun s =>
        keeps_bind keeps_draw fun attr => ?_
    exact keeps_setEvent_reserved fun _ => ⟨rfl, rfl, rfl, rfl⟩

omit hk in
/-- The kernel opens a descriptor that was closed, on an event with a new serial number. -/
theorem openPerf_books (i : Int) : Triple (Reserved F i) openPerf
    (fun o s => Reserved F i s ∧ (o.1 ≠ -1 → Loose F o.1 o.2 s)) (Owns F) := by
  refine triple_bind keeps_answer fun a => triple_bind
    (triple_getState (Q := fun s' s => Reserved F i s ∧ s' = s) fun s hs => ⟨hs, rfl⟩) fun s' => ?_
  refine triple_bind (Q := fun _ s => Reserved F i s ∧
    (freeFd s' a ≠ -1 → Loose F (freeFd s' a) s'.nextSerial s))
    (triple_whenever (fun hfd => triple_update fun s hs => ?_) fun hfd s hs =>
      ⟨hs.1, fun h => absurd h hfd⟩) fun _ => triple_pure fun _ hs => hs
  obtain ⟨⟨hbooks, hoff⟩, rfl⟩ := hs
  have hnone : s'.fds (freeFd s' a) = none := by
    unfold freeFd at hfd ⊢
    split at hfd
    · rename_i hcond
      rw [if_pos hcond]
      exact hcond.2.2
    · exact absurd rfl hfd
  have hfds : ∀ fd, fd ≠ freeFd s' a → (s'.setFd (freeFd s' a)
      (some (.perf s'.nextSerial))).fds fd = s'.fds fd := fun fd hne => if_neg hne
  have hself : (s'.setFd (freeFd s' a) (some (.perf s'.nextSerial))).fds (freeFd s' a) =
      some (.perf s'.nextSerial) := if_pos rfl
  refine ⟨⟨⟨hbooks.events, hbooks.live, hbooks.eventRange, hbooks.liveRange, hbooks.settled,
    fun hF => ?_⟩, hoff⟩, fun _ hF => ⟨hself, fun k hactive => ?_⟩⟩
  · have ho := hbooks.owned hF
    refine ⟨fun k hactive => ?_, ho.distinct, fun fd n hn => ?_, fun k hopen => ?_, ho.places,
      ho.calls⟩
    · refine (hfds _ fun h => ?_).trans (ho.own k hactive)
      have hown := ho.own k hactive
      exact nomatch hnone.symm.trans ((congrArg s'.fds h).symm.trans hown)
    · rcases eq_or_ne fd (freeFd s' a) with rfl | hne
      · obtain rfl : s'.nextSerial = n :=
          Descriptor.perf.inj (Option.some.inj (hself.symm.trans hn))
        exact Nat.lt_succ_self _
      · exact (ho.fresh fd n ((hfds fd hne).symm.trans hn)).trans (Nat.lt_succ_self _)
    · refine (hfds _ fun h => ?_).trans (ho.files k hopen)
      exact nomatch hnone.symm.trans ((congrArg s'.fds h).symm.trans (ho.files k hopen))
  · have ho := hbooks.owned hF
    have hown := ho.own k hactive
    refine ⟨fun h => ?_, fun h => ?_⟩
    · exact nomatch hnone.symm.trans ((congrArg s'.fds h).symm.trans hown)
    · exact absurd h (ho.fresh _ _ hown).ne

theorem openAttempts_books (i : Int) (n : Nat) :
    Triple (Reserved F i) (openAttempts (c.env r) i n)
      (fun o s => Reserved F i s ∧ (o.1 ≠ -1 → Loose F o.1 o.2 s)) (Owns F) := by
  induction n with
  | zero => exact triple_stop fun _ hs => hs.1.owned
  | succ n ih =>
    refine triple_bind (prepareEvent_books hk i) fun _ => triple_bind (reserved_point hk i _) fun _ =>
      triple_bind (openPerf_books i) fun o => triple_ite (fun _ => triple_pure fun _ hs => hs)
        fun _ => ?_
    refine triple_ite (fun _ => triple_stop fun _ hs => hs.1.1.owned) fun _ => triple_bind
      keeps_answer fun errno => triple_ite (fun _ => triple_stop fun _ hs => hs.1.1.owned) fun _ => ?_
    refine triple_ite (fun _ => triple_pure fun _ hs => ⟨hs.1, fun h => absurd rfl h⟩) fun _ => ?_
    exact triple_bind (Q := fun _ => Reserved F i) ((reserved_point hk i _).weaken_pre
      fun _ hs => hs.1) fun _ => ih

omit hk in
theorem keeps_setEvent_books {f : EventData → EventData} (i : Int)
    (hf : ∀ ev, (f ev).active = ev.active ∧ (f ev).fd = ev.fd ∧ (f ev).mmap = ev.mmap ∧
      (f ev).serial = ev.serial) : Keeps (Books F 0 0 none) (setEvent i f) (Owns F) :=
  triple_setEvent (.inr (freeIndex_of_still fun _ _ h hs => hs.still h)) fun s hs =>
    hs.still (still_setEvent s i hf)

theorem joinGroup_books (groupFd : BitVec 32) :
    Keeps (Books F 0 0 none) (joinGroup (c.env r) groupFd) (Owns F) := by
  have hpoint : ∀ loc, Keeps (Books F 0 0 none) ((c.env r).pt loc) (Owns F) :=
    keeps_point hk (fun _ hs => hs.owned) fun _ _ hs h => hs.swept h
  refine triple_bind (triple_lookupEvent (hpoint _)) fun j =>
    Triple.weaken_pre (P := Books F 0 0 none) ?_ fun _ hs => hs.1
  refine keeps_bind (hpoint _) fun _ => keeps_bind
    (keeps_setEvent_books _ fun _ => ⟨rfl, rfl, rfl, rfl⟩) fun _ => keeps_bind (hpoint _) fun _ => ?_
  exact keeps_setEvent_books _ fun _ => ⟨rfl, rfl, rfl, rfl⟩

theorem enterEvent_books {i : Int} (hi : InRange numEvents i) (o : Int × Nat) :
    Triple (fun s => Reserved F i s ∧ Loose F o.1 o.2 s) (enterEvent (c.env r) i o)
      (fun _ => Books F 0 0 none) (Owns F) := by
  have hpoint : ∀ d loc, Keeps (Books F d 0 none) ((c.env r).pt loc) (Owns F) := fun d =>
    keeps_point hk (fun _ hs => hs.owned) fun _ _ hs h => hs.swept h
  have hfree : FreeIndex (Books F 0 0 none) := freeIndex_of_still fun _ _ h hs => hs.still h
  have hfree' : FreeIndex fun s => Reserved F i s ∧ Loose F o.1 o.2 s :=
    freeIndex_of_still (F := F) fun _ _ h hs => ⟨hs.1.swept h.swept, hs.2.fades h.fades⟩
  refine triple_bind (keeps_getEvent (.inr hfree')) fun ev => triple_bind (triple_logLine fun s hs =>
    ⟨hs.1.swept (still_addLine s _ _).swept, hs.2.fades (still_addLine (F := F) s _ _).fades⟩)
      fun _ => ?_
  refine triple_bind (keeps_point hk (fun _ hs => hs.1.1.owned) (fun _ _ hs h =>
    ⟨hs.1.swept h, hs.2.fades h.toFades⟩) _) fun _ => ?_
  -- the descriptor is in the slot before the slot is active
  have hnamed : ∀ s s', (Reserved F i s ∧ Closing F i s) → Swept F s s' →
      Reserved F i s' ∧ Closing F i s' := fun s s' hs h =>
    ⟨hs.1.swept h, fading_closing i _ _ hs.2 h.toFades⟩
  refine triple_bind (triple_setEvent (Q := fun _ s => Reserved F i s ∧ Closing F i s)
    (.inr hfree') fun s hs => ?_) fun _ => triple_bind (keeps_point hk
      (fun _ hs => hs.1.1.owned) hnamed _) fun _ => ?_
  · obtain ⟨⟨hbooks, hoff⟩, hloose⟩ := hs
    have hself : (s.setEvent i fun ev => { ev with fd := o.1, serial := o.2 }).eventData i =
        { s.eventData i with fd := o.1, serial := o.2 } := if_pos rfl
    refine ⟨⟨hbooks.setEvent rfl fun h => absurd (hoff.symm.trans h) Bool.false_ne_true, ?_⟩, ?_⟩
    · rw [hself]
      exact hoff
    · unfold Closing
      rw [hself]
      intro hF
      obtain ⟨hfd, hfree⟩ := hloose hF
      refine ⟨hfd, fun k hk => ?_⟩
      rcases eq_or_ne k i with rfl | hki
      · rw [hself] at hk
        exact absurd (hoff.symm.trans hk) Bool.false_ne_true
      · have hsame : (s.setEvent i fun ev => { ev with fd := o.1, serial := o.2 }).eventData k =
            s.eventData k := if_neg hki
        rw [hsame] at hk ⊢
        exact hfree k hk
  refine triple_bind (triple_setEvent (Q := fun _ => Books F (-1) 0 none)
    (.inr (freeIndex_of_still (F := F) fun s s' h hs => hnamed s s' hs h.swept))
    fun s hs => ?_) fun _ => triple_bind (hpoint _ _) fun _ => ?_
  · have hb := hs.1.1.activate hi hs.1.2 hs.2
    rw [show (0 : Int) - 1 = -1 from rfl] at hb
    exact hb
  refine triple_bind (triple_update (Q := fun _ => Books F 0 0 none) fun s hs => hs.countEvent 1)
    fun _ => triple_bind (hpoint 0 _) fun _ => ?_
  refine keeps_bind (keeps_getEvent (.inr hfree)) fun ev => keeps_bind (keeps_whenever fun _ =>
    joinGroup_books hk _) fun _ => keeps_bind (hpoint 0 _) fun _ => ?_
  refine keeps_bind (keeps_whenever fun _ => setupMmap_books hk _) fun _ =>
    keeps_bind (hpoint 0 _) fun _ => keeps_bind (keeps_whenever fun _ => keeps_bind keeps_rand fun n =>
      keeps_whenever fun _ => ?_) fun _ => ?_
  · refine keeps_bind (keeps_getEvent (.inr hfree)) fun ev => keeps_bind (triple_logLine
      fun s hs => hs.still (still_addLine s _ _)) fun _ => keeps_bind (hpoint 0 _) fun _ => ?_
    exact keeps_bind (keeps_getEvent (.inr hfree)) fun _ => keeps_pure
  · refine keeps_bind (hpoint 0 _) fun _ => keeps_bind
      (keeps_setEvent_books _ fun _ => ⟨rfl, rfl, rfl, rfl⟩) fun _ => keeps_bind (hpoint 0 _)
        fun _ => keeps_setEvent_books _ fun _ => ⟨rfl, rfl, rfl, rfl⟩

theorem openRandomEvent_books : Keeps (Books F 0 0 none) (openRandomEvent (c.env r)) (Owns F) := by
  have hpoint : ∀ loc, Keeps (Books F 0 0 none) ((c.env r).pt loc) (Owns F) :=
    keeps_point hk (fun _ hs => hs.owned) fun _ _ hs h => hs.swept h
  refine triple_bind (triple_findEmptyEvent (hpoint _)) fun i => triple_whenever (fun h0 => ?_)
    fun _ _ hs => hs.1
  refine Triple.weaken_pre (P := fun s => Reserved F i s ∧ InRange numEvents i) ?_ fun s hs => ?_
  swap
  · rcases hs.2 with h | ⟨hi, hoff⟩
    · omega
    · exact ⟨⟨hs.1, by simpa using hoff⟩, hi⟩
  refine triple_of_pure_right fun hi => triple_bind (reserved_point hk i _) fun _ => triple_bind
    (keeps_setEvent_reserved fun _ => ⟨rfl, rfl, rfl, rfl⟩) fun _ => ?_
  refine triple_bind (openAttempts_books hk i _) fun o => triple_bind (keeps_point hk
    (fun _ hs => hs.1.1.owned) (fun _ _ hs h => ⟨hs.1.swept h, fun ho =>
      (hs.2 ho).fades h.toFades⟩) _) fun _ => triple_whenever (fun ho => ?_) fun _ _ hs => hs.1.1
  exact (enterEvent_books hk hi o).weaken_pre fun _ hs => ⟨hs.1, hs.2 (by omega)⟩

end Booked

end PerfEvent.Fuzzer
