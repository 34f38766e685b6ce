import PerfEventTests.Fuzzer.Counters

/-!
# The sizes of groups

What the table has about the group of each active event, as a table of its own. An operation
closes one event, or opens one and counts it for the leader it names, or closes all events; when
the numbers and the read sizes are still right behind it can be read off what was closed and opened.
-/

namespace PerfEvent.Fuzzer

/-! ## The table of groups -/

/-- What an active slot has about its group. -/
structure Entry where
  fd : Int
  serial : Nat
  groupFd : BitVec 32
  flags : BitVec 64
  readFormat : BitVec 64
  number : Int
  readSize : Int

def EventData.entry (ev : EventData) : Entry where
  fd := ev.fd
  serial := ev.serial
  groupFd := ev.groupFd
  flags := ev.flags
  readFormat := ev.attr.readFormat
  number := ev.numberInGroup
  readSize := ev.readSize

abbrev GroupTable : Type := Int → Option Entry

def groups (s : St) : GroupTable := fun i =>
  if (s.eventData i).active then some (s.eventData i).entry else none

/-- `PERF_FLAG_FD_NO_GROUP`: the descriptor that is named is not that of a group. -/
def Entry.NoGroup (x : Entry) : Prop := x.flags &&& 1 ≠ 0

instance (x : Entry) : Decidable x.NoGroup := inferInstanceAs (Decidable (_ ≠ _))

/-- The event was opened as the leader of a group of its own. -/
def Entry.Leads (x : Entry) : Prop := x.groupFd = -1 ∨ x.NoGroup

instance (x : Entry) : Decidable x.Leads := inferInstanceAs (Decidable (_ ∨ _))

/-- The event was opened into the group of `y`: it names its descriptor, and `y` was there. -/
def Entry.MemberOf (x y : Entry) : Prop :=
  ¬x.Leads ∧ x.groupFd.toInt = y.fd ∧ y.serial < x.serial

instance (x y : Entry) : Decidable (x.MemberOf y) := inferInstanceAs (Decidable (_ ∧ _))

def MemberAt (t : GroupTable) (y : Entry) (i : Int) : Prop := ∃ x ∈ t i, x.MemberOf y

instance (t : GroupTable) (y : Entry) (i : Int) : Decidable (MemberAt t y i) :=
  match h : t i with
  | none => .isFalse fun ⟨_, hx, _⟩ => nomatch h.symm.trans hx
  | some x => decidable_of_iff (x.MemberOf y)
    ⟨fun hm => ⟨x, h, hm⟩, fun ⟨_, hx, hm⟩ => Option.some.inj (h.symm.trans hx) ▸ hm⟩

/-- The active events of the group of a leader, the leader included. -/
def groupSize (t : GroupTable) (y : Entry) : Nat :=
  1 + Nat.count (fun k => MemberAt t y k) numEvents

/-- The bytes that a `read` returns for a group of `n` events: the number, the times and, for each
event, the value with its identifier and its lost count; without `PERF_FORMAT_GROUP` all of it
once. -/
def readBytes (readFormat : BitVec 64) (n : Int) : Int :=
  let has (bit : BitVec 64) : Int := if readFormat &&& bit = 0 then 0 else 1
  if readFormat &&& 8 = 0 then 8 * (1 + has 1 + has 2 + has 4 + has 16)
  else 8 * (1 + has 1 + has 2 + n * (1 + has 4 + has 16))

/-- Each leader has the number of its group, and the size of a read on it. -/
def Sized (t : GroupTable) : Prop := ∀ i, ∀ y ∈ t i, y.Leads →
  y.number = groupSize t y ∧ y.readSize = readBytes y.readFormat (groupSize t y)

/-! ## What happens to the table -/

/-- What `update_read_size` gives. -/
def sizeFor (readFormat : BitVec 64) (n : Int) : Int :=
  updateReadSize { attr := { readFormat := readFormat }, numberInGroup := n }

/-- One event more is counted. -/
def Entry.grown (x : Entry) : Entry :=
  { x with number := x.number + 1, readSize := sizeFor x.readFormat (x.number + 1) }

def GroupTable.set (t : GroupTable) (i : Int) (x : Option Entry) : GroupTable :=
  fun k => if k = i then x else t k

def GroupTable.grow (t : GroupTable) (j : Int) : GroupTable := t.set j ((t j).map Entry.grown)

/-- The search for the descriptor that the new event names. -/
inductive Joins (t : GroupTable) (x : Entry) : GroupTable → Prop
  | alone (h : x.groupFd = -1) : Joins t x t
  | self (h : x.groupFd.toInt = x.fd) : Joins t x t
  | lost (h : ∀ j, ∀ y ∈ t j, y.fd ≠ x.groupFd.toInt) : Joins t x t
  | found (j : Int) (y : Entry) (hgroup : x.groupFd ≠ -1) (hj : t j = some y)
      (hfd : y.fd = x.groupFd.toInt) : Joins t x (t.grow j)

/-- From one table to the next; `n` is the serial number of a new event. -/
inductive GroupStep (n : Nat) (t : GroupTable) : GroupTable → Prop
  | same : GroupStep n t t
  | close (i : Int) : GroupStep n t (t.set i none)
  | clear (t' : GroupTable) (h : ∀ i, t' i = none) : GroupStep n t t'
  | enter (i : Int) (x : Entry) (t' : GroupTable) (hfree : t i = none)
      (hrange : InRange numEvents i) (hserial : x.serial = n) (hnumber : x.number = 1)
      (hsize : x.readSize = sizeFor x.readFormat 1) (hjoin : Joins t x t') :
      GroupStep n t (t'.set i (some x))

/-- The slots of the table, each with a descriptor and a serial number of its own. -/
structure Distinct (n : Nat) (t : GroupTable) : Prop where
  range : ∀ i, ∀ x ∈ t i, InRange numEvents i
  fd : ∀ i j, ∀ x ∈ t i, ∀ y ∈ t j, x.fd = y.fd → i = j
  serial : ∀ i, ∀ x ∈ t i, x.serial < n

/-- No member is closed before its leader, and no event is opened that names the descriptor of a
leader, unless it joins its group and the leader is read without `PERF_FORMAT_GROUP`. -/
structure Orderly (t t' : GroupTable) : Prop where
  closes : ∀ i j, ∀ x ∈ t i, ∀ y ∈ t j, y.Leads → x.MemberOf y → t' j ≠ none → t' i ≠ none
  opens : ∀ i j, t i = none → ∀ x ∈ t' i, ∀ y ∈ t j, y.Leads → x.groupFd ≠ -1 →
    x.groupFd.toInt = y.fd → ¬x.NoGroup ∧ y.readFormat &&& 8 = 0

/-! ## The read size -/

/-- With `PERF_FORMAT_GROUP` the value is counted once only. -/
theorem sizeFor_eq_iff (readFormat : BitVec 64) (n : Int) :
    sizeFor readFormat n = readBytes readFormat n ↔ readFormat &&& 8 = 0 ∨ n = 1 := by
  unfold sizeFor updateReadSize readBytes
  dsimp only
  by_cases hgroup : readFormat &&& 8 = 0
  · rw [if_pos hgroup, if_pos hgroup, Int.mul_comm]
    exact iff_of_true rfl (.inl hgroup)
  · rw [if_neg hgroup, if_neg hgroup]
    simp only [hgroup, false_or]
    split_ifs <;> omega

/-! ## Counting -/

section Counting

variable {t t' : GroupTable} {y : Entry} {i : Int}

theorem groupSize_congr (h : ∀ k : Nat, k < numEvents → (MemberAt t y k ↔ MemberAt t' y k)) :
    groupSize t y = groupSize t' y := congrArg (1 + ·) (Programs.count_congr h)

/-- One member less. -/
theorem groupSize_remove (hi : InRange numEvents i) (hmember : MemberAt t y i)
    (hgone : ¬MemberAt t' y i) (h : ∀ k, k ≠ i → (MemberAt t y k ↔ MemberAt t' y k)) :
    groupSize t y = groupSize t' y + 1 := by
  obtain ⟨n, rfl⟩ := Int.eq_ofNat_of_zero_le hi.1
  have hcount := Programs.count_remove (p := fun k : Nat => MemberAt t y k)
    (q := fun k : Nat => MemberAt t' y k) (Int.ofNat_lt.1 hi.2) hmember hgone
    fun k _ hk => h k fun heq => hk (Int.ofNat_inj.1 heq)
  unfold groupSize
  omega

theorem memberAt_set_self (x : Option Entry) :
    MemberAt (t.set i x) y i ↔ ∃ z ∈ x, z.MemberOf y := by
  unfold MemberAt GroupTable.set
  rw [if_pos rfl]

theorem memberAt_set_other {k : Int} (hk : k ≠ i) (x : Option Entry) :
    MemberAt (t.set i x) y k ↔ MemberAt t y k := by
  unfold MemberAt GroupTable.set
  rw [if_neg hk]

end Counting

/-! ## One step -/

section Step

variable {n : Nat} {t t' : GroupTable} {i j : Int} {x y : Entry}

theorem set_self (x : Option Entry) : t.set i x i = x := if_pos rfl

theorem set_other (h : j ≠ i) (x : Option Entry) : t.set i x j = t j := if_neg h

theorem set_set (x y : Option Entry) : (t.set i x).set i y = t.set i y := by
  funext k
  by_cases hki : k = i
  · rw [hki, set_self, set_self]
  · rw [set_other hki, set_other hki, set_other hki]

/-- The search looks at the descriptors only. -/
theorem Joins.of_fd (h : Joins t x t') {z : Entry} (hgroup : z.groupFd = x.groupFd)
    (hfd : z.fd = x.fd) : Joins t z t' := by
  cases h with
  | alone h => exact .alone (hgroup.trans h)
  | self h => exact .self (by rw [hgroup, hfd, h])
  | lost h => exact .lost (by rw [hgroup]; exact h)
  | found j y hne hj hfd => exact .found j y (hgroup ▸ hne) hj (by rw [hgroup]; exact hfd)

theorem grow_other (h : i ≠ j) : t.grow j i = t i := set_other h _

theorem grow_self (hj : t j = some y) : t.grow j j = some y.grown := by
  unfold GroupTable.grow
  rw [set_self, hj]
  rfl

/-- The members are those that they were, wherever a slot holds the same event. -/
theorem memberAt_grow (z : Entry) (i : Int) : MemberAt (t.grow j) z i ↔ MemberAt t z i := by
  by_cases hij : i = j
  · subst hij
    unfold MemberAt GroupTable.grow
    rw [set_self]
    cases t i with
    | none => exact Iff.rfl
    | some x =>
      constructor
      · rintro ⟨_, hx, hm⟩
        cases hx
        exact ⟨x, rfl, hm⟩
      · rintro ⟨_, hx, hm⟩
        cases hx
        exact ⟨x.grown, rfl, hm⟩
  · unfold MemberAt
    rw [grow_other hij]

theorem not_memberAt_none (h : t i = none) : ¬MemberAt t y i := by
  rintro ⟨x, hx, -⟩
  rw [h] at hx
  exact nomatch hx

theorem sized_same (hs : Sized t) : Sized t ↔ Orderly t t := by
  refine iff_of_true hs ⟨fun i j x hx _ _ _ _ _ => ?_, fun i j hnone x hx => ?_⟩
  · rw [hx]
    exact Option.some_ne_none x
  · rw [hnone] at hx
    exact nomatch hx

theorem sized_clear (h : ∀ i, t' i = none) : Sized t' ↔ Orderly t t' := by
  have hno : ∀ i, ∀ x ∈ t' i, False := by
    intro i x hx
    rw [h i] at hx
    exact nomatch hx
  refine iff_of_true (fun i x hx => (hno i x hx).elim) ⟨fun _ j _ _ _ _ _ _ hj => ?_, ?_⟩
  · exact absurd (h j) hj
  · exact fun i _ _ x hx => (hno i x hx).elim

theorem sized_close (hd : Distinct n t) (hs : Sized t) (i : Int) :
    Sized (t.set i none) ↔ Orderly t (t.set i none) := by
  constructor
  · intro hsized
    refine ⟨fun k j x hx y hy hleads hmember hj hk => ?_, fun k j hnone x hx => ?_⟩
    · -- the member that is closed is still counted
      have hki : k = i := by
        by_contra hki
        rw [set_other hki, hx] at hk
        exact Option.some_ne_none x hk
      subst hki
      have hjk : j ≠ k := by
        rintro rfl
        exact hj (set_self none)
      have hyj : y ∈ t.set k none j := by
        rw [set_other hjk]
        exact hy
      have hgone : ¬MemberAt (t.set k none) y k := not_memberAt_none (set_self none)
      have hsize := groupSize_remove (hd.range k x hx) ⟨x, hx, hmember⟩ hgone
        fun m hm => (memberAt_set_other hm none).symm
      have hbefore := (hs j y hy hleads).1
      have hafter := (hsized j y hyj hleads).1
      omega
    · by_cases hki : k = i
      · subst hki
        rw [set_self] at hx
        exact nomatch hx
      · rw [set_other hki, hnone] at hx
        exact nomatch hx
  · intro horderly j y hy hleads
    have hji : j ≠ i := by
      rintro rfl
      rw [set_self] at hy
      exact nomatch hy
    have hyj : y ∈ t j := by rwa [set_other hji] at hy
    have hsame : groupSize (t.set i none) y = groupSize t y := by
      apply groupSize_congr
      intro k _
      by_cases hki : (k : Int) = i
      · rw [hki]
        refine iff_of_false (not_memberAt_none (set_self none)) ?_
        rintro ⟨x, hx, hmember⟩
        refine horderly.closes i j x hx y hyj hleads hmember ?_ (set_self none)
        rw [hy]
        exact Option.some_ne_none y
      · exact memberAt_set_other hki none
    rw [hsame]
    exact hs j y hyj hleads

/-- The sizes behind an opening, for the leaders that are not looked up. -/
theorem groupSize_enter (hfree : t i = none) (hm : ¬x.MemberOf y) :
    groupSize (t.set i (some x)) y = groupSize t y := by
  apply groupSize_congr
  intro k _
  by_cases hki : (k : Int) = i
  · rw [hki, memberAt_set_self]
    refine iff_of_false ?_ (not_memberAt_none hfree)
    rintro ⟨_, hx, hmember⟩
    cases hx
    exact hm hmember
  · exact memberAt_set_other hki _

theorem groupSize_join (hrange : InRange numEvents i) (hfree : t i = none) (hm : x.MemberOf y) :
    groupSize (t.set i (some x)) y = groupSize t y + 1 := by
  have hself : MemberAt (t.set i (some x)) y i := (memberAt_set_self _).2 ⟨x, rfl, hm⟩
  exact groupSize_remove hrange hself (not_memberAt_none hfree)
    fun k hk => memberAt_set_other hk _

/-- A new event has no members. -/
theorem groupSize_new (hd : Distinct n t) (hserial : x.serial = n) :
    groupSize (t.set i (some x)) x = 1 := by
  have hnone : ∀ k : Nat, k < numEvents → ¬MemberAt (t.set i (some x)) x k := by
    rintro k - ⟨z, hz, -, -, hlt⟩
    by_cases hki : (k : Int) = i
    · rw [hki, set_self] at hz
      cases hz
      exact lt_irrefl _ hlt
    · rw [set_other hki] at hz
      have := hd.serial k z hz
      omega
  unfold groupSize
  rw [Nat.count_iff_forall_not.2 hnone]

/-- The sizes of an event that has just been opened. -/
theorem sized_new (hd : Distinct n t) (hserial : x.serial = n)
    (hnumber : x.number = 1) (hsize : x.readSize = sizeFor x.readFormat 1) :
    x.number = groupSize (t.set i (some x)) x ∧
      x.readSize = readBytes x.readFormat (groupSize (t.set i (some x)) x) := by
  rw [groupSize_new hd hserial]
  exact ⟨hnumber, hsize.trans ((sizeFor_eq_iff _ _).2 (.inr rfl))⟩

/-- The event names no leader's descriptor. -/
theorem sized_enter (hd : Distinct n t) (hs : Sized t) (hfree : t i = none)
    (hserial : x.serial = n) (hnumber : x.number = 1) (hsize : x.readSize = sizeFor x.readFormat 1)
    (hno : ∀ j, ∀ y ∈ t j, y.Leads → x.groupFd ≠ -1 → x.groupFd.toInt ≠ y.fd) :
    Sized (t.set i (some x)) ↔ Orderly t (t.set i (some x)) := by
  refine iff_of_true (fun j y hy hleads => ?_) ⟨fun k j z hz _ _ _ _ _ => ?_, ?_⟩
  · by_cases hji : j = i
    · subst hji
      rw [set_self] at hy
      cases hy
      exact sized_new hd hserial hnumber hsize
    · rw [set_other hji] at hy
      have hm : ¬x.MemberOf y := fun hm => hno j y hy hleads (fun h => hm.1 (.inl h)) hm.2.1
      rw [groupSize_enter hfree hm]
      exact hs j y hy hleads
  · by_cases hki : k = i
    · rw [hki, set_self]
      exact Option.some_ne_none x
    · rw [set_other hki, hz]
      exact Option.some_ne_none z
  · intro k j hnone z hz y hy hleads hgroup hfd
    by_cases hki : k = i
    · rw [hki, set_self] at hz
      cases hz
      exact absurd hfd (hno j y hy hleads hgroup)
    · rw [set_other hki, hnone] at hz
      exact nomatch hz

theorem groupSize_grow (z : Entry) :
    groupSize ((t.grow j).set i (some x)) z = groupSize (t.set i (some x)) z := by
  apply groupSize_congr
  intro k _
  by_cases hki : (k : Int) = i
  · rw [hki, memberAt_set_self, memberAt_set_self]
  · rw [memberAt_set_other hki, memberAt_set_other hki, memberAt_grow]

theorem memberOf_iff (hd : Distinct n t) (hserial : x.serial = n) (hgroup : x.groupFd ≠ -1)
    (hj : t j = some y) (hfd : y.fd = x.groupFd.toInt) : x.MemberOf y ↔ ¬x.NoGroup := by
  constructor
  · exact fun hm hno => hm.1 (.inr hno)
  · refine fun hno => ⟨fun hleads => hleads.elim hgroup hno, hfd.symm, ?_⟩
    rw [hserial]
    exact hd.serial j y hj

/-- What the leader that was looked up has behind the opening. -/
theorem leader_sized_iff (hd : Distinct n t) (hs : Sized t) (hrange : InRange numEvents i)
    (hfree : t i = none) (hserial : x.serial = n) (hgroup : x.groupFd ≠ -1) (hj : t j = some y)
    (hfd : y.fd = x.groupFd.toInt) (hleads : y.Leads) :
    (y.grown.number = groupSize (t.set i (some x)) y ∧ y.grown.readSize =
      readBytes y.readFormat (groupSize (t.set i (some x)) y)) ↔
        ¬x.NoGroup ∧ y.readFormat &&& 8 = 0 := by
  have hmember := memberOf_iff hd hserial hgroup hj hfd
  have hnumber : y.number = groupSize t y := (hs j y hj hleads).1
  have hgrown : y.grown.number = y.number + 1 := rfl
  by_cases hno : x.NoGroup
  · rw [groupSize_enter hfree fun hm => hmember.1 hm hno, hgrown]
    refine iff_of_false (fun h => ?_) fun h => h.1 hno
    have := h.1
    omega
  · have hjoined := groupSize_join hrange hfree (hmember.2 hno)
    have hcast : ((groupSize t y + 1 : Nat) : Int) = y.number + 1 := by
      rw [hnumber, Int.natCast_add]
      rfl
    have hsize : y.grown.readSize = sizeFor y.readFormat (y.number + 1) := rfl
    have hpos : 1 ≤ groupSize t y := Nat.le_add_right 1 _
    rw [hjoined, hcast, hgrown, hsize, and_iff_right hno, and_iff_right rfl, sizeFor_eq_iff]
    refine or_iff_left fun h => ?_
    omega

theorem sized_found (hd : Distinct n t) (hs : Sized t) (hrange : InRange numEvents i)
    (hfree : t i = none) (hserial : x.serial = n) (hnumber : x.number = 1)
    (hsize : x.readSize = sizeFor x.readFormat 1) (hgroup : x.groupFd ≠ -1) (hj : t j = some y)
    (hfd : y.fd = x.groupFd.toInt) :
    Sized ((t.grow j).set i (some x)) ↔ Orderly t ((t.grow j).set i (some x)) := by
  have hij : i ≠ j := by
    rintro rfl
    exact nomatch hfree.symm.trans hj
  have hother : ∀ k, k ≠ i → k ≠ j → (t.grow j).set i (some x) k = t k := fun k hki hkj => by
    rw [set_other hki, grow_other hkj]
  have hleader : (t.grow j).set i (some x) j = some y.grown := by
    rw [set_other hij.symm, grow_self hj]
  have honly : ∀ k, ∀ z ∈ t k, x.groupFd.toInt = z.fd → k = j := fun k z hz hzfd =>
    hd.fd k j z hz y hj (hzfd.symm.trans hfd.symm)
  constructor
  · intro hsized
    refine ⟨fun k _ z hz _ _ _ _ _ => ?_, fun k m hnone z hz w hw hleads hgroup' hzfd => ?_⟩
    · by_cases hki : k = i
      · rw [hki, set_self]
        exact Option.some_ne_none x
      · by_cases hkj : k = j
        · rw [hkj, hleader]
          exact Option.some_ne_none _
        · rw [hother k hki hkj, hz]
          exact Option.some_ne_none z
    · have hki : k = i := by
        by_contra hki
        by_cases hkj : k = j
        · rw [hkj] at hnone
          exact nomatch hnone.symm.trans hj
        · rw [hother k hki hkj, hnone] at hz
          exact nomatch hz
      subst hki
      rw [set_self] at hz
      cases hz
      obtain rfl := honly m w hw hzfd
      obtain rfl : y = w := Option.some.inj (hj.symm.trans hw)
      have hgrown := hsized m y.grown hleader hleads
      rw [groupSize_grow] at hgrown
      exact (leader_sized_iff hd hs hrange hfree hserial hgroup hj hfd hleads).1 hgrown
  · intro horderly k z hz hleads
    rw [groupSize_grow]
    by_cases hki : k = i
    · rw [hki, set_self] at hz
      cases hz
      exact sized_new hd hserial hnumber hsize
    · by_cases hkj : k = j
      · rw [hkj, hleader] at hz
        cases hz
        have hopens := horderly.opens i j hfree x (set_self _) y hj hleads hgroup hfd.symm
        exact (leader_sized_iff hd hs hrange hfree hserial hgroup hj hfd hleads).2 hopens
      · rw [hother k hki hkj] at hz
        have hm : ¬x.MemberOf z := fun hm => hkj (honly k z hz hm.2.1)
        rw [groupSize_enter hfree hm]
        exact hs k z hz hleads

/-- The step lemma: what is right stays right exactly in an orderly step. -/
theorem sized_step_iff {m : Nat} (hd : Distinct n t) (hd' : Distinct m t') (hs : Sized t)
    (h : GroupStep n t t') : Sized t' ↔ Orderly t t' := by
  cases h with
  | same => exact sized_same hs
  | close i => exact sized_close hd hs i
  | clear _ h => exact sized_clear h
  | enter i x u hfree hrange hserial hnumber hsize hjoin =>
    cases hjoin with
    | alone h =>
      exact sized_enter hd hs hfree hserial hnumber hsize fun _ _ _ _ hgroup => absurd h hgroup
    | self h =>
      refine sized_enter hd hs hfree hserial hnumber hsize fun j y hy _ _ hfd => ?_
      have hji : j ≠ i := by
        rintro rfl
        exact nomatch hfree.symm.trans hy
      have hyj : t.set i (some x) j = some y := (set_other hji _).trans hy
      exact hji (hd'.fd j i y hyj x (set_self _) (hfd.symm.trans h))
    | lost h =>
      exact sized_enter hd hs hfree hserial hnumber hsize fun j y hy _ _ hfd => h j y hy hfd.symm
    | found j y hgroup hj hfd =>
      exact sized_found hd hs hrange hfree hserial hnumber hsize hgroup hj hfd

end Step

end PerfEvent.Fuzzer
