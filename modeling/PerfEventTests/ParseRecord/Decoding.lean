import Mathlib.Data.List.Induction
import PerfEventTests.ParseRecord.Fields

/-!
# What the reader makes of an encoding

`Reads env p bs out errs`: where the bytes `bs` stand, the part goes over them, prints `out` and
reports `errs`. Parts that read an encoding compose as the encoding does. A part that is the last
one need not go over all of its bytes: then it only shows them.
-/

namespace PerfEvent.ParseRecord

open ByteMemory

/-- What is in a list that is there only under a condition. -/
def onlyIf {α : Type} (present : Bool) (xs : List α) : List α := if present then xs else []

/-- Where `bs` stands, the part prints `out` and reports `errs`. -/
def Shows (env : Env) (p : Part) (bs : Bytes) (out : List Printed) (errs : List ValidateError) :
    Prop :=
  ∀ a, env.data.Holds a bs → (p a).printed = out ∧ (p a).errors = errs

/-- Where `bs` stands, the part also goes over it. -/
structure Reads (env : Env) (p : Part) (bs : Bytes) (out : List Printed)
    (errs : List ValidateError) : Prop where
  shows : Shows env p bs out errs
  size : ∀ a, env.data.Holds a bs → (p a).size = bs.length

variable {env : Env} {p q : Part} {bs bs' : Bytes} {out out' : List Printed}
  {errs errs' : List ValidateError}

namespace Shows

/-- What stands behind the bytes that are needed does not matter. -/
theorem append_right (h : Shows env p bs out errs) (rest : Bytes) :
    Shows env p (bs ++ rest) out errs :=
  fun a ha => h a (Mem.holds_append.1 ha).1

theorem onBit {flags mask : Nat} (h : Shows env p bs out errs) :
    Shows env (Part.onBit flags mask p) (opt (bitAnd flags mask) bs)
      (onlyIf (bitAnd flags mask) out) (onlyIf (bitAnd flags mask) errs) := by
  unfold Part.onBit opt onlyIf
  split
  · exact h
  · exact fun _ _ => ⟨rfl, rfl⟩

end Shows

namespace Reads

theorem nil : Reads env Part.nil [] [] [] :=
  ⟨fun _ _ => ⟨rfl, rfl⟩, fun _ _ => rfl⟩

theorem seq_shows (hp : Reads env p bs out errs) (hq : Shows env q bs' out' errs') :
    Shows env (p.seq q) (bs ++ bs') (out ++ out') (errs ++ errs') := by
  intro a ha
  obtain ⟨hbs, hbs'⟩ := Mem.holds_append.1 ha
  obtain ⟨hout, herrs⟩ := hp.shows a hbs
  obtain ⟨hout', herrs'⟩ := hq _ hbs'
  rw [← hp.size a hbs] at hout' herrs'
  exact ⟨congrArg₂ (· ++ ·) hout hout', congrArg₂ (· ++ ·) herrs herrs'⟩

theorem seq (hp : Reads env p bs out errs) (hq : Reads env q bs' out' errs') :
    Reads env (p.seq q) (bs ++ bs') (out ++ out') (errs ++ errs') := by
  refine ⟨hp.seq_shows hq.shows, fun a ha => ?_⟩
  obtain ⟨hbs, hbs'⟩ := Mem.holds_append.1 ha
  have hsize := hp.size a hbs
  have hsize' := hq.size _ hbs'
  rw [← hsize] at hsize'
  change (p a).size + (q (a + (p a).size)).size = _
  rw [hsize', hsize, List.length_append]
  push_cast
  rfl

theorem onBit {flags mask : Nat} (h : Reads env p bs out errs) :
    Reads env (Part.onBit flags mask p) (opt (bitAnd flags mask) bs)
      (onlyIf (bitAnd flags mask) out) (onlyIf (bitAnd flags mask) errs) := by
  refine ⟨h.shows.onBit, ?_⟩
  unfold Part.onBit opt
  split
  · exact h.size
  · exact fun _ _ => rfl

/-- One part for each element, in a row. -/
theorem times {α : Type} {f : α → Bytes} {g : α → List Printed} {e : α → List ValidateError}
    (xs : List α) (h : ∀ x ∈ xs, Reads env p (f x) (g x) (e x)) :
    Reads env (Part.times xs.length fun _ => p) (xs.flatMap f) (xs.flatMap g) (xs.flatMap e) := by
  induction xs using List.reverseRecOn with
  | nil => exact nil
  | append_singleton xs x ih =>
    rw [List.length_append, List.flatMap_append, List.flatMap_append, List.flatMap_append,
      List.flatMap_singleton, List.flatMap_singleton, List.flatMap_singleton]
    exact (ih fun y hy => h y (List.mem_append_left _ hy)).seq
      (h x (List.mem_append_right _ (List.mem_singleton_self x)))

/-- Parts in a row that report nothing. -/
theorem times_silent {α : Type} {f : α → Bytes} {g : α → List Printed} (xs : List α)
    (h : ∀ x ∈ xs, Reads env p (f x) (g x) []) :
    Reads env (Part.times xs.length fun _ => p) (xs.flatMap f) (xs.flatMap g) [] := by
  have htimes := times (e := fun _ => []) xs h
  rw [List.flatMap_eq_nil_iff.2 fun _ _ => rfl] at htimes
  exact htimes

/-- A part without bytes. -/
theorem of_nothing (hsize : ∀ a, (p a).size = 0) (hout : ∀ a, (p a).printed = out)
    (herrs : ∀ a, (p a).errors = errs) : Reads env p [] out errs :=
  ⟨fun a _ => ⟨hout a, herrs a⟩, fun a _ => hsize a⟩

theorem enter (n : Int) : Reads env (Part.enter n) [] [] [] :=
  of_nothing (fun _ => rfl) (fun _ => rfl) fun _ => rfl

theorem enterWords (n : Int) : Reads env (Part.enterWords n) [] [] [] :=
  of_nothing (fun _ => rfl) (fun _ => rfl) fun _ => rfl

theorem check (f : ValidateValues → Option ValidateError) :
    Reads env (Part.check env f) [] [] (env.validate.bind f).toList :=
  of_nothing (fun _ => rfl) (fun _ => rfl) fun _ => rfl

end Reads

/-- The signed value of a word that stands at a position. -/
theorem value_of_holds {n v : Nat} {a : Int} (h : env.data.Holds a (le n v ++ bs))
    (hv : v < 256 ^ n) : env.value n a = toSigned (8 * n) v := by
  unfold Env.value
  rw [h.word_eq hv]

/-- A value that is read before the rest is known from the encoding. -/
theorem Reads.value {n v : Nat} {p : Int → Part} (hv : v < 256 ^ n)
    (h : Reads env (p (toSigned (8 * n) v)) (le n v ++ bs) out errs) :
    Reads env (fun a => p (env.value n a) a) (le n v ++ bs) out errs := by
  constructor
  · intro a ha
    have hshows := h.shows a ha
    rw [← value_of_holds ha hv] at hshows
    exact hshows
  · intro a ha
    have hsize := h.size a ha
    rw [← value_of_holds ha hv] at hsize
    exact hsize

theorem Reads.word {n v : Nat} {p : Nat → Part}
    (hv : ∀ a, env.data.Holds a bs → env.data.word n a = v) (h : Reads env (p v) bs out errs) :
    Reads env (fun a => p (env.data.word n a) a) bs out errs := by
  constructor
  · intro a ha
    have hshows := h.shows a ha
    rw [← hv a ha] at hshows
    exact hshows
  · intro a ha
    have hsize := h.size a ha
    rw [← hv a ha] at hsize
    exact hsize

theorem Shows.value {n v : Nat} {p : Int → Part} (hv : v < 256 ^ n)
    (h : Shows env (p (toSigned (8 * n) v)) (le n v ++ bs) out errs) :
    Shows env (fun a => p (env.value n a) a) (le n v ++ bs) out errs := by
  intro a ha
  have hshows := h a ha
  rw [← value_of_holds ha hv] at hshows
  exact hshows

/-- A number of `n` bytes, as it is printed. -/
def shownWord (n : Nat) (label : String) (v : Nat) : Printed := .value label (toSigned (8 * n) v)

/-- A field whose value is printed. -/
theorem reads_field (hquiet : env.quiet = false) (n : Nat) (label : String) {v : Nat}
    (hv : v < 256 ^ n) : Reads env (Part.field env n label) (le n v) [shownWord n label v] [] := by
  constructor
  · intro a ha
    rw [← List.append_nil (le n v)] at ha
    refine ⟨?_, rfl⟩
    unfold Part.field Env.shown
    rw [hquiet, value_of_holds ha hv]
    rfl
  · intro a _
    rw [length_le]
    rfl

theorem reads_u64 (hquiet : env.quiet = false) (label : String) (v : UInt64) :
    Reads env (Part.field env 8 label) (u64 v) [shownWord 8 label v.toNat] [] :=
  reads_field hquiet 8 label v.toNat_lt

/-- A field for which names are printed. -/
theorem reads_named (hquiet : env.quiet = false) (label : String) (names : Nat → List String)
    (v : UInt64) : Reads env (Part.named env label names) (u64 v) [.names label (names v.toNat)] [] := by
  constructor
  · intro a ha
    rw [← List.append_nil (u64 v)] at ha
    have hword : env.data.word 8 a = v.toNat := ha.word_eq v.toNat_lt
    refine ⟨?_, rfl⟩
    unfold Part.named Env.shown
    rw [hquiet, hword]
    rfl
  · intro a _
    rw [length_u64]
    rfl

/-! ## The read values -/

def shownMember (a : PerfEventAttr) (m : ReadMember) : List Printed :=
  [shownWord 8 "Value" m.value.toNat] ++
    onlyIf (bitAnd a.readFormat.toNat perfFormatId) [shownWord 8 "id" m.id.toNat]

def shownTimes (a : PerfEventAttr) (r : ReadValues) : List Printed :=
  let has := bitAnd a.readFormat.toNat
  onlyIf (has perfFormatTotalTimeEnabled) [shownWord 8 "enabled" r.timeEnabled.toNat] ++
    onlyIf (has perfFormatTotalTimeRunning) [shownWord 8 "running" r.timeRunning.toNat]

/-- What is printed of a read value: the number of members, the times, and each member's value and
id, or the times and the event's own. -/
def shownRead (a : PerfEventAttr) (r : ReadValues) : List Printed :=
  if bitAnd a.readFormat.toNat perfFormatGroup then
    [shownWord 8 "Number" r.cntr.length] ++ (shownTimes a r ++ r.cntr.flatMap (shownMember a))
  else
    [shownWord 8 "Value" r.own.value.toNat] ++ (shownTimes a r ++
      onlyIf (bitAnd a.readFormat.toNat perfFormatId) [shownWord 8 "id" r.own.id.toNat])

/-- What is reported of it. -/
def reportedRead (a : PerfEventAttr) (r : ReadValues) (validate : Option ValidateValues) :
    List ValidateError :=
  onlyIf (bitAnd a.readFormat.toNat perfFormatGroup)
    (validate.bind (wrongNumber r.cntr.length)).toList

section Read

variable {a : PerfEventAttr} (r : ReadValues)

theorem onlyIf_nil {α : Type} (present : Bool) : onlyIf present ([] : List α) = [] := by
  cases present <;> rfl

theorem timesPart_reads (hquiet : env.quiet = false) (hf : env.readFormat = a.readFormat.toNat) :
    Reads env (timesPart env)
      (opt (bitAnd a.readFormat.toNat perfFormatTotalTimeEnabled) (u64 r.timeEnabled) ++
        opt (bitAnd a.readFormat.toNat perfFormatTotalTimeRunning) (u64 r.timeRunning))
      (shownTimes a r) [] := by
  have h : Reads env (timesPart env) _ _ _ := (reads_u64 hquiet "enabled" r.timeEnabled).onBit.seq
    (reads_u64 hquiet "running" r.timeRunning).onBit
  rw [onlyIf_nil, onlyIf_nil] at h
  unfold shownTimes
  rw [← hf]
  exact h

/-- Where lost counts are not read, a member is its value and its id. -/
theorem readMemberPart_reads (hquiet : env.quiet = false)
    (hf : env.readFormat = a.readFormat.toNat) (m : ReadMember) :
    Reads env (readMemberPart env)
      (u64 m.value ++ opt (bitAnd a.readFormat.toNat perfFormatId) (u64 m.id)) (shownMember a m) [] := by
  have h : Reads env (readMemberPart env) _ _ _ :=
    (reads_u64 hquiet "Value" m.value).seq (reads_u64 hquiet "id" m.id).onBit
  rw [onlyIf_nil] at h
  unfold shownMember
  rw [← hf]
  exact h

theorem encode_member_eq (hlost : bitAnd a.readFormat.toNat perfFormatLost = false)
    (m : ReadMember) : m.encode a =
      u64 m.value ++ opt (bitAnd a.readFormat.toNat perfFormatId) (u64 m.id) := by
  simp [ReadMember.encode, hlost, opt]

theorem groupPart_reads (hquiet : env.quiet = false) (hf : env.readFormat = a.readFormat.toNat)
    (hlost : bitAnd a.readFormat.toNat perfFormatLost = false ∨ r.cntr = [])
    (hn : r.cntr.length < 2 ^ 63) :
    Reads env (groupPart env r.cntr.length)
      (le 8 r.cntr.length ++
        ((opt (bitAnd a.readFormat.toNat perfFormatTotalTimeEnabled) (u64 r.timeEnabled) ++
          opt (bitAnd a.readFormat.toNat perfFormatTotalTimeRunning) (u64 r.timeRunning)) ++
        r.cntr.flatMap (ReadMember.encode a)))
      ([shownWord 8 "Number" r.cntr.length] ++
        (shownTimes a r ++ r.cntr.flatMap (shownMember a)))
      (env.validate.bind (wrongNumber r.cntr.length)).toList := by
  have hmembers : Reads env (Part.times r.cntr.length fun _ => readMemberPart env)
      (r.cntr.flatMap (ReadMember.encode a)) (r.cntr.flatMap (shownMember a)) [] := by
    apply Reads.times_silent
    intro m hm
    obtain hlost | hnil := hlost
    · rw [encode_member_eq hlost m]
      exact readMemberPart_reads hquiet hf m
    · rw [hnil] at hm
      cases hm
  have hnumber : Reads env ((Part.field env 8 "Number").seq
      (Part.check env (wrongNumber r.cntr.length))) (le 8 r.cntr.length ++ []) _ _ :=
    (reads_field hquiet 8 "Number" (by omega)).seq (Reads.check _)
  have h := hnumber.seq ((timesPart_reads r hquiet hf).seq
    ((Reads.enter r.cntr.length).seq hmembers))
  simp only [List.append_nil, List.nil_append] at h
  exact h

theorem encode_group (hgroup : bitAnd a.readFormat.toNat perfFormatGroup = true) :
    r.encode a = le 8 r.cntr.length ++
      ((opt (bitAnd a.readFormat.toNat perfFormatTotalTimeEnabled) (u64 r.timeEnabled) ++
        opt (bitAnd a.readFormat.toNat perfFormatTotalTimeRunning) (u64 r.timeRunning)) ++
      r.cntr.flatMap (ReadMember.encode a)) := by
  simp [ReadValues.encode, hgroup]

theorem encode_single (hgroup : bitAnd a.readFormat.toNat perfFormatGroup = false) :
    r.encode a = u64 r.own.value ++
      ((opt (bitAnd a.readFormat.toNat perfFormatTotalTimeEnabled) (u64 r.timeEnabled) ++
        opt (bitAnd a.readFormat.toNat perfFormatTotalTimeRunning) (u64 r.timeRunning)) ++
      opt (bitAnd a.readFormat.toNat perfFormatId) (u64 r.own.id)) ++
      opt (bitAnd a.readFormat.toNat perfFormatLost) (u64 r.own.lost) := by
  simp [ReadValues.encode, hgroup]

theorem members_le_length (hgroup : bitAnd a.readFormat.toNat perfFormatGroup = true) :
    r.cntr.length ≤ (r.encode a).length := by
  have hmembers := length_readMembers (a := a) r.cntr
  rw [encode_group r hgroup, List.length_append, List.length_append, hmembers]
  have hpos : ∀ x y : Nat, r.cntr.length ≤ r.cntr.length * (8 + x + y) := fun x y =>
    Nat.le_mul_of_pos_right _ (by omega)
  rw [← Nat.add_assoc]
  exact (hpos _ _).trans (Nat.le_add_left _ _)

theorem singlePart_reads (hquiet : env.quiet = false) (hf : env.readFormat = a.readFormat.toNat) :
    Reads env (singlePart env)
      (u64 r.own.value ++
        ((opt (bitAnd a.readFormat.toNat perfFormatTotalTimeEnabled) (u64 r.timeEnabled) ++
          opt (bitAnd a.readFormat.toNat perfFormatTotalTimeRunning) (u64 r.timeRunning)) ++
        opt (bitAnd a.readFormat.toNat perfFormatId) (u64 r.own.id)))
      ([shownWord 8 "Value" r.own.value.toNat] ++ (shownTimes a r ++
        onlyIf (bitAnd a.readFormat.toNat perfFormatId) [shownWord 8 "id" r.own.id.toNat])) [] := by
  have h : Reads env (singlePart env) _ _ _ := (reads_u64 hquiet "Value" r.own.value).seq
    ((timesPart_reads r hquiet hf).seq (reads_u64 hquiet "id" r.own.id).onBit)
  rw [onlyIf_nil, List.nil_append, List.nil_append] at h
  rw [← hf]
  rw [← hf] at h
  exact h

/-- `handle_struct_read_format` on a read value without lost counts. -/
theorem readFormatPart_reads (hquiet : env.quiet = false)
    (hf : env.readFormat = a.readFormat.toNat)
    (hlost : bitAnd a.readFormat.toNat perfFormatLost = false ∨
      (bitAnd a.readFormat.toNat perfFormatGroup = true ∧ r.cntr = []))
    (hn : bitAnd a.readFormat.toNat perfFormatGroup = true → r.cntr.length < 2 ^ 63) :
    Reads env (readFormatPart env) (r.encode a) (shownRead a r) (reportedRead a r env.validate) := by
  unfold readFormatPart shownRead reportedRead
  rw [hf]
  cases hgroup : bitAnd a.readFormat.toNat perfFormatGroup with
  | true =>
    have hlt := hn hgroup
    have hread := groupPart_reads r hquiet hf (hlost.imp_right And.right) hlt
    have hsigned : toSigned (8 * 8) (r.cntr.length : Int) = r.cntr.length :=
      toInt64_of_range (by omega) (by omega)
    have hpart := congrArg (groupPart env) hsigned
    rw [encode_group r hgroup]
    rw [← hpart] at hread
    exact Reads.value (p := groupPart env) (v := r.cntr.length) (by omega) hread
  | false =>
    obtain hlost | ⟨htrue, -⟩ := hlost
    · rw [encode_single r hgroup, hlost]
      have h := singlePart_reads r hquiet hf
      rw [← List.append_nil (_ ++ (_ ++ opt _ (u64 r.own.id)))] at h
      exact h
    · rw [hgroup] at htrue
      cases htrue

end Read

end PerfEvent.ParseRecord
