import PerfEventTests.TraceEvents.Declarations

/-!
# The table of the trace events

What `init_trace_events` records of the format files of a system, and what `dump_trace_header` makes of
it.
-/

namespace PerfEvent.TraceEvents

open Text

/-! ## Format files -/

/-- A line of a format file, as `fgets` gives it: a field, or anything else. -/
inductive FormatLine where
  | field (f : FieldLine) (fits : f.text.length < bufsiz)
  | other (text : Str) (framed : Framed bufsiz text) (unmarked : fieldMark.isPrefixOf text = false)

namespace FormatLine

def text : FormatLine → Str
  | field f _ => f.text
  | other text _ _ => text

def field? : FormatLine → Option FieldLine
  | field f _ => some f
  | other .. => none

end FormatLine

def fieldsOf (lines : List FormatLine) : List FieldLine := lines.filterMap FormatLine.field?

structure Tracepoint where
  name : Str
  id : Int
  lines : List FormatLine

namespace Tracepoint

variable (t : Tracepoint)

def fields : List FieldLine := fieldsOf t.lines

def dir : SubeventDir := ⟨t.name, t.id, (t.lines.map FormatLine.text).flatten⟩

/-- What is to be recorded: each field with its name and its kind. -/
def declared : Subevent where
  name := some t.name
  id := t.id
  numFormats := t.fields.length
  format := t.fields.map fun f => f.declaration.formatType

end Tracepoint

/-- The tracepoints of a part of the kernel. -/
structure System where
  name : Str
  tracepoints : List Tracepoint

namespace System

variable (s : System)

def dir : EventDir := ⟨s.name, s.tracepoints.map Tracepoint.dir⟩

def declared : Event := { name := some s.name, subevents := s.tracepoints.map Tracepoint.declared }

end System

/-- The events that `init_trace_events` leaves, with what `field_name` held before. -/
def eventsOf (systems : List System) (fieldName : Str) : List Event :=
  (initTraceEvents (systems.map System.dir) fieldName).2

/-- Every field is recorded with its name and its kind, nothing is stored behind the end of `format`, and
every type in the header has a name. -/
structure TableRight (systems : List System) (fieldName : Str) : Prop where
  recorded : eventsOf systems fieldName = systems.map System.declared
  bounded : ∀ e ∈ eventsOf systems fieldName, ∀ s ∈ e.subevents, s.format.length ≤ maxFormat
  named : ∀ x ∈ dumpTraceHeader (eventsOf systems fieldName), ∀ f ∈ x.filters, f.typeName ≠ none

/-! ## A file -/

namespace FieldLine

variable (f : FieldLine)

/-- What is stored for a line. -/
def recorded : FormatType := ⟨f.parsed.2, f.parsed.1⟩

theorem recorded_iff : f.recorded = f.declaration.formatType ↔ f.declaration.Found := by
  rw [← f.parsed_iff, Prod.ext_iff]
  unfold recorded Declaration.formatType
  rw [FormatType.mk.injEq]
  exact and_comm

theorem recorded_named : filterTypeName f.recorded.type ≠ none := by
  change filterTypeName f.parsed.1 ≠ none
  rcases f.parsed_type with h | h | h <;>
    · rw [h]
      decide

theorem place_words : ∀ w ∈ f.place, ∀ c ∈ w, isBlank c = false := by
  have hsigned : ∀ c ∈ (if f.signed then "signed:1;".toList else "signed:0;".toList),
      isBlank c = false := by
    cases f.signed <;> simp [isBlank]
  exact List.forall_mem_cons.2 ⟨place_blank _ (by simp [isBlank]) f.offset,
    List.forall_mem_cons.2 ⟨place_blank _ (by simp [isBlank]) f.size,
      List.forall_mem_cons.2 ⟨hsigned, List.forall_mem_nil _⟩⟩⟩

/-- A field is one line. -/
theorem text_framed (fits : f.text.length < bufsiz) : Framed bufsiz f.text := by
  have hblank {c : Char} (h : isBlank c = false) : c ≠ '\n' := by
    rintro rfl
    cases h
  refine .inl ⟨fieldMark ++ (f.declaration.type.flatMap (· ++ [' ']) ++ (f.declarator ++
    f.place.flatMap (fun w => '\t' :: w))), ?_, fun hnewline => ?_, fits⟩
  · unfold text body
    simp only [List.append_assoc]
  · rcases List.mem_append.1 hnewline with h | h
    · revert h
      decide
    · rcases List.mem_append.1 h with h | h
      · obtain ⟨w, hw, hc⟩ := List.mem_flatMap.1 h
        rcases List.mem_append.1 hc with hc | hc
        · exact hblank ((f.declaration.isTypeWord w hw).2 _ hc).1 rfl
        · exact absurd (List.mem_singleton.1 hc) (by decide)
      · rcases List.mem_append.1 h with h | h
        · exact hblank (f.declarator_blank.2 _ h) rfl
        · obtain ⟨w, hw, hc⟩ := List.mem_flatMap.1 h
          rcases List.mem_cons.1 hc with hc | hc
          · exact absurd hc (by decide)
          · exact hblank (f.place_words w hw _ hc) rfl

theorem fieldMark_text : fieldMark.isPrefixOf f.text = true := by
  rw [List.isPrefixOf_iff_prefix]
  exact List.prefix_append fieldMark f.body

theorem drop_text : f.text.drop 7 = f.body := List.drop_left' rfl

end FieldLine

/-- The lines of a file are read one by one. -/
theorem fileLines_text (lines : List FormatLine) :
    fileLines bufsiz (lines.map FormatLine.text).flatten = lines.map FormatLine.text := by
  apply fileLines_framed (by decide)
  intro text htext
  obtain ⟨line, -, rfl⟩ := List.mem_map.1 htext
  cases line with
  | field f fits => exact f.text_framed fits
  | other text framed => exact framed

/-- Where there is room, the fields are stored one after the other. -/
theorem readFormat_fits (lines : List FormatLine) (s : Subevent) (fieldName : Str)
    (hcount : s.numFormats = s.format.length)
    (hroom : s.format.length + (fieldsOf lines).length ≤ maxFormat) :
    ∃ fieldName', readFormat (lines.map FormatLine.text) s fieldName =
      ⟨{ s with
          numFormats := s.format.length + (fieldsOf lines).length
          format := s.format ++ (fieldsOf lines).map FieldLine.recorded }, fieldName', true⟩ := by
  induction lines generalizing s fieldName with
  | nil =>
    refine ⟨fieldName, ?_⟩
    cases s
    dsimp only at hcount
    subst hcount
    simp [readFormat, fieldsOf]
  | cons line lines ih =>
    cases line with
    | other text framed unmarked =>
      have hunmarked : ¬ fieldMark.isPrefixOf text = true := by
        rw [unmarked]
        decide
      obtain ⟨fieldName', hread⟩ := ih s fieldName hcount hroom
      refine ⟨fieldName', Eq.trans ?_ hread⟩
      change readFormat (text :: _) s fieldName = _
      rw [readFormat, if_neg hunmarked]
    | field f fits =>
      have hfields : fieldsOf (.field f fits :: lines) = f :: fieldsOf lines := rfl
      rw [hfields, List.length_cons] at hroom
      obtain ⟨fieldName', hread⟩ := ih
        { s with numFormats := (s.format ++ [f.recorded]).length, format := s.format ++ [f.recorded] }
        f.parsed.2 rfl (by rw [List.length_append, List.length_singleton]; omega)
      refine ⟨fieldName', ?_⟩
      change readFormat (f.text :: _) s fieldName = _
      rw [readFormat, if_pos f.fieldMark_text, f.drop_text, f.parseType_body]
      dsimp only
      rw [if_neg (by rw [List.length_append, List.length_singleton]; omega)]
      refine hread.trans ?_
      rw [hfields, List.length_cons, List.map_cons, List.length_append, List.length_singleton,
        List.append_assoc, List.singleton_append, Nat.add_assoc, Nat.add_comm 1]

/-- Where there is none, a field has been stored behind the end. -/
theorem readFormat_overflows (lines : List FormatLine) (s : Subevent) (fieldName : Str)
    (hs : s.format.length ≤ maxFormat)
    (hroom : maxFormat < s.format.length + (fieldsOf lines).length) :
    maxFormat < (readFormat (lines.map FormatLine.text) s fieldName).result.format.length ∧
      (readFormat (lines.map FormatLine.text) s fieldName).goesOn = false := by
  induction lines generalizing s fieldName with
  | nil =>
    rw [show fieldsOf [] = [] from rfl, List.length_nil] at hroom
    omega
  | cons line lines ih =>
    cases line with
    | other text framed unmarked =>
      have hunmarked : ¬ fieldMark.isPrefixOf text = true := by
        rw [unmarked]
        decide
      change maxFormat < (readFormat (text :: _) s fieldName).result.format.length ∧
        (readFormat (text :: _) s fieldName).goesOn = false
      rw [readFormat, if_neg hunmarked]
      exact ih s fieldName hs hroom
    | field f fits =>
      have hfields : fieldsOf (.field f fits :: lines) = f :: fieldsOf lines := rfl
      rw [hfields, List.length_cons] at hroom
      change maxFormat < (readFormat (f.text :: _) s fieldName).result.format.length ∧
        (readFormat (f.text :: _) s fieldName).goesOn = false
      rw [readFormat, if_pos f.fieldMark_text, f.drop_text, f.parseType_body]
      dsimp only
      have hlength : (s.format ++ [(⟨f.parsed.2, f.parsed.1⟩ : FormatType)]).length =
          s.format.length + 1 := by
        rw [List.length_append, List.length_singleton]
      by_cases hfull : s.format.length + 1 > maxFormat
      · rw [hlength, if_pos hfull]
        dsimp only
        rw [hlength]
        exact ⟨hfull, rfl⟩
      · rw [hlength, if_neg hfull]
        exact ih _ _ (by dsimp only; omega) (by dsimp only; omega)

/-! ## All files -/

namespace Tracepoint

variable (t : Tracepoint)

/-- There is room for the fields. -/
def Fits : Prop := t.fields.length ≤ maxFormat

instance : Decidable t.Fits := inferInstanceAs (Decidable (_ ≤ _))

/-- What is recorded where there is room. -/
def recorded : Subevent where
  name := some t.name
  id := t.id
  numFormats := t.fields.length
  format := t.fields.map FieldLine.recorded

def read (fieldName : Str) : Reading Subevent :=
  readFormat (fileLines bufsiz t.dir.format) { name := some t.dir.name, id := t.dir.id } fieldName

theorem read_fits (h : t.Fits) (fieldName : Str) :
    ∃ fieldName', t.read fieldName = ⟨t.recorded, fieldName', true⟩ := by
  obtain ⟨fieldName', hread⟩ := readFormat_fits t.lines { name := some t.name, id := t.id } fieldName rfl
    (by rw [List.length_nil, Nat.zero_add]; exact h)
  refine ⟨fieldName', ?_⟩
  have hlines : fileLines bufsiz t.dir.format = t.lines.map FormatLine.text := fileLines_text t.lines
  rw [read, hlines]
  refine hread.trans ?_
  rw [List.length_nil, Nat.zero_add, List.nil_append]
  rfl

theorem read_overflows (h : ¬ t.Fits) (fieldName : Str) :
    maxFormat < (t.read fieldName).result.format.length ∧ (t.read fieldName).goesOn = false := by
  have hlines : fileLines bufsiz t.dir.format = t.lines.map FormatLine.text := fileLines_text t.lines
  rw [read, hlines]
  exact readFormat_overflows t.lines _ fieldName (Nat.zero_le _)
    (by rw [List.length_nil, Nat.zero_add]; exact not_le.1 h)

theorem recorded_eq_iff : t.recorded = t.declared ↔ ∀ f ∈ t.fields, f.declaration.Found := by
  have hformat : t.recorded = t.declared ↔
      t.fields.map FieldLine.recorded = t.fields.map fun f => f.declaration.formatType :=
    ⟨fun h => congrArg Subevent.format h, fun h => congrArg (Subevent.mk _ _ _) h⟩
  rw [hformat, List.map_inj_left]
  simp only [FieldLine.recorded_iff]

end Tracepoint

/-- The tracepoints of a directory, up to the first one without room. -/
theorem addSubevents_cons (t : Tracepoint) (ts : List Tracepoint) (fieldName : Str) :
    addSubevents ((t :: ts).map Tracepoint.dir) fieldName =
      if (t.read fieldName).goesOn then
        let rest := addSubevents (ts.map Tracepoint.dir) (t.read fieldName).fieldName
        ⟨(t.read fieldName).result :: rest.result, rest.fieldName, rest.goesOn⟩
      else ⟨(t.read fieldName).result :: (ts.map Tracepoint.dir).map fun _ => {},
        (t.read fieldName).fieldName, false⟩ := rfl

theorem addSubevents_fits {ts : List Tracepoint} (h : ∀ t ∈ ts, t.Fits) (fieldName : Str) :
    ∃ fieldName', addSubevents (ts.map Tracepoint.dir) fieldName =
      ⟨ts.map Tracepoint.recorded, fieldName', true⟩ := by
  induction ts generalizing fieldName with
  | nil => exact ⟨fieldName, rfl⟩
  | cons t ts ih =>
    obtain ⟨ht, hts⟩ := List.forall_mem_cons.1 h
    obtain ⟨fieldName', hread⟩ := t.read_fits ht fieldName
    obtain ⟨fieldName'', hrest⟩ := ih hts fieldName'
    refine ⟨fieldName'', ?_⟩
    rw [addSubevents_cons, hread, if_pos rfl]
    dsimp only
    rw [hrest]
    rfl

theorem addSubevents_overflows {ts : List Tracepoint} (h : ¬ ∀ t ∈ ts, t.Fits) (fieldName : Str) :
    (∃ s ∈ (addSubevents (ts.map Tracepoint.dir) fieldName).result, maxFormat < s.format.length) ∧
      (addSubevents (ts.map Tracepoint.dir) fieldName).goesOn = false := by
  induction ts generalizing fieldName with
  | nil => exact absurd (List.forall_mem_nil _) h
  | cons t ts ih =>
    rw [addSubevents_cons]
    by_cases ht : t.Fits
    · obtain ⟨fieldName', hread⟩ := t.read_fits ht fieldName
      obtain ⟨⟨s, hs, hlong⟩, hstops⟩ := ih (fun hts => h (List.forall_mem_cons.2 ⟨ht, hts⟩)) fieldName'
      rw [hread, if_pos rfl]
      exact ⟨⟨s, List.mem_cons_of_mem _ hs, hlong⟩, hstops⟩
    · obtain ⟨hlong, hstops⟩ := t.read_overflows ht fieldName
      rw [hstops, if_neg Bool.false_ne_true]
      exact ⟨⟨_, List.mem_cons_self, hlong⟩, rfl⟩

namespace System

variable (s : System)

def Fits : Prop := ∀ t ∈ s.tracepoints, t.Fits

def recorded : Event := { name := some s.name, subevents := s.tracepoints.map Tracepoint.recorded }

theorem recorded_eq_iff : s.recorded = s.declared ↔
    ∀ t ∈ s.tracepoints, ∀ f ∈ t.fields, f.declaration.Found := by
  have hsubevents : s.recorded = s.declared ↔
      s.tracepoints.map Tracepoint.recorded = s.tracepoints.map Tracepoint.declared :=
    ⟨fun h => congrArg Event.subevents h, fun h => congrArg (Event.mk _) h⟩
  rw [hsubevents, List.map_inj_left]
  simp only [Tracepoint.recorded_eq_iff]

end System

theorem addEvents_cons (s : System) (systems : List System) (fieldName : Str) :
    addEvents ((s :: systems).map System.dir) fieldName =
      let r := addSubevents (s.tracepoints.map Tracepoint.dir) fieldName
      let event : Event := { name := some s.name, subevents := r.result }
      if r.goesOn then
        let rest := addEvents (systems.map System.dir) r.fieldName
        ⟨event :: rest.result, rest.fieldName, rest.goesOn⟩
      else ⟨event :: (systems.map System.dir).map fun _ => {}, r.fieldName, false⟩ := rfl

theorem addEvents_fits {systems : List System} (h : ∀ s ∈ systems, s.Fits) (fieldName : Str) :
    (addEvents (systems.map System.dir) fieldName).result = systems.map System.recorded := by
  induction systems generalizing fieldName with
  | nil => rfl
  | cons s systems ih =>
    obtain ⟨hs, hrest⟩ := List.forall_mem_cons.1 h
    obtain ⟨fieldName', hread⟩ := addSubevents_fits hs fieldName
    rw [addEvents_cons]
    dsimp only
    rw [hread, if_pos rfl]
    dsimp only
    rw [ih hrest fieldName']
    rfl

theorem addEvents_overflows {systems : List System} (h : ¬ ∀ s ∈ systems, s.Fits) (fieldName : Str) :
    ∃ e ∈ (addEvents (systems.map System.dir) fieldName).result,
      ∃ s ∈ e.subevents, maxFormat < s.format.length := by
  induction systems generalizing fieldName with
  | nil => exact absurd (List.forall_mem_nil _) h
  | cons s systems ih =>
    rw [addEvents_cons]
    dsimp only
    by_cases hs : s.Fits
    · obtain ⟨fieldName', hread⟩ := addSubevents_fits hs fieldName
      obtain ⟨e, he, hlong⟩ := ih (fun hrest => h (List.forall_mem_cons.2 ⟨hs, hrest⟩)) fieldName'
      rw [hread, if_pos rfl]
      exact ⟨e, List.mem_cons_of_mem _ he, hlong⟩
    · obtain ⟨hlong, hstops⟩ := addSubevents_overflows hs fieldName
      rw [hstops, if_neg Bool.false_ne_true]
      exact ⟨_, List.mem_cons_self, hlong⟩

theorem eventsOf_eq (systems : List System) (fieldName : Str) :
    eventsOf systems fieldName = (addEvents (systems.map System.dir) fieldName).result := by
  unfold eventsOf initTraceEvents
  cases systems with
  | nil => rfl
  | cons s systems => rw [if_neg (by simp)]

/-! ## The table -/

theorem dumpFilters_recorded (t : Tracepoint) :
    ∀ f ∈ dumpFilters t.recorded, f.typeName ≠ none := by
  intro entry hentry
  obtain ⟨⟨format, k⟩, hmem, rfl⟩ := List.mem_map.1 hentry
  have hformat : format ∈ t.recorded.format :=
    List.mem_of_mem_take (List.fst_mem_of_mem_zipIdx hmem)
  obtain ⟨f, -, rfl⟩ := List.mem_map.1 hformat
  exact f.recorded_named

/-- The table is right exactly if no file has more than thirty fields, and the parser finds the name and
the kind of each. -/
theorem tableRight_iff (systems : List System) (fieldName : Str) : TableRight systems fieldName ↔
    ∀ s ∈ systems, ∀ t ∈ s.tracepoints,
      t.fields.length ≤ 30 ∧ ∀ f ∈ t.fields, f.declaration.Found := by
  by_cases hfits : ∀ s ∈ systems, s.Fits
  · have hevents : eventsOf systems fieldName = systems.map System.recorded := by
      rw [eventsOf_eq, addEvents_fits hfits]
    have hrecorded : eventsOf systems fieldName = systems.map System.declared ↔
        ∀ s ∈ systems, ∀ t ∈ s.tracepoints, ∀ f ∈ t.fields, f.declaration.Found := by
      rw [hevents, List.map_inj_left]
      simp only [System.recorded_eq_iff]
    constructor
    · intro right s hs t ht
      exact ⟨hfits s hs t ht, hrecorded.1 right.recorded s hs t ht⟩
    · intro hall
      refine ⟨hrecorded.2 fun s hs t ht => (hall s hs t ht).2, ?_, ?_⟩
      · rw [hevents]
        intro e he sub hsub
        obtain ⟨s, hs, rfl⟩ := List.mem_map.1 he
        obtain ⟨t, ht, rfl⟩ := List.mem_map.1 hsub
        change (t.fields.map _).length ≤ maxFormat
        rw [List.length_map]
        exact hfits s hs t ht
      · rw [hevents]
        intro x hx
        obtain ⟨e, he, hx⟩ := List.mem_flatMap.1 hx
        obtain ⟨s, -, rfl⟩ := List.mem_map.1 he
        obtain ⟨sub, hsub, rfl⟩ := List.mem_map.1 hx
        obtain ⟨t, -, rfl⟩ := List.mem_map.1 hsub
        exact dumpFilters_recorded t
  · constructor
    · intro right
      obtain ⟨e, he, s, hs, hlong⟩ := addEvents_overflows hfits fieldName
      rw [← eventsOf_eq] at he
      exact absurd (right.bounded e he s hs) (not_le.2 hlong)
    · intro hall
      exact absurd (fun s hs t ht => (hall s hs t ht).1) hfits

/-- `void * skbaddr`. -/
def skbaddr : Declaration where
  words := ["void".toList, "*".toList]
  form := .plain
  name := "skbaddr".toList
  words_ne := by decide
  word := by simp [isWordChar, isBlank]
  name_ne := by decide
  identifier := by simp [isNameChar]

theorem skbaddr_not_found : ¬ skbaddr.Found := by
  have hpointer : skbaddr.IsPointer := ⟨"*".toList, by decide, by decide⟩
  rintro ⟨-, ⟨n, hn⟩ | hno⟩
  · cases hn
  · exact hno hpointer

/-- The tracepoint that has this field alone. -/
def kfreeSkb : Tracepoint where
  name := "kfree_skb".toList
  id := 1
  lines := [.field ⟨skbaddr, 8, 8, false⟩ (by decide +kernel)]

/-- The address is recorded as a number: the star is taken for the second word of the type. -/
theorem not_tableRight_skbaddr : ¬ ∀ systems fieldName, TableRight systems fieldName := by
  intro hall
  have hfits : ∀ s ∈ [(⟨"skb".toList, [kfreeSkb]⟩ : System)], s.Fits := by
    intro s hs t ht
    rw [List.mem_singleton.1 hs] at ht
    rw [List.mem_singleton.1 ht]
    decide
  have hrecorded := (hall [⟨"skb".toList, [kfreeSkb]⟩] []).recorded
  rw [eventsOf_eq, addEvents_fits hfits, List.map_inj_left] at hrecorded
  have hsystem := (System.recorded_eq_iff _).1 (hrecorded _ List.mem_cons_self)
  exact skbaddr_not_found (hsystem kfreeSkb List.mem_cons_self _ List.mem_cons_self)

end PerfEvent.TraceEvents
