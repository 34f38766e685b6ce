import PerfEventTests.Lib.Lines
import PerfEventTests.Lib.Tokens

/-!
# The parser of the trace events

`tools/trace_event_parser.c` reads the format files of the tracepoints and writes a header with the
fields of each, from which the fuzzer makes its filters. The directories are given as lists, in the
order in which `readdir` returns them.
-/

namespace PerfEvent.TraceEvents

open Text

def maxFormat : Nat := 30

def filterTypeInvalid : Int := -1
def filterTypeInt : Int := 0
def filterTypePointer : Int := 1
def filterTypeString : Int := 2

def filterTypeNames : List String := ["FILTER_TYPE_INT", "FILTER_TYPE_PTR", "FILTER_TYPE_STR"]

/-! ## `parse_type` -/

/-- The delimiters of `strtok`. -/
def isBlank (c : Char) : Bool := c = ' ' || c = '\t' || c = '\n'

/-- The loop over the name: it is cut at the first `;` or `[`, behind which `strlen` ends. -/
def cutName (filterType : Int) : Str → Int × Str
  | [] => (filterType, [])
  | c :: name =>
    if c = ';' then (filterType, [])
    else if c = '[' then (filterTypeString, [])
    else
      let cut := cutName filterType name
      (cut.1, c :: cut.2)

def unsigned : Str := "unsigned".toList
def enum : Str := "enum".toList

section Tokens

variable {σ : Type} (token : StateT σ Option Str)

/-- `if (!strcmp(type,word)) type=strtok(NULL," \t\n");` -/
def skipWord (word type : Str) : StateT σ Option Str :=
  if type = word then token else pure type

/-- `if (name[strlen(name)-1]!=';') name=strtok(NULL," \t\n");` -/
def lastWord (name : Str) : StateT σ Option Str :=
  if name.getLast? ≠ some ';' then token else pure name

/-- The star and the name behind it. -/
def starred (name : Str) : StateT σ Option (Int × Str) :=
  if name.head? = some '*' then token >>= fun name => pure (cutName filterTypePointer name)
  else pure (cutName filterTypeInt name)

/-- The end of `parse_type`, from the call of `strtok` for the name on. -/
def readName : StateT σ Option (Int × Str) := do
  let name ← token
  let name ← lastWord token name
  starred token name

/-- `parse_type`, where a call of `strtok` is `token`: there is no result where one of them gives
none. -/
def parseTokens : StateT σ Option (Int × Str) := do
  let type ← token
  let type ← skipWord token unsigned type
  let _ ← skipWord token enum type
  readName token

end Tokens

/-- The type, and what `out_name` holds afterwards. -/
def parseType (buffer outName : Str) : Int × Str :=
  match parseTokens (token isBlank) buffer with
  | some (r, _) => r
  | none => (filterTypeInvalid, outName)

/-! ## `init_trace_events` -/

structure FormatType where
  name : Str
  type : Int
  deriving DecidableEq

/-- `struct subevent_type`, with all that has been stored to `format[0]`, `format[1]` and so on. -/
structure Subevent where
  name : Option Str := none
  id : Int := 0
  numFormats : Nat := 0
  format : List FormatType := []
  deriving DecidableEq

structure Event where
  name : Option Str := none
  subevents : List Subevent := []
  deriving DecidableEq

/-- A result with `field_name` behind it, and whether the parser goes on. -/
structure Reading (α : Type) where
  result : α
  fieldName : Str
  goesOn : Bool

def fieldMark : Str := "\tfield:".toList

/-- The loop over the lines of a format file. The field is stored before its number is checked. -/
def readFormat : List Str → Subevent → Str → Reading Subevent
  | [], s, fieldName => ⟨s, fieldName, true⟩
  | buffer :: lines, s, fieldName =>
    if fieldMark.isPrefixOf buffer then
      let field := parseType (buffer.drop 7) fieldName
      let s := { s with format := s.format ++ [⟨field.2, field.1⟩] }
      if s.format.length > maxFormat then ⟨s, field.2, false⟩
      else readFormat lines { s with numFormats := s.format.length } field.2
    else readFormat lines s fieldName

/-- A directory below that of an event: its name, and its files `id` and `format`. -/
structure SubeventDir where
  name : Str
  id : Int
  format : Str

structure EventDir where
  name : Str
  subevents : List SubeventDir

/-- The loop over the directories of an event; `calloc` has cleared what it does not come to. -/
def addSubevents : List SubeventDir → Str → Reading (List Subevent)
  | [], fieldName => ⟨[], fieldName, true⟩
  | dir :: dirs, fieldName =>
    let r := readFormat (fileLines bufsiz dir.format) { name := some dir.name, id := dir.id } fieldName
    if r.goesOn then
      let rest := addSubevents dirs r.fieldName
      ⟨r.result :: rest.result, rest.fieldName, rest.goesOn⟩
    else ⟨r.result :: dirs.map fun _ => {}, r.fieldName, false⟩

def addEvents : List EventDir → Str → Reading (List Event)
  | [], fieldName => ⟨[], fieldName, true⟩
  | dir :: dirs, fieldName =>
    let r := addSubevents dir.subevents fieldName
    let event : Event := { name := some dir.name, subevents := r.result }
    if r.goesOn then
      let rest := addEvents dirs r.fieldName
      ⟨event :: rest.result, rest.fieldName, rest.goesOn⟩
    else ⟨event :: dirs.map fun _ => {}, r.fieldName, false⟩

/-- `init_trace_events`: what it returns, and the events. -/
def initTraceEvents (dirs : List EventDir) (fieldName : Str) : Int × List Event :=
  if dirs = [] then (-1, [])
  else
    let r := addEvents dirs fieldName
    (if r.goesOn then 0 else -1, r.result)

/-! ## `dump_trace_header` -/

/-- A filter in the table, with the name of its type if the type has one. -/
structure FilterEntry where
  k : Nat
  typeName : Option String
  name : Str

structure TraceEventEntry where
  id : Int
  name : Option Str × Option Str
  numFilters : Nat
  filters : List FilterEntry

/-- `filter_type_names[type]`. -/
def filterTypeName (type : Int) : Option String :=
  if 0 ≤ type then filterTypeNames[type.toNat]? else none

def dumpFilters (s : Subevent) : List FilterEntry :=
  (s.format.take s.numFormats).zipIdx.map fun x => ⟨x.2, filterTypeName x.1.type, x.1.name⟩

/-- The table of `trace_filters.h`. -/
def dumpTraceHeader (events : List Event) : List TraceEventEntry :=
  events.flatMap fun e => e.subevents.map fun s =>
    ⟨s.id, (e.name, s.name), s.numFormats, dumpFilters s⟩

end PerfEvent.TraceEvents
