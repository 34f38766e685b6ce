import PerfEventTests.TraceEvents.Parser

/-!
# The declarations of fields

A field line has the declaration of a field as the kernel prints it: the words of the type, the name,
the length of an array, and behind it the place of the field. The parser counts the words.
-/

namespace PerfEvent.TraceEvents

open Text

/-! ## Declarations -/

/-- A field is a plain one, an array (of no length where it has none), or one whose place is in the
record, which is marked in front of the type and behind it. -/
inductive Form where
  | plain
  | array (length : Option Nat)
  | dataLoc
  deriving DecidableEq

def isWordChar (c : Char) : Bool := !isBlank c && c != ';' && c != '['

def isNameChar (c : Char) : Bool := c.isAlphanum || c = '_'

/-- A declaration, with the words of the type. -/
structure Declaration where
  words : List Str
  form : Form
  name : Str
  words_ne : words ≠ []
  word : ∀ w ∈ words, w ≠ [] ∧ ∀ c ∈ w, isWordChar c = true
  name_ne : name ≠ []
  identifier : ∀ c ∈ name, isNameChar c = true

def dataLocWord : Str := "__data_loc".toList

/-- A mark behind the last word. -/
def markLast : List Str → List Str
  | [] => []
  | [w] => [w ++ ['[', ']']]
  | w :: ws => w :: markLast ws

namespace Declaration

variable (d : Declaration)

/-- The words in front of the name. -/
def type : List Str :=
  match d.form with
  | .dataLoc => dataLocWord :: markLast d.words
  | _ => d.words

/-- What stands behind the name. -/
def dimension : Str :=
  match d.form with
  | .array (some n) => '[' :: (Nat.toDigits 10 n ++ [']'])
  | .array none => ['[', ']']
  | _ => []

def IsPointer : Prop := ∃ w ∈ d.words, '*' ∈ w

instance : Decidable d.IsPointer := inferInstanceAs (Decidable (∃ w ∈ d.words, '*' ∈ w))

def IsArray : Prop := ∃ n, d.form = .array n

/-- The kind of the field. -/
def kind : Int :=
  match d.form with
  | .plain => if d.IsPointer then filterTypePointer else filterTypeInt
  | .array _ | .dataLoc => filterTypeString

/-- What is to be recorded. -/
def formatType : FormatType := ⟨d.name, d.kind⟩

end Declaration

/-- The words behind one that may stand in front. -/
def dropWord (w : Str) : List Str → List Str
  | [] => []
  | v :: vs => if v = w then vs else v :: vs

def dropModifiers (ws : List Str) : List Str := dropWord enum (dropWord unsigned ws)

/-- Where the parser finds the name and the kind of a field: behind an `unsigned` and an `enum` the type
has one or two words, and the field is an array or no pointer; or it has three, the third of which begins
with a star. Otherwise a word of the type is taken for the name: the third one, or the one behind the
star. -/
def Declaration.Found (d : Declaration) : Prop :=
  match dropModifiers d.type with
  | [] => False
  | [_] | [_, _] => d.form ≠ .dataLoc ∧ (d.IsArray ∨ ¬ d.IsPointer)
  | _ :: _ :: w :: ws =>
    if w.head? = some '*' then
      match ws with
      | [] => d.form ≠ .dataLoc
      | v :: _ => cutName filterTypePointer v = (d.kind, d.name)
    else cutName filterTypeInt w = (d.kind, d.name)

/-- A field line: `seq_printf(m, "\tfield:%s %s;\toffset:%u;\tsize:%u;\tsigned:%d;\n", ...)`. -/
structure FieldLine where
  declaration : Declaration
  offset : Nat
  size : Nat
  signed : Bool

namespace FieldLine

variable (f : FieldLine)

/-- The pieces behind the name. -/
def place : List Str :=
  ["offset:".toList ++ Nat.toDigits 10 f.offset ++ [';'], "size:".toList ++ Nat.toDigits 10 f.size ++ [';'],
    if f.signed then "signed:1;".toList else "signed:0;".toList]

def declarator : Str := f.declaration.name ++ (f.declaration.dimension ++ [';'])

def pieces : List Str := f.declaration.type ++ f.declarator :: f.place

/-- The line behind the mark. -/
def body : Str :=
  f.declaration.type.flatMap (· ++ [' ']) ++ (f.declarator ++ f.place.flatMap (fun w => '\t' :: w) ++ ['\n'])

def text : Str := fieldMark ++ f.body

end FieldLine

/-! ## Pieces -/

theorem splits_last {w : Str} (hne : w ≠ []) (hw : ∀ c ∈ w, isBlank c = false) :
    Splits isBlank (w ++ ['\n']) [w] :=
  .word hne hw (by decide) (.nil strtok_nil)

theorem splits_type {s : Str} {ws : List Str} (hs : Splits isBlank s ws) {type : List Str}
    (htype : ∀ w ∈ type, w ≠ [] ∧ ∀ c ∈ w, isBlank c = false) :
    Splits isBlank (type.flatMap (· ++ [' ']) ++ s) (type ++ ws) := by
  induction type with
  | nil => exact hs
  | cons w type ih =>
    obtain ⟨⟨hne, hw⟩, hrest⟩ := List.forall_mem_cons.1 htype
    rw [List.flatMap_cons, List.append_assoc, List.append_assoc, List.singleton_append]
    exact .word hne hw (by decide) (ih hrest)

/-- What is in a piece in front of the name. -/
def IsTypeWord (w : Str) : Prop := w ≠ [] ∧ ∀ c ∈ w, isBlank c = false ∧ c ≠ ';'

theorem isTypeWord_of_word {w : Str} (h : w ≠ [] ∧ ∀ c ∈ w, isWordChar c = true) : IsTypeWord w := by
  refine ⟨h.1, fun c hc => ?_⟩
  have hchar := h.2 c hc
  simp only [isWordChar, Bool.and_eq_true, Bool.not_eq_true', bne_iff_ne] at hchar
  exact hchar.1

theorem isTypeWord_markLast {ws : List Str} (h : ∀ w ∈ ws, IsTypeWord w) :
    ∀ w ∈ markLast ws, IsTypeWord w := by
  induction ws with
  | nil => exact List.forall_mem_nil _
  | cons w ws ih =>
    obtain ⟨⟨hne, hw⟩, hrest⟩ := List.forall_mem_cons.1 h
    cases ws with
    | nil =>
      intro v hv
      rw [List.mem_singleton.1 hv]
      refine ⟨List.append_ne_nil_of_left_ne_nil hne _, fun c hc => ?_⟩
      rcases List.mem_append.1 hc with hc | hc
      · exact hw c hc
      · have hmark : ∀ c ∈ ['[', ']'], isBlank c = false ∧ c ≠ ';' := by simp [isBlank]
        exact hmark c hc
    | cons v vs => exact List.forall_mem_cons.2 ⟨⟨hne, hw⟩, ih hrest⟩

theorem Declaration.isTypeWord (d : Declaration) : ∀ w ∈ d.type, IsTypeWord w := by
  have hwords : ∀ w ∈ d.words, IsTypeWord w := fun w hw => isTypeWord_of_word (d.word w hw)
  unfold Declaration.type
  cases d.form with
  | plain | array => exact hwords
  | dataLoc =>
    have hmark : IsTypeWord dataLocWord := by
      refine ⟨by decide, ?_⟩
      unfold dataLocWord
      simp [isBlank]
    exact List.forall_mem_cons.2 ⟨hmark, isTypeWord_markLast hwords⟩

theorem IsTypeWord.getLast? {w : Str} (h : IsTypeWord w) : w.getLast? ≠ some ';' := fun hlast =>
  (h.2 ';' (List.mem_of_getLast? hlast)).2 rfl

theorem isBlank_toDigits (n : Nat) : ∀ c ∈ Nat.toDigits 10 n, isBlank c = false := by
  intro c hc
  obtain ⟨d, hd, rfl⟩ := mem_toDigits (by decide) n c hc
  interval_cases d <;> rfl

theorem isBlank_nameChar {c : Char} (h : isNameChar c = true) :
    isBlank c = false ∧ c ≠ ';' ∧ c ≠ '[' ∧ c ≠ '*' := by
  refine ⟨?_, ?_, ?_, ?_⟩
  · by_contra hblank
    rw [Bool.not_eq_false, isBlank, Bool.or_eq_true, Bool.or_eq_true] at hblank
    rcases hblank with (hc | hc) | hc <;>
      · rw [decide_eq_true_iff] at hc
        rw [hc] at h
        revert h
        decide
  all_goals
    rintro rfl
    revert h
    decide

namespace FieldLine

variable (f : FieldLine)

theorem declarator_blank : f.declarator ≠ [] ∧ ∀ c ∈ f.declarator, isBlank c = false := by
  refine ⟨List.append_ne_nil_of_left_ne_nil f.declaration.name_ne _, fun c hc => ?_⟩
  rcases List.mem_append.1 hc with hc | hc
  · exact (isBlank_nameChar (f.declaration.identifier c hc)).1
  · have hsemicolon : isBlank ';' = false := by decide
    rcases List.mem_append.1 hc with hc | hc
    · unfold Declaration.dimension at hc
      split at hc
      · rcases List.mem_cons.1 hc with rfl | hc
        · rfl
        · rcases List.mem_append.1 hc with hc | hc
          · exact isBlank_toDigits _ c hc
          · rw [List.mem_singleton.1 hc]
            rfl
      · have hmark : ∀ c ∈ ['[', ']'], isBlank c = false := by simp [isBlank]
        exact hmark c hc
      · cases hc
    · rw [List.mem_singleton.1 hc]
      exact hsemicolon

/-- A label with a number behind it. -/
theorem place_blank (label : Str) (h : ∀ c ∈ label, isBlank c = false) (n : Nat) :
    ∀ c ∈ label ++ Nat.toDigits 10 n ++ [';'], isBlank c = false := by
  intro c hc
  rcases List.mem_append.1 hc with hc | hc
  · rcases List.mem_append.1 hc with hc | hc
    · exact h c hc
    · exact isBlank_toDigits n c hc
  · rw [List.mem_singleton.1 hc]
    rfl

/-- The calls of `strtok` give the words of the type, the name, and the place. -/
theorem splits_body : Splits isBlank f.body f.pieces := by
  have hsigned : Splits isBlank ((if f.signed then "signed:1;".toList else "signed:0;".toList) ++ ['\n'])
      [if f.signed then "signed:1;".toList else "signed:0;".toList] := by
    cases f.signed
    · exact splits_last (by decide) (by simp [isBlank])
    · exact splits_last (by decide) (by simp [isBlank])
  have hsize := Splits.word (c := '\t') (List.append_ne_nil_of_right_ne_nil _ (by simp))
    (place_blank "size:".toList (by simp [isBlank]) f.size) (by decide) hsigned
  have hoffset := Splits.word (c := '\t') (List.append_ne_nil_of_right_ne_nil _ (by simp))
    (place_blank "offset:".toList (by simp [isBlank]) f.offset) (by decide) hsize
  have hname := Splits.word (c := '\t') f.declarator_blank.1 f.declarator_blank.2 (by decide) hoffset
  have htype := splits_type hname fun w hw =>
    let hword := f.declaration.isTypeWord w hw
    ⟨hword.1, fun c hc => (hword.2 c hc).1⟩
  have hbody : f.body = f.declaration.type.flatMap (· ++ [' ']) ++ (f.declarator ++ '\t' ::
      ("offset:".toList ++ Nat.toDigits 10 f.offset ++ [';'] ++ '\t' ::
        ("size:".toList ++ Nat.toDigits 10 f.size ++ [';'] ++ '\t' ::
          ((if f.signed then "signed:1;".toList else "signed:0;".toList) ++ ['\n'])))) := by
    unfold body place
    simp only [List.flatMap_cons, List.flatMap_nil, List.append_assoc, List.cons_append,
      List.append_nil]
  rw [hbody]
  exact htype

end FieldLine

/-! ## The parser over pieces -/

theorem readName_follows : Follows isBlank (readName (token isBlank)) (readName pop) := by
  have htoken : Follows isBlank (token isBlank) pop := .token
  refine htoken.bind fun name => (Follows.ite htoken (.pure name)).bind fun name => ?_
  exact .ite (htoken.bind fun name => .pure _) (.pure _)

theorem parseTokens_follows : Follows isBlank (parseTokens (token isBlank)) (parseTokens pop) := by
  have htoken : Follows isBlank (token isBlank) pop := .token
  exact htoken.bind fun type => (Follows.ite htoken (.pure type)).bind fun type =>
    (Follows.ite htoken (.pure type)).bind fun _ => readName_follows

theorem parseType_of_splits {s : Str} {ws : List Str} {r : Int × Str} (h : Splits isBlank s ws)
    (hr : (parseTokens pop ws).map Prod.fst = some r) (outName : Str) : parseType s outName = r := by
  rw [← parseTokens_follows.fst_eq h] at hr
  obtain ⟨⟨r', s'⟩, hparse, rfl⟩ := Option.map_eq_some_iff.1 hr
  rw [parseType, hparse]

/-- The type is the first word that is no modifier. -/
theorem parseTokens_pop (ws : List Str) : parseTokens pop ws =
    match dropModifiers ws with
    | [] => none
    | _ :: rest => readName pop rest := by
  have hsecond (type : Str) (rest : List Str) :
      (skipWord pop enum type >>= fun _ => readName pop) rest =
        match dropWord enum (type :: rest) with
        | [] => none
        | _ :: rest => readName pop rest := by
    by_cases htype : type = enum
    · rw [dropWord, if_pos htype, skipWord, if_pos htype]
      cases rest <;> rfl
    · rw [dropWord, if_neg htype, skipWord, if_neg htype]
      rfl
  cases ws with
  | nil => rfl
  | cons type rest =>
    change (skipWord pop unsigned type >>= fun type =>
      skipWord pop enum type >>= fun _ => readName pop) rest = _
    by_cases htype : type = unsigned
    · rw [dropModifiers, dropWord, if_pos htype, skipWord, if_pos htype]
      cases rest with
      | nil => rfl
      | cons type' rest => exact hsecond type' rest
    · rw [dropModifiers, dropWord, if_neg htype, skipWord, if_neg htype]
      exact hsecond type rest

section ReadName

variable {name : Str} {rest : List Str}

/-- A piece that ends with `;` is the name. -/
theorem readName_last (h : name.getLast? = some ';') (hstar : name.head? ≠ some '*') :
    readName pop (name :: rest) = some (cutName filterTypeInt name, rest) := by
  change (lastWord pop name >>= starred pop) rest = _
  unfold lastWord
  rw [if_neg (not_not.2 h)]
  change starred pop name rest = _
  unfold starred
  rw [if_neg hstar]
  rfl

/-- Behind another piece the name is the next one, or the one behind a star. -/
theorem readName_next (h : name.getLast? ≠ some ';') (name' : Str) :
    readName pop (name :: name' :: rest) = starred pop name' rest := by
  change (lastWord pop name >>= starred pop) (name' :: rest) = _
  unfold lastWord
  rw [if_pos h]
  rfl

theorem starred_of_star (h : name.head? = some '*') (name' : Str) :
    starred pop name (name' :: rest) = some (cutName filterTypePointer name', rest) := by
  unfold starred
  rw [if_pos h]
  rfl

theorem starred_of_not (h : name.head? ≠ some '*') :
    starred pop name rest = some (cutName filterTypeInt name, rest) := by
  unfold starred
  rw [if_neg h]
  rfl

end ReadName

/-! ### Names -/

theorem cutName_append (filterType : Int) {u : Str} (h : ∀ c ∈ u, c ≠ ';' ∧ c ≠ '[') (s : Str) :
    cutName filterType (u ++ s) = ((cutName filterType s).1, u ++ (cutName filterType s).2) := by
  induction u with
  | nil => rfl
  | cons c u ih =>
    obtain ⟨⟨hc, hc'⟩, hu⟩ := List.forall_mem_cons.1 h
    rw [List.cons_append, cutName, if_neg hc, if_neg hc', ih hu]
    rfl

namespace FieldLine

variable (f : FieldLine)

instance (d : Declaration) : Decidable d.IsArray :=
  match h : d.form with
  | .array n => isTrue ⟨n, h⟩
  | .plain => isFalse fun ⟨n, hn⟩ => by rw [h] at hn; cases hn
  | .dataLoc => isFalse fun ⟨n, hn⟩ => by rw [h] at hn; cases hn

/-- The declarator is cut to the name, and an array is a string. -/
theorem cutName_declarator (filterType : Int) : cutName filterType f.declarator =
    (if f.declaration.IsArray then filterTypeString else filterType, f.declaration.name) := by
  have hname : ∀ c ∈ f.declaration.name, c ≠ ';' ∧ c ≠ '[' := fun c hc =>
    let h := isBlank_nameChar (f.declaration.identifier c hc)
    ⟨h.2.1, h.2.2.1⟩
  rw [declarator, cutName_append _ hname]
  unfold Declaration.dimension
  cases hform : f.declaration.form with
  | plain | dataLoc =>
    have hno : ¬ f.declaration.IsArray := by
      rintro ⟨n, hn⟩
      rw [hform] at hn
      cases hn
    rw [if_neg hno]
    exact Prod.ext rfl (List.append_nil _)
  | array n =>
    rw [if_pos ⟨n, hform⟩]
    cases n with
    | none => exact Prod.ext rfl (List.append_nil _)
    | some n => exact Prod.ext rfl (List.append_nil _)

theorem declarator_getLast? : f.declarator.getLast? = some ';' := by
  rw [declarator, ← List.append_assoc]
  exact List.getLast?_concat

theorem declarator_head? : f.declarator.head? ≠ some '*' := by
  obtain ⟨c, name, hname⟩ := List.exists_cons_of_ne_nil f.declaration.name_ne
  have hc := f.declaration.identifier c (hname ▸ List.mem_cons_self)
  rw [declarator, hname]
  intro hstar
  exact (isBlank_nameChar hc).2.2.2 (Option.some.inj hstar)

end FieldLine

/-! ## What the parser makes of a line -/

theorem dropWord_append {w v : Str} (h : v ≠ w) (ws rest : List Str) :
    dropWord w (ws ++ v :: rest) = dropWord w ws ++ v :: rest := by
  cases ws with
  | nil => exact if_neg h
  | cons u us =>
    rw [List.cons_append, dropWord, dropWord]
    split <;> rfl

theorem mem_dropModifiers {w : Str} {ws : List Str} (h : w ∈ dropModifiers ws) : w ∈ ws := by
  have hmem {u : Str} {us : List Str} (h : w ∈ dropWord u us) : w ∈ us := by
    cases us with
    | nil => exact h
    | cons v vs =>
      rw [dropWord] at h
      split at h
      · exact List.mem_cons_of_mem v h
      · exact h
  exact hmem (hmem h)

namespace FieldLine

variable (f : FieldLine)

/-- The type and the name that the parser finds. -/
def parsed : Int × Str :=
  match dropModifiers f.declaration.type with
  | [] => cutName filterTypeInt ("offset:".toList ++ Nat.toDigits 10 f.offset ++ [';'])
  | [_] | [_, _] => cutName filterTypeInt f.declarator
  | _ :: _ :: w :: ws =>
    if w.head? = some '*' then
      match ws with
      | [] => cutName filterTypePointer f.declarator
      | v :: _ => cutName filterTypePointer v
    else cutName filterTypeInt w

theorem dropModifiers_pieces : dropModifiers f.pieces =
    dropModifiers f.declaration.type ++ f.declarator :: f.place := by
  have hne {w : Str} (hw : w.getLast? ≠ some ';') : f.declarator ≠ w := by
    rintro rfl
    exact hw f.declarator_getLast?
  unfold dropModifiers pieces
  rw [dropWord_append (hne (by decide)), dropWord_append (hne (by decide))]

theorem parseTokens_pieces : (parseTokens pop f.pieces).map Prod.fst = some f.parsed := by
  have hlast {w : Str} (hw : w ∈ dropModifiers f.declaration.type) : w.getLast? ≠ some ';' :=
    (f.declaration.isTypeWord w (mem_dropModifiers hw)).getLast?
  rw [parseTokens_pop, dropModifiers_pieces]
  unfold parsed
  match hws : dropModifiers f.declaration.type with
  | [] =>
    have hoffset : ("offset:".toList ++ Nat.toDigits 10 f.offset ++ [';']).getLast? = some ';' :=
      List.getLast?_concat
    change (readName pop f.place).map Prod.fst = _
    unfold place
    rw [readName_last hoffset (by simp)]
    rfl
  | [_] =>
    change (readName pop (f.declarator :: f.place)).map Prod.fst = _
    rw [readName_last f.declarator_getLast? f.declarator_head?]
    rfl
  | [_, v] =>
    have hv : v.getLast? ≠ some ';' := hlast (by rw [hws]; simp)
    change (readName pop (v :: f.declarator :: f.place)).map Prod.fst = _
    rw [readName_next hv, starred_of_not f.declarator_head?]
    rfl
  | _ :: v :: w :: ws =>
    have hv : v.getLast? ≠ some ';' := hlast (by rw [hws]; simp)
    change (readName pop (v :: w :: (ws ++ f.declarator :: f.place))).map Prod.fst = _
    rw [readName_next hv]
    dsimp only
    by_cases hstar : w.head? = some '*'
    · rw [if_pos hstar]
      cases ws with
      | nil => rw [List.nil_append, starred_of_star hstar]; rfl
      | cons u us => rw [List.cons_append, starred_of_star hstar]; rfl
    · rw [if_neg hstar, starred_of_not hstar]
      rfl

theorem parseType_body (outName : Str) : parseType f.body outName = f.parsed :=
  parseType_of_splits f.splits_body f.parseTokens_pieces outName

end FieldLine

/-! ### The right name and kind -/

theorem cutName_type (filterType : Int) (name : Str) : (cutName filterType name).1 = filterType ∨
    (cutName filterType name).1 = filterTypeString := by
  induction name with
  | nil => exact .inl rfl
  | cons c name ih =>
    rw [cutName]
    split
    · exact .inl rfl
    · split
      · exact .inr rfl
      · exact ih

namespace Declaration

variable (d : Declaration)

/-- What the parser makes of a name that it has found. -/
theorem found_iff_kind (starred : Bool) :
    (if d.IsArray then filterTypeString else if starred then filterTypePointer else filterTypeInt) =
        d.kind ↔
      d.form ≠ .dataLoc ∧ (d.IsArray ∨ (d.IsPointer ↔ starred = true)) := by
  unfold kind
  cases hform : d.form with
  | plain =>
    have hno : ¬ d.IsArray := by
      rintro ⟨n, hn⟩
      rw [hform] at hn
      cases hn
    rw [if_neg hno]
    dsimp only
    by_cases hpointer : d.IsPointer
    · cases starred <;> simp [hpointer, hno, filterTypePointer, filterTypeInt]
    · cases starred <;> simp [hpointer, hno, filterTypePointer, filterTypeInt]
  | array n =>
    rw [if_pos ⟨n, hform⟩]
    exact iff_of_true rfl ⟨by simp, .inl ⟨n, hform⟩⟩
  | dataLoc =>
    have hno : ¬ d.IsArray := by
      rintro ⟨n, hn⟩
      rw [hform] at hn
      cases hn
    rw [if_neg hno]
    refine iff_of_false ?_ fun h => h.1 rfl
    dsimp only
    cases starred <;> decide

/-- A word with a star is one of the type. -/
theorem isPointer_of_star {w : Str} (hform : d.form ≠ .dataLoc) (hw : w ∈ dropModifiers d.type)
    (hstar : w.head? = some '*') : d.IsPointer := by
  have htype : d.type = d.words := by
    unfold type
    cases h : d.form with
    | plain | array => rfl
    | dataLoc => exact absurd h hform
  refine ⟨w, htype ▸ mem_dropModifiers hw, ?_⟩
  exact List.mem_of_mem_head? hstar

end Declaration

namespace FieldLine

variable (f : FieldLine)

/-- The name is right, and the kind is, exactly if the parser finds the name. -/
theorem parsed_iff : f.parsed = (f.declaration.kind, f.declaration.name) ↔ f.declaration.Found := by
  have hdeclarator (starred : Bool) :
      cutName (if starred then filterTypePointer else filterTypeInt) f.declarator =
        (f.declaration.kind, f.declaration.name) ↔
      f.declaration.form ≠ .dataLoc ∧ (f.declaration.IsArray ∨ (f.declaration.IsPointer ↔ starred = true)) := by
    rw [cutName_declarator, Prod.mk.injEq, and_iff_left rfl]
    exact f.declaration.found_iff_kind starred
  have hplain := hdeclarator false
  simp only [Bool.false_eq_true, if_false, iff_false] at hplain
  unfold parsed Declaration.Found
  match hws : dropModifiers f.declaration.type with
  | [] =>
    -- the place of the field has a colon, which no name has
    refine iff_of_false (fun heq => ?_) id
    have hname : (cutName filterTypeInt ("offset:".toList ++ Nat.toDigits 10 f.offset ++ [';'])).2 =
        f.declaration.name := congrArg Prod.snd heq
    rw [List.append_assoc, cutName_append _ (by simp)] at hname
    have hcolon : ':' ∈ f.declaration.name := by
      rw [← hname]
      exact List.mem_append_left _ (by decide)
    exact absurd (f.declaration.identifier ':' hcolon) (by decide)
  | [_] => exact hplain
  | [_, _] => exact hplain
  | _ :: _ :: w :: ws =>
    dsimp only
    by_cases hstar : w.head? = some '*'
    · rw [if_pos hstar, if_pos hstar]
      cases ws with
      | nil =>
        refine (hdeclarator true).trans ⟨And.left, fun hform => ⟨hform, .inr ?_⟩⟩
        have hpointer := f.declaration.isPointer_of_star hform (by rw [hws]; simp) hstar
        exact iff_of_true hpointer rfl
      | cons v vs => exact Iff.rfl
    · rw [if_neg hstar, if_neg hstar]

theorem parsed_type : f.parsed.1 = filterTypeInt ∨ f.parsed.1 = filterTypePointer ∨
    f.parsed.1 = filterTypeString := by
  have hint (name : Str) : (cutName filterTypeInt name).1 = filterTypeInt ∨
      (cutName filterTypeInt name).1 = filterTypePointer ∨
      (cutName filterTypeInt name).1 = filterTypeString :=
    (cutName_type filterTypeInt name).imp_right .inr
  have hpointer (name : Str) : (cutName filterTypePointer name).1 = filterTypeInt ∨
      (cutName filterTypePointer name).1 = filterTypePointer ∨
      (cutName filterTypePointer name).1 = filterTypeString :=
    .inr (cutName_type filterTypePointer name)
  unfold parsed
  split
  · exact hint _
  · exact hint _
  · exact hint _
  · split
    · split
      · exact hpointer _
      · exact hpointer _
    · exact hint _

end FieldLine

end PerfEvent.TraceEvents
