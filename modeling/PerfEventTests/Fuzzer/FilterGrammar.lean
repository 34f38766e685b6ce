import PerfEventTests.Fuzzer.TracepointFilter

/-!
# The grammar of valid filters

With `try_valid` set, a call writes a sentence: as many opening parentheses as it draws levels, and
then as many comparisons, each of which closes a level, with a boolean operator between two of them.
The two loops of the writer agree on the number of levels, whatever is drawn, and the sentence stands
in the buffer when it fits.
-/

namespace PerfEvent.TracepointFilter

open Draws ByteMemory
open Text (Str)

/-! ## Sentences -/

/-- A field of the event, a comparison operator and a value as it is written for such a field. -/
inductive Comparison (event : TraceEvent) : List Token → Prop where
  | intro {f : TraceFilter} {op v : Str} (hf : f ∈ event.filters) (hop : op ∈ comparisons)
      (hv : ∃ draws, (printValue f.type true draws).1 = [.value v]) :
      Comparison event [.field f.name, .comparison op, .value v]

def booleans : List Str := ["&&", "||"].map String.toList

/-- So many opening parentheses, each with a negation behind it or without. -/
inductive Opens : Nat → List Token → Prop where
  | nil : Opens 0 []
  | plain {n : Nat} {ts : List Token} (h : Opens n ts) : Opens (n + 1) (.lpar :: ts)
  | negated {n : Nat} {ts : List Token} (h : Opens n ts) : Opens (n + 1) (.lpar :: .not :: ts)

/-- So many comparisons with a closing parenthesis, and operators between them. -/
inductive Closes (event : TraceEvent) : Nat → List Token → Prop where
  | last {c : List Token} (hc : Comparison event c) : Closes event 1 (c ++ [.rpar])
  | more {n : Nat} {c ts : List Token} {op : Str} (hc : Comparison event c) (hop : op ∈ booleans)
      (h : Closes event n ts) : Closes event (n + 1) (c ++ .rpar :: .bool op :: ts)

/-- The sentences with so many levels. -/
inductive Sentence (event : TraceEvent) : Nat → List Token → Prop where
  | flat {c : List Token} (hc : Comparison event c) : Sentence event 0 c
  | nested {n : Nat} {ts us : List Token} (hopen : Opens (n + 1) ts)
      (hclose : Closes event (n + 1) us) : Sentence event (n + 1) (ts ++ us)

def Token.isBlank : Token → Bool
  | .blank _ => true
  | _ => false

/-- The tokens without the white space. -/
def significant (ts : List Token) : List Token := ts.filter fun t => !t.isBlank

@[simp] theorem significant_nil : significant [] = [] := rfl

@[simp] theorem significant_append (ts us : List Token) :
    significant (ts ++ us) = significant ts ++ significant us :=
  List.filter_append ..

/-! ## What the printers write -/

/-- Whatever is drawn, what is written comes to this. -/
abbrev Writes (d : Draw (List Token)) (P : List Token → Prop) : Prop :=
  Always d fun ts => P (significant ts)

variable {maxWhitespace : Int}

theorem writes_sometimes {n : Nat} {d : Draw (List Token)} {P : List Token → Prop}
    (hd : Writes d P) (hnil : P []) : Writes (sometimes n d) P :=
  always_bind_any fun _ => always_ite (fun _ => hd) fun _ => always_pure hnil

theorem writes_whitespace (maxAmount : Int) : Writes (printWhitespace maxAmount) (· = []) := by
  have hblank (n : Nat) : Writes (times n do
      let r ← rand
      return [.blank (if r % 2 = 0 then ' ' else '\t')]) (· = []) := by
    induction n with
    | zero => exact always_pure rfl
    | succ n ih =>
      have hone : Writes (do
          let r ← rand
          return [.blank (if r % 2 = 0 then ' ' else '\t')]) (· = []) :=
        always_bind_any fun _ => always_pure rfl
      refine always_bind hone fun ts hts => always_bind ih fun us hus => always_pure ?_
      rw [significant_append, hts, hus]
      rfl
  exact always_bind_any fun _ => hblank _

theorem getD_mem_of_lt {α : Type} {l : List α} {n : Nat} (h : n < l.length) (d : α) :
    l.getD n d ∈ l := by
  rw [List.getD_eq_getElem?_getD, List.getElem?_eq_getElem h]
  exact List.getElem_mem h

theorem writes_printComparison :
    Writes printComparison fun ts => ∃ op ∈ comparisons, ts = [.comparison op] := by
  refine always_bind_any fun r => always_pure ⟨_, ?_, rfl⟩
  apply getD_mem_of_lt
  exact Nat.mod_lt r (by decide : 0 < 8)

theorem writes_printBool : Writes printBool fun ts => ∃ op ∈ booleans, ts = [.bool op] := by
  refine always_bind_any fun r => always_pure ⟨_, ?_, rfl⟩
  split
  · exact List.mem_cons_self
  · exact List.mem_cons_of_mem _ List.mem_cons_self

theorem printValue_value (type : Nat) :
    Always (printValue type true) fun ts => ∃ v, ts = [.value v] :=
  always_ite (fun _ => always_bind_any fun _ => always_pure ⟨_, rfl⟩)
    fun _ => always_bind_any fun _ => always_pure ⟨_, rfl⟩

theorem writes_printValue (type : Nat) : Writes (printValue type true) fun ts =>
    ∃ v, (∃ draws, (printValue type true draws).1 = [.value v]) ∧ ts = [.value v] := by
  intro draws
  obtain ⟨v, hv⟩ := printValue_value type draws
  refine ⟨v, ⟨draws, hv⟩, ?_⟩
  rw [hv]
  rfl

/-- One comparison, with its white space. -/
theorem writes_printExpression {event : TraceEvent} (hevent : event.filters ≠ []) :
    Writes (printExpression event maxWhitespace true) (Comparison event) := by
  unfold printExpression
  split
  case h_1 h => exact absurd h hevent
  case h_2 f fs h =>
    refine always_bind_any fun r => ?_
    have hfield : (f :: fs).getD (r % (f :: fs).length) f ∈ event.filters := by
      rw [h]
      exact getD_mem_of_lt (Nat.mod_lt r (List.length_pos_of_ne_nil (List.cons_ne_nil f fs))) f
    generalize (f :: fs).getD (r % (f :: fs).length) f = field at hfield
    refine always_bind (P := fun ts => significant ts = [.field field.name])
      (always_pure rfl) fun left hleft => ?_
    refine always_bind (writes_whitespace _) fun blanks hblanks => ?_
    refine always_bind writes_printComparison fun comparison hcomparison => ?_
    refine always_bind (writes_whitespace _) fun blanks' hblanks' => ?_
    refine always_bind (writes_printValue _) fun right hright => ?_
    refine always_bind (writes_whitespace _) fun blanks'' hblanks'' => always_pure ?_
    obtain ⟨op, hmem, hop⟩ := hcomparison
    obtain ⟨v, hvalue, hv⟩ := hright
    simp only [significant_append, hleft, hblanks, hop, hblanks', hv, hblanks'']
    exact .intro hfield hmem hvalue

theorem writes_printOpen :
    Writes (printOpen maxWhitespace true) fun ts => ts = [.lpar] ∨ ts = [.lpar, .not] := by
  refine always_bind (P := fun ts => significant ts = [.lpar]) (always_pure rfl) fun paren hparen => ?_
  refine always_bind (writes_whitespace _) fun blanks hblanks => ?_
  refine always_bind (writes_sometimes (P := fun ts => ts = [] ∨ ts = [.not]) (always_pure (.inr rfl))
    (.inl rfl)) fun negation hnegation => always_pure ?_
  simp only [significant_append, hparen, hblanks]
  obtain hnegation | hnegation := hnegation
  · exact .inl (by simp [hnegation])
  · exact .inr (by simp [hnegation])

/-- The first loop: the induction is over the levels. -/
theorem writes_opens (n : Nat) : Writes (times n (printOpen maxWhitespace true)) (Opens n) := by
  induction n with
  | zero => exact always_pure .nil
  | succ n ih =>
    refine always_bind writes_printOpen fun ts hts => always_bind ih fun us hus => always_pure ?_
    rw [significant_append]
    obtain hts | hts := hts
    · rw [hts]
      exact .plain hus
    · rw [hts]
      exact .negated hus

theorem writes_printClosed {event : TraceEvent} (hevent : event.filters ≠ []) (last : Bool) :
    Writes (printClosed event maxWhitespace true last) fun ts => ∃ c, Comparison event c ∧
      if last then ts = c ++ [.rpar] else ∃ op ∈ booleans, ts = c ++ [.rpar, .bool op] := by
  refine always_bind (writes_printExpression hevent) fun c hc => ?_
  refine always_bind (P := fun ts => significant ts = [.rpar]) (always_pure rfl) fun paren hparen => ?_
  refine always_bind (writes_whitespace _) fun blanks hblanks => ?_
  cases last with
  | true =>
    refine always_bind (P := fun ts => significant ts = []) (always_pure rfl) fun bool hbool => ?_
    refine always_bind (writes_whitespace _) fun blanks' hblanks' => always_pure ⟨_, hc, ?_⟩
    simp [hparen, hblanks, hbool, hblanks']
  | false =>
    refine always_bind writes_printBool fun bool hbool => ?_
    refine always_bind (writes_whitespace _) fun blanks' hblanks' => always_pure ⟨_, hc, ?_⟩
    obtain ⟨op, hmem, hop⟩ := hbool
    rw [if_neg Bool.false_ne_true]
    refine ⟨op, hmem, ?_⟩
    simp [hparen, hblanks, hop, hblanks']

/-- The second loop, with the rounds that are left. -/
theorem writes_closes {event : TraceEvent} (hevent : event.filters ≠ []) (n : Nat) :
    Writes (printBodies event maxWhitespace true (n + 1)) (Closes event (n + 1)) := by
  induction n with
  | zero =>
    refine always_bind (writes_printClosed hevent _) fun ts hts => ?_
    refine always_bind (P := fun us => significant us = []) (always_pure rfl) fun us hus =>
      always_pure ?_
    obtain ⟨c, hc, hts⟩ := hts
    rw [if_pos (by simp)] at hts
    rw [significant_append, hts, hus, List.append_nil]
    exact .last hc
  | succ n ih =>
    refine always_bind (writes_printClosed hevent _) fun ts hts => always_bind ih fun us hus =>
      always_pure ?_
    obtain ⟨c, hc, hts⟩ := hts
    rw [if_neg (by simp)] at hts
    obtain ⟨op, hop, hts⟩ := hts
    rw [significant_append, hts, List.append_assoc]
    exact .more hc hop hus

/-- The number of levels is the first draw. -/
theorem writes_printFilter {event : TraceEvent} (hevent : event.filters ≠ [])
    (maxLevels maxWhitespace : Int) (draws : Nat → Int) :
    Sentence event (levelsOf maxLevels ((draws 0).toNat % 2 ^ 31))
      (significant (printFilter event maxLevels maxWhitespace true draws).1) := by
  generalize hlevels : levelsOf maxLevels ((draws 0).toNat % 2 ^ 31) = levels
  have hrest : Writes (do
      let blanks ← printWhitespace maxWhitespace
      let starts ← times levels (printOpen maxWhitespace true)
      let bodies ←
        if levels = 0 then printExpression event maxWhitespace true
        else printBodies event maxWhitespace true levels
      return blanks ++ starts ++ bodies) (Sentence event levels) := by
    refine always_bind (writes_whitespace _) fun blanks hblanks => ?_
    refine always_bind (writes_opens levels) fun starts hstarts => ?_
    cases levels with
    | zero =>
      refine always_bind (writes_printExpression hevent) fun bodies hbodies => always_pure ?_
      cases hstarts' : significant starts with
      | nil =>
        simp only [significant_append, hblanks, hstarts', List.nil_append]
        exact .flat hbodies
      | cons t ts =>
        rw [hstarts'] at hstarts
        cases hstarts
    | succ n =>
      refine always_bind (writes_closes hevent n) fun bodies hbodies => always_pure ?_
      simp only [significant_append, hblanks, List.nil_append]
      exact .nested hstarts hbodies
  subst hlevels
  exact hrest _

/-! ## What sentences have -/

/-- The parentheses that are open behind the tokens; there is none where too many are closed. -/
def nesting : List Token → Nat → Option Nat
  | [], k => some k
  | .lpar :: ts, k => nesting ts (k + 1)
  | .rpar :: _, 0 => none
  | .rpar :: ts, k + 1 => nesting ts k
  | _ :: ts, k => nesting ts k

def Token.isValue : Token → Bool
  | .value _ => true
  | _ => false

def Token.isField : Token → Bool
  | .field _ => true
  | _ => false

/-- No comparison begins where another one ends. -/
def Apart (ts : List Token) : Prop := ts.IsChain fun t u => ¬ (t.isValue ∧ u.isField)

variable {event : TraceEvent}

theorem Comparison.nesting {c : List Token} (hc : Comparison event c) (ts : List Token) (k : Nat) :
    nesting (c ++ ts) k = nesting ts k := by
  cases hc
  rfl

theorem Opens.nesting {n : Nat} {ts : List Token} (h : Opens n ts) (us : List Token) (k : Nat) :
    nesting (ts ++ us) k = nesting us (k + n) := by
  induction h generalizing k with
  | nil => rfl
  | plain h ih => exact (ih (k + 1)).trans (by congr 1; omega)
  | negated h ih => exact (ih (k + 1)).trans (by congr 1; omega)

theorem Closes.nesting {n : Nat} {ts : List Token} (h : Closes event n ts) (k : Nat) :
    nesting ts (k + n) = some k := by
  induction h with
  | last hc => exact hc.nesting _ _
  | more hc hop h ih => exact (hc.nesting _ _).trans ih

/-- The parentheses of a sentence balance. -/
theorem Sentence.nesting {n : Nat} {ts : List Token} (h : Sentence event n ts) :
    nesting ts 0 = some 0 := by
  cases h with
  | flat hc =>
    have h := hc.nesting [] 0
    rwa [List.append_nil] at h
  | nested hopen hclose => exact (hopen.nesting _ 0).trans (hclose.nesting 0)

/-- A comparison is apart from what does not begin with a field. -/
theorem Comparison.apart {c ts : List Token} (hc : Comparison event c) (hts : Apart ts)
    (hhead : ∀ t ∈ ts.head?, t.isField = false) : Apart (c ++ ts) := by
  cases hc with
  | intro hf hop hv =>
    unfold Apart at *
    cases ts with
    | nil => simp [Token.isValue]
    | cons t ts => simp_all [Token.isValue]

theorem Opens.apart {n : Nat} {ts us : List Token} (h : Opens n ts) (hus : Apart us) :
    Apart (ts ++ us) := by
  induction h with
  | nil => exact hus
  | @plain n ts h ih =>
    unfold Apart at *
    cases hts : ts ++ us with
    | nil => simp [hts]
    | cons t vs => simp_all [Token.isValue]
  | @negated n ts h ih =>
    unfold Apart at *
    cases hts : ts ++ us with
    | nil => simp [hts, Token.isValue]
    | cons t vs => simp_all [Token.isValue]

theorem Closes.apart {n : Nat} {ts : List Token} (h : Closes event n ts) : Apart ts := by
  induction h with
  | last hc => exact hc.apart (by simp [Apart]) (by simp [Token.isField])
  | @more n c ts op hc hop h ih =>
    refine hc.apart ?_ (by simp [Token.isField])
    unfold Apart at *
    cases ts with
    | nil => simp [Token.isValue]
    | cons t ts => simp_all [Token.isValue]

theorem Sentence.apart {n : Nat} {ts : List Token} (h : Sentence event n ts) : Apart ts := by
  cases h with
  | flat hc =>
    have h : Apart (ts ++ []) := hc.apart (by simp [Apart]) (by simp)
    rwa [List.append_nil] at h
  | nested hopen hclose => exact hopen.apart hclose.apart

/-! ## What a valid call gives -/

/-- The tokens that a call prints. -/
def tokens (event : TraceEvent) (call : Call) : List Token :=
  (printFilter event call.maxLevels call.maxWhitespace call.tryValid call.draws).1

/-- The text that a call wants to write. -/
def printed (event : TraceEvent) (call : Call) : Str := (tokens event call).flatMap Token.text

/-- The tokens go to the end of the buffer as far as it goes. -/
theorem foldlM_strcat (ts : List Token) {filter : Str} (hfilter : filter.length < maxFilterSize) :
    ts.foldlM strcat filter =
      if (filter ++ ts.flatMap Token.text).length < maxFilterSize then
        .ok (filter ++ ts.flatMap Token.text)
      else .error .overflow := by
  induction ts generalizing filter with
  | nil => simp [hfilter, pure, Except.pure]
  | cons t ts ih =>
    rw [List.foldlM_cons, List.flatMap_cons, ← List.append_assoc]
    unfold strcat
    split
    case isTrue h => exact ih (by rwa [List.length_append])
    case isFalse h =>
      rw [if_neg]
      · rfl
      · rw [List.length_append, List.length_append]
        omega

/-- A call that finds its event. -/
theorem makeTracepointFilter_eq {events : List TraceEvent} {call : Call} {event : TraceEvent}
    {filter : Str} (hfind : findEvent events call.which = some event) (hevent : event.filters ≠ [])
    (hfilter : filter.length < maxFilterSize) :
    makeTracepointFilter events call filter =
      if toInt32 (call.maxLevels + 1) = 0 then .error .divide
      else if (filter ++ printed event call).length < maxFilterSize then
        .ok (some (filter ++ printed event call), filter ++ printed event call)
      else .error .overflow := by
  have hfields : ¬ event.filters.isEmpty := by simpa using hevent
  unfold makeTracepointFilter
  rw [hfind]
  dsimp only
  rw [if_neg hfields, foldlM_strcat _ hfilter]
  split
  · rfl
  · change (if (filter ++ printed event call).length < maxFilterSize then
      Except.ok (filter ++ printed event call) else .error Fault.overflow) >>= _ = _
    split <;> rfl

/-- The call on the empty buffer gives the text of the tokens that it prints, and these are a
sentence about the event with the levels that the call draws: its parentheses balance, and no two
comparisons are adjacent. -/
def GivesSentence (events : List TraceEvent) (call : Call) : Prop :=
  ∃ event, findEvent events call.which = some event ∧
    makeTracepointFilter events call [] = .ok (some (printed event call), printed event call) ∧
    Sentence event (levelsOf call.maxLevels ((call.draws 0).toNat % 2 ^ 31))
      (significant (tokens event call)) ∧
    nesting (significant (tokens event call)) 0 = some 0 ∧ Apart (significant (tokens event call))

theorem makeTracepointFilter_sentence_iff {events : List TraceEvent} {call : Call}
    {event : TraceEvent} (hfind : findEvent events call.which = some event)
    (hevent : event.filters ≠ []) (hvalid : call.tryValid = true) :
    GivesSentence events call ↔
      toInt32 (call.maxLevels + 1) ≠ 0 ∧ (printed event call).length < maxFilterSize := by
  have hcall : makeTracepointFilter events call [] = _ :=
    makeTracepointFilter_eq hfind hevent (by decide)
  rw [List.nil_append] at hcall
  constructor
  · rintro ⟨event', hfind', hok, -⟩
    cases hfind.symm.trans hfind'
    rw [hcall] at hok
    split at hok
    · cases hok
    · split at hok
      · exact ⟨‹_›, ‹_›⟩
      · cases hok
  · rintro ⟨hlevels, hlength⟩
    rw [if_neg hlevels, if_pos hlength] at hcall
    have hsentence := writes_printFilter hevent call.maxLevels call.maxWhitespace call.draws
    rw [← hvalid] at hsentence
    exact ⟨event, hfind, hcall, hsentence, hsentence.nesting, hsentence.apart⟩

def pidEvent : TraceEvent := ⟨1, [⟨0, "pid".toList⟩]⟩

def pidCall : Call := ⟨1, 4, 1, true, fun _ => 0⟩

theorem pidCall_sentence : GivesSentence [pidEvent] pidCall ↔
    toInt32 (4 + 1) ≠ 0 ∧ (printed pidEvent pidCall).length < maxFilterSize :=
  have hfind : findEvent [pidEvent] pidCall.which = some pidEvent := rfl
  makeTracepointFilter_sentence_iff hfind (List.cons_ne_nil _ _) rfl

/-- A sentence has a character for each level. -/
theorem Sentence.length_le {n : Nat} {ts : List Token} (h : Sentence event n ts) :
    n ≤ (ts.flatMap Token.text).length := by
  have hopens {n : Nat} {us : List Token} (h : Opens n us) : n ≤ (us.flatMap Token.text).length := by
    induction h with
    | nil => exact Nat.zero_le _
    | plain h ih =>
      rw [List.flatMap_cons, List.length_append]
      have hone : (Token.text .lpar).length = 1 := rfl
      omega
    | negated h ih =>
      rw [List.flatMap_cons, List.flatMap_cons, List.length_append, List.length_append]
      have hone : (Token.text .lpar).length = 1 := rfl
      omega
  cases h with
  | flat hc => exact Nat.zero_le _
  | nested hopen hclose =>
    rw [List.flatMap_append, List.length_append]
    exact Nat.le_add_right_of_le (hopens hopen)

theorem length_significant_le (ts : List Token) :
    ((significant ts).flatMap Token.text).length ≤ (ts.flatMap Token.text).length := by
  induction ts with
  | nil => exact Nat.le_refl _
  | cons t ts ih =>
    unfold significant at *
    rw [List.filter_cons]
    split
    · simpa using ih
    · rw [List.flatMap_cons, List.length_append]
      exact Nat.le_add_left_of_le ih

/-- So many levels that their parentheses fill the buffer. -/
def deepCall : Call := ⟨1, 8192, 1, true, fun _ => 8192⟩

theorem deepCall_no_sentence : ¬ GivesSentence [pidEvent] deepCall := by
  rintro ⟨event, hfind, hok, hsentence, -⟩
  have hlevels : levelsOf deepCall.maxLevels ((deepCall.draws 0).toNat % 2 ^ 31) = 8192 := by decide
  rw [hlevels] at hsentence
  have hlength := Nat.le_trans hsentence.length_le (length_significant_le _)
  have hpid : event = pidEvent := by
    cases hfind
    rfl
  have hcall : makeTracepointFilter [pidEvent] deepCall [] = _ :=
    makeTracepointFilter_eq hfind (hpid ▸ List.cons_ne_nil _ _) (by decide)
  rw [hok, List.nil_append] at hcall
  split at hcall
  · cases hcall
  · split at hcall
    case isTrue h => exact absurd (Nat.lt_of_le_of_lt hlength h) (by decide)
    case isFalse => cases hcall

end PerfEvent.TracepointFilter
