import PerfEventTests.Fuzzer.FilterGrammar

/-!
# Filters call by call

The buffer that the pieces go to is static and nothing empties it: each call writes behind what the
calls before it have written, and copies all of it out. So a call gives its own filter only where the
calls before it have written nothing.
-/

namespace PerfEvent.TracepointFilter

open ByteMemory
open Text (Str)

variable {events : List TraceEvent} {call : Call} {calls : List Call} {filter text : Str}

/-- The results of the calls, one after the other, from what the buffer has. -/
def runCalls (events : List TraceEvent) : List Call → Str → Except Fault (List (Option Str))
  | [], _ => return []
  | call :: calls, filter => do
    let (result, filter) ← makeTracepointFilter events call filter
    let results ← runCalls events calls filter
    return result :: results

/-- This is what the call gives when it is the first one, and it fits the caller's buffer. -/
def OwnResult (events : List TraceEvent) (call : Call) (result : Option Str) : Prop :=
  (∃ filter, makeTracepointFilter events call [] = .ok (result, filter)) ∧
    ∀ text ∈ result, text.length < maxFilterSize

/-- Every call of the run gives its own result. -/
def Independent (events : List TraceEvent) (calls : List Call) (filter : Str) : Prop :=
  ∃ results, runCalls events calls filter = .ok results ∧
    List.Forall₂ (OwnResult events) calls results

/-! ## One call -/

/-- What a call wants to write, when it finds its event. -/
def wanted (events : List TraceEvent) (call : Call) : Option Str :=
  match findEvent events call.which with
  | none => none
  | some event => if event.filters.isEmpty then none else some (printed event call)

/-- A call that fails leaves the buffer as it is. -/
theorem makeTracepointFilter_of_none (h : wanted events call = none) (filter : Str) :
    makeTracepointFilter events call filter = .ok (none, filter) := by
  cases hfind : findEvent events call.which with
  | none => simp only [makeTracepointFilter, hfind]
  | some event =>
    simp only [wanted, hfind] at h
    split at h
    case isTrue hempty => simp only [makeTracepointFilter, hfind, if_pos hempty]
    case isFalse => cases h

theorem makeTracepointFilter_of_some (h : wanted events call = some text)
    (hfilter : filter.length < maxFilterSize) :
    makeTracepointFilter events call filter =
      if toInt32 (call.maxLevels + 1) = 0 then .error .divide
      else if (filter ++ text).length < maxFilterSize then .ok (some (filter ++ text), filter ++ text)
      else .error .overflow := by
  cases hfind : findEvent events call.which with
  | none =>
    simp only [wanted, hfind] at h
    cases h
  | some event =>
    simp only [wanted, hfind] at h
    split at h
    case isTrue => cases h
    case isFalse hfields =>
      cases h
      exact makeTracepointFilter_eq hfind (by simpa using hfields) hfilter

/-- The call can do its remainder, and its own pieces fit the buffer. -/
def Fits (events : List TraceEvent) (call : Call) : Prop :=
  ∀ text ∈ wanted events call,
    toInt32 (call.maxLevels + 1) ≠ 0 ∧ text.length < maxFilterSize

theorem fits_of_none (h : wanted events call = none) : Fits events call := by
  intro text htext
  rw [h] at htext
  cases htext

theorem fits_of_some (h : wanted events call = some text) :
    Fits events call ↔ toInt32 (call.maxLevels + 1) ≠ 0 ∧ text.length < maxFilterSize := by
  constructor
  · exact fun hfits => hfits text h
  · intro hfits text' htext'
    cases h.symm.trans htext'
    exact hfits

/-- A call that wants to write gives its own result exactly on the empty buffer. -/
theorem makeTracepointFilter_own_iff (h : wanted events call = some text)
    (hfilter : filter.length < maxFilterSize) (result : Option Str) (filter' : Str) :
    makeTracepointFilter events call filter = .ok (result, filter') ∧ OwnResult events call result ↔
      filter = [] ∧ Fits events call ∧ result = some text ∧ filter' = text := by
  rw [makeTracepointFilter_of_some h hfilter, fits_of_some h]
  constructor
  · rintro ⟨hcall, ⟨filter'', hown⟩, -⟩
    rw [makeTracepointFilter_of_some h (by decide), List.nil_append] at hown
    split at hcall
    · cases hcall
    case isFalse hlevels =>
      rw [if_neg hlevels] at hown
      split at hcall
      case isFalse => cases hcall
      case isTrue =>
        split at hown
        case isFalse => cases hown
        case isTrue hlength =>
          obtain ⟨hresult, hbuffer⟩ := Prod.mk.inj (Except.ok.inj hcall)
          obtain ⟨hresult', -⟩ := Prod.mk.inj (Except.ok.inj hown)
          -- the two results agree, so there is nothing in front of the text
          have hnil : filter = [] := by
            have happend := Option.some.inj (hresult.trans hresult'.symm)
            exact List.append_left_eq_self.1 happend
          rw [hnil, List.nil_append] at hbuffer
          exact ⟨hnil, ⟨hlevels, hlength⟩, hresult'.symm, hbuffer.symm⟩
  · rintro ⟨rfl, ⟨hlevels, hlength⟩, rfl, rfl⟩
    rw [List.nil_append, if_neg hlevels, if_pos hlength]
    refine ⟨rfl, ⟨filter', ?_⟩, ?_⟩
    · rw [makeTracepointFilter_of_some h (by decide), List.nil_append, if_neg hlevels, if_pos hlength]
    · rintro text' ⟨⟩
      exact hlength

/-! ## Runs of calls -/

theorem independent_nil (filter : Str) : Independent events [] filter :=
  ⟨[], rfl, .nil⟩

theorem independent_cons :
    Independent events (call :: calls) filter ↔ ∃ result filter',
      (makeTracepointFilter events call filter = .ok (result, filter') ∧
        OwnResult events call result) ∧ Independent events calls filter' := by
  constructor
  · rintro ⟨results, hrun, hown⟩
    cases hcall : makeTracepointFilter events call filter with
    | error e =>
      rw [runCalls, hcall] at hrun
      cases hrun
    | ok p =>
      cases hrest : runCalls events calls p.2 with
      | error e =>
        rw [runCalls, hcall] at hrun
        change (runCalls events calls p.2 >>= _) = _ at hrun
        rw [hrest] at hrun
        cases hrun
      | ok rest =>
        rw [runCalls, hcall] at hrun
        change (runCalls events calls p.2 >>= _) = _ at hrun
        rw [hrest] at hrun
        cases hrun
        cases hown with
        | cons hfirst hothers => exact ⟨p.1, p.2, ⟨rfl, hfirst⟩, rest, hrest, hothers⟩
  · rintro ⟨result, filter', ⟨hcall, hfirst⟩, results, hrun, hown⟩
    refine ⟨result :: results, ?_, .cons hfirst hown⟩
    rw [runCalls, hcall]
    change (runCalls events calls filter' >>= _) = _
    rw [hrun]
    rfl

theorem independent_cons_of_none (h : wanted events call = none) :
    Independent events (call :: calls) filter ↔ Independent events calls filter := by
  rw [independent_cons]
  constructor
  · rintro ⟨result, filter', ⟨hcall, -⟩, hrest⟩
    rw [makeTracepointFilter_of_none h] at hcall
    cases hcall
    exact hrest
  · intro hrest
    exact ⟨none, filter, ⟨makeTracepointFilter_of_none h filter,
      ⟨[], makeTracepointFilter_of_none h []⟩, by simp⟩, hrest⟩

theorem independent_cons_of_some (h : wanted events call = some text)
    (hfilter : filter.length < maxFilterSize) :
    Independent events (call :: calls) filter ↔
      filter = [] ∧ Fits events call ∧ Independent events calls text := by
  rw [independent_cons]
  constructor
  · rintro ⟨result, filter', hfirst, hrest⟩
    obtain ⟨hnil, hfits, -, rfl⟩ := (makeTracepointFilter_own_iff h hfilter _ _).1 hfirst
    exact ⟨hnil, hfits, hrest⟩
  · rintro ⟨hnil, hfits, hrest⟩
    exact ⟨_, _, (makeTracepointFilter_own_iff h hfilter _ _).2 ⟨hnil, hfits, rfl, rfl⟩, hrest⟩

/-- The earlier call writes nothing, or the later one does not write. -/
def Silent (events : List TraceEvent) (earlier later : Call) : Prop :=
  ∀ text ∈ wanted events earlier, text = [] ∨ wanted events later = none

theorem silent_of_some {later : Call} (h : wanted events call = some text) :
    Silent events call later ↔ text = [] ∨ wanted events later = none := by
  constructor
  · exact fun hsilent => hsilent text h
  · intro hor text' htext'
    cases h.symm.trans htext'
    exact hor

/-- From any content of the buffer: where it is not empty, no call may write. -/
theorem independent_from_iff (calls : List Call) (hfilter : filter.length < maxFilterSize) :
    Independent events calls filter ↔
      (filter = [] ∨ ∀ call ∈ calls, wanted events call = none) ∧
        (∀ call ∈ calls, Fits events call) ∧ calls.Pairwise (Silent events) := by
  induction calls generalizing filter with
  | nil => simp [independent_nil]
  | cons call calls ih =>
    rw [List.forall_mem_cons, List.forall_mem_cons, List.pairwise_cons]
    cases h : wanted events call with
    | none =>
      have hsilent : ∀ later ∈ calls, Silent events call later := by
        intro later _ text htext
        rw [h] at htext
        cases htext
      have hfits := fits_of_none h
      rw [independent_cons_of_none h, ih hfilter]
      tauto
    | some text =>
      have hsilent : (∀ later ∈ calls, Silent events call later) ↔
          text = [] ∨ ∀ later ∈ calls, wanted events later = none := by
        simp only [silent_of_some h, or_iff_not_imp_left]
        exact ⟨fun hall htext later hlater => hall later hlater htext,
          fun hall later hlater htext => hall htext later hlater⟩
      rw [independent_cons_of_some h hfilter, hsilent]
      constructor
      · rintro ⟨hnil, hfits, hrest⟩
        obtain ⟨hsilent, hfits', hpairs⟩ :=
          (ih ((fits_of_some h).1 hfits).2).1 hrest
        exact ⟨.inl hnil, ⟨hfits, hfits'⟩, hsilent, hpairs⟩
      · rintro ⟨hnil | ⟨hnone, -⟩, ⟨hfits, hfits'⟩, hsilent, hpairs⟩
        · exact ⟨hnil, hfits, (ih ((fits_of_some h).1 hfits).2).2 ⟨hsilent, hfits', hpairs⟩⟩
        · cases hnone

/-- The calls of a run, from the start of the program, give their own filters exactly when each of
them fits by itself and only the last one that finds its event has written something. -/
theorem runCalls_independent_iff (events : List TraceEvent) (calls : List Call) :
    Independent events calls [] ↔
      (∀ call ∈ calls, Fits events call) ∧ calls.Pairwise (Silent events) := by
  rw [independent_from_iff calls (by decide)]
  exact and_iff_right (.inl rfl)

/-- The same valid filter twice, as `fill_filter` asks for it. -/
theorem pidCalls_not_independent : ¬ Independent [pidEvent] [pidCall, pidCall] [] := by
  rintro ⟨results, hrun, hown⟩
  have hresults : runCalls [pidEvent] [pidCall, pidCall] [] =
      .ok [some "pid~0".toList, some "pid~0pid~0".toList] := by rfl
  cases hresults.symm.trans hrun
  cases hown with
  | cons hfirst hothers =>
    cases hothers with
    | cons hsecond _ =>
      obtain ⟨⟨filter, hcall⟩, -⟩ := hsecond
      have hresult : makeTracepointFilter [pidEvent] pidCall [] =
          .ok (some "pid~0".toList, "pid~0".toList) := by rfl
      cases hresult.symm.trans hcall

end PerfEvent.TracepointFilter
