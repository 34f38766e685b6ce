import PerfEventTests.Lib.Draws
import PerfEventTests.Lib.Text

/-!
# Tracepoint filters

`fuzzer/filter_tracepoint.c`: a random filter for a trace event is written piece by piece to the end
of one static buffer, and the buffer is copied out. The pieces are kept as tokens; which of them are
written depends on the arguments and on the draws, where they go to depends on what the buffer has.
-/

namespace PerfEvent.TracepointFilter

open Draws ByteMemory
open Text (Str decimal hex)

/-! ## Events and tokens -/

structure TraceFilter where
  type : Nat
  name : Str

structure TraceEvent where
  id : Int
  filters : List TraceFilter

def filterTypeStr : Nat := 2

def findEvent (events : List TraceEvent) (event : Int) : Option TraceEvent :=
  events.find? fun e => e.id = event

inductive Token where
  | blank (c : Char)
  | lpar
  | rpar
  | not
  | bool (s : Str)
  | field (name : Str)
  | comparison (s : Str)
  | value (s : Str)

def Token.text : Token → Str
  | .blank c => [c]
  | .lpar => ['(']
  | .rpar => [')']
  | .not => ['!']
  | .bool s | .field s | .comparison s | .value s => s

/-! ## The printers -/

/-- A printer that runs `n` times. -/
def times : Nat → Draw (List Token) → Draw (List Token)
  | 0, _ => return []
  | n + 1, d => do
    let ts ← d
    let us ← times n d
    return ts ++ us

/-- `if (rand()%n==1)` -/
def sometimes (n : Nat) (d : Draw (List Token)) : Draw (List Token) := do
  let r ← rand
  if r % n = 1 then d else return []

def printWhitespace (maxAmount : Int) : Draw (List Token) := do
  let maxAmount := if maxAmount = 0 then 1 else maxAmount
  let r ← rand
  times ((r : Int).tmod maxAmount).toNat do
    let r ← rand
    return [.blank (if r % 2 = 0 then ' ' else '\t')]

def comparisons : List Str := ["~", "!=", "==", "<", "<=", ">", ">=", "&"].map String.toList

def printComparison : Draw (List Token) := do
  return [.comparison (comparisons.getD ((← rand) % 8) [])]

def printBool : Draw (List Token) := do
  return [.bool (if (← rand) % 2 = 0 then "&&".toList else "||".toList)]

/-- The loop that fills a string. -/
def randomChars : Nat → Draw Str
  | 0 => return []
  | n + 1 => do
    let c := Char.ofNat ((← rand) % 254 + 1)
    return c :: (← randomChars n)

/-- The string before it is spoiled. The closing quote stands in place of the last character. -/
def quotedString : Draw Str := do
  match (← rand) % 15 with
  | 0 => return ['"']
  | 1 | 2 | 3 => do
    let length := (← rand) % 256
    let chars ← randomChars length
    return ('"' :: chars).take length ++ ['"']
  | _ => return "\"blah\"".toList

def stringValue : Draw Str := do
  let string ← quotedString
  let length := string.length
  match (← rand) % 10 with
  | 0 => if length ≠ 0 then return string.set ((← rand) % length) '*' else return string
  | 1 => if length ≠ 0 then return string.take ((← rand) % length) ++ ['*', '"'] else return string
  | _ => return string

def numberValue : Draw Str := do
  match (← rand) % 10 with
  | 0 => return decimal (← rand)
  | 1 => do
    let a ← rand
    return decimal a ++ decimal (← rand)
  | 2 => return '0' :: 'x' :: hex (← rand)
  | 3 => return '-' :: decimal (← rand)
  | _ => return decimal (((← rand) % 1024 : Nat) : Int)

def printValue (type : Nat) (tryValid : Bool) : Draw (List Token) := do
  if type = filterTypeStr then return [.value (← stringValue)]
  else if tryValid then return [.value (← numberValue)]
  else if (← rand) % 5 = 1 then return [.value (← stringValue)]
  else return [.value (← numberValue)]

/-- One side of a comparison that need not be valid. -/
def printSide (name : Str) : Draw (List Token) := do
  match (← rand) % 3 with
  | 0 => return [.field name]
  | 1 => printValue ((← rand) % 2) false
  | _ => return []

def printExpression (event : TraceEvent) (maxWhitespace : Int) (tryValid : Bool) :
    Draw (List Token) := do
  match event.filters with
  | [] => return []
  | f :: fs => do
    let field := (f :: fs).getD ((← rand) % (f :: fs).length) f
    let left ← if tryValid then pure [Token.field field.name] else printSide field.name
    let blanks ← printWhitespace maxWhitespace
    let comparison ← if tryValid then printComparison else sometimes 3 printComparison
    let blanks' ← printWhitespace maxWhitespace
    let right ← if tryValid then printValue field.type tryValid else printSide field.name
    let blanks'' ← printWhitespace maxWhitespace
    return left ++ blanks ++ comparison ++ blanks' ++ right ++ blanks''

/-- What is printed for each level before the comparisons. -/
def printOpen (maxWhitespace : Int) (tryValid : Bool) : Draw (List Token) := do
  let paren ← if tryValid then pure [Token.lpar] else sometimes 3 (pure [Token.lpar])
  let blanks ← printWhitespace maxWhitespace
  let negation ← sometimes 5 (pure [Token.not])
  return paren ++ blanks ++ negation

/-- A comparison and what closes its level; it is the last one when `l` is `levels-1`. -/
def printClosed (event : TraceEvent) (maxWhitespace : Int) (tryValid last : Bool) :
    Draw (List Token) := do
  let expression ← printExpression event maxWhitespace tryValid
  let paren ← if tryValid then pure [Token.rpar] else sometimes 3 (pure [Token.rpar])
  let blanks ← printWhitespace maxWhitespace
  let bool ←
    if last then pure [] else if tryValid then printBool else sometimes 3 printBool
  let blanks' ← printWhitespace maxWhitespace
  return expression ++ paren ++ blanks ++ bool ++ blanks'

/-- The `do` loop, with the rounds that are left. -/
def printBodies (event : TraceEvent) (maxWhitespace : Int) (tryValid : Bool) :
    Nat → Draw (List Token)
  | 0 => return []
  | n + 1 => do
    let body ← printClosed event maxWhitespace tryValid (n = 0)
    let bodies ← printBodies event maxWhitespace tryValid n
    return body ++ bodies

/-- `rand()%(max_levels+1)` -/
def levelsOf (maxLevels : Int) (r : Nat) : Nat :=
  ((r : Int).tmod (toInt32 (maxLevels + 1))).toNat

/-- Everything that one call writes. -/
def printFilter (event : TraceEvent) (maxLevels maxWhitespace : Int) (tryValid : Bool) :
    Draw (List Token) := do
  let levels := levelsOf maxLevels (← rand)
  let blanks ← printWhitespace maxWhitespace
  let starts ← times levels (printOpen maxWhitespace tryValid)
  let bodies ←
    if levels = 0 then printExpression event maxWhitespace tryValid
    else printBodies event maxWhitespace tryValid levels
  return blanks ++ starts ++ bodies

/-! ## The buffer -/

/-- `MAX_FILTER_SIZE` -/
def maxFilterSize : Nat := 8192

inductive Fault where
  /-- A remainder by zero. -/
  | divide
  /-- A write behind the buffer. -/
  | overflow
  deriving DecidableEq

def strcat (filter : Str) (t : Token) : Except Fault Str :=
  if filter.length + t.text.length < maxFilterSize then .ok (filter ++ t.text)
  else .error .overflow

structure Call where
  which : Int
  maxLevels : Int
  maxWhitespace : Int
  tryValid : Bool
  draws : Nat → Int

/-- What is copied out, or nothing when the call fails, and what the buffer has then. -/
def makeTracepointFilter (events : List TraceEvent) (call : Call) (filter : Str) :
    Except Fault (Option Str × Str) :=
  match findEvent events call.which with
  | none => .ok (none, filter)
  | some event =>
    if event.filters.isEmpty then .ok (none, filter)
    else if toInt32 (call.maxLevels + 1) = 0 then .error .divide
    else do
      let tokens :=
        (printFilter event call.maxLevels call.maxWhitespace call.tryValid call.draws).1
      let filter ← tokens.foldlM strcat filter
      return (some filter, filter)

end PerfEvent.TracepointFilter
