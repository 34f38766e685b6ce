import PerfEventTests.Fuzzer.TracepointFilter

/-!
# Filter strings

`fill_filter` and `make_crazy_filter` in `fuzzer/fuzz_ioctl.c`, and `fuzzer/filter_address.c`.
A tracepoint filter is printed into a static buffer that is never cleared, so its text is taken to
be any text.
-/

namespace PerfEvent.Fuzzer

open Draws Text
open TracepointFilter (maxFilterSize)

/-- `m` for each of `n` characters. -/
def drawText (m : Draw Char) : Nat → Draw Str
  | 0 => return []
  | n + 1 => do
    let c ← m
    let cs ← drawText m n
    return c :: cs

def randomMess : Str := "()&=!><~|".toList

def crazyChar : Draw Char := do
  match (← Draws.rand) % 3 with
  | 0 => return randomMess.getD ((← Draws.rand) % 9) ' '
  | 1 => return Char.ofNat ((← Draws.rand) % 254 + 1)
  | _ => return Char.ofNat ((← Draws.rand) % 10 + 48)

def makeCrazyFilter : Draw Str := do
  let length ← Draws.rand
  drawText crazyChar (length % (maxFilterSize - 1))

/-! ## Address filters -/

def whitespaceChar : Draw Char := do
  let r ← Draws.rand
  let k := r % 50
  return if k ≤ 30 then ' ' else if k = 31 then '\r' else if k = 32 then '\n'
    else if k = 33 then ',' else '\t'

def printWhitespace (maxAmount : Nat) : Draw Str := do
  let amount ← Draws.rand
  drawText whitespaceChar (amount % (if maxAmount = 0 then 1 else maxAmount))

/-- The case 4 of the source falls through to 0. -/
def getKernelAddress : Draw Nat := do
  match (← Draws.rand) % 6 with
  | 0 => return (← Draws.rand) * 2 ^ 32 + (← Draws.rand)
  | 1 | 2 | 3 => return 0xffffffff00000000 + (← Draws.rand)
  | 4 => do
    let _ ← Draws.rand
    return 0
  | _ => return 0

def getSize : Draw Nat := do
  match (← Draws.rand) % 5 with
  | 0 => return (← Draws.rand) * 2 ^ 32 + (← Draws.rand)
  | 1 => Draws.rand
  | 2 => return (← Draws.rand) / 2 ^ 16 * 2 ^ 16
  | 3 => return 0xffffffff00000000 + (← Draws.rand)
  | _ => return 0

def addressText : Draw Str := do
  let form ← Draws.rand
  let address ← getKernelAddress
  match form % 10 with
  | 0 => return decimal address
  | 1 => return longText address
  | 2 => return hex address
  | 3 => return Nat.toDigits 8 address
  | _ => return "0x".toList ++ hex address

def sizeText : Draw Str := do
  let form ← Draws.rand
  let size ← getSize
  match form % 5 with
  | 0 => return '/' :: hex size
  | 1 => return '/' :: longText size
  | 2 => return "/0x".toList ++ hex size
  | _ => return '/' :: decimal size

def rangeText (path : Bool) : Draw Str := do
  let address ← addressText
  let sized ← Draws.rand
  let size ← if sized % 2 = 1 then sizeText else return []
  return address ++ size ++ (if path then "@/vmlinuz".toList else [])

def actionText (maxWhitespace : Nat) : Draw Str := do
  match (← Draws.rand) % 5 with
  | 0 => return "filter".toList
  | 1 => return "start".toList
  | 2 => return "stop".toList
  | _ => printWhitespace maxWhitespace

def makeAddressFilter (maxWhitespace : Nat) : Draw Str := do
  let action ← actionText maxWhitespace
  let blank ← printWhitespace maxWhitespace
  let rangeType ← Draws.rand
  let range ← if rangeType % 3 = 0 then printWhitespace maxWhitespace
    else rangeText (rangeType % 3 = 2)
  return action ++ blank ++ range

/-! ## The choice -/

/-- Any text that a C string can hold. -/
def anyText : Draw Str := do
  let length ← next
  drawText (do return Char.ofNat ((← next).toNat % 255 + 1)) length.toNat

def fillFilter : Draw Str := do
  let kind ← Draws.rand
  if kind % 30 = 0 then makeCrazyFilter
  else if kind % 30 = 3 ∨ kind % 30 = 4 then do
    let maxWhitespace ← Draws.rand
    makeAddressFilter (maxWhitespace % 20)
  else if 10 ≤ kind % 30 ∧ kind % 30 ≤ 20 then makeAddressFilter 1
  else anyText

end PerfEvent.Fuzzer
