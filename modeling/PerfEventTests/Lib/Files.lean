import PerfEventTests.Lib.Words

/-!
# Files with a position

A file descriptor of a regular file: what the file contains, and where the next transfer starts.
-/

namespace Files

structure File where
  content : List UInt8
  pos : Nat := 0

namespace File

variable {f : File}

/-- `lseek(fd, offset, SEEK_SET)`: a negative offset is refused and moves nothing. -/
def seek (f : File) (offset : Int) : File :=
  if offset < 0 then f else { f with pos := offset.toNat }

/-- What `lseek(fd, offset, SEEK_SET)` returns. -/
def seekResult (offset : Int) : Int := if offset < 0 then -1 else offset

/-- The bytes from `pos` on. -/
def slice (f : File) (pos n : Nat) : List UInt8 := (f.content.drop pos).take n

/-- `read(fd, buf, n)`. A count beyond `SSIZE_MAX` is refused. -/
def read (f : File) (n : Nat) : Option (List UInt8) × File :=
  if n < 2 ^ 63 then
    (some (f.slice f.pos n), { f with pos := f.pos + (f.slice f.pos n).length })
  else (none, f)

/-- What `read` returns. -/
def readResult : Option (List UInt8) → Int
  | some bs => bs.length
  | none => -1

/-- `write(fd, buf, n)`: a gap before the position is filled with zeros. -/
def write (f : File) (bs : List UInt8) : File where
  content := f.content.take f.pos ++ List.replicate (f.pos - f.content.length) 0 ++ bs ++
    f.content.drop (f.pos + bs.length)
  pos := f.pos + bs.length

theorem seek_of_nonneg {offset : Int} (h : 0 ≤ offset) :
    f.seek offset = { f with pos := offset.toNat } :=
  if_neg (by omega)

theorem seek_pos_lt {offset : Int} {b : Nat} (hpos : f.pos < b) (h : offset < b) :
    (f.seek offset).pos < b := by
  unfold seek
  split
  · exact hpos
  · show offset.toNat < b
    omega

@[simp] theorem seek_content (offset : Int) : (f.seek offset).content = f.content := by
  unfold seek
  split <;> rfl

@[simp] theorem read_content (n : Nat) : (f.read n).2.content = f.content := by
  unfold read
  split <;> rfl

theorem read_eq {n : Nat} (h : n < 2 ^ 63) : f.read n =
    (some (f.slice f.pos n), { f with pos := f.pos + (f.slice f.pos n).length }) :=
  if_pos h

theorem length_slice (pos n : Nat) : (f.slice pos n).length = min n (f.content.length - pos) := by
  rw [slice, List.length_take, List.length_drop]

theorem length_slice_of_le {pos n : Nat} (h : pos + n ≤ f.content.length) :
    (f.slice pos n).length = n := by
  rw [length_slice]
  omega

end File

end Files
