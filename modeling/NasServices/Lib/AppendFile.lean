import Mathlib.Data.List.Infix

/-!
# A file written through one buffered stream

A file that is only appended to, and the one stream that appends to it. The
stream keeps written data in a buffer; the size of the file, and what is left
of it if the program dies, are those of the flushed part alone. A stream can
only be open on a file that exists, so the three constructors are all there is.

`contents` is what was written, flushed or not. With an empty buffer the size of the
file is the length of its contents (`size_of_clean`).
-/

namespace Nas.Lib

inductive AppendFile (α : Type*) where
  | absent
  | closed (disk : List α)
  | opened (disk buffer : List α)
  deriving DecidableEq, Repr

namespace AppendFile

variable {α : Type*}

def contents : AppendFile α → List α
  | absent => []
  | closed disk => disk
  | opened disk buffer => disk ++ buffer

def disk? : AppendFile α → Option (List α)
  | absent => none
  | closed disk => some disk
  | opened disk _ => some disk

def size (f : AppendFile α) : Option Nat := f.disk?.map List.length

def unflushed : AppendFile α → List α
  | opened _ buffer => buffer
  | _ => []

def openAppend : AppendFile α → AppendFile α
  | absent => opened [] []
  | closed disk => opened disk []
  | opened disk buffer => opened disk buffer

def write : AppendFile α → List α → Nat → AppendFile α
  | opened disk buffer, bs, k => opened (disk ++ (buffer ++ bs).take k) ((buffer ++ bs).drop k)
  | f, _, _ => f

def seekEnd : AppendFile α → AppendFile α
  | opened disk buffer => opened (disk ++ buffer) []
  | f => f

def close : AppendFile α → AppendFile α
  | opened disk buffer => closed (disk ++ buffer)
  | f => f

def drop : AppendFile α → AppendFile α
  | opened disk _ => closed disk
  | f => f

def isOpen : AppendFile α → Bool
  | opened .. => true
  | _ => false

variable (f : AppendFile α)

@[simp] theorem contents_openAppend : f.openAppend.contents = f.contents := by
  cases f <;> simp [openAppend, contents]

@[simp] theorem contents_seekEnd : f.seekEnd.contents = f.contents := by
  cases f <;> simp [seekEnd, contents]

@[simp] theorem contents_close : f.close.contents = f.contents := by
  cases f <;> simp [close, contents]

theorem contents_write (h : f.isOpen) (bs : List α) (k : Nat) :
    (f.write bs k).contents = f.contents ++ bs := by
  cases f with
  | opened disk buffer => simp [write, contents]
  | absent => cases h
  | closed disk => cases h

theorem openAppend_of_isOpen (h : f.isOpen) : f.openAppend = f := by
  cases f with
  | opened disk buffer => rfl
  | absent => cases h
  | closed disk => cases h

/-- A stream that is lost leaves a prefix of what was written. -/
theorem contents_drop : f.drop.contents <+: f.contents := by
  cases f with
  | opened disk buffer => exact List.prefix_append disk buffer
  | absent => exact List.prefix_rfl
  | closed disk => exact List.prefix_rfl

@[simp] theorem unflushed_openAppend : f.openAppend.unflushed = f.unflushed := by
  cases f <;> rfl

@[simp] theorem unflushed_close : f.close.unflushed = [] := by
  cases f <;> rfl

@[simp] theorem unflushed_drop : f.drop.unflushed = [] := by
  cases f <;> rfl

@[simp] theorem isSome_disk_openAppend : f.openAppend.disk?.isSome := by
  cases f <;> rfl

@[simp] theorem isSome_disk_seekEnd : f.seekEnd.disk?.isSome = f.disk?.isSome := by
  cases f <;> rfl

@[simp] theorem isSome_disk_write (bs : List α) (k : Nat) :
    (f.write bs k).disk?.isSome = f.disk?.isSome := by
  cases f <;> rfl

/-- With nothing in the buffer, the file system holds all that was written. -/
theorem disk_of_clean (h : f.unflushed = []) (he : f.disk?.isSome) : f.disk? = some f.contents := by
  cases f with
  | opened disk buffer => rw [disk?, contents, show buffer = [] from h, List.append_nil]
  | absent => cases he
  | closed disk => rfl

theorem size_of_clean (h : f.unflushed = []) (he : f.disk?.isSome) :
    f.size = some f.contents.length := by
  rw [size, f.disk_of_clean h he, Option.map_some]

end AppendFile

end Nas.Lib
