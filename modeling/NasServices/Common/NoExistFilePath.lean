import NasServices.Lib.Decimal
import NasServices.Lib.FreeName
import NasServices.Lib.LexicalPath

/-!
# A path that does not exist yet

`GetNoExistFilePath` numbers a file name until it is free, with the number alone or as a numbered
copy. Both loops have no bound. `getNoExistFilePath_firstFree` says that they end, at the first
name of their numbering that does not exist.

`base::FilePath` is not part of this repository. What its functions document is a hypothesis
(`FilePathLib.Documented`), over any type of paths.
-/

namespace Nas.PathUnit

open Lib Lib.FreeName Lib.LexicalPath

/-- The functions of `base::FilePath` that the numbering uses; a directory is given by its value. -/
structure FilePathLib (Path : Type) where
  baseName : Path → Text
  dirName : Path → Text
  insertBeforeExtension : Path → Text → Path

namespace FilePathLib

variable {Path : Type} (lib : FilePathLib Path)

def Named (path : Path) : Prop :=
  lib.baseName path ≠ [] ∧ lib.baseName path ≠ ['.'] ∧ lib.baseName path ≠ ['.', '.']

/-- `InsertBeforeExtension` inserts a suffix after the file name portion of a path, before the extension. -/
structure Documented : Prop where
  dirName_insert : ∀ path suffix, lib.Named path → '/' ∉ suffix →
    lib.dirName (lib.insertBeforeExtension path suffix) = lib.dirName path
  infix_baseName : ∀ path suffix, lib.Named path → '/' ∉ suffix →
    suffix <:+: lib.baseName (lib.insertBeforeExtension path suffix)
  injective_insert : ∀ path, lib.Named path → Function.Injective (lib.insertBeforeExtension path)

end FilePathLib

/-- `base::StringPrintf(FILE_PATH_LITERAL(" (%d)"), times)` -/
def suffixNumber (times : Nat) : Text := [' ', '('] ++ natText times ++ [')']

def copySuffix : Text := [' ', '-', ' ', '副', '本']

structure CopyLoop (Path : Type) where
  noExistPath : Path
  tempPath : Path
  times : Nat

structure NumberLoop (Path : Type) where
  returnPath : Path
  times : Nat

section

variable {Path : Type} (lib : FilePathLib Path)

def CopyLoop.round (s : CopyLoop Path) : CopyLoop Path :=
  if s.times > 1 then
    { s with tempPath := lib.insertBeforeExtension s.noExistPath (suffixNumber s.times), times := s.times + 1 }
  else
    let noExistPath := lib.insertBeforeExtension s.noExistPath copySuffix
    ⟨noExistPath, noExistPath, s.times + 1⟩

def getNoExistFileNameInSpecDir (pathExists : Path → Bool) (existPath : Path) (fuel : Nat) : Option Path :=
  (loopWhile (fun s => pathExists s.tempPath) (CopyLoop.round lib) fuel ⟨existPath, existPath, 1⟩).map
    CopyLoop.tempPath

def NumberLoop.round (existPath : Path) (s : NumberLoop Path) : NumberLoop Path :=
  ⟨lib.insertBeforeExtension existPath (suffixNumber s.times), s.times + 1⟩

/-- `none` when a loop has not ended after `fuel` rounds. -/
def getNoExistFilePath (pathExists : Path → Bool) (existPath : Path) (onlyNumber : Bool) (fuel : Nat) :
    Option Path :=
  if onlyNumber then
    (loopWhile (fun s => pathExists s.returnPath) (NumberLoop.round lib existPath) fuel ⟨existPath, 2⟩).map
      NumberLoop.returnPath
  else getNoExistFileNameInSpecDir lib pathExists existPath fuel

/-! ## The numbering -/

def numbered (path : Path) : Nat → Path
  | 0 => path
  | k + 1 => lib.insertBeforeExtension path (suffixNumber (k + 2))

def numberedCopy (path : Path) : Nat → Path
  | 0 => path
  | k + 1 => numbered lib (lib.insertBeforeExtension path copySuffix) k

def candidate (onlyNumber : Bool) (path : Path) : Nat → Path :=
  if onlyNumber then numbered lib path else numberedCopy lib path

theorem suffixNumber_injective : Function.Injective suffixNumber := by
  intro m n h
  have htext : natText m = natText n := by simpa [suffixNumber] using h
  rw [← natValue_natText m, htext, natValue_natText]

theorem slash_notMem_suffixNumber (times : Nat) : '/' ∉ suffixNumber times := by
  have hdigits : '/' ∉ natText times := fun h => absurd (natText_isDigit times '/' h) (by decide)
  simp [suffixNumber, hdigits]

theorem numberLoop_iterate (path : Path) (k : Nat) :
    ((NumberLoop.round lib path)^[k] ⟨path, 2⟩) = ⟨numbered lib path k, k + 2⟩ := by
  induction k with
  | zero => rfl
  | succ k ih => rw [Function.iterate_succ_apply', ih]; rfl

theorem copyLoop_iterate_succ (path : Path) (k : Nat) :
    ((CopyLoop.round lib)^[k + 1] ⟨path, path, 1⟩) =
      ⟨lib.insertBeforeExtension path copySuffix, numberedCopy lib path (k + 1), k + 2⟩ := by
  induction k with
  | zero => rfl
  | succ k ih =>
    have hsecond : k + 2 > 1 := by omega
    rw [Function.iterate_succ_apply', ih, CopyLoop.round, if_pos hsecond]
    rfl

theorem copyLoop_iterate (path : Path) (k : Nat) :
    ((CopyLoop.round lib)^[k] ⟨path, path, 1⟩).tempPath = numberedCopy lib path k := by
  cases k with
  | zero => rfl
  | succ k => rw [copyLoop_iterate_succ]

variable {lib} {path : Path}

theorem numbered_injective (hlib : lib.Documented) (hpath : lib.Named path) :
    Function.Injective fun i => numbered lib path (1 + i) := by
  intro i j h
  simp only [Nat.add_comm 1, numbered] at h
  have := suffixNumber_injective (hlib.injective_insert path hpath h)
  omega

theorem named_copy (hlib : lib.Documented) (hpath : lib.Named path) :
    lib.Named (lib.insertBeforeExtension path copySuffix) := by
  have hinfix := (hlib.infix_baseName path copySuffix hpath (by decide)).length_le
  have hlength : copySuffix.length = 5 := rfl
  -- The name is longer than those that nothing can be inserted into.
  refine ⟨fun h => ?_, fun h => ?_, fun h => ?_⟩ <;> · rw [h, hlength] at hinfix; simp at hinfix

theorem numberedCopy_injective (hlib : lib.Documented) (hpath : lib.Named path) :
    Function.Injective fun i => numberedCopy lib path (2 + i) := by
  intro i j h
  refine numbered_injective hlib (named_copy hlib hpath) ?_
  simp only [show ∀ n, 2 + n = 1 + n + 1 by omega, numberedCopy] at h
  exact h

theorem dirName_numbered (hlib : lib.Documented) (hpath : lib.Named path) (k : Nat) :
    lib.dirName (numbered lib path k) = lib.dirName path := by
  cases k with
  | zero => rfl
  | succ k => exact hlib.dirName_insert path _ hpath (slash_notMem_suffixNumber _)

theorem dirName_candidate (hlib : lib.Documented) (hpath : lib.Named path) (onlyNumber : Bool) (k : Nat) :
    lib.dirName (candidate lib onlyNumber path k) = lib.dirName path := by
  cases onlyNumber with
  | true => exact dirName_numbered hlib hpath k
  | false =>
    cases k with
    | zero => rfl
    | succ k =>
      refine (dirName_numbered hlib (named_copy hlib hpath) k).trans ?_
      exact hlib.dirName_insert path _ hpath (by decide)

/-- Both modes end, whatever exists: after at most as many rounds as there are existing paths, and
two. The result is in the directory of the path; it is the first of the numbering that does not exist. -/
theorem getNoExistFilePath_firstFree [DecidableEq Path] (hlib : lib.Documented) (existing : Finset Path)
    (hpath : lib.Named path) (onlyNumber : Bool) :
    ∃ k ≤ existing.card + 2,
      (∀ fuel ≥ k, getNoExistFilePath lib (fun p => decide (p ∈ existing)) path onlyNumber fuel =
        some (candidate lib onlyNumber path k)) ∧
      candidate lib onlyNumber path k ∉ existing ∧
      lib.dirName (candidate lib onlyNumber path k) = lib.dirName path ∧
      (path ∉ existing → candidate lib onlyNumber path k = path) ∧
      ∀ j < k, candidate lib onlyNumber path j ∈ existing := by
  obtain ⟨k, hk, hfree, hused, hresult⟩ : ∃ k ≤ 2 + existing.card,
      candidate lib onlyNumber path k ∉ existing ∧ (∀ j < k, candidate lib onlyNumber path j ∈ existing) ∧
      ∀ fuel ≥ k, getNoExistFilePath lib (fun p => decide (p ∈ existing)) path onlyNumber fuel =
        some (candidate lib onlyNumber path k) := by
    cases onlyNumber with
    | true =>
      obtain ⟨k, hk, h⟩ := loopWhile_first_free existing
        (fun k => congrArg NumberLoop.returnPath (numberLoop_iterate lib path k)) (numbered_injective hlib hpath)
      exact ⟨k, by omega, h⟩
    | false =>
      exact loopWhile_first_free existing (copyLoop_iterate lib path) (numberedCopy_injective hlib hpath)
  have hself : path ∉ existing → candidate lib onlyNumber path k = path := by
    intro hnew
    cases k with
    | zero => cases onlyNumber <;> rfl
    | succ k => exact absurd (hused 0 (Nat.succ_pos k)) (by cases onlyNumber <;> exact hnew)
  exact ⟨k, by omega, hresult, hfree, dirName_candidate hlib hpath onlyNumber k, hself, hused⟩

end

structure SplitPath where
  dir : Text
  name : Text
  deriving DecidableEq

def SplitPath.insert (path : SplitPath) (suffix : Text) : SplitPath :=
  let ext := (path.name.reverse.takeWhile (· ≠ '.')).reverse
  if ext.length < path.name.length then
    { path with name := path.name.take (path.name.length - ext.length - 1) ++ suffix ++ '.' :: ext }
  else { path with name := path.name ++ suffix }

def splitPaths : FilePathLib SplitPath where
  baseName := SplitPath.name
  dirName := SplitPath.dir
  insertBeforeExtension := SplitPath.insert

theorem splitPaths_documented : splitPaths.Documented where
  dirName_insert path suffix _ _ := by
    simp only [splitPaths, SplitPath.insert]
    split <;> rfl
  infix_baseName path suffix _ _ := by
    simp only [splitPaths, SplitPath.insert]
    split
    · exact ⟨_, _, rfl⟩
    · exact ⟨path.name, [], by simp⟩
  injective_insert path _ := by
    intro s t h
    simp only [splitPaths, SplitPath.insert] at h
    split at h <;> simpa using h

/-- `a.txt` and the first copy exist. -/
theorem getNoExistFilePath_firstFree_copy :
    splitPaths.Named ⟨"/nas".toList, "a.txt".toList⟩ ∧
    ∃ k ≤ 4, (∀ fuel ≥ k, getNoExistFilePath splitPaths
        (fun p => decide (p ∈ ({⟨"/nas".toList, "a.txt".toList⟩, ⟨"/nas".toList, "a - 副本.txt".toList⟩} :
          Finset SplitPath)))
        ⟨"/nas".toList, "a.txt".toList⟩ false fuel =
      some (candidate splitPaths false ⟨"/nas".toList, "a.txt".toList⟩ k)) := by
  have hnamed : splitPaths.Named ⟨"/nas".toList, "a.txt".toList⟩ := by
    refine ⟨?_, ?_, ?_⟩ <;> decide
  obtain ⟨k, hk, h, -⟩ := getNoExistFilePath_firstFree splitPaths_documented
    {⟨"/nas".toList, "a.txt".toList⟩, ⟨"/nas".toList, "a - 副本.txt".toList⟩} hnamed false
  exact ⟨hnamed, k, hk, h⟩

end Nas.PathUnit
