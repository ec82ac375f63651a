import Mathlib.Data.List.Infix
import NasServices.Common.ProtectedPathCheck

/-!
# Double slashes

`RemoveDoubleSlash` of `file_path_unit.cc` is one call of `base::ReplaceChars`, as `UnifiedSlash` is. That
function replaces every character of a set by a text. The two slashes that are to be found in a row are
passed as this set. It is the set of one slash, so every slash becomes a slash and the function returns its
argument (`removeDoubleSlash_eq_self`).
-/

namespace Nas.PathUnit

open Lib.LexicalPath

/-- What the functions use of `base`: `ReplaceChars`, with its output as the result, and `FilePath` with
its constructor and `value`. -/
structure BaseStrings (Path : Type) where
  replaceChars : (input chars replaceWith : Text) → Text
  filePath : Text → Path
  value : Path → Text

namespace BaseStrings

variable {Path : Type} {base : BaseStrings Path}

/-- As `base` documents them: each character in `chars` is replaced with the text `replaceWith`, and a
path is made again from its value. -/
structure Documented (base : BaseStrings Path) : Prop where
  replaceChars_eq : ∀ input chars replaceWith,
    base.replaceChars input chars replaceWith =
      input.flatMap fun c => if c ∈ chars then replaceWith else [c]
  filePath_value : ∀ path, base.filePath (base.value path) = path

def unifiedSlash (base : BaseStrings Path) (srcPath : Text) : Text := base.replaceChars srcPath ['\\'] ['/']

def removeDoubleSlash (base : BaseStrings Path) (srcPath : Text) : Text :=
  base.replaceChars srcPath ['/', '/'] ['/']

def onFilePath (base : BaseStrings Path) (convert : Text → Text) (srcPath : Path) : Path :=
  base.filePath (convert (base.value srcPath))

theorem Documented.replaceChars_singleton (hbase : base.Documented) (input chars : Text) (d : Char) :
    base.replaceChars input chars [d] = input.map fun c => if c ∈ chars then d else c := by
  rw [hbase.replaceChars_eq, List.map_eq_flatMap]
  refine List.flatMap_congr fun c _ => ?_
  split <;> rfl

/-- This is the conversion that the checks of protected paths use. -/
theorem Documented.unifiedSlash_eq (hbase : base.Documented) (srcPath : Text) :
    base.unifiedSlash srcPath = PathUnit.unifiedSlash srcPath := by
  rw [unifiedSlash, hbase.replaceChars_singleton, PathUnit.unifiedSlash]
  simp only [List.mem_singleton]

theorem Documented.removeDoubleSlash_eq_self (hbase : base.Documented) (srcPath : Text) :
    base.removeDoubleSlash srcPath = srcPath := by
  have hset (c : Char) : (if c ∈ ['/', '/'] then '/' else c) = c := by
    split
    · rename_i hmem
      obtain rfl : c = '/' := by simpa using hmem
      rfl
    · rfl
  rw [removeDoubleSlash, hbase.replaceChars_singleton]
  simp only [hset, List.map_id']

theorem Documented.onFilePath_removeDoubleSlash_eq_self (hbase : base.Documented) (srcPath : Path) :
    base.onFilePath base.removeDoubleSlash srcPath = srcPath := by
  rw [onFilePath, hbase.removeDoubleSlash_eq_self, hbase.filePath_value]

end BaseStrings

def HasDoubleSlash (path : Text) : Prop := ['/', '/'] <:+: path

instance (path : Text) : Decidable (HasDoubleSlash path) := inferInstanceAs (Decidable (_ <:+: _))

/-- What the header says of `RemoveDoubleSlash`: `//` becomes `/`, and no component changes. `value` is
the text of a path, for either overload. -/
structure DoubleSlashRemoved {P : Type} (value : P → Text) (remove : P → P) (path : P) : Prop where
  not_hasDoubleSlash : ¬ HasDoubleSlash (value (remove path))
  components_eq : (parts (value (remove path))).filter (· ≠ []) = (parts (value path)).filter (· ≠ [])
  idempotent : remove (remove path) = remove path

/-- A function that changes nothing removes the double slashes of the paths that have none. -/
theorem doubleSlashRemoved_iff_of_eq_self {P : Type} {value : P → Text} {remove : P → P}
    (hself : ∀ path, remove path = path) (path : P) :
    DoubleSlashRemoved value remove path ↔ ¬ HasDoubleSlash (value path) := by
  constructor
  · intro h
    have hnot := h.not_hasDoubleSlash
    rwa [hself] at hnot
  · intro hnot
    exact ⟨by rwa [hself], by rw [hself], hself _⟩

/-- Both overloads of `RemoveDoubleSlash` do what they are for exactly where there is nothing to do. -/
theorem removeDoubleSlash_removes_iff {Path : Type} {base : BaseStrings Path} (hbase : base.Documented)
    (text : Text) (path : Path) :
    (DoubleSlashRemoved id base.removeDoubleSlash text ↔ ¬ HasDoubleSlash text) ∧
      (DoubleSlashRemoved base.value (base.onFilePath base.removeDoubleSlash) path ↔
        ¬ HasDoubleSlash (base.value path)) :=
  ⟨doubleSlashRemoved_iff_of_eq_self hbase.removeDoubleSlash_eq_self text,
    doubleSlashRemoved_iff_of_eq_self hbase.onFilePath_removeDoubleSlash_eq_self path⟩

def plainBase : BaseStrings Text where
  replaceChars input chars replaceWith := input.flatMap fun c => if c ∈ chars then replaceWith else [c]
  filePath := id
  value := id

theorem removeDoubleSlash_single :
    DoubleSlashRemoved id plainBase.removeDoubleSlash ['a', '/', 'b'] ∧
      DoubleSlashRemoved id (plainBase.onFilePath plainBase.removeDoubleSlash) ['a', '/', 'b'] :=
  have h := removeDoubleSlash_removes_iff (show plainBase.Documented from ⟨fun _ _ _ => rfl, fun _ => rfl⟩)
    ['a', '/', 'b'] ['a', '/', 'b']
  ⟨h.1.mpr (by decide), h.2.mpr (by decide)⟩

/-- The path `a//b` comes back as it is, with its two slashes. -/
theorem removeDoubleSlash_keeps_double :
    plainBase.removeDoubleSlash ['a', '/', '/', 'b'] = ['a', '/', '/', 'b'] ∧
      ¬ DoubleSlashRemoved id plainBase.removeDoubleSlash ['a', '/', '/', 'b'] := by
  have hkeep : plainBase.removeDoubleSlash ['a', '/', '/', 'b'] = ['a', '/', '/', 'b'] := by decide
  refine ⟨hkeep, fun h => h.not_hasDoubleSlash ?_⟩
  rw [id_eq, hkeep]
  decide

end Nas.PathUnit
