import Mathlib.Algebra.Order.Ring.Int
import NasServices.Lib.LexicalPath

/-!
# The paths of an added torrent and the check of their length

`CheckCondition` refuses a torrent if `IsPathLengthExceeded`: a file under the save
path, or the same file under the requested name, has a path of more than 260
characters. `AddTorrent` then renames the files. For a request without a name it does
so with the name of the torrent, which the check has not seen.

Both compute the new paths by a case analysis of their own. For a request with a name the
renamed paths are among those that were checked (`mem_checkedPaths`); without one they are
checked only if nothing is renamed.
-/

namespace Nas.NetBt

open Lib.LexicalPath

/-! ## `Path` -/

/-- A path from its parts, from the right: how many names are still to be skipped because of
`..`, and the names that stay. -/
def resolveParts : List Text → Nat × List Text
  | [] => (0, [])
  | x :: xs =>
    let (up, names) := resolveParts xs
    if x = [] ∨ x = ['.'] then (up, names)
    else if x = ['.', '.'] then (up + 1, names)
    else if up ≠ 0 then (up - 1, names)
    else (0, x :: names)

/-- `QDir::cleanPath`; the `..` that are left stay at the front. -/
def dirCleanPath (p : Text) : Text :=
  let (up, names) := resolveParts (parts p)
  let clean := ['/'].intercalate (List.replicate up ['.', '.'] ++ names)
  if p = [] then []
  else if p.head? = some '/' then '/' :: clean
  else if clean = [] then ['.'] else clean

def mkPath (p : Text) : Text := if '/' ∈ p ∨ '\\' ∈ p then dirCleanPath p else p

/-- `operator/` -/
def joinPath (lhs rhs : Text) : Text :=
  if rhs = [] then lhs else if lhs = [] then rhs else mkPath (lhs ++ '/' :: rhs)

def findRootFolderFrom (rootFolder : Text) : List Text → Text
  | [] => rootFolder
  | p :: ps =>
    match parts p with
    | first :: _ :: _ =>
      if rootFolder = [] then findRootFolderFrom first ps
      else if rootFolder = first then findRootFolderFrom rootFolder ps
      else []
    | _ => []

def findRootFolder (filePaths : List Text) : Text := findRootFolderFrom [] filePaths

def relativeFilePath (dir file : Text) : Text :=
  let dirElts := (parts (dirCleanPath dir)).filter (· ≠ [])
  let fileElts := (parts (dirCleanPath file)).filter (· ≠ [])
  let common := ((dirElts.zip fileElts).takeWhile fun x => x.1 = x.2).length
  let result := (List.replicate (dirElts.length - common) "../".toList).flatten ++
    ['/'].intercalate (fileElts.drop common)
  if result = [] then ['.'] else result

/-- `relativePathOf` for two relative paths, which are taken in the home directory. -/
def relativePathOf (home root child : Text) : Text :=
  mkPath (relativeFilePath (home ++ '/' :: root) (home ++ '/' :: child))

def qLength (p : Text) : Nat := (p.map fun c => if c.toNat < 65536 then 1 else 2).sum

/-! ## The check and the renaming -/

inductive TorrentContentLayout
  | original
  | subfolder
  | noSubfolder
  deriving DecidableEq

structure AddRequest where
  isValid : Bool
  filePaths : List Text
  torrentName : Text
  fileName : Text
  savePath : Text
  layout : TorrentContentLayout
  home : Text

namespace AddRequest

def torrentPaths (r : AddRequest) : List Text := if r.isValid then r.filePaths else []

def oldRootFolder (r : AddRequest) : Text := findRootFolder r.torrentPaths

def isPathLengthExceeded (r : AddRequest) : Bool :=
  r.torrentPaths.any fun oldFilePath =>
    let newFilePath :=
      if r.oldRootFolder ≠ [] then
        joinPath (mkPath r.fileName) (relativePathOf r.home r.oldRootFolder oldFilePath)
      else joinPath (mkPath r.fileName) oldFilePath
    decide (260 < qLength (joinPath r.savePath oldFilePath)) ||
      decide (260 < qLength (joinPath r.savePath newFilePath))

/-- `RenameTorrentContent`: the paths passed to the session. -/
def renameTorrentContent (r : AddRequest) (newName : Text) : List Text :=
  if !r.isValid then []
  else if r.oldRootFolder ≠ [] then
    r.torrentPaths.map fun p => joinPath (mkPath newName) (relativePathOf r.home r.oldRootFolder p)
  else if 1 ≤ r.torrentPaths.length ∧ r.layout = .subfolder then
    r.torrentPaths.map fun p => joinPath (mkPath newName) p
  else r.torrentPaths

def addTorrentPaths (r : AddRequest) : List Text :=
  if r.fileName ≠ [] then r.renameTorrentContent r.fileName else r.renameTorrentContent r.torrentName

/-! ## What is checked -/

def innerPath (r : AddRequest) (p : Text) : Text :=
  if r.oldRootFolder ≠ [] then relativePathOf r.home r.oldRootFolder p else p

def renamed (r : AddRequest) (newName p : Text) : Text := joinPath (mkPath newName) (r.innerPath p)

def checkedPaths (r : AddRequest) : List Text :=
  r.torrentPaths.flatMap fun p => [p, r.renamed r.fileName p]

def Renames (r : AddRequest) : Prop := r.oldRootFolder ≠ [] ∨ r.layout = .subfolder

instance (r : AddRequest) : Decidable r.Renames := inferInstanceAs (Decidable (_ ∨ _))

def FitsLimit (r : AddRequest) (p : Text) : Prop := qLength (joinPath r.savePath p) ≤ 260

instance (r : AddRequest) (p : Text) : Decidable (r.FitsLimit p) := inferInstanceAs (Decidable (_ ≤ _))

variable (r : AddRequest)

theorem isPathLengthExceeded_eq_false_iff :
    r.isPathLengthExceeded = false ↔ ∀ p ∈ r.checkedPaths, r.FitsLimit p := by
  have hnew (p : Text) : (if r.oldRootFolder ≠ [] then
      joinPath (mkPath r.fileName) (relativePathOf r.home r.oldRootFolder p)
      else joinPath (mkPath r.fileName) p) = r.renamed r.fileName p := by
    unfold renamed innerPath
    split <;> rfl
  have hexceeded : r.isPathLengthExceeded = false ↔
      ∀ p ∈ r.torrentPaths, r.FitsLimit p ∧ r.FitsLimit (r.renamed r.fileName p) := by
    simp only [isPathLengthExceeded, hnew]
    simp [FitsLimit]
  rw [hexceeded, checkedPaths]
  constructor
  · intro h p hp
    obtain ⟨q, hq, hpq⟩ := List.mem_flatMap.mp hp
    rcases List.mem_pair.mp hpq with rfl | rfl
    · exact (h _ hq).1
    · exact (h q hq).2
  · intro h p hp
    exact ⟨h p (List.mem_flatMap.mpr ⟨p, hp, by simp⟩), h _ (List.mem_flatMap.mpr ⟨p, hp, by simp⟩)⟩

theorem renameTorrentContent_eq (newName : Text) :
    r.renameTorrentContent newName =
      if r.Renames then r.torrentPaths.map (r.renamed newName) else r.torrentPaths := by
  unfold renameTorrentContent Renames renamed innerPath
  cases hvalid : r.isValid with
  | false => simp [torrentPaths, hvalid]
  | true =>
    by_cases hroot : r.oldRootFolder = []
    · cases hpaths : r.torrentPaths with
      | nil => simp [hroot]
      | cons p ps => simp [hroot]
    · simp [hroot]

/-- With a requested name, or if nothing is renamed, the paths that are used were checked. -/
theorem mem_checkedPaths (h : r.fileName ≠ [] ∨ ¬ r.Renames) :
    ∀ p ∈ r.addTorrentPaths, p ∈ r.checkedPaths := by
  intro p hp
  rw [addTorrentPaths, ← apply_ite r.renameTorrentContent, renameTorrentContent_eq] at hp
  rw [checkedPaths, List.mem_flatMap]
  by_cases hrenames : r.Renames
  · rw [if_pos hrenames, if_pos (h.resolve_right fun hn => hn hrenames)] at hp
    obtain ⟨q, hq, rfl⟩ := List.mem_map.mp hp
    exact ⟨q, hq, by simp⟩
  · rw [if_neg hrenames] at hp
    exact ⟨p, hp, by simp⟩

def CheckCovers : Prop := r.isPathLengthExceeded = false → ∀ p ∈ r.addTorrentPaths, r.FitsLimit p

end AddRequest

def longNameRequest : AddRequest :=
  { isValid := true, filePaths := [List.replicate 60 'f'], torrentName := List.replicate 200 'n'
    fileName := [], savePath := "/d".toList, layout := .subfolder, home := "/h".toList }

end Nas.NetBt
