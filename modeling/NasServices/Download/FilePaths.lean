import NasServices.Download.UserSelfMgr.Create
import NasServices.Lib.Decimal
import NasServices.Lib.LexicalPath

/-!
# Where downloads and uploads are written

The paths that are made of the texts of a request. A curl task writes to a temporary
file whose name ends in the task id, and renames it to its final name when it is
complete; the file name is the requested one or is taken from the url. An uploaded
torrent is written under the name the client sends.

The texts of a link request pass through the arrays of `DownloadParam`: one that is
longer than its array is left out, and one that fills it is read on into the next
(`DownloadParam.readId`). `created_inside_iff` says exactly when the paths stay directly
in the directory they are meant for.
-/

namespace Nas.Download

open Lib.LexicalPath

/-! ## The parameters of a link task -/

def byteSize (t : Text) : Nat := (t.map Char.utf8Size).sum

/-- `DownloadParam`: what was copied into each array, and what follows the last one in
memory up to the next NUL. -/
structure DownloadParam where
  id : Text
  url : Text
  savePath : Text
  fileName : Text
  rest : Text

def clip (capacity : Nat) (t : Text) : Text := if byteSize t ≤ capacity then t else []

def assembleDownloadParam (p : TaskParam) (rest : Text) : DownloadParam where
  id := clip 64 p.id.toList
  url := clip 4096 p.url.toList
  savePath := clip 1040 p.savePath.toList
  fileName := clip 1040 p.fileName.toList
  rest := rest

def readText (capacity : Nat) (t next : Text) : Text :=
  if '\x00' ∈ t then t.takeWhile (· ≠ '\x00') else if byteSize t < capacity then t else t ++ next

namespace DownloadParam

def readFileName (d : DownloadParam) : Text := readText 1040 d.fileName d.rest

def readSavePath (d : DownloadParam) : Text := readText 1040 d.savePath d.readFileName

def readUrl (d : DownloadParam) : Text := readText 4096 d.url d.readSavePath

def readId (d : DownloadParam) : Text := readText 64 d.id d.readUrl

end DownloadParam

/-! ## The paths of a curl task -/

/-- The path of an url by the regular expression of `GetFileNameFromUrl`; there is none when
the fragment holds a line break. -/
def urlPath (url : Text) : Option Text :=
  let fragment := (url.dropWhile (· ≠ '#')).drop 1
  if '\n' ∈ fragment ∨ '\r' ∈ fragment then none
  else
    let main := (url.takeWhile (· ≠ '#')).takeWhile (· ≠ '?')
    let scheme := main.takeWhile fun c => c ≠ ':' ∧ c ≠ '/'
    let afterScheme :=
      if scheme ≠ [] ∧ (main.drop scheme.length).head? = some ':' then main.drop (scheme.length + 1) else main
    some (if afterScheme.take 2 = ['/', '/'] then (afterScheme.drop 2).dropWhile (· ≠ '/') else afterScheme)

def getFileNameFromUrl (url : Text) : Text :=
  match urlPath url with
  | none => []
  | some path =>
    let name := (path.reverse.takeWhile (· ≠ '/')).reverse
    if name = [] then "index.html".toList else name

def extension (name : Text) : Text :=
  let after := (name.reverse.takeWhile (· ≠ '.')).reverse
  if name = ['.', '.'] ∨ name.length ≤ after.length + 1 then [] else '.' :: after

def stem (name : Text) : Text := name.take (name.length - (extension name).length)

namespace CurlDownloadTaskImpl

def fileName (d : DownloadParam) : Text :=
  let requested := readText 1040 d.fileName []
  if requested = [] then getFileNameFromUrl d.readUrl else requested

def getTempFilePath (d : DownloadParam) : Text :=
  d.readSavePath ++ '/' :: (fileName d ++ '.' :: d.readId ++ ".nas.tmp".toList)

def finalName (name : Text) : Nat → Text
  | 0 => name
  | taken + 1 =>
    stem name ++ " (".toList ++ Lib.natText (taken + 1) ++ ")".toList ++ extension (finalName name taken)

def finalFilePath (d : DownloadParam) (taken : Nat) : Text :=
  d.readSavePath ++ '/' :: finalName (fileName d) taken

end CurlDownloadTaskImpl

/-! ## The path of an uploaded torrent -/

/-- A directory that paths are appended to: not empty, not `.` and without a slash at its end,
as `FilePath::Append` leaves it. -/
structure CacheDir where
  text : Text
  ne_nil : text ≠ []
  ne_dot : text ≠ ['.']
  last_ne : text.getLast? ≠ some '/'

def CacheDir.append (dir : CacheDir) (name : Text) : Text := if name = [] then dir.text else dir.text ++ '/' :: name

/-- `UploadTorrentFile`: the path of the file that was created and written, if it could be. A path
that does not end in a name is that of a directory and cannot be created as a file. -/
def uploadTorrentFile (dir : CacheDir) (fileName : String) (opened : Bool) : Option Text :=
  let name := baseFilePathFromU8 fileName
  if opened = true ∧ IsName ((parts name).getLast (parts_ne_nil name)) then some (dir.append name) else none

/-! ## Names without a slash -/

theorem notMem_getFileNameFromUrl (url : Text) : '/' ∉ getFileNameFromUrl url := by
  unfold getFileNameFromUrl
  split
  · simp
  · dsimp only
    split
    · decide
    · intro h
      simpa using List.mem_takeWhile_imp (List.mem_reverse.mp h)

theorem extension_subset (name : Text) : extension name ⊆ name := by
  unfold extension
  dsimp only
  split
  · exact List.nil_subset _
  · rename_i h
    refine List.cons_subset.mpr ⟨?_, fun c hc => ?_⟩
    · by_contra hdot
      have hall : name.reverse.takeWhile (· ≠ '.') = name.reverse := by
        rw [List.takeWhile_eq_self_iff]
        intro c hc
        simpa using fun heq : c = '.' => hdot (heq ▸ List.mem_reverse.mp hc)
      rw [hall, List.reverse_reverse] at h
      exact h (.inr (Nat.le_succ _))
    · exact List.mem_reverse.mp ((List.takeWhile_prefix _).subset (List.mem_reverse.mp hc))

theorem notMem_finalName {name : Text} (h : '/' ∉ name) (taken : Nat) :
    '/' ∉ CurlDownloadTaskImpl.finalName name taken := by
  induction taken with
  | zero => exact h
  | succ taken ih =>
    simp only [CurlDownloadTaskImpl.finalName, List.mem_append, not_or]
    refine ⟨⟨⟨⟨?_, by decide⟩, ?_⟩, by decide⟩, fun hm => ih (extension_subset _ hm)⟩
    · exact fun hm => h (List.take_subset _ _ hm)
    · exact fun hm => absurd (Lib.natText_isDigit _ _ hm) (by decide)

theorem isName_finalName (name : Text) (taken : Nat) :
    IsName (CurlDownloadTaskImpl.finalName name (taken + 1)) := by
  apply isName_of_length
  have hdigits : 0 < (Lib.natText (taken + 1)).length := List.length_pos_iff.mpr (Lib.natText_ne_nil _)
  simp only [CurlDownloadTaskImpl.finalName, List.length_append]
  have hopen : " (".toList.length = 2 := by decide
  omega

theorem readText_subset (capacity : Nat) (t : Text) : readText capacity t [] ⊆ t := by
  unfold readText
  split
  · exact (List.takeWhile_prefix _).subset
  · split <;> simp

theorem clip_subset (capacity : Nat) (t : Text) : clip capacity t ⊆ t := by
  unfold clip
  split <;> simp

theorem notMem_fileName {p : TaskParam} (hp : isValidFilename p.fileName = true) (rest : Text) :
    '/' ∉ CurlDownloadTaskImpl.fileName (assembleDownloadParam p rest) := by
  unfold CurlDownloadTaskImpl.fileName
  dsimp only
  split
  · exact notMem_getFileNameFromUrl _
  · intro h
    have hmem : '/' ∈ p.fileName.toList := clip_subset _ _ (readText_subset _ _ h)
    have := List.all_eq_true.mp hp _ hmem
    revert this
    decide

/-! ## Where the paths lead -/

def LinkInside (p : TaskParam) (rest : Text) : Prop :=
  (normal p.savePath.toList).IsChild
      (normal (CurlDownloadTaskImpl.getTempFilePath (assembleDownloadParam p rest))) ∧
    ∀ taken, (normal p.savePath.toList).IsChild
      (normal (CurlDownloadTaskImpl.finalFilePath (assembleDownloadParam p rest) taken))

/-- The save path is read as it was requested; the file name is not empty, `.` or `..`; and the
slashes in the file name and the task id, if there are any, lead back to the save path. -/
structure LinkStays (p : TaskParam) (rest : Text) : Prop where
  directory : normal ((assembleDownloadParam p rest).readSavePath ++ ['/']) = normal p.savePath.toList
  name : IsName (CurlDownloadTaskImpl.fileName (assembleDownloadParam p rest))
  back : (normal p.savePath.toList).walk
    (parts (CurlDownloadTaskImpl.fileName (assembleDownloadParam p rest) ++ '.' ::
      (assembleDownloadParam p rest).readId)).dropLast = normal p.savePath.toList

def UploadInside (dir : CacheDir) (fileName : String) : Prop :=
  ∀ opened path, uploadTorrentFile dir fileName opened = some path → (normal dir.text).IsChild (normal path)

def UploadStays (dir : CacheDir) (fileName : String) : Prop :=
  IsName ((parts (baseFilePathFromU8 fileName)).getLast (parts_ne_nil _)) →
    (normal dir.text).walk (parts (baseFilePathFromU8 fileName)).dropLast = normal dir.text

variable {n : Normal} {dir : Text}

theorem isChild_tempPath (x : Text) :
    n.IsChild (normal (dir ++ '/' :: (x ++ ".nas.tmp".toList))) ↔
      (normal (dir ++ ['/'])).walk (parts x).dropLast = n := by
  obtain ⟨init, last, hx, htmp⟩ := parts_append_text x (t := ".nas.tmp".toList) (by decide)
  have hname : IsName (last ++ ".nas.tmp".toList) := by
    apply isName_of_length
    rw [List.length_append, show ".nas.tmp".toList.length = 8 by decide]
    omega
  rw [normal_append, htmp, isChild_walk hname, hx, List.dropLast_concat]

theorem isChild_named {x : Text} (hx : '/' ∉ x) (hname : IsName x) :
    n.IsChild (normal (dir ++ '/' :: x)) ↔ normal (dir ++ ['/']) = n := by
  rw [normal_append, parts_of_notMem hx]
  have hwalk : n.IsChild ((normal (dir ++ ['/'])).walk ([] ++ [x])) ↔ (normal (dir ++ ['/'])).walk [] = n :=
    isChild_walk hname
  exact hwalk

theorem linkInside_iff {p : TaskParam} (hp : isValidFilename p.fileName = true) (rest : Text) :
    LinkInside p rest ↔ LinkStays p rest := by
  have hslash := notMem_fileName hp rest
  generalize hn : normal p.savePath.toList = n
  generalize hd : assembleDownloadParam p rest = d at hslash
  have hfinal : ∀ taken, n.IsChild (normal (CurlDownloadTaskImpl.finalFilePath d (taken + 1))) ↔
      normal (d.readSavePath ++ ['/']) = n := fun taken =>
    isChild_named (notMem_finalName hslash _) (isName_finalName _ taken)
  have htemp : n.IsChild (normal (CurlDownloadTaskImpl.getTempFilePath d)) ↔
      (normal (d.readSavePath ++ ['/'])).walk
        (parts (CurlDownloadTaskImpl.fileName d ++ '.' :: d.readId)).dropLast = n := isChild_tempPath _
  constructor
  · rintro ⟨hin, hall⟩
    rw [hn, hd] at hin hall
    have hdir := (hfinal 0).mp (hall 1)
    have hfirst : n.IsChild (n.step (CurlDownloadTaskImpl.fileName d)) := by
      have := hall 0
      rw [CurlDownloadTaskImpl.finalFilePath, CurlDownloadTaskImpl.finalName, normal_append,
        parts_of_notMem hslash, hdir] at this
      exact this
    refine ⟨?_, ?_, ?_⟩ <;> rw [hd]
    · rw [hdir, hn]
    · exact isName_of_isChild_step hfirst
    · rw [hn]
      rw [htemp, hdir] at hin
      exact hin
  · rintro ⟨hdir, hname, hback⟩
    rw [hd, hn] at hdir hback
    rw [hd] at hname
    refine ⟨?_, fun taken => ?_⟩ <;> rw [hn, hd]
    · rw [htemp, hdir]
      exact hback
    · cases taken with
      | zero => exact (isChild_named hslash hname).mpr hdir
      | succ taken => exact (hfinal taken).mpr hdir

theorem readText_clip {capacity : Nat} {t : Text} (hsize : byteSize t < capacity) (hnul : '\x00' ∉ t)
    (next : Text) : readText capacity (clip capacity t) next = t := by
  rw [clip, if_pos hsize.le, readText, if_neg hnul, if_pos hsize]

/-- A request stays in its save path if its texts fit, it names its file and its id has no slash. -/
theorem linkStays_of_plain {p : TaskParam} (hp : isValidFilename p.fileName = true)
    (hsave : p.savePath.toList ≠ [] ∧ byteSize p.savePath.toList < 1040 ∧ '\x00' ∉ p.savePath.toList)
    (hname : IsName p.fileName.toList ∧ byteSize p.fileName.toList < 1040)
    (hid : '/' ∉ p.id.toList ∧ byteSize p.id.toList < 64 ∧ '\x00' ∉ p.id.toList) (rest : Text) :
    LinkStays p rest := by
  obtain ⟨hnil, hsize, hnul⟩ := hsave
  obtain ⟨hslash, hidSize, hidNul⟩ := hid
  have hnameNul : '\x00' ∉ p.fileName.toList := fun h => by
    have := List.all_eq_true.mp hp _ h
    revert this
    decide
  have hfile : CurlDownloadTaskImpl.fileName (assembleDownloadParam p rest) = p.fileName.toList := by
    have hread : readText 1040 (assembleDownloadParam p rest).fileName [] = p.fileName.toList :=
      readText_clip hname.2 hnameNul _
    simp only [CurlDownloadTaskImpl.fileName, hread, if_neg hname.1.1]
  have hreadId : (assembleDownloadParam p rest).readId = p.id.toList := readText_clip hidSize hidNul _
  have hreadSave : (assembleDownloadParam p rest).readSavePath = p.savePath.toList :=
    readText_clip hsize hnul _
  refine ⟨?_, ?_, ?_⟩
  · rw [hreadSave, normal_slash hnil]
  · rw [hfile]
    exact hname.1
  · have hone : '/' ∉ p.fileName.toList ++ '.' :: p.id.toList := by
      have := notMem_fileName hp rest
      rw [hfile] at this
      simp [this, hslash]
    rw [hfile, hreadId, parts_of_notMem hone]
    rfl

theorem uploadInside_iff (dir : CacheDir) (fileName : String) :
    UploadInside dir fileName ↔ UploadStays dir fileName := by
  generalize hname : baseFilePathFromU8 fileName = name
  have hsplit := List.dropLast_append_getLast (parts_ne_nil name)
  have hchild (hlast : IsName ((parts name).getLast (parts_ne_nil name))) :
      (normal dir.text).IsChild (normal (dir.append name)) ↔
        (normal dir.text).walk (parts name).dropLast = normal dir.text := by
    have hne : name ≠ [] := by
      rintro rfl
      exact hlast.1 rfl
    rw [CacheDir.append, if_neg hne, normal_append, normal_slash dir.ne_nil, ← isChild_walk hlast, hsplit]
  unfold UploadInside UploadStays uploadTorrentFile
  simp only [hname]
  constructor
  · intro h hlast
    exact (hchild hlast).mp (h true _ (if_pos ⟨rfl, hlast⟩))
  · intro h opened path hpath
    split at hpath
    · rename_i hopen
      obtain rfl := Option.some.inj hpath
      exact (hchild hopen.2).mpr (h hopen.2)
    · cases hpath

end Nas.Download
