import NasServices.Download.Task.CommonDefine
import NasServices.Lib.LexicalPath
import NasServices.Lib.NumberedFiles
import Mathlib.Data.Rat.Defs

/-!
# The ed2k engine and its tasks

aMule downloads a file into its own directories and knows it by the key of its link. A
`MuleDownloadTaskImpl` looks the part file up by that key at each call, and moves the file to its
save path when it finds it completed. Tasks with the same link share the part file.

The paths are compared as texts. What the file system permits during a call, and how much room it
reports, is a `Call`.
-/

namespace Nas.Mule

open Download (DownloadErrorCode)
open Lib Lib.LexicalPath

inductive Status
  | ready | empty | waitingForHash | hashing | error | insufficient | unknown | paused | completing
  | complete | allocating
  deriving DecidableEq, Repr

structure PartFile where
  filePath : Text
  fileName : Text
  fileSize : Nat
  status : Status
  hashingProgress : Nat := 0
  percentCompleted : ℚ := 0
  kBpsDown : ℚ := 0
  isPaused : Bool := false
  content : Nat
  /-- `m_fullname`, `m_PartPath` and the files beside them that `Delete` removes. -/
  ownFiles : List Text := []
  deriving DecidableEq

namespace PartFile

def isCompleted (f : PartFile) : Bool := f.status = .complete

def pauseFile (f : PartFile) : PartFile :=
  if f.status = .complete ∨ f.status = .completing then f else { f with isPaused := true, kBpsDown := 0 }

end PartFile

structure KnownFile where
  isPartFile : Bool
  filePath : Text
  fileName : Text

def joinPaths (path file : Text) : Text :=
  if path = [] then file
  else if file = [] then path
  else (path.reverse.dropWhile (· = '/')).reverse ++ '/' :: file.dropWhile (· = '/')

structure Call where
  free : Nat
  mayRename : Bool := true
  mayRemove : Text → Bool := fun _ => true

structure World (Key : Type) where
  files : NumberedFiles Text
  sharedFiles : Key → Option KnownFile
  fileList : Key → Option PartFile
  completedDownloads : Key → Option PartFile

variable {Key : Type} [DecidableEq Key]

namespace World

def getFileByID (w : World Key) (key : Key) : Option PartFile := (w.fileList key).or (w.completedDownloads key)

def isFileExisting (w : World Key) (key : Key) : Bool × World Key :=
  match w.sharedFiles key with
  | some file =>
    if file.isPartFile then (true, w)
    else if (w.files (joinPaths file.filePath file.fileName)).isSome then (true, w)
    else (false, { w with sharedFiles := Function.update w.sharedFiles key none })
  | none => ((w.getFileByID key).isSome, w)

def modifyFile (w : World Key) (key : Key) (g : PartFile → PartFile) : World Key :=
  match w.fileList key with
  | some f => { w with fileList := Function.update w.fileList key (some (g f)) }
  | none =>
    { w with completedDownloads := Function.update w.completedDownloads key ((w.completedDownloads key).map g) }

def deleteFile (w : World Key) (c : Call) (key : Key) (f : PartFile) : World Key where
  files := f.ownFiles.foldl (fun fs path => (fs.remove (c.mayRemove path) path).1) w.files
  sharedFiles := Function.update w.sharedFiles key none
  fileList := Function.update w.fileList key none
  completedDownloads :=
    if f.isCompleted then Function.update w.completedDownloads key none else w.completedDownloads

end World

structure FileLink (Key : Type) where
  hashKey : Key
  name : Text

structure Param where
  id : Text
  savePath : Text
  fileName : Text

structure DownloadProgressInfo where
  fileName : Text := []
  totalProgress : ℚ := 0
  downloadSpeed : ℚ := 0
  uploadSpeed : ℚ := 0
  errCode : DownloadErrorCode := .kNormal

structure MuleDownloadTaskImpl (Key : Type) where
  param : Param
  /-- There is none when the url is no ed2k link of a file. -/
  fileLink : Option (FileLink Key)
  tmpFilePath : Text
  finalFilePath : Text := []
  cancelled : Bool := false
  errCode : DownloadErrorCode := .kNormal

structure Report (Key : Type) where
  answer : Bool
  info : DownloadProgressInfo
  task : MuleDownloadTaskImpl Key
  world : World Key

namespace MuleDownloadTaskImpl

def getTempFilePath (param : Param) (fileLink : Option (FileLink Key)) : Text :=
  let path (name : Text) := param.savePath ++ '/' :: name ++ '.' :: param.id ++ ".nas.tmp".toList
  if param.fileName = [] then
    match fileLink with
    | none => []
    | some link => path link.name
  else path param.fileName

/-- A new object after `SetParam`, with the link that its url is read as. -/
def setParam (param : Param) (fileLink : Option (FileLink Key)) : MuleDownloadTaskImpl Key where
  param := param
  fileLink := fileLink
  tmpFilePath := getTempFilePath param fileLink

variable (t : MuleDownloadTaskImpl Key) (c : Call) (w : World Key)

def getPartFile : Option PartFile × World Key :=
  match t.fileLink with
  | none => (none, w)
  | some link =>
    match w.isFileExisting link.hashKey with
    | (true, w') => (w'.getFileByID link.hashKey, w')
    | (false, w') => (none, w')

def pause : World Key :=
  match t.fileLink, t.getPartFile w with
  | some link, (some _, w') => w'.modifyFile link.hashKey PartFile.pauseFile
  | _, (_, w') => w'

def sourcePath (f : PartFile) : Text := joinPaths f.filePath f.fileName

def saveFilePath (f : PartFile) : Text := t.param.savePath ++ '/' :: f.fileName

/-- What goes wrong is written to the object's own record. -/
def renameTempFile : MuleDownloadTaskImpl Key × World Key :=
  match t.getPartFile w with
  | (none, w') => (t, w')
  | (some f, w') =>
    match w'.files.rename c.mayRename (sourcePath f) (t.saveFilePath f) with
    | (files, false) => ({ t with errCode := .kRenameTempFileFailed }, { w' with files := files })
    | (files, true) =>
      match files.remove (c.mayRemove t.tmpFilePath) t.tmpFilePath with
      | (files, false) => ({ t with errCode := .kRenameTempFileFailed }, { w' with files := files })
      | (files, true) => ({ t with finalFilePath := t.saveFilePath f }, { w' with files := files })

def percent (f : PartFile) : ℚ :=
  if f.hashingProgress = 0 then f.percentCompleted else 100 * f.hashingProgress * 9728000 / f.fileSize

def getProgressInfo (info : DownloadProgressInfo) : Report Key :=
  match t.getPartFile w with
  | (none, w') => ⟨false, info, t, w'⟩
  | (some f, w') =>
    if t.cancelled then ⟨false, info, t, w'⟩
    else if c.free < f.fileSize then ⟨false, { info with errCode := .kPerformFailed }, t, t.pause w'⟩
    else
      let (t', w'') := if f.isCompleted then t.renameTempFile c w' else (t, w')
      let info :=
        { info with
          fileName := f.fileName
          totalProgress := if f.isCompleted then 100 else if percent f > 999 / 10 then 999 / 10 else percent f
          downloadSpeed := f.kBpsDown * 1024
          uploadSpeed := 0
          errCode := if f.status = .error then .kPerformFailed else info.errCode }
      ⟨true, info, t', w''⟩

def valid (isFinished : Bool) : MuleDownloadTaskImpl Key × Bool :=
  if isFinished then
    let requested := t.param.savePath ++ '/' :: t.param.fileName
    let t := if t.finalFilePath = [] then { t with finalFilePath := requested } else t
    (t, (w.files t.finalFilePath).isSome)
  else
    let t := if t.tmpFilePath = [] then { t with tmpFilePath := getTempFilePath t.param t.fileLink } else t
    (t, (w.files t.tmpFilePath).isSome)

def deletePartFile : World Key :=
  match t.fileLink, t.getPartFile w with
  | some link, (some f, w') => w'.deleteFile c link.hashKey f
  | _, (_, w') => w'

def removeIfExists (path : Text) : World Key × Bool :=
  if (w.files path).isSome then
    let (files, removed) := w.files.remove (c.mayRemove path) path
    ({ w with files := files }, removed)
  else (w, true)

def cancel (isDeleteLocalFile : Bool) : MuleDownloadTaskImpl Key × World Key × Bool :=
  let t := { t with cancelled := true }
  if isDeleteLocalFile then
    match removeIfExists c w t.tmpFilePath with
    | (w, false) => (t, w, false)
    | (w, true) =>
      match removeIfExists c w t.finalFilePath with
      | (w, false) => (t, w, false)
      | (w, true) => (t, t.deletePartFile c w, true)
  else (t, t.deletePartFile c w, true)

end MuleDownloadTaskImpl

end Nas.Mule
