import NasServices.Lib.FileTree
import NasServices.Download.FinalName

/-!
# The files of a create request that is rejected

`CreateTask` makes the save path before it has checked the request, tries a temporary file in it,
and lets the constructor of a torrent task copy the torrent file to a directory of the service.
When the request is rejected after that, `ExecCreate` deletes torrent files: the url of the parameter
and the source of the request. Nothing else is undone.

`Attempt` is one request with everything it meets: the manager, the files, what the system permits
and what the libraries answer. `made` lists the nodes that are made on the way
(`afterCreateTask_adds`), `deleted` those that `ExecCreate` deletes in the end, and `leavesFiles_iff`
says exactly when the files are left as they were.
-/

namespace Nas.Download

open Lib (FileTree)
open Lib.FileTree

inductive CreateRequest
  | link (d : SourceData)
  | torrent (q : TorrentRequest)

def CreateRequest.param : CreateRequest → TaskParam
  | .link d => d.param
  | .torrent q => q.param

def kIdLength : Nat := 64
def kUrlLength : Nat := 4096

/-- The texts fit the arrays of `TorrentDownloadParam`; `BtTaskBase::SetDownloadParam` does not look. -/
def TaskParam.fitsTorrentDownloadParam (p : TaskParam) : Bool :=
  byteSize p.id.toList ≤ kIdLength && byteSize p.url.toList ≤ kUrlLength &&
    byteSize p.savePath.toList ≤ kMaxPath && byteSize p.fileName.toList ≤ kMaxPath

/-- One create request. The names that hold a new GUID, of the temporary file and of the copy of a
torrent, name nothing else. -/
structure Attempt (N : Type) where
  mgr : UserSelfMgr
  request : CreateRequest
  /-- What the libraries answer. What depends on the files is in `answers`. -/
  host : Host
  files : FileTree N
  /-- The node that a path names. -/
  node : String → N
  subpaths : String → List N
  mayMkdir : N → Bool
  mayCreate : N → Bool
  mayRemove : N → Bool
  /-- The temporary file of `HasWriteAccess`. -/
  tmpFile : N
  /-- The directory `torrent_file` of the service and those above it. -/
  torrentDirs : List N
  /-- Where the torrent is copied to: in `torrent_file`, or else in the system's directory. -/
  copyPath : Bool → String
  sourceOpens : Bool
  copyCompletes : Bool
  /-- The url that `utils::IsValid` leaves when it refuses one. -/
  leftUrl : String
  tmpFile_fresh : files tmpFile = none ∧ tmpFile ∉ subpaths request.param.savePath
  copy_fresh : ∀ b, files (node (copyPath b)) = none ∧ node (copyPath b) ∉ subpaths request.param.savePath ∧
    node (copyPath b) ≠ tmpFile ∧ node (copyPath b) ∉ torrentDirs

inductive Reached
  | isValidFilename
  | createSavePath
  | hasWriteAccess
  | taskFactory

namespace Attempt

variable {N : Type} [DecidableEq N]

def param (x : Attempt N) : TaskParam := x.request.param

/-! ## The effects -/

omit [DecidableEq N] in
def pathExists (x : Attempt N) (fs : FileTree N) (path : String) : Bool := (fs (x.node path)).isSome

def createSavePath (x : Attempt N) : FileTree N × Bool :=
  if x.files (x.node x.param.savePath) = some .dir then (x.files, true)
  else mkdirs x.mayMkdir x.files (x.subpaths x.param.savePath)

def hasWriteAccess (x : Attempt N) : FileTree N × Bool :=
  let created := createFile x.mayCreate x.createSavePath.1 x.tmpFile
  (removeNode x.mayRemove created.1 x.tmpFile, created.2)

def modifyTorrentPath (x : Attempt N) : FileTree N × Option String :=
  let dirs := mkdirs x.mayMkdir x.hasWriteAccess.1 x.torrentDirs
  let destPath := x.copyPath dirs.2
  if x.sourceOpens then
    let created := createFile x.mayCreate dirs.1 (x.node destPath)
    (created.1, if created.2 && x.copyCompletes then some destPath else none)
  else (dirs.1, none)

def copies (x : Attempt N) : Bool :=
  TaskFactory.getDownloadType (x.pathExists x.hasWriteAccess.1) x.param.url == .kTorrent &&
    x.host.isLoadedNetBt && x.host.hasImpl

def taskFactory (x : Attempt N) : FileTree N × Option String :=
  if x.copies then x.modifyTorrentPath else (x.hasWriteAccess.1, none)

def answers (x : Attempt N) : Host :=
  { x.host with
    createSavePath := x.createSavePath.2
    hasWriteAccess := x.hasWriteAccess.2
    pathExists := x.pathExists x.hasWriteAccess.1
    copyFile := x.taskFactory.2
    pathExistsLater := x.pathExists x.taskFactory.1 }

def createTask (x : Attempt N) : Option TaskBase × DownloadErrorCode × String :=
  x.mgr.createTask x.param x.answers

def Rejected (x : Attempt N) : Prop := x.createTask.2.1 ≠ .kNormal

instance (x : Attempt N) : Decidable x.Rejected := inferInstanceAs (Decidable (_ ≠ _))

def reached (x : Attempt N) : Reached :=
  if !isValidFilename x.param.fileName then .isValidFilename
  else if !x.createSavePath.2 || x.host.isProtectedPath then .createSavePath
  else if !x.hasWriteAccess.2 || (x.mgr.findTask x.param.id).isSome then .hasWriteAccess
  else .taskFactory

def afterCreateTask (x : Attempt N) : FileTree N :=
  match x.reached with
  | .isValidFilename => x.files
  | .createSavePath => x.createSavePath.1
  | .hasWriteAccess => x.hasWriteAccess.1
  | .taskFactory => x.taskFactory.1

def finalUrl (x : Attempt N) (t : TaskBase) : String :=
  if !(t.param.type.isBt || t.param.type == .kEd2k) && x.createTask.2.1 == .kCurlUrlInvalid then x.leftUrl
  else t.param.url

def deletes (x : Attempt N) (t : TaskBase) : Bool :=
  TaskFactory.getDownloadType (x.pathExists x.afterCreateTask) (x.finalUrl t) == .kTorrent

def deleted (x : Attempt N) : List N :=
  match x.createTask.1 with
  | none => []
  | some t =>
    if x.deletes t then
      if x.createTask.2.1 = .kFileNameExisted then [x.node (x.finalUrl t)]
      else match x.param.torrent with
        | none => []
        | some p =>
          if p.isPrivateCloudSource then [x.node (x.finalUrl t)]
          else [x.node (x.finalUrl t), x.node p.frontTransUrl]
    else []

/-- Nothing is read or written outside an object: the constructor of a BitTorrent task that has its
adapter object, and `ExecCreate` before it deletes the source, read a `TorrentTaskParam`. -/
def Defined (x : Attempt N) : Prop :=
  ∀ t, x.createTask.1 = some t →
    (t.param.type.isBt = true → t.hasImpl = true →
      x.param.torrent.isSome = true ∧ t.param.fitsTorrentDownloadParam = true) ∧
    (x.deletes t = true → x.createTask.2.1 ≠ .kFileNameExisted → x.param.torrent.isSome = true)

instance (x : Attempt N) : Decidable x.Defined :=
  match h : x.createTask.1 with
  | none => isTrue fun _ ht => nomatch h.symm.trans ht
  | some t =>
    decidable_of_iff
      ((t.param.type.isBt = true → t.hasImpl = true →
          x.param.torrent.isSome = true ∧ t.param.fitsTorrentDownloadParam = true) ∧
        (x.deletes t = true → x.createTask.2.1 ≠ .kFileNameExisted → x.param.torrent.isSome = true))
      ⟨fun hd _ ht => Option.some.inj (h.symm.trans ht) ▸ hd, fun hd => hd t h⟩

def execCreate (x : Attempt N) : Option (FileTree N) :=
  if x.Defined then some (x.deleted.foldl (removeNode x.mayRemove) x.afterCreateTask) else none

/-! ## What is made -/

def madeBySavePath (x : Attempt N) : List N :=
  if x.files (x.node x.param.savePath) = some .dir then []
  else madeDirs x.mayMkdir x.files (x.subpaths x.param.savePath)

def madeByProbe (x : Attempt N) : List N :=
  if x.mayCreate x.tmpFile && !x.mayRemove x.tmpFile then [x.tmpFile] else []

def madeByCopy (x : Attempt N) : List N :=
  let dest := x.node (x.copyPath (mkdirs x.mayMkdir x.hasWriteAccess.1 x.torrentDirs).2)
  madeDirs x.mayMkdir x.hasWriteAccess.1 x.torrentDirs ++
    if x.sourceOpens && x.mayCreate dest then [dest] else []

def made (x : Attempt N) : List N :=
  match x.reached with
  | .isValidFilename => []
  | .createSavePath => x.madeBySavePath
  | .hasWriteAccess => x.madeBySavePath ++ x.madeByProbe
  | .taskFactory => x.madeBySavePath ++ x.madeByProbe ++ if x.copies then x.madeByCopy else []

theorem createSavePath_adds (x : Attempt N) : Adds x.madeBySavePath x.files x.createSavePath.1 := by
  unfold madeBySavePath createSavePath
  split
  · exact .refl _
  · exact mkdirs_adds _ _ _

theorem madeBySavePath_subset (x : Attempt N) : x.madeBySavePath ⊆ x.subpaths x.param.savePath := by
  unfold madeBySavePath
  split
  · exact List.nil_subset _
  · exact madeDirs_subset _ _ _

theorem hasWriteAccess_adds (x : Attempt N) :
    Adds (x.madeBySavePath ++ x.madeByProbe) x.files x.hasWriteAccess.1 := by
  have htmp : x.createSavePath.1 x.tmpFile = none :=
    (x.createSavePath_adds.none_iff _).mpr
      ⟨x.tmpFile_fresh.1, fun hmem => x.tmpFile_fresh.2 (x.madeBySavePath_subset hmem)⟩
  exact x.createSavePath_adds.trans (createFile_removeNode_adds x.mayCreate x.mayRemove htmp)

omit [DecidableEq N] in
theorem mem_madeByProbe {x : Attempt N} {n : N} (hn : n ∈ x.madeByProbe) : n = x.tmpFile := by
  unfold madeByProbe at hn
  split at hn
  · exact List.mem_singleton.mp hn
  · cases hn

/-- The copy is a new file also when the directories for it have been made. -/
theorem copy_absent (x : Attempt N) (b : Bool) :
    (mkdirs x.mayMkdir x.hasWriteAccess.1 x.torrentDirs).1 (x.node (x.copyPath b)) = none := by
  obtain ⟨hfiles, hsave, htmp, hdirs⟩ := x.copy_fresh b
  have hprobe : x.hasWriteAccess.1 (x.node (x.copyPath b)) = none := by
    refine (x.hasWriteAccess_adds.none_iff _).mpr ⟨hfiles, fun hmem => ?_⟩
    rcases List.mem_append.mp hmem with h | h
    · exact hsave (x.madeBySavePath_subset h)
    · exact htmp (mem_madeByProbe h)
  exact ((mkdirs_adds _ _ _).none_iff _).mpr ⟨hprobe, fun hmem => hdirs (madeDirs_subset _ _ _ hmem)⟩

theorem modifyTorrentPath_adds (x : Attempt N) :
    Adds x.madeByCopy x.hasWriteAccess.1 x.modifyTorrentPath.1 := by
  refine (mkdirs_adds x.mayMkdir x.hasWriteAccess.1 x.torrentDirs).trans ?_
  unfold modifyTorrentPath
  cases x.sourceOpens with
  | false => exact .refl _
  | true => exact (createFile_adds x.mayCreate (x.copy_absent _)).2

theorem afterCreateTask_adds (x : Attempt N) : Adds x.made x.files x.afterCreateTask := by
  unfold made afterCreateTask
  cases x.reached with
  | isValidFilename => exact .refl _
  | createSavePath => exact x.createSavePath_adds
  | hasWriteAccess => exact x.hasWriteAccess_adds
  | taskFactory =>
    refine x.hasWriteAccess_adds.trans ?_
    unfold taskFactory
    split
    · exact x.modifyTorrentPath_adds
    · exact .refl _

/-! ## When the files are left as they were -/

/-- The torrent file that was uploaded for the request: its source, unless that is a file of the
user's own. -/
def Uploaded (x : Attempt N) (n : N) : Prop :=
  ∃ q, x.request = .torrent q ∧ q.isPrivateCloudSource = false ∧ n = x.node q.source

/-- A rejected request leaves nothing new, and removes no file but the torrent that was uploaded for
it. (The copy of a torrent is new.) -/
def LeavesFiles (x : Attempt N) : Prop :=
  x.Rejected → ∃ fs, x.execCreate = some fs ∧
    (∀ n, x.files n = none → fs n = none) ∧
    ∀ n, x.files n = some .file → fs n = none → x.Uploaded n

structure Harmless (x : Attempt N) : Prop where
  defined : x.Defined
  /-- Everything that is made is among what is deleted in the end, and can be deleted. -/
  undone : ∀ n ∈ x.made, n ∈ x.deleted ∧ x.mayRemove n = true
  /-- What was there before and can be deleted is deleted only if it was uploaded. -/
  spared : ∀ n ∈ x.deleted, x.mayRemove n = true → x.files n = some .file → x.Uploaded n

/-- What is at a node in the end: it was there or has been made, and has not been deleted. -/
theorem execCreate_eq_none_iff (x : Attempt N) (n : N) :
    x.deleted.foldl (removeNode x.mayRemove) x.afterCreateTask n = none ↔
      (n ∈ x.deleted ∧ x.mayRemove n = true) ∨ x.files n = none ∧ n ∉ x.made := by
  rw [foldl_removeNode, ← x.afterCreateTask_adds.none_iff]
  split
  · rename_i h
    exact iff_of_true rfl (.inl h)
  · rename_i h
    exact (or_iff_right h).symm

def badLink : Attempt String where
  mgr := { userId := "u" }
  request := .link { taskId := "1", source := "http://", savePath := "/d" }
  host := { isValidUrl := fun _ => none }
  files n := if n = "/" then some .dir else none
  node n := n
  subpaths n := ["/", n]
  mayMkdir _ := true
  mayCreate _ := true
  mayRemove _ := true
  tmpFile := "/d/t.tmp"
  torrentDirs := ["/", "/torrent_file"]
  copyPath _ := "/torrent_file/c.torrent"
  sourceOpens := true
  copyCompletes := true
  leftUrl := "http://"
  tmpFile_fresh := by decide
  copy_fresh := by decide

def ownTorrent : Attempt String where
  mgr := { userId := "u" }
  request := .torrent
    { taskId := "1", source := "/d/a.torrent", savePath := "/d", isPrivateCloudSource := true }
  host := { checkCondition := .kCreateTaskFailed }
  files n := if n = "/d/a.torrent" then some .file else if n = "/" ∨ n = "/d" then some .dir else none
  node n := n
  subpaths n := ["/", n]
  mayMkdir _ := false
  mayCreate n := n = "/d/t.tmp"
  mayRemove _ := true
  tmpFile := "/d/t.tmp"
  torrentDirs := ["/", "/torrent_file"]
  copyPath _ := "/tmp/c.torrent"
  sourceOpens := true
  copyCompletes := true
  leftUrl := ""
  tmpFile_fresh := by decide
  copy_fresh := by decide

end Attempt

end Nas.Download
