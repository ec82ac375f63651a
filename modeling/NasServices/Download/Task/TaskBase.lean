import NasServices.Download.Task.CommonDefine

/-!
# A download task

`TaskBase` is the state of one task object: what `TaskInfo` holds and the
members of `TaskBase`, `BtTaskBase` and `BtMagnetTask` that decide its
behaviour. The class of a task follows from its download type, so the virtual
functions are one definition each, split where a class overrides them.

Every call into the download engine, the file system or the clock is answered
by an `Answer`; a statement about every answer is a statement about every
behaviour of what is outside the task.
-/

namespace Nas.Download

structure Answer where
  now : Int := 0
  start : DownloadErrorCode := .kNormal
  /-- A second `Start` within the same operation. -/
  startAgain : DownloadErrorCode := .kNormal
  pause : Bool := true
  resume : Bool := true
  cancel : Bool := true
  /-- `DownloadTaskInterface::Valid`: the downloaded files are still there. -/
  valid : Bool := true
  /-- `CurlDownloadTaskImpl::ResumeBreakPoint`. -/
  resumeBreakPoint : Bool := true
  deleteLocalFile : Bool := true
  /-- `FileAttribute::file_name`, as the engine has reported it. -/
  fileName : String := ""
  /-- The result of `ParseLink`, as `LinkTask::Parse` stores it. -/
  parseLink : DownloadErrorCode := .kNormal
  /-- `GetTorrentList`: null while the metadata is not known. -/
  torrentList : Option TorrentList := none
  totalProgress : ℚ := 0
  errCode : DownloadErrorCode := .kNormal
  isSeed : Bool := false
  isChecking : Bool := false
  isDownloading : Bool := false
  /-- The share ratio or the seeding time has reached its configured limit. -/
  reachLimit : Bool := false
  /-- The disk has less room than an ed2k file needs (`MuleDownloadTaskImpl::GetProgressInfo`). -/
  isDiskFull : Bool := false

structure TaskBase where
  param : TaskParam
  hasImpl : Bool := true
  taskStatus : TaskStatus := .kWaitting
  taskCategory : TaskCategory := .kDownloadingTask
  preStatus : TaskStatus := .kWaitting
  isValid : Bool := true
  isStarted : Bool := false
  isRetry : Bool := false
  totalProgress : ℚ := 0
  errCode : DownloadErrorCode := .kNormal
  fileList : String := ""
  createTime : Int := 0
  finishTime : Int := 0
  deleteTime : Int := 0
  parseFinished : Bool := false
  /-- `parse_callback_` is not null; only `ExecMagnet` sets it, to `OnParseComplete`. -/
  parseCallback : Bool := false
  /-- The engine's metadata signal is connected for this task (`SetParseCallback`). -/
  parseSubscribed : Bool := false
  deriving DecidableEq

namespace TaskBase

def categoryOf (s : TaskStatus) (c : TaskCategory) : TaskCategory :=
  match s with
  | .kFinished => .kFinishedTask
  | .kDeleted => .kRecyclebinTask
  | .kCompletedDeleted => .kUnkownnTask
  | .kSeeding => .kSeedingTask
  | .kFailed => c
  | _ => .kDownloadingTask

def setTaskStatus (t : TaskBase) (s : TaskStatus) : TaskBase :=
  { t with preStatus := t.taskStatus, taskStatus := s, taskCategory := categoryOf s t.taskCategory }

@[simp] theorem setTaskStatus_taskStatus (t : TaskBase) (s : TaskStatus) :
    (t.setTaskStatus s).taskStatus = s := rfl

@[simp] theorem setTaskStatus_param (t : TaskBase) (s : TaskStatus) :
    (t.setTaskStatus s).param = t.param := rfl

@[simp] theorem setTaskStatus_isStarted (t : TaskBase) (s : TaskStatus) :
    (t.setTaskStatus s).isStarted = t.isStarted := rfl

def setCreateTimeStamp (t : TaskBase) (a : Answer) : TaskBase := { t with createTime := a.now }

def isDownloadFinished (t : TaskBase) : Bool := decide (100 - t.totalProgress < 1 / 10000)

def isParseFinish (t : TaskBase) : Bool := t.parseFinished || t.fileList != ""

/-! ## User operations -/

def pause (t : TaskBase) (a : Answer) : TaskBase × Bool :=
  if a.pause then (t.setTaskStatus .kPaused, true) else (t, false)

theorem pause_eq_true {t t' : TaskBase} {a : Answer} (h : t.pause a = (t', true)) :
    t' = t.setTaskStatus .kPaused := by
  unfold pause at h
  split at h
  · exact (Prod.mk.inj h).1.symm
  · cases h

/-- `Resume`. A waiting BitTorrent task is only paused when automatic download is off. -/
def resume (t : TaskBase) (isBtAutoDownload : Bool) (a : Answer) : TaskBase × Bool :=
  if t.param.type.isBt && t.taskStatus == .kWaitting && !isBtAutoDownload then
    (t.setTaskStatus .kPaused, true)
  else if a.resume then
    ({ t.setTaskStatus .kDownloading with isValid := true }, true)
  else (t, false)

theorem resume_of_false {t : TaskBase} {isBtAutoDownload : Bool} {a : Answer}
    (h : (t.resume isBtAutoDownload a).2 = false) : (t.resume isBtAutoDownload a).1 = t := by
  unfold resume at h ⊢
  split
  · rename_i hw
    simp [hw] at h
  · rename_i hw
    split
    · rename_i hr
      simp [hw, hr] at h
    · rfl

def retry (t : TaskBase) (a : Answer) : TaskBase × Bool :=
  if !t.hasImpl then (t, false)
  else ({ t.setCreateTimeStamp a with errCode := .kNormal, totalProgress := 0, isRetry := true }, true)

theorem retry_taskStatus (t : TaskBase) (a : Answer) : (t.retry a).1.taskStatus = t.taskStatus := by
  unfold retry
  split <;> rfl

/-- `LinkTask::Start` and `BtTaskBase::Start`, given the engine's result. The
link task is set downloading before the engine is asked; the BitTorrent task
keeps its status and returns `kNormal` whatever the engine said. -/
def start (t : TaskBase) (ret : DownloadErrorCode) : TaskBase × DownloadErrorCode :=
  if t.isStarted then (t, .kNormal)
  else if t.param.type.isBt then
    if ret = .kNormal then ({ t with isStarted := true, isValid := true }, .kNormal)
    else (t, .kNormal)
  else
    let t := t.setTaskStatus .kDownloading
    if ret = .kNormal then ({ t with isStarted := true, isValid := true }, ret) else (t, ret)

theorem start_taskStatus_of_isBt {t : TaskBase} (h : t.param.type.isBt = true)
    (ret : DownloadErrorCode) : (t.start ret).1.taskStatus = t.taskStatus := by
  unfold start
  rw [if_pos h]
  split
  · rfl
  · split <;> rfl

def deleteToRecycleBin (t : TaskBase) (a : Answer) : TaskBase × Bool :=
  if !t.hasImpl then (t, false)
  else if t.taskStatus == .kFailed || a.pause then
    ({ t.setTaskStatus .kDeleted with deleteTime := a.now }, true)
  else (t, true)

def restore (t : TaskBase) (isBtAutoDownload : Bool) (a : Answer) : TaskBase × Bool :=
  if !t.hasImpl then (t, false)
  else match t.preStatus with
    | .kFinished => (t.setTaskStatus .kFinished, true)
    | .kParsing => ((t.setTaskStatus .kParsing).setCreateTimeStamp a, true)
    | .kPaused => ((t.setTaskStatus .kPaused).setCreateTimeStamp a, true)
    | .kSeeding => ((t.resume isBtAutoDownload a).1.setTaskStatus .kSeeding, true)
    | .kFailed =>
      let t := { t.setTaskStatus .kFailed with taskCategory := .kDownloadingTask }
      ((t.resume isBtAutoDownload a).1.setCreateTimeStamp a, true)
    | .kWaitting => ((t.setTaskStatus .kWaitting).setCreateTimeStamp a, true)
    | .kDownloading => ((t.setTaskStatus .kWaitting).setCreateTimeStamp a, true)
    | _ =>
      if t.isDownloadFinished then (t.setTaskStatus .kFinished, true)
      else (t.setTaskStatus .kPaused, true)

theorem restore_taskStatus_ne {t : TaskBase} (hst : t.taskStatus ≠ .kDownloading)
    (hpre : t.preStatus ≠ .kFailed) (isBtAutoDownload : Bool) (a : Answer) :
    (t.restore isBtAutoDownload a).1.taskStatus ≠ .kDownloading := by
  unfold restore
  split
  · exact hst
  · split
    all_goals first
      | exact absurd ‹_› hpre
      | simp [setCreateTimeStamp]
    split <;> simp

/-- `ExceCancel` asks the engine to cancel. A task other than a torrent task that was
never started is dropped without asking. -/
def asksCancel (t : TaskBase) (realDelete : Bool) : Bool :=
  realDelete && (t.param.type == .kTorrent || t.isStarted)

def exceCancel (t : TaskBase) (a : Answer) (realDelete : Bool) : TaskBase × Bool :=
  if t.asksCancel realDelete then
    if a.cancel then (t.setTaskStatus .kCompletedDeleted, true) else (t, false)
  else if t.param.type != .kTorrent && !t.isStarted then (t.setTaskStatus .kCompletedDeleted, true)
  else (t, true)

/-! ## Parsing -/

abbrev ParseMessage := String × String

def linkParse (t : TaskBase) (a : Answer) : TaskBase :=
  if t.param.fileSize = 0 ∧ a.parseLink ≠ .kNormal then
    { t with errCode := a.parseLink }.setTaskStatus .kFailed
  else t

def parseTorrent (t : TaskBase) (l : Option TorrentList) : TaskBase :=
  match l with
  | none => t
  | some l => { t with fileList := l }

/-- `BtMagnetTask::Parse`. Without metadata the task waits in `kParsing` for the
engine's signal; otherwise the callback is run (and consumed) at once, with the
user id and the task id as its arguments. -/
def magnetParse (t : TaskBase) (userId : String) (a : Answer) : TaskBase × Option ParseMessage :=
  if !t.hasImpl then (t, none)
  else match a.torrentList with
    | none => ({ t.setTaskStatus .kParsing with parseSubscribed := true }, none)
    | some l => ({ t.parseTorrent (some l) with parseCallback := false },
        if t.parseCallback then some (userId, t.param.id) else none)

def parse (t : TaskBase) (userId : String) (a : Answer) : TaskBase × Option ParseMessage :=
  match t.param.type with
  | .kMagnet => t.magnetParse userId a
  | .kTorrent => (t, none)
  | _ => (t.linkParse a, none)

theorem parse_taskStatus (t : TaskBase) (userId : String) (a : Answer) :
    (t.parse userId a).1.taskStatus = t.taskStatus ∨
    (t.parse userId a).1.taskStatus = .kFailed ∨ (t.parse userId a).1.taskStatus = .kParsing := by
  unfold parse
  split
  · unfold magnetParse
    split
    · exact .inl rfl
    · split
      · exact .inr (.inr rfl)
      · exact .inl rfl
  · exact .inl rfl
  · unfold linkParse
    split
    · exact .inr (.inl rfl)
    · exact .inl rfl

def parseMangetResult (t : TaskBase) (result : TorrentList) : TaskBase × Option ParseMessage :=
  if t.parseSubscribed then
    ({ t with parseSubscribed := false, parseCallback := false },
      if t.parseCallback then some (t.param.id, result) else none)
  else (t, none)

/-! ## The timer -/

def checkTaskIsFailed (t : TaskBase) : TaskBase × Bool :=
  if t.taskStatus ≠ .kFailed ∧ t.taskStatus ≠ .kDeleted ∧ t.taskStatus ≠ .kFinished ∧
      t.errCode ≠ .kNormal then (t.setTaskStatus .kFailed, false)
  else (t, t.taskStatus != .kFailed)

def setFinished (t : TaskBase) (a : Answer) : TaskBase :=
  { t.setTaskStatus .kFinished with finishTime := a.now }

def updateFinished (t : TaskBase) (a : Answer) : TaskBase :=
  if t.isDownloadFinished && t.taskStatus != .kSeeding then t.setFinished a else t

def updateWorking (t : TaskBase) (a : Answer) : TaskBase :=
  if a.isChecking then t.setTaskStatus .kChecking
  else if a.isDownloading then t.setTaskStatus .kDownloading
  else t

def updateSeeding (t : TaskBase) (a : Answer) : TaskBase :=
  if a.isSeed || t.taskStatus == .kFinished then t.setTaskStatus .kSeeding else t

/-- `LinkTask::UpdateProgressInfo` and `BtTaskBase::UpdateProgressInfo`. A link task is
finished when its download is complete; a BitTorrent task goes through three updates. -/
def updateProgressInfo (t : TaskBase) (a : Answer) : TaskBase :=
  let t := { t with totalProgress := a.totalProgress, errCode := a.errCode }
  if t.param.type.isBt then ((t.updateFinished a).updateWorking a).updateSeeding a
  else if t.isDownloadFinished then t.setFinished a
  else t

def checkSeedingLimits (t : TaskBase) (a : Answer) : TaskBase × Bool :=
  (if a.reachLimit && a.pause then t.setFinished a else t, a.reachLimit)

def checkInvalidTask (t : TaskBase) (a : Answer) : TaskBase :=
  if t.isStarted && t.isValid && !a.valid then { t with isValid := false } else t

/-- What one round of `CheckTaskAndGetTaskInfo` does to a task. A seeding task goes
on to the validity check unless it is a BitTorrent task that reached a limit. -/
def checkTask (t : TaskBase) (a : Answer) : TaskBase :=
  match t.checkTaskIsFailed with
  | (t, false) => t
  | (t, true) =>
    match t.taskStatus with
    | .kChecking | .kDownloading => t.updateProgressInfo a
    | .kSeeding =>
      if t.param.type.isBt then
        match t.checkSeedingLimits a with
        | (t, true) => t
        | (t, false) => t.checkInvalidTask a
      else t.checkInvalidTask a
    | .kFinished | .kDeleted => t.checkInvalidTask a
    | _ => t

/-! ## Reload -/

structure Row where
  id : String
  source : String
  savePath : String := ""
  downloadType : DownloadType
  fileName : String := ""
  totalProgress : ℚ := 0
  taskStatus : TaskStatus
  createTime : Int := 0
  finishTime : Int := 0
  deleteTime : Int := 0
  errCode : DownloadErrorCode := .kNormal
  isStarted : Bool := false

/-- The parameter `GetTaskInfoListFromSQLStatement` makes for a row: a
`TorrentTaskParam` when the stored type is a BitTorrent one. -/
def Row.param (r : Row) : TaskParam :=
  { id := r.id, url := r.source, savePath := r.savePath, fileName := r.fileName,
    type := r.downloadType, isFromDbResume := true,
    torrent := if r.downloadType.isBt then some {} else none }

/-- `ResumeDataFromDb` on the task made from `param`. The progress column is read as
an integer. A link task that was downloading resumes from its break point at
once; a BitTorrent task asks for its file list and registers no callback. -/
def resumeDataFromDb (r : Row) (param : TaskParam) (a : Answer) : TaskBase :=
  let t : TaskBase :=
    { param, taskStatus := r.taskStatus, taskCategory := categoryOf r.taskStatus .kDownloadingTask,
      totalProgress := (r.totalProgress.floor : ℚ), errCode := r.errCode, createTime := r.createTime,
      finishTime := r.finishTime, deleteTime := r.deleteTime, isStarted := r.isStarted }
  if param.type.isBt then t.parseTorrent a.torrentList
  else if t.taskStatus = .kDownloading ∧ param.type ≠ .kEd2k then
    if a.resumeBreakPoint then { t with isStarted := true } else { t with errCode := .kFileMissing }
  else t

end TaskBase

end Nas.Download
