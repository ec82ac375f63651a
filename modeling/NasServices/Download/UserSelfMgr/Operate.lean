import NasServices.Download.UserSelfMgr.State

/-!
# Operations on one task

The `Exec…Operate` functions of the manager, each on the task with a given
id, and what a request reports about it. `BuildMessageData` looks the task up
again after the operation, so a task that is not listed is not reported.
-/

namespace Nas.Download

structure SuccessData where
  taskId : String
  taskStatus : TaskStatus
  taskCategory : TaskCategory
  taskIsValid : Bool
  createTimestamp : Int
  /-- Only for delete operations. -/
  deleteTimestamp : Option Int := none
  deriving DecidableEq, Repr

structure FailedData where
  taskId : String
  task : Option (TaskStatus × TaskCategory) := none
  errCode : DownloadErrorCode
  deriving DecidableEq, Repr

structure Reply where
  successList : List SuccessData := []
  failedList : List FailedData := []
  deriving DecidableEq, Repr

def TaskBase.buildMessageData (t : TaskBase) (isDelete : Bool) : SuccessData :=
  { taskId := t.param.id, taskStatus := t.taskStatus, taskCategory := t.taskCategory,
    taskIsValid := t.isValid, createTimestamp := t.createTime,
    deleteTimestamp := if isDelete then some t.deleteTime else none }

namespace UserSelfMgr

def buildMessageData (m : UserSelfMgr) (id : String) (err : DownloadErrorCode) (isDelete : Bool)
    (r : Reply) : Reply :=
  match m.findTask id with
  | none => r
  | some t =>
    if err ≠ .kNormal then
      { r with failedList := r.failedList ++
          [{ taskId := id, task := some (t.taskStatus, t.taskCategory), errCode := err }] }
    else { r with successList := r.successList ++ [t.buildMessageData isDelete] }

def pauseTask (m : UserSelfMgr) (id : String) (t : TaskBase) (a : Answer) :
    UserSelfMgr × DownloadErrorCode :=
  match t.taskStatus with
  | .kDownloading =>
    match t.pause a with
    | (t, true) => (m.setTask id t, .kNormal)
    | (_, false) => (m, .kPauseTaskFailed)
  | .kWaitting | .kParsing => (m.setTask id (t.setTaskStatus .kPaused), .kNormal)
  | .kSeeding =>
    match t.pause a with
    | (t, true) => (m.setTask id (t.setTaskStatus .kFinished), .kNormal)
    | (_, false) => (m, .kPauseTaskFailed)
  | _ => (m, .kPauseTaskFailed)

def execPauseOperate (m : UserSelfMgr) (id : String) (a : Answer) : UserSelfMgr × DownloadErrorCode :=
  match m.findTask id with
  | none => (m, .kTaskIdIsNotExist)
  | some t => m.pauseTask id t a

def execResumeOperate (m : UserSelfMgr) (id : String) (a : Answer) :
    UserSelfMgr × DownloadErrorCode :=
  match m.findTask id with
  | none => (m, .kTaskIdIsNotExist)
  | some t =>
    match t.taskStatus with
    | .kPaused =>
      if t.param.type = .kMagnet ∧ t.isParseFinish = false then
        (m.setTask id (t.setTaskStatus .kParsing), .kNormal)
      else m.tryResume id t a
    | .kFailed =>
      match t.retry a with
      | (_, false) => (m, .kNormal)
      | (t, true) => (m.setTask id t).tryResume id t a
    | .kFinished =>
      if t.param.type.isBt then
        match t.resume m.isBtAutoDownload a with
        | (t, true) => (m.setTask id (t.setTaskStatus .kSeeding), .kNormal)
        | (t, false) => (m.setTask id t, .kResumeTaskFailed)
      else (m, .kResumeTaskFailed)
    | _ => (m, .kResumeTaskFailed)

def setIsValid (m : UserSelfMgr) (id : String) : UserSelfMgr :=
  match m.findTask id with
  | none => m
  | some t => m.setTask id { t with isValid := true }

def execRetryOperate (m : UserSelfMgr) (id : String) (a : Answer) :
    UserSelfMgr × DownloadErrorCode :=
  match m.findTask id with
  | none => (m, .kTaskIdIsNotExist)
  | some t =>
    if t.taskStatus = .kFailed ∨ t.isValid = false then
      match t.retry a with
      | (_, false) => (m.setIsValid id, .kNormal)
      | (t, true) =>
        let (m, err) := (m.setTask id t).tryResume id t a
        (m.setIsValid id, err)
    else (m, .kNormal)

def execRestoreOperate (m : UserSelfMgr) (id : String) (a : Answer) :
    UserSelfMgr × DownloadErrorCode :=
  match m.findTask id with
  | none => (m, .kTaskIdIsNotExist)
  | some t =>
    if t.isValid then
      let (t, ret) := t.restore m.isBtAutoDownload a
      let m := m.setTask id t
      let err := if ret then DownloadErrorCode.kNormal else .kRestoreTaskFailed
      if t.taskStatus = .kWaitting ∧ m.isCanStart then
        if t.isStarted then ((m.resumeTask id t a).1, err) else m.startTask id t a
      else (m, err)
    else m.execRetryOperate id a

/-! ## Deletion -/

/-- The permanent deletion of a task, as the delete and clean operations share it: cancel,
report, and take the task off the list if the cancel succeeded. -/
def removeTask (m : UserSelfMgr) (id : String) (t : TaskBase) (a : Answer)
    (report : UserSelfMgr → Bool → Reply) : UserSelfMgr × Reply :=
  match m.cancel id t a with
  | (m, true) => (m.erase id, report m true)
  | (m, false) => (m, report m false)

def execDeleteOperate (isDeleteLocalFile isJudgeTaskValid : Bool) (s : UserSelfMgr × Reply)
    (id : String) (a : Answer) : UserSelfMgr × Reply :=
  let (m, r) := s
  let failed (err : DownloadErrorCode) : Reply :=
    { r with failedList := r.failedList ++ [{ taskId := id, errCode := err }] }
  match m.findTask id with
  | none => (m, failed .kTaskIdIsNotExist)
  | some t =>
    if isJudgeTaskValid && t.isValid then (m, failed .kCleanTaskFailed)
    else if t.taskCategory = .kRecyclebinTask then
      if isDeleteLocalFile && t.isDownloadFinished && !a.deleteLocalFile then
        (m, failed .kDeleteLocalFileFailed)
      else m.removeTask id t a fun m ok =>
        if ok then m.buildMessageData id .kNormal true r else failed .kDeleteTaskFailed
    else
      match t.deleteToRecycleBin a with
      | (_, false) => (m, failed .kDeleteTaskFailed)
      | (t, true) =>
        let m := m.setTask id t
        (m, m.buildMessageData id .kNormal true r)

def removeError (ok : Bool) : DownloadErrorCode := if ok then .kNormal else .kDeleteTaskFailed

/-- One round of `ExecDeleteCategoryOperate`. A task that `DeleteToRecycleBin` refused is
reported as deleted too. -/
def execDeleteCategoryOperate (taskCategory : TaskCategory) (isDeleteLocalFile : Bool)
    (s : UserSelfMgr × Reply) (id : String) (a : Answer) : UserSelfMgr × Reply :=
  let (m, r) := s
  match m.findTask id with
  | none => (m, r)
  | some t =>
    if taskCategory = .kAll then
      m.removeTask id t a fun m ok => m.buildMessageData id (removeError ok) true r
    else if t.taskCategory ≠ taskCategory then (m, r)
    else if taskCategory = .kRecyclebinTask then
      if isDeleteLocalFile && t.isDownloadFinished && !a.deleteLocalFile then
        (m, m.buildMessageData id .kDeleteLocalFileFailed true r)
      else m.removeTask id t a fun m ok => m.buildMessageData id (removeError ok) true r
    else
      let m := m.setTask id (t.deleteToRecycleBin a).1
      (m, m.buildMessageData id .kNormal true r)

def execCleanCategoryOperate (taskCategory : TaskCategory) (s : UserSelfMgr × Reply) (id : String)
    (a : Answer) : UserSelfMgr × Reply :=
  let (m, r) := s
  match m.findTask id with
  | none => (m, r)
  | some t =>
    if t.taskCategory ≠ taskCategory ∨ t.isValid then (m, r)
    else if taskCategory = .kRecyclebinTask then
      m.removeTask id t a fun m ok => m.buildMessageData id (removeError ok) false r
    else
      let m := m.setTask id (t.deleteToRecycleBin a).1
      (m, m.buildMessageData id .kNormal false r)

end UserSelfMgr

end Nas.Download
