import NasServices.Download.UserSelfMgr.Request

/-!
# What the operations post

Every status change posts the task's record to the database thread
(`UpdateTaskInfo`), `AddTask` posts a new record, the delete operations post the
removal of one, and `CurlTask::Resume` posts `ReStart` to the manager's own
runner. A definition here lists what the operation of the same name posts, in
order; `UserSelfMgr.posts` does so for every event. A record is copied when
it is posted, so a post carries the task as it is at that moment.
-/

namespace Nas.Download

def DownloadType.isCurl : DownloadType → Bool
  | .kHttp | .kHttps | .kFtp | .kFtps | .kSftp => true
  | _ => false

inductive Post
  | addTaskInfo (t : TaskBase)
  | updateTaskInfo (t : TaskBase)
  | deleteTaskInfo (taskId : String)
  /-- `DownloadManager::Reset` empties the tables. -/
  | clearTableData
  /-- `CurlTask::ReStart`, which goes to the manager's runner. -/
  | reStart (taskId : String)
  deriving DecidableEq

/-! ## Tasks -/

namespace TaskBase

def setTaskStatusPosts (t : TaskBase) (s : TaskStatus) : List Post := [.updateTaskInfo (t.setTaskStatus s)]

def pausePosts (t : TaskBase) (a : Answer) : List Post :=
  if a.pause then t.setTaskStatusPosts .kPaused else []

def resumePosts (t : TaskBase) (isBtAutoDownload : Bool) (a : Answer) : List Post :=
  if t.param.type.isBt && t.taskStatus == .kWaitting && !isBtAutoDownload then
    t.setTaskStatusPosts .kPaused
  else (if a.resume then t.setTaskStatusPosts .kDownloading else []) ++
    if t.param.type.isCurl then [.reStart t.param.id] else []

def startPosts (t : TaskBase) : List Post :=
  if t.isStarted || t.param.type.isBt then [] else t.setTaskStatusPosts .kDownloading

def deleteToRecycleBinPosts (t : TaskBase) (a : Answer) : List Post :=
  if t.hasImpl && (t.taskStatus == .kFailed || a.pause) then
    t.setTaskStatusPosts .kDeleted ++ [.updateTaskInfo (t.deleteToRecycleBin a).1]
  else []

def restorePosts (t : TaskBase) (isBtAutoDownload : Bool) (a : Answer) : List Post :=
  if !t.hasImpl then []
  else match t.preStatus with
    | .kFinished => t.setTaskStatusPosts .kFinished
    | .kParsing => t.setTaskStatusPosts .kParsing
    | .kPaused => t.setTaskStatusPosts .kPaused
    | .kSeeding =>
      t.resumePosts isBtAutoDownload a ++ (t.resume isBtAutoDownload a).1.setTaskStatusPosts .kSeeding
    | .kFailed =>
      t.setTaskStatusPosts .kFailed ++
        { t.setTaskStatus .kFailed with taskCategory := .kDownloadingTask }.resumePosts isBtAutoDownload a
    | .kWaitting => t.setTaskStatusPosts .kWaitting
    | .kDownloading => t.setTaskStatusPosts .kWaitting
    | _ => t.setTaskStatusPosts (if t.isDownloadFinished then .kFinished else .kPaused)

def exceCancelPosts (t : TaskBase) (a : Answer) (realDelete : Bool) : List Post :=
  if t.asksCancel realDelete then
    if a.cancel then t.setTaskStatusPosts .kCompletedDeleted else []
  else if t.param.type != .kTorrent && !t.isStarted then t.setTaskStatusPosts .kCompletedDeleted
  else []

def parsePosts (t : TaskBase) (a : Answer) : List Post :=
  match t.param.type with
  | .kMagnet => if t.hasImpl && a.torrentList.isNone then t.setTaskStatusPosts .kParsing else []
  | .kTorrent => []
  | _ =>
    if t.param.fileSize = 0 ∧ a.parseLink ≠ .kNormal then
      { t with errCode := a.parseLink }.setTaskStatusPosts .kFailed
    else []

def checkTaskIsFailedPosts (t : TaskBase) : List Post :=
  if t.taskStatus ≠ .kFailed ∧ t.taskStatus ≠ .kDeleted ∧ t.taskStatus ≠ .kFinished ∧
      t.errCode ≠ .kNormal then
    t.setTaskStatusPosts .kFailed ++ [.updateTaskInfo (t.setTaskStatus .kFailed)]
  else []

def updateFinishedPosts (t : TaskBase) : List Post :=
  if t.isDownloadFinished && t.taskStatus != .kSeeding then t.setTaskStatusPosts .kFinished else []

def updateWorkingPosts (t : TaskBase) (a : Answer) : List Post :=
  if a.isChecking then t.setTaskStatusPosts .kChecking
  else if a.isDownloading then t.setTaskStatusPosts .kDownloading
  else []

def updateSeedingPosts (t : TaskBase) (a : Answer) : List Post :=
  if a.isSeed || t.taskStatus == .kFinished then t.setTaskStatusPosts .kSeeding else []

/-- `BuildDownloadingData` posts the record at the end, and a link task has posted it before. -/
def updateProgressInfoPosts (t : TaskBase) (a : Answer) : List Post :=
  let t₀ := { t with totalProgress := a.totalProgress, errCode := a.errCode }
  let last : Post := .updateTaskInfo (t.updateProgressInfo a)
  if t.param.type.isBt then
    t₀.updateFinishedPosts ++ (t₀.updateFinished a).updateWorkingPosts a ++
      ((t₀.updateFinished a).updateWorking a).updateSeedingPosts a ++ [last]
  else (if t₀.isDownloadFinished then t₀.setTaskStatusPosts .kFinished else []) ++ [last, last]

def checkSeedingLimitsPosts (t : TaskBase) (a : Answer) : List Post :=
  if a.reachLimit && a.pause then t.setTaskStatusPosts .kFinished else []

def checkTaskPosts (t : TaskBase) (a : Answer) : List Post :=
  t.checkTaskIsFailedPosts ++
    match t.checkTaskIsFailed with
    | (_, false) => []
    | (t, true) =>
      match t.taskStatus with
      | .kPaused | .kWaitting => [.updateTaskInfo t]
      | .kChecking | .kDownloading => t.updateProgressInfoPosts a
      | .kSeeding => if t.param.type.isBt then t.checkSeedingLimitsPosts a else []
      | _ => []

end TaskBase

/-! ## User operations -/

namespace UserSelfMgr

def pauseTaskPosts (t : TaskBase) (a : Answer) : List Post :=
  match t.taskStatus with
  | .kDownloading => t.pausePosts a
  | .kWaitting | .kParsing => t.setTaskStatusPosts .kPaused
  | .kSeeding =>
    if a.pause then t.pausePosts a ++ (t.pause a).1.setTaskStatusPosts .kFinished else []
  | _ => []

def execPausePosts (m : UserSelfMgr) (id : String) (a : Answer) : List Post :=
  match m.findTask id with
  | none => []
  | some t => pauseTaskPosts t a

def tryResumePosts (m : UserSelfMgr) (t : TaskBase) (a : Answer) : List Post :=
  if m.isCanStart then if t.isStarted then t.resumePosts m.isBtAutoDownload a else t.startPosts
  else t.setTaskStatusPosts .kWaitting

def execResumePosts (m : UserSelfMgr) (id : String) (a : Answer) : List Post :=
  match m.findTask id with
  | none => []
  | some t =>
    match t.taskStatus with
    | .kPaused =>
      if t.param.type = .kMagnet ∧ t.isParseFinish = false then t.setTaskStatusPosts .kParsing
      else m.tryResumePosts t a
    | .kFailed =>
      match t.retry a with
      | (_, false) => []
      | (t, true) => (m.setTask id t).tryResumePosts t a
    | .kFinished =>
      if t.param.type.isBt then
        t.resumePosts m.isBtAutoDownload a ++
          match t.resume m.isBtAutoDownload a with
          | (t, true) => t.setTaskStatusPosts .kSeeding
          | (_, false) => []
      else []
    | _ => []

def execRetryPosts (m : UserSelfMgr) (id : String) (a : Answer) : List Post :=
  match m.findTask id with
  | none => []
  | some t =>
    if t.taskStatus = .kFailed ∨ t.isValid = false then
      match t.retry a with
      | (_, false) => []
      | (t, true) => (m.setTask id t).tryResumePosts t a
    else []

def execRestorePosts (m : UserSelfMgr) (id : String) (a : Answer) : List Post :=
  match m.findTask id with
  | none => []
  | some t =>
    if t.isValid then
      let t' := (t.restore m.isBtAutoDownload a).1
      t.restorePosts m.isBtAutoDownload a ++
        if t'.taskStatus = .kWaitting ∧ (m.setTask id t').isCanStart then
          if t'.isStarted then t'.resumePosts m.isBtAutoDownload a else t'.startPosts
        else []
    else m.execRetryPosts id a

def cancelPosts (m : UserSelfMgr) (t : TaskBase) (a : Answer) : List Post :=
  (m.refs.release t.param.hash fun realDelete =>
    (t.exceCancelPosts a realDelete, (t.exceCancel a realDelete).2)).2.1

def removeTaskPosts (m : UserSelfMgr) (id : String) (t : TaskBase) (a : Answer) : List Post :=
  m.cancelPosts t a ++ if (m.cancel id t a).2 then [.deleteTaskInfo id] else []

def execDeletePosts (isDeleteLocalFile isJudgeTaskValid : Bool) (s : UserSelfMgr × Reply)
    (id : String) (a : Answer) : List Post :=
  match s.1.findTask id with
  | none => []
  | some t =>
    if isJudgeTaskValid && t.isValid then []
    else if t.taskCategory = .kRecyclebinTask then
      if isDeleteLocalFile && t.isDownloadFinished && !a.deleteLocalFile then []
      else s.1.removeTaskPosts id t a
    else t.deleteToRecycleBinPosts a

def execDeleteCategoryPosts (taskCategory : TaskCategory) (isDeleteLocalFile : Bool)
    (s : UserSelfMgr × Reply) (id : String) (a : Answer) : List Post :=
  match s.1.findTask id with
  | none => []
  | some t =>
    if taskCategory = .kAll then s.1.removeTaskPosts id t a
    else if t.taskCategory ≠ taskCategory then []
    else if taskCategory = .kRecyclebinTask then
      if isDeleteLocalFile && t.isDownloadFinished && !a.deleteLocalFile then []
      else s.1.removeTaskPosts id t a
    else t.deleteToRecycleBinPosts a

def execCleanCategoryPosts (taskCategory : TaskCategory) (s : UserSelfMgr × Reply) (id : String)
    (a : Answer) : List Post :=
  match s.1.findTask id with
  | none => []
  | some t =>
    if t.taskCategory ≠ taskCategory ∨ t.isValid then []
    else if taskCategory = .kRecyclebinTask then s.1.removeTaskPosts id t a
    else t.deleteToRecycleBinPosts a

/-! ## Creation -/

def execNoneBtPosts (m : UserSelfMgr) (t : TaskBase) : List Post :=
  if m.isCanStart then t.startPosts else []

/-- A torrent task gets its status before the first `Start`, in every branch of `ExecTorrent`. -/
def execStartPosts (m : UserSelfMgr) (t : TaskBase) (h : Host) : List Post :=
  match t.param.type with
  | .kMagnet => { t with parseCallback := true }.startPosts
  | .kTorrent =>
    .updateTaskInfo (m.admitTorrent t) :: (m.admitTorrent t).startPosts ++
      m.execNoneBtPosts (startNew (m.admitTorrent t) h.start).task
  | _ => m.execNoneBtPosts t

def addTaskPosts (m : UserSelfMgr) (t : TaskBase) : List Post :=
  if m.userInfo.isSome && !t.param.isFromDbResume then [.addTaskInfo t] else []

def execCreatePosts (c : Creation) (param : TaskParam) (h : Host) : List Post :=
  match c.mgr.createTask param h with
  | (none, _, _) => []
  | (some t, err, _) =>
    let m := { c.mgr with made := t.param :: c.mgr.made }
    if err ≠ .kNormal then []
    else
      let s := m.execStart t h
      let m' := { m with engine := s.calls ++ m.engine }
      m.execStartPosts t h ++
        if s.err ≠ .kNormal then []
        else match m'.addTask param.id s.task with
          | (m', false) => m'.cancelPosts s.task h.toAnswer
          | (_, true) => m'.addTaskPosts s.task

def onParseCompletePosts (m : UserSelfMgr) (msg : TaskBase.ParseMessage) (a : Answer) : List Post :=
  match m.findTask msg.1 with
  | none => []
  | some t =>
    let t := { t with parseFinished := true, fileList := msg.2 }
    if m.isCanStart then
      if !m.isBtAutoDownload then t.pausePosts a ++ (t.pause a).1.setTaskStatusPosts .kPaused
      else t.setTaskStatusPosts .kDownloading
    else t.pausePosts a ++ (t.pause a).1.setTaskStatusPosts .kWaitting

def parseTaskPosts (m : UserSelfMgr) (id : String) (a : Answer) : List Post :=
  match m.findTask id with
  | none => []
  | some t =>
    t.parsePosts a ++
      match t.parse m.userId a with
      | (_, none) => []
      | (t, some msg) => (m.setTask id t).onParseCompletePosts msg a

def createAllPosts (m : UserSelfMgr) (params : List TaskParam) (host : Nat → Host) (ω : Nat → Answer) :
    List Post :=
  let c := Lib.forEach execCreate { mgr := m } params host
  Lib.forEachLog execCreate execCreatePosts { mgr := m } params host ++
    Lib.forEachLog parseTask parseTaskPosts c.mgr c.needParse ω

/-! ## The timer -/

def wakePosts (m : UserSelfMgr) (t : TaskBase) (a : Answer) : List Post :=
  if t.isStarted then t.resumePosts m.isBtAutoDownload a else t.startPosts

def checkLimitPosts (c : LimitCheck) (id : String) (a : Answer) : List Post :=
  match c.mgr.findTask id with
  | none => []
  | some t =>
    if t.taskStatus = .kDownloading then
      if c.downloadingCount + 1 > c.mgr.taskLimitCount then
        t.pausePosts a ++ (t.pause a).1.setTaskStatusPosts .kWaitting
      else []
    else if t.taskStatus = .kWaitting ∧ c.mgr.isCanStart then c.mgr.wakePosts t a
    else []

def checkTaskPosts (m : UserSelfMgr) (id : String) (a : Answer) : List Post :=
  match m.findTask id with
  | none => []
  | some t => t.checkTaskPosts a

def timerChcekPosts (m : UserSelfMgr) (queue : List String) (ω ω' : Nat → Answer) : List Post :=
  if m.userInfo.isSome then
    Lib.forEachLog checkLimit checkLimitPosts { mgr := m } queue ω ++
      Lib.forEachLog checkTask checkTaskPosts (m.checkTaskCountLimit queue ω).1 queue ω'
  else []

def resetTaskPosts (m : UserSelfMgr) (id : String) (a : Answer) : List Post :=
  match m.findTask id with
  | none => []
  | some t => t.pausePosts a ++ m.cancelPosts (t.pause a).1 a

def resetPosts (m : UserSelfMgr) (ω : Nat → Answer) : List Post :=
  Lib.forEachLog resetTask resetTaskPosts m m.taskIds ω ++ [.clearTableData]

def runParsePosts (m : UserSelfMgr) (a : Answer) : List Post :=
  match m.parseQueue with
  | [] => []
  | msg :: rest => { m with parseQueue := rest }.onParseCompletePosts msg a

/-! ## Events -/

def operatePosts (cond : UserSelfMgr → String → Bool) (exec : UserSelfMgr → String → Answer → List Post)
    (s : UserSelfMgr × Reply) (id : String) (a : Answer) : List Post :=
  if cond s.1 id then exec s.1 id a else []

def requestPosts (m : UserSelfMgr) (cond : UserSelfMgr → String → Bool)
    (exec : UserSelfMgr → String → Answer → UserSelfMgr × DownloadErrorCode)
    (posts : UserSelfMgr → String → Answer → List Post) (ids : List String) (ω : Nat → Answer) :
    List Post :=
  Lib.forEachLog (operate cond exec) (operatePosts cond posts) (m, {}) ids ω

/-- What an event posts. Nothing is posted while rows are reloaded. -/
def posts (m : UserSelfMgr) : Event → List Post
  | .createLink sourceList host ω => m.createAllPosts (sourceList.map (·.param)) host ω
  | .createTorrent request host ω => m.createAllPosts [request.param] host ω
  | .pause ids ω => m.requestPosts (fun _ _ => true) execPauseOperate execPausePosts ids ω
  | .pauseAll ω =>
    m.requestPosts (hasStatus (· ∈ [.kDownloading, .kWaitting, .kParsing])) execPauseOperate
      execPausePosts m.taskIds ω
  | .resume queue ids ω =>
    m.requestPosts (fun _ _ => true) execResumeOperate execResumePosts (matching queue ids) ω
  | .resumeAll queue ω =>
    m.requestPosts (hasStatus (· ∈ [.kPaused, .kFailed])) execResumeOperate execResumePosts queue ω
  | .retry queue ids ω =>
    m.requestPosts (fun _ _ => true) execRetryOperate execRetryPosts (matching queue ids) ω
  | .retryAll queue ω => m.requestPosts needsRetry execRetryOperate execRetryPosts queue ω
  | .restore queue ids ω =>
    m.requestPosts (hasStatus (· == .kDeleted)) execRestoreOperate execRestorePosts
      (matching queue ids) ω
  | .restoreAll queue ω =>
    m.requestPosts (hasStatus (· == .kDeleted)) execRestoreOperate execRestorePosts queue ω
  | .delete ids isDeleteLocalFile ω =>
    Lib.forEachLog (execDeleteOperate isDeleteLocalFile false)
      (execDeletePosts isDeleteLocalFile false) (m, {}) ids ω
  | .clean ids ω =>
    Lib.forEachLog (execDeleteOperate false true) (execDeletePosts false true) (m, {}) ids ω
  | .deleteCategory c isDeleteLocalFile ω =>
    Lib.forEachLog (execDeleteCategoryOperate c isDeleteLocalFile)
      (execDeleteCategoryPosts c isDeleteLocalFile) (m, {}) m.taskIds ω
  | .cleanCategory c ω =>
    Lib.forEachLog (execCleanCategoryOperate c) (execCleanCategoryPosts c) (m, {}) m.taskIds ω
  | .timer queue ω ω' => m.timerChcekPosts queue ω ω'
  | .runParse a => m.runParsePosts a
  | .reset ω => m.resetPosts ω
  | .metadataDownloaded .. | .setFileList .. | .restart .. | .settings .. => []

end UserSelfMgr

end Nas.Download
