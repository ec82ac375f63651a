import NasServices.Download.UserSelfMgr.Request

/-!
# What the operations order the peer-to-peer engines to do

A BitTorrent task and an ed2k task have no download of their own: the engine keeps
one object for each hash (a `BitTorrent::Torrent`, a `CPartFile`), and the adapter
of every task with that hash calls into the same object. A definition here lists
the calls that the operation of the same name makes on it, in order;
`UserSelfMgr.orders` does so for every event. Only the calls that add, pause, resume
or remove an object are listed.
-/

namespace Nas.Download

def DownloadType.isPeerToPeer (type : DownloadType) : Bool := type.isBt || type == .kEd2k

inductive Order
  /-- `Session::addTorrent`, `AddLinksFromFile`: a hash that the engine has is left as it is. -/
  | add (hash : String) (isPaused ok : Bool)
  | pause (hash : String)
  | resume (hash : String)
  /-- `Session::deleteTorrent`, `DeletePartFile`. -/
  | remove (hash : String)
  deriving DecidableEq

def Order.Stops (hash : String) : Order → Prop
  | .pause h | .remove h => h = hash
  | _ => False

/-! ## Tasks -/

namespace TaskBase

def order (t : TaskBase) (o : String → Order) : List Order :=
  if t.param.type.isPeerToPeer then [o t.param.hash] else []

def pauseOrders (t : TaskBase) (a : Answer) : List Order := if a.pause then t.order .pause else []

def startOrders (t : TaskBase) (ret : DownloadErrorCode) : List Order :=
  let isPaused := t.param.type == .kTorrent && t.param.torrent.any (!·.isDownloadNow)
  if t.isStarted then [] else t.order (.add · isPaused (decide (ret = .kNormal)))

/-- `Resume`. An ed2k task that has failed or is not valid removes the part file and adds the
link again, whatever comes of it. -/
def resumeOrders (t : TaskBase) (isBtAutoDownload : Bool) (a : Answer) : List Order :=
  if t.param.type.isBt && t.taskStatus == .kWaitting && !isBtAutoDownload then []
  else if t.param.type == .kEd2k && (t.taskStatus == .kFailed || !t.isValid) then
    t.order .remove ++ t.order (.add · false (decide (a.start = .kNormal)))
  else t.order .resume

def deleteToRecycleBinOrders (t : TaskBase) (a : Answer) : List Order :=
  if !t.hasImpl || t.taskStatus == .kFailed then [] else t.pauseOrders a

def restoreOrders (t : TaskBase) (isBtAutoDownload : Bool) (a : Answer) : List Order :=
  if !t.hasImpl then []
  else match t.preStatus with
    | .kSeeding => t.resumeOrders isBtAutoDownload a
    | .kFailed =>
      { t.setTaskStatus .kFailed with taskCategory := .kDownloadingTask }.resumeOrders isBtAutoDownload a
    | _ => []

def exceCancelOrders (t : TaskBase) (a : Answer) (realDelete : Bool) : List Order :=
  if t.asksCancel realDelete && a.cancel then t.order .remove else []

/-- The ed2k adapter pauses its part file when it is asked for progress and the disk is full. -/
def updateProgressInfoOrders (t : TaskBase) (a : Answer) : List Order :=
  if t.param.type == .kEd2k && a.isDiskFull then t.order .pause else []

def checkSeedingLimitsOrders (t : TaskBase) (a : Answer) : List Order :=
  if a.reachLimit then t.pauseOrders a else []

def checkTaskOrders (t : TaskBase) (a : Answer) : List Order :=
  match t.checkTaskIsFailed with
  | (_, false) => []
  | (t, true) =>
    match t.taskStatus with
    | .kChecking | .kDownloading => t.updateProgressInfoOrders a
    | .kSeeding => if t.param.type.isBt then t.checkSeedingLimitsOrders a else []
    | _ => []

end TaskBase

/-! ## User operations -/

namespace UserSelfMgr

def pauseTaskOrders (t : TaskBase) (a : Answer) : List Order :=
  match t.taskStatus with
  | .kDownloading | .kSeeding => t.pauseOrders a
  | _ => []

def execPauseOrders (m : UserSelfMgr) (id : String) (a : Answer) : List Order :=
  match m.findTask id with
  | none => []
  | some t => pauseTaskOrders t a

def wakeOrders (m : UserSelfMgr) (t : TaskBase) (a : Answer) : List Order :=
  if t.isStarted then t.resumeOrders m.isBtAutoDownload a else t.startOrders a.start

def tryResumeOrders (m : UserSelfMgr) (t : TaskBase) (a : Answer) : List Order :=
  if m.isCanStart then m.wakeOrders t a else []

def execResumeOrders (m : UserSelfMgr) (id : String) (a : Answer) : List Order :=
  match m.findTask id with
  | none => []
  | some t =>
    match t.taskStatus with
    | .kPaused => if t.param.type = .kMagnet ∧ t.isParseFinish = false then [] else m.tryResumeOrders t a
    | .kFailed =>
      match t.retry a with
      | (_, false) => []
      | (t, true) => (m.setTask id t).tryResumeOrders t a
    | .kFinished => if t.param.type.isBt then t.resumeOrders m.isBtAutoDownload a else []
    | _ => []

def execRetryOrders (m : UserSelfMgr) (id : String) (a : Answer) : List Order :=
  match m.findTask id with
  | none => []
  | some t =>
    if t.taskStatus = .kFailed ∨ t.isValid = false then
      match t.retry a with
      | (_, false) => []
      | (t, true) => (m.setTask id t).tryResumeOrders t a
    else []

def execRestoreOrders (m : UserSelfMgr) (id : String) (a : Answer) : List Order :=
  match m.findTask id with
  | none => []
  | some t =>
    if t.isValid then
      let t' := (t.restore m.isBtAutoDownload a).1
      t.restoreOrders m.isBtAutoDownload a ++
        if t'.taskStatus = .kWaitting then (m.setTask id t').tryResumeOrders t' a else []
    else m.execRetryOrders id a

/-! ## Deletion -/

def cancelOrders (m : UserSelfMgr) (t : TaskBase) (a : Answer) : List Order :=
  (m.refs.release t.param.hash fun realDelete =>
    (t.exceCancelOrders a realDelete, (t.exceCancel a realDelete).2)).2.1

def execDeleteOrders (isDeleteLocalFile isJudgeTaskValid : Bool) (s : UserSelfMgr × Reply)
    (id : String) (a : Answer) : List Order :=
  match s.1.findTask id with
  | none => []
  | some t =>
    if isJudgeTaskValid && t.isValid then []
    else if t.taskCategory = .kRecyclebinTask then
      if isDeleteLocalFile && t.isDownloadFinished && !a.deleteLocalFile then [] else s.1.cancelOrders t a
    else t.deleteToRecycleBinOrders a

def execDeleteCategoryOrders (taskCategory : TaskCategory) (isDeleteLocalFile : Bool)
    (s : UserSelfMgr × Reply) (id : String) (a : Answer) : List Order :=
  match s.1.findTask id with
  | none => []
  | some t =>
    if taskCategory = .kAll then s.1.cancelOrders t a
    else if t.taskCategory ≠ taskCategory then []
    else if taskCategory = .kRecyclebinTask then
      if isDeleteLocalFile && t.isDownloadFinished && !a.deleteLocalFile then [] else s.1.cancelOrders t a
    else t.deleteToRecycleBinOrders a

def execCleanCategoryOrders (taskCategory : TaskCategory) (s : UserSelfMgr × Reply) (id : String)
    (a : Answer) : List Order :=
  match s.1.findTask id with
  | none => []
  | some t =>
    if t.taskCategory ≠ taskCategory ∨ t.isValid then []
    else if taskCategory = .kRecyclebinTask then s.1.cancelOrders t a
    else t.deleteToRecycleBinOrders a

def resetTaskOrders (m : UserSelfMgr) (id : String) (a : Answer) : List Order :=
  match m.findTask id with
  | none => []
  | some t => t.pauseOrders a ++ m.cancelOrders (t.pause a).1 a

/-! ## Creation -/

def execNoneBtOrders (m : UserSelfMgr) (t : TaskBase) (ret : DownloadErrorCode) : List Order :=
  if m.isCanStart then t.startOrders ret else []

def execStartOrders (m : UserSelfMgr) (t : TaskBase) (h : Host) : List Order :=
  match t.param.type with
  | .kMagnet => t.startOrders h.start
  | .kTorrent =>
    (m.admitTorrent t).startOrders h.start ++
      m.execNoneBtOrders (startNew (m.admitTorrent t) h.start).task h.startAgain
  | _ => m.execNoneBtOrders t h.start

def execCreateOrders (c : Creation) (param : TaskParam) (h : Host) : List Order :=
  match c.mgr.createTask param h with
  | (none, _, _) => []
  | (some t, err, _) =>
    let m := { c.mgr with made := t.param :: c.mgr.made }
    if err ≠ .kNormal then []
    else
      let s := m.execStart t h
      let m' := { m with engine := s.calls ++ m.engine }
      m.execStartOrders t h ++
        if s.err ≠ .kNormal then []
        else match m'.addTask param.id s.task with
          | (m', false) => m'.cancelOrders s.task h.toAnswer
          | (_, true) => []

def onParseCompleteOrders (m : UserSelfMgr) (msg : TaskBase.ParseMessage) (a : Answer) : List Order :=
  match m.findTask msg.1 with
  | none => []
  | some t => if m.isCanStart && m.isBtAutoDownload then [] else t.pauseOrders a

def parseTaskOrders (m : UserSelfMgr) (id : String) (a : Answer) : List Order :=
  match m.findTask id with
  | none => []
  | some t =>
    match t.parse m.userId a with
    | (_, none) => []
    | (t, some msg) => (m.setTask id t).onParseCompleteOrders msg a

def createAllOrders (m : UserSelfMgr) (params : List TaskParam) (host : Nat → Host) (ω : Nat → Answer) :
    List Order :=
  let c := Lib.forEach execCreate { mgr := m } params host
  Lib.forEachLog execCreate execCreateOrders { mgr := m } params host ++
    Lib.forEachLog parseTask parseTaskOrders c.mgr c.needParse ω

def runParseOrders (m : UserSelfMgr) (a : Answer) : List Order :=
  match m.parseQueue with
  | [] => []
  | msg :: rest => { m with parseQueue := rest }.onParseCompleteOrders msg a

/-! ## The timer -/

def checkLimitOrders (c : LimitCheck) (id : String) (a : Answer) : List Order :=
  match c.mgr.findTask id with
  | none => []
  | some t =>
    if t.taskStatus = .kDownloading then
      if c.downloadingCount + 1 > c.mgr.taskLimitCount then t.pauseOrders a else []
    else if t.taskStatus = .kWaitting then c.mgr.tryResumeOrders t a
    else []

def checkTaskOrders (m : UserSelfMgr) (id : String) (a : Answer) : List Order :=
  match m.findTask id with
  | none => []
  | some t => t.checkTaskOrders a

def timerChcekOrders (m : UserSelfMgr) (queue : List String) (ω ω' : Nat → Answer) : List Order :=
  if m.userInfo.isSome then
    Lib.forEachLog checkLimit checkLimitOrders { mgr := m } queue ω ++
      Lib.forEachLog checkTask checkTaskOrders (m.checkTaskCountLimit queue ω).1 queue ω'
  else []

/-! ## Events -/

def operateOrders (cond : UserSelfMgr → String → Bool) (exec : UserSelfMgr → String → Answer → List Order)
    (s : UserSelfMgr × Reply) (id : String) (a : Answer) : List Order :=
  if cond s.1 id then exec s.1 id a else []

def requestOrders (m : UserSelfMgr) (cond : UserSelfMgr → String → Bool)
    (exec : UserSelfMgr → String → Answer → UserSelfMgr × DownloadErrorCode)
    (orders : UserSelfMgr → String → Answer → List Order) (ids : List String) (ω : Nat → Answer) :
    List Order :=
  Lib.forEachLog (operate cond exec) (operateOrders cond orders) (m, {}) ids ω

def orders (m : UserSelfMgr) : Event → List Order
  | .createLink sourceList host ω => m.createAllOrders (sourceList.map (·.param)) host ω
  | .createTorrent request host ω => m.createAllOrders [request.param] host ω
  | .pause ids ω => m.requestOrders (fun _ _ => true) execPauseOperate execPauseOrders ids ω
  | .pauseAll ω =>
    m.requestOrders (hasStatus (· ∈ [.kDownloading, .kWaitting, .kParsing])) execPauseOperate
      execPauseOrders m.taskIds ω
  | .resume queue ids ω =>
    m.requestOrders (fun _ _ => true) execResumeOperate execResumeOrders (matching queue ids) ω
  | .resumeAll queue ω =>
    m.requestOrders (hasStatus (· ∈ [.kPaused, .kFailed])) execResumeOperate execResumeOrders queue ω
  | .retry queue ids ω =>
    m.requestOrders (fun _ _ => true) execRetryOperate execRetryOrders (matching queue ids) ω
  | .retryAll queue ω => m.requestOrders needsRetry execRetryOperate execRetryOrders queue ω
  | .restore queue ids ω =>
    m.requestOrders (hasStatus (· == .kDeleted)) execRestoreOperate execRestoreOrders
      (matching queue ids) ω
  | .restoreAll queue ω =>
    m.requestOrders (hasStatus (· == .kDeleted)) execRestoreOperate execRestoreOrders queue ω
  | .delete ids isDeleteLocalFile ω =>
    Lib.forEachLog (execDeleteOperate isDeleteLocalFile false)
      (execDeleteOrders isDeleteLocalFile false) (m, {}) ids ω
  | .clean ids ω =>
    Lib.forEachLog (execDeleteOperate false true) (execDeleteOrders false true) (m, {}) ids ω
  | .deleteCategory c isDeleteLocalFile ω =>
    Lib.forEachLog (execDeleteCategoryOperate c isDeleteLocalFile)
      (execDeleteCategoryOrders c isDeleteLocalFile) (m, {}) m.taskIds ω
  | .cleanCategory c ω =>
    Lib.forEachLog (execCleanCategoryOperate c) (execCleanCategoryOrders c) (m, {}) m.taskIds ω
  | .timer queue ω ω' => m.timerChcekOrders queue ω ω'
  | .runParse a => m.runParseOrders a
  | .reset ω => Lib.forEachLog resetTask resetTaskOrders m m.taskIds ω
  | .metadataDownloaded .. | .setFileList .. | .restart .. | .settings .. => []

end UserSelfMgr

end Nas.Download
