import NasServices.Download.UserSelfMgr.Create

/-!
# Requests, the timer and the runs of a manager

The request handlers loop over task ids; those that first sort the tasks are
given the sorted queue, in any order `SortTask` may produce. `step` is one
piece of work on the manager's task runner, or an event of the engine that
posts one. `Lib.run step` is then any interleaving of user requests, timer
ticks, engine signals, changed settings and process restarts.
-/

namespace Nas.Download

namespace UserSelfMgr

/-- One round of a request: if `cond` holds of the task, run `exec` and report its result. -/
def operate (cond : UserSelfMgr → String → Bool)
    (exec : UserSelfMgr → String → Answer → UserSelfMgr × DownloadErrorCode)
    (s : UserSelfMgr × Reply) (id : String) (a : Answer) : UserSelfMgr × Reply :=
  if cond s.1 id then
    let (m, err) := exec s.1 id a
    (m, m.buildMessageData id err false s.2)
  else s

def hasStatus (p : TaskStatus → Bool) (m : UserSelfMgr) (id : String) : Bool :=
  match m.findTask id with
  | none => false
  | some t => p t.taskStatus

/-- The rounds of a loop over the queue with an inner loop over the requested ids, in the
order in which they run. -/
def matching (queue ids : List String) : List String :=
  queue.flatMap fun taskId => ids.filter (· == taskId)

def pause (m : UserSelfMgr) (ids : List String) (ω : Nat → Answer) : UserSelfMgr × Reply :=
  Lib.forEach (operate (fun _ _ => true) execPauseOperate) (m, {}) ids ω

def pauseAll (m : UserSelfMgr) (ω : Nat → Answer) : UserSelfMgr × Reply :=
  Lib.forEach (operate (hasStatus (· ∈ [.kDownloading, .kWaitting, .kParsing])) execPauseOperate)
    (m, {}) m.taskIds ω

def resume (m : UserSelfMgr) (queue ids : List String) (ω : Nat → Answer) : UserSelfMgr × Reply :=
  Lib.forEach (operate (fun _ _ => true) execResumeOperate) (m, {}) (matching queue ids) ω

def resumeAll (m : UserSelfMgr) (queue : List String) (ω : Nat → Answer) : UserSelfMgr × Reply :=
  Lib.forEach (operate (hasStatus (· ∈ [.kPaused, .kFailed])) execResumeOperate) (m, {}) queue ω

def retry (m : UserSelfMgr) (queue ids : List String) (ω : Nat → Answer) : UserSelfMgr × Reply :=
  Lib.forEach (operate (fun _ _ => true) execRetryOperate) (m, {}) (matching queue ids) ω

def needsRetry (m : UserSelfMgr) (id : String) : Bool :=
  match m.findTask id with
  | none => false
  | some t => t.taskStatus == .kFailed || !t.isValid

def retryAll (m : UserSelfMgr) (queue : List String) (ω : Nat → Answer) : UserSelfMgr × Reply :=
  Lib.forEach (operate needsRetry execRetryOperate) (m, {}) queue ω

def restore (m : UserSelfMgr) (queue ids : List String) (ω : Nat → Answer) : UserSelfMgr × Reply :=
  Lib.forEach (operate (hasStatus (· == .kDeleted)) execRestoreOperate) (m, {}) (matching queue ids) ω

def restoreAll (m : UserSelfMgr) (queue : List String) (ω : Nat → Answer) : UserSelfMgr × Reply :=
  Lib.forEach (operate (hasStatus (· == .kDeleted)) execRestoreOperate) (m, {}) queue ω

def delete (m : UserSelfMgr) (ids : List String) (isDeleteLocalFile : Bool) (ω : Nat → Answer) :
    UserSelfMgr × Reply :=
  Lib.forEach (execDeleteOperate isDeleteLocalFile false) (m, {}) ids ω

def clean (m : UserSelfMgr) (ids : List String) (ω : Nat → Answer) : UserSelfMgr × Reply :=
  Lib.forEach (execDeleteOperate false true) (m, {}) ids ω

def deleteCategory (m : UserSelfMgr) (taskCategory : TaskCategory) (isDeleteLocalFile : Bool)
    (ω : Nat → Answer) : UserSelfMgr × Reply :=
  Lib.forEach (execDeleteCategoryOperate taskCategory isDeleteLocalFile) (m, {}) m.taskIds ω

def cleanCategory (m : UserSelfMgr) (taskCategory : TaskCategory) (ω : Nat → Answer) :
    UserSelfMgr × Reply :=
  Lib.forEach (execCleanCategoryOperate taskCategory) (m, {}) m.taskIds ω

/-! ## The timer -/

/-- What `CheckTaskCountLimit` carries from task to task: `downloading_count` and `is_reach`. -/
structure LimitCheck where
  mgr : UserSelfMgr
  downloadingCount : Nat := 0
  isReach : Bool := false

/-- What `CheckTaskCountLimit` does to a waiting task when there is room: resume it if it was
started before, else start it and record the error. The result of `Resume` is not looked at. -/
def wake (m : UserSelfMgr) (id : String) (t : TaskBase) (a : Answer) : UserSelfMgr :=
  if t.isStarted then (m.resumeTask id t a).1
  else
    let (t', err) := t.start a.start
    let t' := if err ≠ .kNormal then { t' with errCode := err } else t'
    { m.setTask id t' with engine := startCalls t a.start ++ m.engine }

/-- One round of `CheckTaskCountLimit`. The running count decides which downloading tasks
are put back to waiting; whether a waiting one may start is decided by a fresh
count of the whole list. -/
def checkLimit (c : LimitCheck) (id : String) (a : Answer) : LimitCheck :=
  match c.mgr.findTask id with
  | none => c
  | some t =>
    if t.taskStatus = .kDownloading then
      if c.downloadingCount + 1 > c.mgr.taskLimitCount then
        { mgr := c.mgr.setTask id ((t.pause a).1.setTaskStatus .kWaitting),
          downloadingCount := c.downloadingCount + 1, isReach := true }
      else { c with downloadingCount := c.downloadingCount + 1 }
    else if t.taskStatus = .kWaitting ∧ c.mgr.isCanStart then
      { c with mgr := c.mgr.wake id t a, isReach := true }
    else c

def checkTaskCountLimit (m : UserSelfMgr) (queue : List String) (ω : Nat → Answer) :
    UserSelfMgr × Bool :=
  let c := Lib.forEach checkLimit { mgr := m } queue ω
  (c.mgr, c.isReach)

def checkTask (m : UserSelfMgr) (id : String) (a : Answer) : UserSelfMgr :=
  match m.findTask id with
  | none => m
  | some t => m.setTask id (t.checkTask a)

def timerChcek (m : UserSelfMgr) (queue : List String) (ω ω' : Nat → Answer) : UserSelfMgr :=
  if m.userInfo.isSome then Lib.forEach checkTask (m.checkTaskCountLimit queue ω).1 queue ω' else m

def resetTask (m : UserSelfMgr) (id : String) (a : Answer) : UserSelfMgr :=
  match m.findTask id with
  | none => m
  | some t => (m.cancel id (t.pause a).1 a).1

def reset (m : UserSelfMgr) (ω : Nat → Answer) : UserSelfMgr :=
  { Lib.forEach resetTask m m.taskIds ω with taskList := ∅ }

/-! ## Engine events -/

/-- The engine has the metadata of a task: the parse callback is run on the engine's
thread, where `OnParseComplete` posts itself to the manager's runner. -/
def metadataDownloaded (m : UserSelfMgr) (id : String) (result : TorrentList) : UserSelfMgr :=
  match m.findTask id with
  | none => m
  | some t =>
    let (t, msg) := t.parseMangetResult result
    { m.setTask id t with parseQueue := m.parseQueue ++ msg.toList }

def setFileList (m : UserSelfMgr) (id : String) (l : TorrentList) : UserSelfMgr :=
  match m.findTask id with
  | none => m
  | some t => if t.param.type.isBt then m.setTask id (t.parseTorrent (some l)) else m

def runParse (m : UserSelfMgr) (a : Answer) : UserSelfMgr :=
  match m.parseQueue with
  | [] => m
  | msg :: rest => { m with parseQueue := rest }.onParseComplete msg a

def restart (m : UserSelfMgr) (rows : List TaskBase.Row) (host : Nat → Host) : UserSelfMgr :=
  ({ m with taskList := ∅, refs := ∅, engine := [], parseQueue := [] } : UserSelfMgr).resumeFromDb
    rows host

/-! ## Runs -/

inductive Event
  | createLink (sourceList : List SourceData) (host : Nat → Host) (ω : Nat → Answer)
  | createTorrent (request : TorrentRequest) (host : Nat → Host) (ω : Nat → Answer)
  | pause (ids : List String) (ω : Nat → Answer)
  | pauseAll (ω : Nat → Answer)
  | resume (queue ids : List String) (ω : Nat → Answer)
  | resumeAll (queue : List String) (ω : Nat → Answer)
  | retry (queue ids : List String) (ω : Nat → Answer)
  | retryAll (queue : List String) (ω : Nat → Answer)
  | restore (queue ids : List String) (ω : Nat → Answer)
  | restoreAll (queue : List String) (ω : Nat → Answer)
  | delete (ids : List String) (isDeleteLocalFile : Bool) (ω : Nat → Answer)
  | deleteCategory (taskCategory : TaskCategory) (isDeleteLocalFile : Bool) (ω : Nat → Answer)
  | clean (ids : List String) (ω : Nat → Answer)
  | cleanCategory (taskCategory : TaskCategory) (ω : Nat → Answer)
  | timer (queue : List String) (ω ω' : Nat → Answer)
  | metadataDownloaded (id : String) (result : TorrentList)
  | setFileList (id : String) (l : TorrentList)
  | runParse (a : Answer)
  | reset (ω : Nat → Answer)
  | restart (rows : List TaskBase.Row) (host : Nat → Host)
  | settings (taskLimitCount : Nat) (isBtAutoDownload : Bool)

def step (m : UserSelfMgr) : Event → UserSelfMgr
  | .createLink sourceList host ω => (m.createLinkTask sourceList host ω).1
  | .createTorrent request host ω => (m.createTorrentTask request host ω).1
  | .pause ids ω => (m.pause ids ω).1
  | .pauseAll ω => (m.pauseAll ω).1
  | .resume queue ids ω => (m.resume queue ids ω).1
  | .resumeAll queue ω => (m.resumeAll queue ω).1
  | .retry queue ids ω => (m.retry queue ids ω).1
  | .retryAll queue ω => (m.retryAll queue ω).1
  | .restore queue ids ω => (m.restore queue ids ω).1
  | .restoreAll queue ω => (m.restoreAll queue ω).1
  | .delete ids isDeleteLocalFile ω => (m.delete ids isDeleteLocalFile ω).1
  | .deleteCategory c isDeleteLocalFile ω => (m.deleteCategory c isDeleteLocalFile ω).1
  | .clean ids ω => (m.clean ids ω).1
  | .cleanCategory c ω => (m.cleanCategory c ω).1
  | .timer queue ω ω' => m.timerChcek queue ω ω'
  | .metadataDownloaded id result => m.metadataDownloaded id result
  | .setFileList id l => m.setFileList id l
  | .runParse a => m.runParse a
  | .reset ω => m.reset ω
  | .restart rows host => m.restart rows host
  | .settings n isBtAutoDownload => { m with userInfo := some ⟨n⟩, isBtAutoDownload }

def Event.lists : Event → Bool
  | .createLink .. | .createTorrent .. | .restart .. => true
  | _ => false

def Event.removes : Event → Bool
  | .delete .. | .deleteCategory .. | .clean .. | .cleanCategory .. | .reset .. | .restart .. => true
  | _ => false

def linkTask (id url : String) : Event :=
  .createLink [{ taskId := id, source := url }] (fun _ => { taskHash := url }) fun _ => {}

def magnetTask (id : String) : Event :=
  .createTorrent { taskId := id, source := "magnet:?xt=urn:btih:" ++ id } (fun _ => { taskHash := id })
    fun _ => {}

end UserSelfMgr

end Nas.Download
