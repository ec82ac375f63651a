import Mathlib.Data.List.Sort
import NasServices.Lib.Run
import NasServices.Lib.Table
import NasServices.Download.TaskRefCount
import NasServices.Download.TaskFactory

/-!
# The task manager of one user

`UserSelfMgr` owns the tasks of one user and runs on one task runner, so its
operations are functions on its state. `refs` and `engine` are shared with
the managers of the other users: the reference counts, and the calls made
into the download engine, newest first. `parseQueue` holds the
`OnParseComplete` calls that the engine's thread has posted to the runner and
that have not run yet.

Operations on one task are given an `Answer`; loops over tasks are given one
for each round (`Lib.forEach`).
-/

namespace Nas.Download

inductive EngineCall
  | start (hash : String)
  | cancel (hash : String) (ok : Bool)
  deriving DecidableEq, Repr

structure UserInfo where
  taskLimitCount : Nat := 5
  deriving DecidableEq, Repr

structure UserSelfMgr where
  userId : String
  userInfo : Option UserInfo := some {}
  taskList : AList fun _ : String => TaskBase := ∅
  isBtAutoDownload : Bool := true
  refs : TaskRefCount := ∅
  engine : List EngineCall := []
  parseQueue : List TaskBase.ParseMessage := []
  /-- The parameter of every task object that `TaskFactory` has made, listed or not. -/
  made : List TaskParam := []

namespace UserSelfMgr

def findTask (m : UserSelfMgr) (id : String) : Option TaskBase := m.taskList.lookup id

def setTask (m : UserSelfMgr) (id : String) (t : TaskBase) : UserSelfMgr :=
  { m with taskList := m.taskList.insert id t }

@[simp] theorem findTask_setTask (m : UserSelfMgr) (id : String) (t : TaskBase) :
    (m.setTask id t).findTask id = some t := AList.lookup_insert _

theorem findTask_setTask_ne (m : UserSelfMgr) {id id' : String} (t : TaskBase) (h : id' ≠ id) :
    (m.setTask id t).findTask id' = m.findTask id' := AList.lookup_insert_ne h

def taskIds (m : UserSelfMgr) : List String := m.taskList.keys.insertionSort (· ≤ ·)

theorem nodup_taskIds (m : UserSelfMgr) : m.taskIds.Nodup :=
  (List.perm_insertionSort _ m.taskList.keys).nodup_iff.mpr m.taskList.keys_nodup

theorem mem_taskIds_iff {m : UserSelfMgr} {id : String} : id ∈ m.taskIds ↔ (m.findTask id).isSome = true := by
  rw [taskIds, List.mem_insertionSort, ← AList.mem_keys, ← AList.lookup_isSome]
  rfl

def taskLimitCount (m : UserSelfMgr) : Nat :=
  match m.userInfo with
  | some u => u.taskLimitCount
  | none => 5

def slot (t : TaskBase) : Nat := if t.taskStatus = .kDownloading then 1 else 0

theorem slot_le_one (t : TaskBase) : slot t ≤ 1 := by
  unfold slot
  split <;> omega

def downloadingTaskNum (m : UserSelfMgr) : Nat := Lib.sumBy (fun _ t => slot t) m.taskList

/-- Changing one task moves the count by what the task adds before and after. -/
theorem downloadingTaskNum_setTask {m : UserSelfMgr} {id : String} {t : TaskBase}
    (h : m.findTask id = some t) (t' : TaskBase) :
    (m.setTask id t').downloadingTaskNum + slot t = m.downloadingTaskNum + slot t' :=
  Lib.sumBy_replace h

def isCanStart (m : UserSelfMgr) : Bool := decide (m.downloadingTaskNum < m.taskLimitCount)

/-- A task that adds as much as before leaves room for as many others. -/
theorem isCanStart_setTask {m : UserSelfMgr} {id : String} {t t' : TaskBase} (ht : m.findTask id = some t)
    (h : slot t' = slot t) : (m.setTask id t').isCanStart = m.isCanStart := by
  have hnum := downloadingTaskNum_setTask ht t'
  rw [h, Nat.add_right_cancel_iff] at hnum
  show decide (_ < m.taskLimitCount) = decide (_ < m.taskLimitCount)
  rw [hnum]

/-- The calls `Start` makes when the engine answers `ret`: a download is created unless the
task has been started before or the engine refuses. -/
def startCalls (t : TaskBase) (ret : DownloadErrorCode) : List EngineCall :=
  if !t.isStarted && decide (ret = .kNormal) then [.start t.param.hash] else []

def startTask (m : UserSelfMgr) (id : String) (t : TaskBase) (a : Answer) :
    UserSelfMgr × DownloadErrorCode :=
  let (t', err) := t.start a.start
  ({ m.setTask id t' with engine := startCalls t a.start ++ m.engine }, err)

def resumeTask (m : UserSelfMgr) (id : String) (t : TaskBase) (a : Answer) : UserSelfMgr × Bool :=
  let (t', ret) := t.resume m.isBtAutoDownload a
  (m.setTask id t', ret)

def cancelCallback (t : TaskBase) (a : Answer) (realDelete : Bool) :
    (TaskBase × List EngineCall) × Bool :=
  let (t', ret) := t.exceCancel a realDelete
  ((t', if t.asksCancel realDelete then [.cancel t.param.hash a.cancel] else []), ret)

def releaseTask (m : UserSelfMgr) (t : TaskBase) (a : Answer) : UserSelfMgr × TaskBase × Bool :=
  let (refs, (t', calls), ret) := m.refs.release t.param.hash (cancelCallback t a)
  ({ m with refs, engine := calls ++ m.engine }, t', ret)

def cancel (m : UserSelfMgr) (id : String) (t : TaskBase) (a : Answer) : UserSelfMgr × Bool :=
  let (m, t, ret) := m.releaseTask t a
  (m.setTask id t, ret)

def erase (m : UserSelfMgr) (id : String) : UserSelfMgr :=
  { m with taskList := m.taskList.erase id }

def addTask (m : UserSelfMgr) (id : String) (t : TaskBase) : UserSelfMgr × Bool :=
  match m.findTask id with
  | some _ => (m, false)
  | none => ({ m.setTask id t with refs := m.refs.addRef t.param.hash }, true)

def tryResume (m : UserSelfMgr) (id : String) (t : TaskBase) (a : Answer) :
    UserSelfMgr × DownloadErrorCode :=
  if m.isCanStart then
    if t.isStarted then
      let (m, ret) := m.resumeTask id t a
      (m, if ret then .kNormal else .kResumeTaskFailed)
    else m.startTask id t a
  else (m.setTask id (t.setTaskStatus .kWaitting), .kNormal)

/-- `OnParseComplete` on the manager's own thread. The task found by its id is taken to be
a magnet task whatever it is. -/
def onParseComplete (m : UserSelfMgr) (msg : TaskBase.ParseMessage) (a : Answer) : UserSelfMgr :=
  match m.findTask msg.1 with
  | none => m
  | some t =>
    let t := { t with parseFinished := true, fileList := msg.2 }
    if m.isCanStart then
      if !m.isBtAutoDownload then m.setTask msg.1 ((t.pause a).1.setTaskStatus .kPaused)
      else m.setTask msg.1 (t.setTaskStatus .kDownloading)
    else m.setTask msg.1 ((t.pause a).1.setTaskStatus .kWaitting)

end UserSelfMgr

end Nas.Download
