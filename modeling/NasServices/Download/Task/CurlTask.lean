import NasServices.Download.Task.TaskBase
import NasServices.Lib.Run
import NasServices.NetCurl.CurlDownloadTaskImpl

/-!
# A curl task and its engine

`TaskBase` leaves the answers of the engine open. Here they are those of a
`CurlDownloadTaskImpl`: a `CurlTask` is a task with its engine, the `ReStart`
closures it has posted and the clock. The operations of the manager on one
task are repeated for it, with the branches a curl task can take. What they
decide by looking at the other tasks of the user is an argument: whether a
task may be started now (`IsCanStart`), and whether it is one too many.

The events are these operations, the steps of the transfer thread, the runner
coming to a posted `ReStart`, and time.
-/

namespace Nas.Download

open NetCurl (Call Result CurlDownloadTaskImpl)

/-! ## Link tasks -/

namespace TaskBase

variable {t : TaskBase} {a : Answer}

theorem resume_eq (hbt : t.param.type.isBt = false) (b : Bool) (a : Answer) :
    t.resume b a =
      if a.resume then ({ t.setTaskStatus .kDownloading with isValid := true }, true) else (t, false) := by
  simp [resume, hbt]

theorem start_eq (hbt : t.param.type.isBt = false) (hst : t.isStarted = false) (ret : DownloadErrorCode) :
    t.start ret =
      (if ret = .kNormal then { t.setTaskStatus .kDownloading with isStarted := true, isValid := true }
        else t.setTaskStatus .kDownloading, ret) := by
  unfold start
  rw [if_neg (by simp [hst]), if_neg (by simp [hbt])]
  split <;> rfl

theorem checkInvalidTask_eq (t : TaskBase) (a : Answer) :
    t.checkInvalidTask a = t ∨ t.isStarted = true ∧ t.checkInvalidTask a = { t with isValid := false } := by
  unfold checkInvalidTask
  split
  · rename_i h
    simp only [Bool.and_eq_true] at h
    exact .inr ⟨h.1.1, rfl⟩
  · exact .inl rfl

/-- A round of a tick, for a link task: an error that is known fails it; what is downloading asks for
its progress; the files of what is finished or deleted are looked for. -/
theorem checkTask_cases (hbt : t.param.type.isBt = false) (a : Answer) :
    (t.taskStatus ≠ .kFailed ∧ t.taskStatus ≠ .kDeleted ∧ t.taskStatus ≠ .kFinished ∧ t.errCode ≠ .kNormal) ∧
        t.checkTask a = t.setTaskStatus .kFailed ∨
      (t.taskStatus = .kDownloading ∨ t.taskStatus = .kChecking) ∧ t.errCode = .kNormal ∧
        t.checkTask a = t.updateProgressInfo a ∨
      (t.taskStatus ≠ .kDownloading ∧ t.taskStatus ≠ .kChecking) ∧
        (t.checkTask a = t ∨ t.isStarted = true ∧ t.checkTask a = { t with isValid := false }) := by
  by_cases herr : t.taskStatus ≠ .kFailed ∧ t.taskStatus ≠ .kDeleted ∧ t.taskStatus ≠ .kFinished ∧
      t.errCode ≠ .kNormal
  · exact .inl ⟨herr, by rw [checkTask, checkTaskIsFailed, if_pos herr]⟩
  · have hpass (hne : t.taskStatus ≠ .kFailed) : t.checkTaskIsFailed = (t, true) := by
      rw [checkTaskIsFailed, if_neg herr, bne_iff_ne.mpr hne]
    refine .inr ?_
    cases hst : t.taskStatus with
    | kDownloading =>
      exact .inl ⟨.inl rfl, by simpa [hst] using herr, by simp [checkTask, hpass, hst]⟩
    | kChecking =>
      exact .inl ⟨.inr rfl, by simpa [hst] using herr, by simp [checkTask, hpass, hst]⟩
    | kSeeding | kFinished | kDeleted =>
      refine .inr ⟨by decide, ?_⟩
      rw [show t.checkTask a = t.checkInvalidTask a by simp [checkTask, hpass, hst, hbt], ← hst]
      exact t.checkInvalidTask_eq a
    | kFailed => exact .inr ⟨by decide, .inl (by simp [checkTask, checkTaskIsFailed, hst])⟩
    | _ => exact .inr ⟨by decide, .inl (by simp [checkTask, hpass, hst])⟩

theorem restore_aside (hpre : t.hasImpl = true → ¬ (t.preStatus = .kFailed ∨ t.preStatus = .kSeeding)) (a : Answer) :
    (t.restore false a).1.param = t.param ∧
      (t.taskStatus = .kDeleted → (t.restore false a).1.taskStatus ≠ .kDownloading) ∧
      (t.taskStatus = .kDeleted → (t.restore false a).1.taskStatus = .kWaitting →
        t.preStatus = .kWaitting ∨ t.preStatus = .kDownloading) ∧
      (t.restore false a).1.isValid = t.isValid ∧ (t.restore false a).1.isStarted = t.isStarted := by
  unfold restore
  split
  · exact ⟨rfl, fun h => by simp [h], fun h => by simp [h], rfl, rfl⟩
  · rename_i himpl
    have hpre := hpre (by simpa using himpl)
    cases hp : t.preStatus with
    | kFailed => exact absurd (.inl hp) hpre
    | kSeeding => exact absurd (.inr hp) hpre
    | kWaitting | kDownloading => exact ⟨rfl, fun _ => by simp [setCreateTimeStamp], fun _ _ => by simp, rfl, rfl⟩
    | kFinished | kParsing | kPaused =>
      exact ⟨rfl, fun _ => by simp [setCreateTimeStamp], fun _ h => by simp [setCreateTimeStamp] at h, rfl, rfl⟩
    | kDeleted | kCompletedDeleted | kChecking =>
      dsimp only
      split <;> exact ⟨rfl, fun _ => by simp, fun _ h => by simp at h, rfl, rfl⟩

/-- `Restore` of a task that had failed or been seeding: it is downloading if it had failed and the
engine resumes it. -/
theorem restore_resumes (hbt : t.param.type.isBt = false)
    (hpre : t.preStatus = .kFailed ∨ t.preStatus = .kSeeding) (a : Answer) :
    ((t.restore false a).1.param = t.param ∧
      (t.taskStatus = .kDeleted → (t.restore false a).1.taskStatus ≠ .kDownloading) ∧
      (t.taskStatus = .kDeleted → (t.restore false a).1.taskStatus ≠ .kWaitting) ∧
      ((t.restore false a).1.isValid = false → t.isValid = false) ∧
      (t.restore false a).1.isStarted = t.isStarted) ∨
    (t.preStatus = .kFailed ∧ a.resume = true ∧ (t.restore false a).1.param = t.param ∧
      (t.restore false a).1.isValid = true ∧ (t.restore false a).1.taskStatus ≠ .kWaitting) := by
  unfold restore
  split
  · exact .inl ⟨rfl, fun h => by simp [h], fun h => by simp [h], fun h => h, rfl⟩
  · rcases hpre with hp | hp <;> simp only [hp]
    · have hfailed : { t.setTaskStatus .kFailed with taskCategory := .kDownloadingTask }.param.type.isBt = false := hbt
      rw [resume_eq hfailed]
      cases hr : a.resume with
      | false => exact .inl ⟨rfl, fun _ => by simp [setCreateTimeStamp], fun _ => by simp [setCreateTimeStamp],
          fun h => h, rfl⟩
      | true => exact .inr ⟨trivial, rfl, rfl, rfl, by simp [setCreateTimeStamp]⟩
    · rw [resume_eq hbt]
      refine .inl ⟨?_, fun _ => by simp, fun _ => by simp, ?_, ?_⟩ <;> cases a.resume <;> simp [setTaskStatus]

theorem checkTask_of_errCode (hst : t.taskStatus ≠ .kFailed ∧ t.taskStatus ≠ .kDeleted ∧ t.taskStatus ≠ .kFinished)
    (herr : t.errCode ≠ .kNormal) (a : Answer) : t.checkTask a = t.setTaskStatus .kFailed := by
  rw [checkTask, checkTaskIsFailed, if_pos ⟨hst.1, hst.2.1, hst.2.2, herr⟩]

theorem restore_totalProgress (t : TaskBase) (a : Answer) :
    (t.restore false a).1.param = t.param ∧ (t.restore false a).1.totalProgress = t.totalProgress := by
  have hresume (t : TaskBase) : (t.resume false a).1.param = t.param ∧
      (t.resume false a).1.totalProgress = t.totalProgress := by
    unfold resume
    split_ifs <;> exact ⟨rfl, rfl⟩
  unfold restore
  split
  · exact ⟨rfl, rfl⟩
  · split
    case h_5 => exact hresume { t.setTaskStatus .kFailed with taskCategory := .kDownloadingTask }
    case h_4 => exact hresume t
    case h_8 => split <;> exact ⟨rfl, rfl⟩
    all_goals exact ⟨rfl, rfl⟩

theorem resumeDataFromDb_link {param : TaskParam} (hbt : param.type.isBt = false) (r : Row) (a : Answer) :
    (resumeDataFromDb r param a).param = param ∧ (resumeDataFromDb r param a).taskStatus = r.taskStatus ∧
      (resumeDataFromDb r param a).isValid = true ∧
      (resumeDataFromDb r param a).totalProgress = r.totalProgress.floor := by
  simp only [resumeDataFromDb, hbt, Bool.false_eq_true, if_false]
  split_ifs <;> exact ⟨rfl, rfl, rfl, rfl⟩

/-- What a link task takes over from its engine. -/
theorem updateProgressInfo_eq (hbt : t.param.type.isBt = false) (a : Answer) :
    t.updateProgressInfo a =
      if 100 - a.totalProgress < 1 / 10000 then
        { t with totalProgress := a.totalProgress, errCode := a.errCode }.setFinished a
      else { t with totalProgress := a.totalProgress, errCode := a.errCode } := by
  simp [updateProgressInfo, hbt, isDownloadFinished]

end TaskBase

structure CurlTask where
  task : TaskBase
  impl : CurlDownloadTaskImpl := {}
  /-- How many `ReStart` closures are waiting on the runner. -/
  posted : Nat := 0
  now : Nat := 0

namespace CurlTask

/-! ## Calls of the engine -/

def pause (s : CurlTask) : CurlTask :=
  { s with task := (s.task.pause { pause := true }).1, impl := s.impl.pause s.now }

def resume (s : CurlTask) (c : Call) : CurlTask :=
  let (impl, ret) := s.impl.resume (s.task.taskStatus == .kFailed || !s.task.isValid) c
  { s with task := (s.task.resume false { resume := ret }).1, impl, posted := s.posted + 1 }

def start (s : CurlTask) (c : Call) : CurlTask × DownloadErrorCode :=
  if s.task.isStarted then (s, .kNormal)
  else
    let (impl, ret) := s.impl.start c
    ({ s with task := (s.task.start ret).1, impl }, (s.task.start ret).2)

def retry (s : CurlTask) (c : Call) : CurlTask :=
  { s with task := (s.task.retry { now := s.now }).1, impl := s.impl.reset c }

theorem retry_task (s : CurlTask) (c : Call) :
    (s.retry c).task.param = s.task.param ∧ (s.retry c).task.taskStatus = s.task.taskStatus ∧
      (s.retry c).task.isValid = s.task.isValid ∧ (s.retry c).task.isStarted = s.task.isStarted := by
  unfold retry TaskBase.retry
  split <;> exact ⟨rfl, rfl, rfl, rfl⟩

def restore (s : CurlTask) (c : Call) : CurlTask :=
  if s.task.hasImpl ∧ (s.task.preStatus = .kFailed ∨ s.task.preStatus = .kSeeding) then
    let (impl, ret) := s.impl.resume (s.task.preStatus == .kFailed || !s.task.isValid) c
    { s with
      task := (s.task.restore false { resume := ret, now := s.now }).1, impl, posted := s.posted + 1 }
  else { s with task := (s.task.restore false { now := s.now }).1 }

/-- The engine is not asked about a task that has failed. -/
def deleteToRecycleBin (s : CurlTask) : CurlTask :=
  { s with
    task := (s.task.deleteToRecycleBin { pause := true, now := s.now }).1
    impl := if s.task.hasImpl ∧ s.task.taskStatus ≠ .kFailed then s.impl.pause s.now else s.impl }

/-! ## Operations of the manager -/

def pauseTask (s : CurlTask) : CurlTask :=
  match s.task.taskStatus with
  | .kDownloading => s.pause
  | .kWaitting | .kParsing => { s with task := s.task.setTaskStatus .kPaused }
  | .kSeeding => { s.pause with task := s.pause.task.setTaskStatus .kFinished }
  | _ => s

def tryResume (s : CurlTask) (isCanStart : Bool) (c : Call) : CurlTask :=
  if isCanStart then if s.task.isStarted then s.resume c else (s.start c).1
  else { s with task := s.task.setTaskStatus .kWaitting }

def execResumeOperate (s : CurlTask) (isCanStart : Bool) (c : Call) : CurlTask :=
  match s.task.taskStatus with
  | .kPaused => s.tryResume isCanStart c
  | .kFailed => if s.task.hasImpl then (s.retry c).tryResume isCanStart c else s
  | _ => s

def execRetryOperate (s : CurlTask) (isCanStart : Bool) (c : Call) : CurlTask :=
  if s.task.taskStatus = .kFailed ∨ s.task.isValid = false then
    let s := if s.task.hasImpl then (s.retry c).tryResume isCanStart c else s
    { s with task := { s.task with isValid := true } }
  else s

def execRestoreOperate (s : CurlTask) (isCanStart : Bool) (c : Call) : CurlTask :=
  if s.task.isValid then
    let s := s.restore c
    if s.task.taskStatus = .kWaitting ∧ isCanStart then
      if s.task.isStarted then s.resume c else (s.start c).1
    else s
  else s.execRetryOperate isCanStart c

structure Tick where
  /-- The task is downloading and one too many. -/
  isOverLimit : Bool := false
  isCanStart : Bool := false
  isValid : Bool := true
  call : Call := {}

def checkLimit (s : CurlTask) (l : Tick) : CurlTask :=
  if s.task.taskStatus = .kDownloading then
    if l.isOverLimit then { s.pause with task := s.pause.task.setTaskStatus .kWaitting } else s
  else if s.task.taskStatus = .kWaitting ∧ l.isCanStart then
    if s.task.isStarted then s.resume l.call
    else
      let (s, err) := s.start l.call
      if err ≠ .kNormal then { s with task := { s.task with errCode := err } } else s
  else s

def Tick.answer (l : Tick) (impl : CurlDownloadTaskImpl) : Answer :=
  { valid := l.isValid, totalProgress := impl.totalProgress, errCode := impl.errCode }

def checkTask (s : CurlTask) (l : Tick) : CurlTask :=
  let impl :=
    if (s.task.taskStatus = .kDownloading ∨ s.task.taskStatus = .kChecking) ∧ s.task.errCode = .kNormal then
      s.impl.getProgressInfo s.task.totalProgress
    else s.impl
  { s with task := s.task.checkTask (l.answer impl), impl }

def tick (s : CurlTask) (l : Tick) : CurlTask := (s.checkLimit l).checkTask l

/-! ## Events -/

/-- A create request for a link that is accepted: the task is started if it may be, listed unless
that fails, and parsed. -/
def create (param : TaskParam) (isCanStart : Bool) (c : Call) (parseLink : DownloadErrorCode) (now : Nat) :
    Option CurlTask :=
  let s : CurlTask := { task := { param }, now }
  let (s, err) := if isCanStart then s.start c else (s, .kNormal)
  if err ≠ .kNormal then none else some { s with task := s.task.linkParse { parseLink } }

theorem create_cases {param : TaskParam} {isCanStart : Bool} {c : Call} {parseLink : DownloadErrorCode} {now : Nat}
    {s : CurlTask} (h : create param isCanStart c parseLink now = some s) :
    ∃ s', (s' = { task := { param }, now } ∨ start { task := { param }, now } c = (s', .kNormal)) ∧
      s = { s' with task := s'.task.linkParse { parseLink } } := by
  simp only [create] at h
  cases isCanStart with
  | false =>
    simp only [Bool.false_eq_true, if_false, ne_eq, not_true_eq_false, Option.some.injEq] at h
    exact ⟨_, .inl rfl, h.symm⟩
  | true =>
    rw [if_pos rfl] at h
    rcases hres : start { task := { param }, now } c with ⟨s', err⟩
    rw [hres] at h
    dsimp only at h
    by_cases herr : err = .kNormal
    · rw [if_neg (by simpa using herr)] at h
      exact ⟨s', .inr (by rw [herr]), (Option.some.inj h).symm⟩
    · rw [if_pos herr] at h
      cases h

def reload (s : CurlTask) (row : TaskBase.Row) (c : Call) : CurlTask :=
  let impl : CurlDownloadTaskImpl := { inPlace := s.impl.inPlace }
  let (impl, ret) := if row.taskStatus = .kDownloading then impl.resumeBreakPoint c else (impl, false)
  { task := TaskBase.resumeDataFromDb row s.task.param { resumeBreakPoint := ret }, impl, now := s.now }

inductive Event
  | pause
  | resume (isCanStart : Bool) (c : Call)
  | retry (isCanStart : Bool) (c : Call)
  | restore (isCanStart : Bool) (c : Call)
  | delete
  | tick (l : Tick)
  | reStart (c : Call)
  | progress (dltotal dlnow : Nat) (elapsed : Bool := true)
  | finish (r : Result) (fileSize : Nat)
  | wait (seconds : Nat)
  | restart (row : TaskBase.Row) (c : Call)

/-- An event in a running process. A request to restore is for tasks in the recycle bin, and to
delete one of these ends it. -/
def act (s : CurlTask) : Event → CurlTask
  | .pause => s.pauseTask
  | .resume isCanStart c => s.execResumeOperate isCanStart c
  | .retry isCanStart c => s.execRetryOperate isCanStart c
  | .restore isCanStart c =>
    if s.task.taskStatus = .kDeleted then s.execRestoreOperate isCanStart c else s
  | .delete => if s.task.taskCategory = .kRecyclebinTask then s else s.deleteToRecycleBin
  | .tick l => s.tick l
  | .reStart c =>
    if 0 < s.posted then { s with posted := s.posted - 1, impl := s.impl.tryReStart s.now c } else s
  | .progress dltotal dlnow elapsed => { s with impl := s.impl.progress dltotal dlnow elapsed }
  | .finish r fileSize => { s with impl := s.impl.finish r fileSize }
  | .wait seconds => { s with now := s.now + seconds }
  | .restart row c => s.reload row c

/-- One event. A process that has been terminated only starts again. -/
def step (s : CurlTask) (e : Event) : CurlTask :=
  match e with
  | .restart row c => s.reload row c
  | e => if s.impl.terminated then s else s.act e

def startedLink : CurlTask where
  task := { param := { id := "1", url := "http://a/f", type := .kHttp }, taskStatus := .kDownloading, isStarted := true }
  impl := { httpTask := { thread := .running 3 false, isFileOpen := true }, isStarted := true }
  now := 1000

theorem create_startedLink : create startedLink.task.param true {} .kNormal 1000 = some startedLink := rfl

end CurlTask

end Nas.Download
