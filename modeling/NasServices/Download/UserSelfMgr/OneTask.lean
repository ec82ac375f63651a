import NasServices.Download.Task.CurlTask
import NasServices.Download.UserSelfMgr.Limit

/-!
# One curl task of a manager

`CurlTask` repeats the operations of the manager for a single task. If the
engine of a listed curl task answers as `CurlDownloadTaskImpl` does (`answers`), a
round of the manager on this task leaves it as `CurlTask.act` says. There is one
lemma for each operation; `TaskRuns` puts them together.
-/

namespace Nas.Download

open NetCurl (Call CurlDownloadTaskImpl)

namespace CurlTask

def answer (s : CurlTask) (c : Call) : Answer :=
  { now := s.now
    resume := (s.impl.resume (s.task.taskStatus == .kFailed || !s.task.isValid) c).2
    start := (s.impl.start c).2 }

def answers (s : CurlTask) : Event → Answer
  | .resume _ c => if s.task.taskStatus = .kFailed then (s.retry c).answer c else s.answer c
  | .retry _ c => (s.retry c).answer c
  | .restore _ c =>
    if s.task.isValid = false then (s.retry c).answer c
    else if s.task.preStatus = .kFailed ∨ s.task.preStatus = .kSeeding then
      { now := s.now, resume := (s.impl.resume (s.task.preStatus == .kFailed || !s.task.isValid) c).2 }
    else (s.restore c).answer c
  | .tick l => s.answer l.call
  | _ => { now := s.now }

end CurlTask

namespace TaskBase

variable {t : TaskBase}

theorem restore_of_link (hbt : t.param.type.isBt = false) (b : Bool) (a : Answer) :
    t.restore b a = t.restore false a := by
  simp [restore, resume, hbt]

theorem restore_of_now (hpre : ¬ (t.preStatus = .kFailed ∨ t.preStatus = .kSeeding)) {b b' : Bool} {a a' : Answer}
    (hnow : a.now = a'.now) : t.restore b a = t.restore b' a' := by
  unfold restore
  cases hp : t.preStatus <;> simp [hp, setCreateTimeStamp, hnow] at hpre ⊢

end TaskBase

namespace UserSelfMgr

variable {m : UserSelfMgr} {id : String} {s : CurlTask}

/-! ## Calls of the engine -/

theorem resumeTask_findTask (hbt : s.task.param.type.isBt = false) (c : Call) :
    (m.resumeTask id s.task (s.answer c)).1.findTask id = some (s.resume c).task := by
  simp [resumeTask, TaskBase.resume_eq hbt, CurlTask.resume, CurlTask.answer]

theorem startTask_findTask (c : Call) :
    (m.startTask id s.task (s.answer c)).1.findTask id = some (s.start c).1.task := by
  simp only [startTask, CurlTask.start, CurlTask.answer]
  split
  · rename_i hst
    simp only [TaskBase.start, if_pos hst]
    exact findTask_setTask ..
  · exact findTask_setTask ..

theorem tryResume_findTask (hbt : s.task.param.type.isBt = false) (c : Call) :
    (m.tryResume id s.task (s.answer c)).1.findTask id = some (s.tryResume m.isCanStart c).task := by
  unfold tryResume CurlTask.tryResume
  split
  · split
    · exact resumeTask_findTask hbt c
    · exact startTask_findTask c
  · exact findTask_setTask ..

theorem retry_eq (s : CurlTask) (c : Call) :
    s.task.retry ((s.retry c).answer c) = ((s.retry c).task, s.task.hasImpl) := by
  simp only [TaskBase.retry, CurlTask.retry, CurlTask.answer]
  cases s.task.hasImpl <;> rfl

theorem retry_findTask (hbt : s.task.param.type.isBt = false) (ht : m.findTask id = some s.task) (c : Call) :
    ((m.setTask id (s.retry c).task).tryResume id (s.retry c).task ((s.retry c).answer c)).1.findTask id =
      some ((s.retry c).tryResume m.isCanStart c).task := by
  obtain ⟨hparam, hstatus, -⟩ := s.retry_task c
  have hcan : (m.setTask id (s.retry c).task).isCanStart = m.isCanStart :=
    isCanStart_setTask ht (by simp only [slot, hstatus])
  rw [← hcan]
  exact tryResume_findTask (by rw [hparam]; exact hbt) c

/-! ## Rounds -/

theorem execPauseOperate_findTask (ht : m.findTask id = some s.task) :
    (m.execPauseOperate id { now := s.now }).1.findTask id = some s.pauseTask.task := by
  simp only [execPauseOperate, ht, pauseTask, CurlTask.pauseTask]
  cases s.task.taskStatus <;> first | exact ht | exact findTask_setTask ..

theorem execResumeOperate_findTask (hbt : s.task.param.type.isBt = false) (ht : m.findTask id = some s.task)
    (c : Call) :
    (m.execResumeOperate id (s.answers (.resume m.isCanStart c))).1.findTask id =
      some (s.execResumeOperate m.isCanStart c).task := by
  have hmagnet : ¬ (s.task.param.type = .kMagnet ∧ s.task.isParseFinish = false) := by
    rintro ⟨h, -⟩
    rw [h] at hbt
    cases hbt
  simp only [execResumeOperate, ht, CurlTask.execResumeOperate, CurlTask.answers]
  cases hst : s.task.taskStatus with
  | kPaused =>
    rw [if_neg hmagnet, if_neg (by decide)]
    exact tryResume_findTask hbt c
  | kFailed =>
    simp only [if_true, retry_eq]
    cases himpl : s.task.hasImpl with
    | false => exact ht
    | true => exact retry_findTask hbt ht c
  | kFinished =>
    simp only [hbt, Bool.false_eq_true, if_false]
    exact ht
  | _ => exact ht

theorem setIsValid_findTask {t : TaskBase} (ht : m.findTask id = some t) :
    (m.setIsValid id).findTask id = some { t with isValid := true } := by
  simp only [setIsValid, ht, findTask_setTask]

theorem execRetryOperate_findTask (hbt : s.task.param.type.isBt = false) (ht : m.findTask id = some s.task)
    (c : Call) :
    (m.execRetryOperate id ((s.retry c).answer c)).1.findTask id =
      some (s.execRetryOperate m.isCanStart c).task := by
  simp only [execRetryOperate, ht, CurlTask.execRetryOperate, retry_eq]
  split
  · cases himpl : s.task.hasImpl with
    | false => exact setIsValid_findTask ht
    | true => exact setIsValid_findTask (retry_findTask hbt ht c)
  · exact ht

/-- `Restore` asks the engine only about a task that had failed or been seeding. -/
theorem restore_eq (hbt : s.task.param.type.isBt = false) (hvalid : s.task.isValid = true) (b isCanStart : Bool)
    (c : Call) : (s.task.restore b (s.answers (.restore isCanStart c))).1 = (s.restore c).task := by
  have hnow : (s.restore c).now = s.now := by
    unfold CurlTask.restore
    split <;> rfl
  by_cases hpre : s.task.preStatus = .kFailed ∨ s.task.preStatus = .kSeeding
  · rw [TaskBase.restore_of_link hbt]
    simp only [CurlTask.answers, hvalid, Bool.true_eq_false, if_false, if_pos hpre, CurlTask.restore]
    cases himpl : s.task.hasImpl with
    | false => simp [TaskBase.restore, himpl]
    | true => rw [if_pos ⟨rfl, hpre⟩]
  · rw [show s.restore c = { s with task := (s.task.restore false { now := s.now }).1 } from
      if_neg fun h => hpre h.2]
    refine congrArg Prod.fst (TaskBase.restore_of_now hpre ?_)
    simp only [CurlTask.answers, hvalid, Bool.true_eq_false, if_false, if_neg hpre, CurlTask.answer, hnow]

theorem execRestoreOperate_findTask (hbt : s.task.param.type.isBt = false) (ht : m.findTask id = some s.task)
    (hst : s.task.taskStatus = .kDeleted) (c : Call) :
    (m.execRestoreOperate id (s.answers (.restore m.isCanStart c))).1.findTask id =
      some (s.execRestoreOperate m.isCanStart c).task := by
  simp only [execRestoreOperate, ht, CurlTask.execRestoreOperate]
  cases hvalid : s.task.isValid with
  | false =>
    simp only [CurlTask.answers, hvalid, if_true, Bool.false_eq_true, if_false]
    exact execRetryOperate_findTask hbt ht c
  | true =>
    simp only [if_true, restore_eq hbt hvalid]
    by_cases hw : (s.restore c).task.taskStatus = .kWaitting
    · have hcan : (m.setTask id (s.restore c).task).isCanStart = m.isCanStart :=
        isCanStart_setTask ht (by simp [slot, hw, hst])
      have hpre : ¬ (s.task.preStatus = .kFailed ∨ s.task.preStatus = .kSeeding) := by
        intro hpre
        rw [← restore_eq hbt hvalid false m.isCanStart c] at hw
        rcases TaskBase.restore_resumes hbt hpre (s.answers (.restore m.isCanStart c)) with
          ⟨-, -, h, -⟩ | ⟨-, -, -, -, h⟩
        · exact h hst hw
        · exact h hw
      have hanswers : s.answers (.restore m.isCanStart c) = (s.restore c).answer c := by
        simp only [CurlTask.answers, hvalid, Bool.true_eq_false, if_false, if_neg hpre]
      have hbt' : (s.restore c).task.param.type.isBt = false := by
        rw [← restore_eq hbt hvalid false m.isCanStart c, (TaskBase.restore_totalProgress ..).1]
        exact hbt
      rw [hanswers, hcan]
      split
      · split
        · exact resumeTask_findTask hbt' c
        · exact startTask_findTask c
      · exact findTask_setTask ..
    · simp only [hw, false_and, if_false]
      exact findTask_setTask ..

theorem execDeleteOperate_findTask (ht : m.findTask id = some s.task)
    (hbin : s.task.taskCategory ≠ .kRecyclebinTask) (isDeleteLocalFile : Bool) (r : Reply) :
    (execDeleteOperate isDeleteLocalFile false (m, r) id { now := s.now }).1.findTask id =
      some s.deleteToRecycleBin.task := by
  simp only [execDeleteOperate, ht, CurlTask.deleteToRecycleBin, Bool.false_and, Bool.false_eq_true, if_false,
    if_neg hbin]
  unfold TaskBase.deleteToRecycleBin
  cases himpl : s.task.hasImpl with
  | false => exact ht
  | true => simp

theorem checkLimit_findTask {k : LimitCheck} (hbt : s.task.param.type.isBt = false)
    (ht : k.mgr.findTask id = some s.task) {l : CurlTask.Tick}
    (hlimit : l.isOverLimit = decide (k.mgr.taskLimitCount < k.downloadingCount + 1))
    (hcan : l.isCanStart = k.mgr.isCanStart) :
    (checkLimit k id (s.answer l.call)).mgr.findTask id = some (s.checkLimit l).task := by
  simp only [checkLimit, ht, CurlTask.checkLimit, hlimit, hcan, decide_eq_true_eq]
  split
  · split
    · exact findTask_setTask ..
    · exact ht
  · split
    · rw [wake_findTask, woken]
      split
      · exact congrArg some (by simp [CurlTask.resume, CurlTask.answer, TaskBase.resume_eq hbt])
      · rename_i hst
        rw [show (s.answer l.call).start = (s.impl.start l.call).2 from rfl]
        simp only [CurlTask.start, if_neg hst]
        by_cases herr : (s.task.start (s.impl.start l.call).2).2 ≠ .kNormal
        · rw [if_pos herr, if_pos herr]
        · rw [if_neg herr, if_neg herr]
    · exact ht

theorem checkTask_findTask (ht : m.findTask id = some s.task) (l : CurlTask.Tick) :
    (m.checkTask id (l.answer (s.checkTask l).impl)).findTask id = some (s.checkTask l).task := by
  simp only [checkTask, ht, findTask_setTask, CurlTask.checkTask]

end UserSelfMgr

end Nas.Download
