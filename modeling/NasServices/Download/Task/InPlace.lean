import Mathlib.Tactic.Linarith
import NasServices.Download.Task.CurlTask

/-!
# A finished task has its file

`UpdateProgressInfo` takes a download for finished when it lacks less than a ten
thousandth of a percent, and the engine reports a hundred percent only after
`RenameTempFile`. The two agree unless a transfer reports a percentage between
the two bounds, which it can do for files of more than a million bytes, or a row
says so of a task whose file is not there. Without these a tick finishes a task
only when its file is in place, and an error that comes before that fails the
task (`run_finished_inPlace`).
-/

namespace Nas.NetCurl

def isComplete (percent : ℚ) : Bool := decide (100 - percent < 1 / 10000)

theorem isComplete_zero : isComplete 0 = false := by decide +kernel

/-- Of a million bytes or fewer, all but one are not taken for the whole file. -/
theorem isComplete_of_small {got total : Nat} (htotal : total ≤ 1000000) (hlt : (got * 100 : ℚ) / total < 100) :
    isComplete ((got * 100 : ℚ) / total) = false := by
  rcases Nat.eq_zero_or_pos total with rfl | hpos
  · rw [Nat.cast_zero, div_zero]
    exact isComplete_zero
  · have hpos' : (0 : ℚ) < total := by exact_mod_cast hpos
    have hsmall : (total : ℚ) ≤ 1000000 := by exact_mod_cast htotal
    have hgot : (got : ℚ) + 1 ≤ total := by
      rw [div_lt_iff₀ hpos'] at hlt
      have : (got : ℚ) < total := by linarith
      exact_mod_cast this
    have hgap : (got * 100 : ℚ) / total ≤ 100 - 1 / 10000 := by
      rw [div_le_iff₀ hpos']
      linarith
    exact decide_eq_false (by linarith)

theorem updateProgress_small {h : HttpDownloadTask} {dltotal dlnow : Nat}
    (htotal : (h.updateProgress dltotal dlnow).1.fileTotalSize ≤ 1000000)
    (hlt : (h.updateProgress dltotal dlnow).2 < 100) : isComplete (h.updateProgress dltotal dlnow).2 = false := by
  unfold HttpDownloadTask.updateProgress at htotal hlt ⊢
  split at htotal
  · rename_i hzero
    rw [if_pos hzero]
    exact isComplete_zero
  · rename_i hzero
    rw [if_neg hzero] at hlt ⊢
    have hcast : ((dlnow : ℚ) + h.fileInitSize) = ((dlnow + h.fileInitSize : Nat) : ℚ) := by push_cast; rfl
    rw [hcast] at hlt ⊢
    exact isComplete_of_small htotal hlt

namespace CurlDownloadTaskImpl

variable {e e' e'' : CurlDownloadTaskImpl}

def Honest (e : CurlDownloadTaskImpl) : Prop := isComplete e.totalProgress = true → e.inPlace = true

/-- The engine stays honest, and a file that is in place stays there. -/
structure Keeps (e e' : CurlDownloadTaskImpl) : Prop where
  honest : e.Honest → e'.Honest
  inPlace : e.inPlace = true → e'.inPlace = true

theorem Keeps.trans (h : Keeps e e') (h' : Keeps e' e'') : Keeps e e'' :=
  ⟨fun he => h'.honest (h.honest he), fun he => h'.inPlace (h.inPlace he)⟩

theorem Keeps.of_eq (hp : e'.totalProgress = e.totalProgress) (hi : e'.inPlace = e.inPlace) : Keeps e e' :=
  ⟨fun he h => hi ▸ he (hp ▸ h), fun he => hi ▸ he⟩

theorem taskResult_keeps (e : CurlDownloadTaskImpl) (r : Result) : Keeps e (e.taskResult r) := by
  unfold taskResult
  split
  · exact .of_eq rfl rfl
  · split
    · refine ⟨fun he h => ?_, fun he => he⟩
      dsimp only at h
      split at h
      · rw [isComplete_zero] at h
        cases h
      · exact he h
    · unfold renameTempFile
      split
      · exact ⟨fun _ _ => rfl, fun _ => rfl⟩
      · exact .of_eq rfl rfl

theorem leave_keeps (e : CurlDownloadTaskImpl) (r : Result) : Keeps e (e.leave r) := by
  have hdone : Keeps e { e with httpTask := { e.httpTask with thread := .done, isFileOpen := false } } :=
    .of_eq rfl rfl
  exact hdone.trans (taskResult_keeps _ r)

theorem waitThreadQuit_keeps (e : CurlDownloadTaskImpl) (r : Result) : Keeps e (e.waitThreadQuit r) := by
  unfold waitThreadQuit
  split
  · exact leave_keeps e r
  · exact .of_eq rfl rfl

theorem httpReset_keeps (e : CurlDownloadTaskImpl) (c : Call) : Keeps e (e.httpReset c) :=
  .trans (waitThreadQuit_keeps e c.result) (.of_eq rfl rfl)

theorem start_keeps (e : CurlDownloadTaskImpl) (c : Call) : Keeps e (e.start c).1 := by
  unfold start
  split <;> exact .of_eq rfl rfl

theorem resumeBreakPoint_keeps (e : CurlDownloadTaskImpl) (c : Call) : Keeps e (e.resumeBreakPoint c).1 := by
  unfold resumeBreakPoint
  split
  · exact .of_eq rfl rfl
  · rename_i h _
    split
    · have hfile : Keeps e { e with httpTask := h } := .of_eq rfl rfl
      exact (hfile.trans (httpReset_keeps _ c)).trans (.of_eq rfl rfl)
    · exact .of_eq rfl rfl

theorem resume_keeps (e : CurlDownloadTaskImpl) (isFailed : Bool) (c : Call) : Keeps e (e.resume isFailed c).1 := by
  have hbreak := resumeBreakPoint_keeps e c
  unfold resume
  split
  · exact hbreak
  · split
    · split
      · rename_i heq
        rw [heq] at hbreak
        exact hbreak.trans (.of_eq rfl rfl)
      · rename_i heq
        rw [heq] at hbreak
        exact hbreak
    · exact .of_eq rfl rfl

theorem tryReStart_keeps (e : CurlDownloadTaskImpl) (now : Nat) (c : Call) : Keeps e (e.tryReStart now c) := by
  unfold tryReStart
  split
  · have hinit : Keeps e (e.initTask c) := (waitThreadQuit_keeps e c.result).trans (.of_eq rfl rfl)
    exact hinit.trans (start_keeps _ c)
  · exact .of_eq rfl rfl

theorem finish_keeps (e : CurlDownloadTaskImpl) (r : Result) (fileSize : Nat) : Keeps e (e.finish r fileSize) := by
  unfold finish
  split
  · split
    · exact leave_keeps e r
    · exact .of_eq rfl rfl
    · exact .of_eq rfl rfl
  · exact .of_eq rfl rfl

/-- A percentage that is stored is not taken for the whole file. -/
theorem progress_keeps {dltotal dlnow : Nat} {elapsed : Bool}
    (h : HttpDownloadTask.isReported dltotal dlnow elapsed → (e.httpTask.updateProgress dltotal dlnow).2 < 100 →
      isComplete (e.httpTask.updateProgress dltotal dlnow).2 = false) :
    Keeps e (e.progress dltotal dlnow elapsed) := by
  unfold progress taskProgress
  split
  · dsimp only
    split
    · rename_i hreported
      split
      · rename_i hlt
        refine ⟨fun _ hc => ?_, fun he => he⟩
        rw [h hreported hlt] at hc
        cases hc
      · exact .of_eq rfl rfl
    · exact .of_eq rfl rfl
  · exact .of_eq rfl rfl

theorem reset_honest (e : CurlDownloadTaskImpl) (c : Call) : (e.reset c).Honest := by
  refine (httpReset_keeps _ c).honest fun h => ?_
  rw [isComplete_zero] at h
  cases h

end CurlDownloadTaskImpl

end Nas.NetCurl

namespace Nas.Download

open NetCurl (Call Result HttpDownloadTask CurlDownloadTaskImpl isComplete)
open Lib (Along run)

theorem TaskBase.checkTask_kFinished {t : TaskBase} {a : Answer} (hbt : t.param.type.isBt = false)
    (hne : t.taskStatus ≠ .kFinished) (h : (t.checkTask a).taskStatus = .kFinished) :
    isComplete (t.checkTask a).totalProgress = true := by
  rcases t.checkTask_cases hbt a with ⟨-, heq⟩ | ⟨hst, -, heq⟩ | ⟨-, heq | ⟨-, heq⟩⟩ <;> rw [heq] at h ⊢
  · cases h
  · rw [updateProgressInfo_eq hbt] at h ⊢
    split
    · rename_i hc
      exact decide_eq_true hc
    · rename_i hc
      rw [if_neg hc] at h
      exact absurd h hne
  · exact absurd h hne
  · exact absurd h hne

namespace CurlTask

variable {s s' : CurlTask} {c : Call}

def FinishesInPlace (s : CurlTask) : Event → Prop
  | .tick l =>
    s.task.taskStatus ≠ .kFinished → (s.tick l).task.taskStatus = .kFinished → (s.tick l).impl.inPlace = true
  | _ => True

/-- An error of a download whose file is not in place fails the task at the next tick but one. -/
def ReportsErrors (s : CurlTask) : Prop :=
  s.task.taskStatus = .kDownloading → s.impl.errCode ≠ .kNormal → s.impl.inPlace = false →
    ∀ l l' : Tick, l.isOverLimit = false → ((s.tick l).tick l').task.taskStatus = .kFailed

/-- No transfer reports a percentage that is taken for the whole file, and no row is taken for a
whole file that is not there. -/
def Gapless (s : CurlTask) : Event → Prop
  | .progress dltotal dlnow elapsed =>
    HttpDownloadTask.isReported dltotal dlnow elapsed → (s.impl.httpTask.updateProgress dltotal dlnow).2 < 100 →
      isComplete (s.impl.httpTask.updateProgress dltotal dlnow).2 = false
  | .restart row _ => isComplete row.totalProgress.floor = true → s.impl.inPlace = true
  | _ => True

/-- A download of a million bytes or fewer meets this at every report. -/
theorem gapless_of_small {dltotal dlnow : Nat} {elapsed : Bool}
    (h : (s.impl.httpTask.updateProgress dltotal dlnow).1.fileTotalSize ≤ 1000000) :
    s.Gapless (.progress dltotal dlnow elapsed) :=
  fun _ => NetCurl.updateProgress_small h

structure Faithful (s : CurlTask) : Prop where
  notBt : s.task.param.type.isBt = false
  honest : s.impl.Honest
  task : isComplete s.task.totalProgress = true → s.impl.inPlace = true

structure Leaves (s s' : CurlTask) : Prop where
  param : s'.task.param = s.task.param
  totalProgress : s'.task.totalProgress = s.task.totalProgress
  impl : s.impl.Keeps s'.impl

theorem Faithful.leaves (hs : s.Faithful) (h : Leaves s s') : s'.Faithful where
  notBt := by rw [h.param]; exact hs.notBt
  honest := h.impl.honest hs.honest
  task hc := h.impl.inPlace (hs.task (h.totalProgress ▸ hc))

theorem Leaves.trans {s'' : CurlTask} (h : Leaves s s') (h' : Leaves s' s'') : Leaves s s'' :=
  ⟨h'.param.trans h.param, h'.totalProgress.trans h.totalProgress, h.impl.trans h'.impl⟩

theorem Leaves.refl (s : CurlTask) : Leaves s s := ⟨rfl, rfl, .of_eq rfl rfl⟩

theorem pause_leaves (s : CurlTask) : Leaves s s.pause := ⟨rfl, rfl, .of_eq rfl rfl⟩

theorem resume_leaves (s : CurlTask) (c : Call) : Leaves s (s.resume c) := by
  refine ⟨?_, ?_, CurlDownloadTaskImpl.resume_keeps ..⟩
  all_goals
    simp only [resume, TaskBase.resume]
    split_ifs <;> rfl

theorem start_leaves (s : CurlTask) (c : Call) : Leaves s (s.start c).1 := by
  unfold start
  split
  · exact .refl s
  · refine ⟨?_, ?_, CurlDownloadTaskImpl.start_keeps ..⟩
    all_goals
      simp only [TaskBase.start]
      split_ifs <;> rfl

theorem setTask_leaves (s : CurlTask) {t : TaskBase} (hp : t.param = s.task.param)
    (ht : t.totalProgress = s.task.totalProgress) : Leaves s { s with task := t } :=
  ⟨hp, ht, .of_eq rfl rfl⟩

theorem tryResume_leaves (s : CurlTask) (isCanStart : Bool) (c : Call) : Leaves s (s.tryResume isCanStart c) := by
  unfold tryResume
  split
  · split
    · exact resume_leaves s c
    · exact start_leaves s c
  · exact setTask_leaves s rfl rfl

theorem restore_leaves (s : CurlTask) (c : Call) : Leaves s (s.restore c) := by
  unfold restore
  split
  · obtain ⟨hparam, hprogress⟩ := s.task.restore_totalProgress
      { resume := (s.impl.resume (s.task.preStatus == .kFailed || !s.task.isValid) c).2, now := s.now }
    exact ⟨hparam, hprogress, CurlDownloadTaskImpl.resume_keeps ..⟩
  · obtain ⟨hparam, hprogress⟩ := s.task.restore_totalProgress { now := s.now }
    exact setTask_leaves s hparam hprogress

theorem pauseTask_leaves (s : CurlTask) : Leaves s s.pauseTask := by
  unfold pauseTask
  split
  · exact pause_leaves s
  · exact setTask_leaves s rfl rfl
  · exact setTask_leaves s rfl rfl
  · exact (pause_leaves s).trans (setTask_leaves _ rfl rfl)
  · exact .refl s

theorem deleteToRecycleBin_leaves (s : CurlTask) : Leaves s s.deleteToRecycleBin := by
  unfold deleteToRecycleBin
  refine ⟨?_, ?_, ?_⟩
  · unfold TaskBase.deleteToRecycleBin
    dsimp only
    split_ifs <;> rfl
  · unfold TaskBase.deleteToRecycleBin
    dsimp only
    split_ifs <;> rfl
  · dsimp only
    split
    · exact .of_eq rfl rfl
    · exact .of_eq rfl rfl

theorem checkLimit_leaves (s : CurlTask) (l : Tick) : Leaves s (s.checkLimit l) := by
  unfold checkLimit
  split
  · split
    · exact (pause_leaves s).trans (setTask_leaves _ rfl rfl)
    · exact .refl s
  · split
    · split
      · exact resume_leaves s l.call
      · have hstart := start_leaves s l.call
        dsimp only
        split
        · exact hstart.trans (setTask_leaves _ rfl rfl)
        · exact hstart
    · exact .refl s

/-! ## Operations that change the progress -/

theorem retry_faithful (hs : s.Faithful) (himpl : s.task.hasImpl = true) (c : Call) : (s.retry c).Faithful := by
  refine ⟨by rw [(s.retry_task c).1]; exact hs.notBt, CurlDownloadTaskImpl.reset_honest s.impl c, fun h => ?_⟩
  have hzero : (s.retry c).task.totalProgress = 0 := by
    simp [retry, TaskBase.retry, himpl]
  rw [hzero, NetCurl.isComplete_zero] at h
  cases h

theorem execResumeOperate_faithful (hs : s.Faithful) (isCanStart : Bool) (c : Call) :
    (s.execResumeOperate isCanStart c).Faithful := by
  unfold execResumeOperate
  split
  · exact hs.leaves (tryResume_leaves s isCanStart c)
  · split
    · rename_i himpl
      exact (retry_faithful hs himpl c).leaves (tryResume_leaves _ isCanStart c)
    · exact hs
  · exact hs

theorem execRetryOperate_faithful (hs : s.Faithful) (isCanStart : Bool) (c : Call) :
    (s.execRetryOperate isCanStart c).Faithful := by
  unfold execRetryOperate
  split
  · have h : (if s.task.hasImpl then (s.retry c).tryResume isCanStart c else s).Faithful := by
      split
      · rename_i himpl
        exact (retry_faithful hs himpl c).leaves (tryResume_leaves _ isCanStart c)
      · exact hs
    exact h.leaves (setTask_leaves _ rfl rfl)
  · exact hs

theorem execRestoreOperate_faithful (hs : s.Faithful) (isCanStart : Bool) (c : Call) :
    (s.execRestoreOperate isCanStart c).Faithful := by
  unfold execRestoreOperate
  split
  · have h := hs.leaves (restore_leaves s c)
    dsimp only
    split
    · split
      · exact h.leaves (resume_leaves _ c)
      · exact h.leaves (start_leaves _ c)
    · exact h
  · exact execRetryOperate_faithful hs isCanStart c

/-- What the engine reports of a download that it has not begun is what the task knows of it. -/
theorem getProgressInfo_faithful (hs : s.Faithful) :
    (s.impl.getProgressInfo s.task.totalProgress).Honest ∧
      (s.impl.getProgressInfo s.task.totalProgress).inPlace = s.impl.inPlace ∧
      (s.impl.getProgressInfo s.task.totalProgress).errCode = s.impl.errCode := by
  unfold CurlDownloadTaskImpl.getProgressInfo
  split
  · exact ⟨hs.task, rfl, rfl⟩
  · exact ⟨hs.honest, rfl, rfl⟩

theorem checkTask_faithful (hs : s.Faithful) (l : Tick) : (s.checkTask l).Faithful := by
  obtain ⟨hhonest, hplace, -⟩ := getProgressInfo_faithful hs
  unfold checkTask
  dsimp only
  generalize himpl : (if (s.task.taskStatus = .kDownloading ∨ s.task.taskStatus = .kChecking) ∧
    s.task.errCode = .kNormal then s.impl.getProgressInfo s.task.totalProgress else s.impl) = impl
  have hi : impl.Honest ∧ impl.inPlace = s.impl.inPlace := by
    rw [← himpl]
    split
    · exact ⟨hhonest, hplace⟩
    · exact ⟨hs.honest, rfl⟩
  have htask : isComplete s.task.totalProgress = true → impl.inPlace = true := by
    rw [hi.2]
    exact hs.task
  rcases s.task.checkTask_cases hs.notBt (l.answer impl) with
    ⟨-, heq⟩ | ⟨-, -, heq⟩ | ⟨-, heq | ⟨-, heq⟩⟩ <;> rw [heq]
  · exact ⟨hs.notBt, hi.1, htask⟩
  · rw [TaskBase.updateProgressInfo_eq hs.notBt]
    split <;> exact ⟨hs.notBt, hi.1, hi.1⟩
  · exact ⟨hs.notBt, hi.1, htask⟩
  · exact ⟨hs.notBt, hi.1, htask⟩

theorem tick_faithful (hs : s.Faithful) (l : Tick) : (s.tick l).Faithful :=
  checkTask_faithful (hs.leaves (checkLimit_leaves s l)) l

theorem reload_faithful (hs : s.Faithful) {row : TaskBase.Row}
    (hrow : isComplete row.totalProgress.floor = true → s.impl.inPlace = true) (c : Call) :
    (s.reload row c).Faithful := by
  have hnew : ({ inPlace := s.impl.inPlace } : CurlDownloadTaskImpl).Honest := fun h => by
    rw [NetCurl.isComplete_zero] at h
    cases h
  unfold reload
  dsimp only
  split
  · have hkeeps := CurlDownloadTaskImpl.resumeBreakPoint_keeps { inPlace := s.impl.inPlace } c
    obtain ⟨hparam, -, -, hprogress⟩ := TaskBase.resumeDataFromDb_link hs.notBt row { resumeBreakPoint :=
      (({ inPlace := s.impl.inPlace } : CurlDownloadTaskImpl).resumeBreakPoint c).2 }
    refine ⟨by rw [hparam]; exact hs.notBt, hkeeps.honest hnew, fun h => hkeeps.inPlace (hrow ?_)⟩
    rwa [hprogress] at h
  · obtain ⟨hparam, -, -, hprogress⟩ := TaskBase.resumeDataFromDb_link hs.notBt row { resumeBreakPoint := false }
    refine ⟨by rw [hparam]; exact hs.notBt, hnew, fun h => hrow ?_⟩
    rwa [hprogress] at h

/-! ## Runs -/

theorem act_faithful (hs : s.Faithful) {e : Event} (he : s.Gapless e) : (s.act e).Faithful := by
  cases e with
  | pause => exact hs.leaves (pauseTask_leaves s)
  | resume isCanStart c => exact execResumeOperate_faithful hs isCanStart c
  | retry isCanStart c => exact execRetryOperate_faithful hs isCanStart c
  | restore isCanStart c =>
    simp only [act]
    split
    · exact execRestoreOperate_faithful hs isCanStart c
    · exact hs
  | delete =>
    simp only [act]
    split
    · exact hs
    · exact hs.leaves (deleteToRecycleBin_leaves s)
  | tick l => exact tick_faithful hs l
  | reStart c =>
    simp only [act]
    split
    · exact hs.leaves ⟨rfl, rfl, CurlDownloadTaskImpl.tryReStart_keeps ..⟩
    · exact hs
  | progress => exact hs.leaves ⟨rfl, rfl, CurlDownloadTaskImpl.progress_keeps he⟩
  | finish r fileSize => exact hs.leaves ⟨rfl, rfl, CurlDownloadTaskImpl.finish_keeps ..⟩
  | wait seconds => exact hs.leaves ⟨rfl, rfl, .of_eq rfl rfl⟩
  | restart row c => exact reload_faithful hs he c

theorem step_faithful (hs : s.Faithful) {e : Event} (he : s.Gapless e) : (s.step e).Faithful := by
  cases e with
  | restart row c => exact reload_faithful hs he c
  | _ =>
    simp only [step]
    split
    · exact hs
    · exact act_faithful hs he

theorem create_faithful {param : TaskParam} (hbt : param.type.isBt = false) {isCanStart : Bool}
    {parseLink : DownloadErrorCode} {now : Nat} (h : create param isCanStart c parseLink now = some s) :
    s.Faithful := by
  have hnew : ({ task := { param }, now } : CurlTask).Faithful := by
    refine ⟨hbt, fun h => ?_, fun h => ?_⟩ <;> rw [NetCurl.isComplete_zero] at h <;> cases h
  have hparse (t : TaskBase) (a : Answer) :
      (t.linkParse a).param = t.param ∧ (t.linkParse a).totalProgress = t.totalProgress := by
    unfold TaskBase.linkParse
    split <;> exact ⟨rfl, rfl⟩
  obtain ⟨s', hs' | hstart, rfl⟩ := create_cases h
  · subst hs'
    exact hnew.leaves (setTask_leaves _ (hparse ..).1 (hparse ..).2)
  · have hs' := hnew.leaves (start_leaves _ c)
    rw [hstart] at hs'
    exact hs'.leaves (setTask_leaves _ (hparse ..).1 (hparse ..).2)

theorem checkLimit_taskStatus_ne (h : s.task.taskStatus ≠ .kFinished) (l : Tick) :
    (s.checkLimit l).task.taskStatus ≠ .kFinished := by
  unfold checkLimit
  split
  · split
    · exact (by decide : TaskStatus.kWaitting ≠ .kFinished)
    · exact h
  · split
    · split
      · simp only [resume, TaskBase.resume]
        split_ifs <;> first | exact h | simp
      · have hstart : (s.start l.call).1.task.taskStatus ≠ .kFinished := by
          simp only [start, TaskBase.start]
          split_ifs <;> first | exact h | simp
        dsimp only
        split <;> exact hstart
    · exact h

theorem Faithful.finishesInPlace (hs : s.Faithful) (e : Event) : s.FinishesInPlace e := by
  cases e with
  | tick l =>
    intro hne hfin
    have hlimit := hs.leaves (checkLimit_leaves s l)
    exact (tick_faithful hs l).task
      (TaskBase.checkTask_kFinished hlimit.notBt (checkLimit_taskStatus_ne hne l) hfin)
  | _ => trivial

theorem tick_errCode (hs : s.Faithful) (hst : s.task.taskStatus = .kDownloading) (herr : s.impl.errCode ≠ .kNormal)
    (hplace : s.impl.inPlace = false) {l : Tick} (hl : l.isOverLimit = false) :
    (s.tick l).task.taskStatus = .kFailed ∨
      (s.tick l).task.taskStatus = .kDownloading ∧ (s.tick l).task.errCode ≠ .kNormal := by
  have hlimit : s.checkLimit l = s := by
    rw [checkLimit, if_pos hst, hl]
    rfl
  obtain ⟨hhonest, hplace', herr'⟩ := getProgressInfo_faithful hs
  rw [tick, hlimit]
  by_cases hknown : s.task.errCode = .kNormal
  · right
    have hincomplete :
        ¬ 100 - (l.answer (s.impl.getProgressInfo s.task.totalProgress)).totalProgress < 1 / 10000 := by
      intro hc
      have := hhonest (decide_eq_true hc)
      rw [hplace', hplace] at this
      cases this
    simp only [checkTask, if_pos (show (s.task.taskStatus = .kDownloading ∨ s.task.taskStatus = .kChecking) ∧
      s.task.errCode = .kNormal from ⟨.inl hst, hknown⟩)]
    rcases s.task.checkTask_cases hs.notBt (l.answer (s.impl.getProgressInfo s.task.totalProgress)) with
      ⟨h, -⟩ | ⟨-, -, heq⟩ | ⟨h, -⟩
    · exact absurd hknown h.2.2.2
    · rw [heq, TaskBase.updateProgressInfo_eq hs.notBt, if_neg hincomplete]
      exact ⟨hst, fun h => herr (herr' ▸ h)⟩
    · exact absurd hst h.1
  · left
    have hne : s.task.taskStatus ≠ .kFailed ∧ s.task.taskStatus ≠ .kDeleted ∧ s.task.taskStatus ≠ .kFinished := by
      rw [hst]
      decide
    simp only [checkTask, TaskBase.checkTask_of_errCode hne hknown, TaskBase.setTaskStatus_taskStatus]

theorem tick_kFailed (hst : s.task.taskStatus = .kDownloading) (herr : s.task.errCode ≠ .kNormal) (l : Tick) :
    (s.tick l).task.taskStatus = .kFailed := by
  have hlimit : ((s.checkLimit l).task.taskStatus = .kWaitting ∨ (s.checkLimit l).task.taskStatus = .kDownloading) ∧
      (s.checkLimit l).task.errCode = s.task.errCode := by
    rw [checkLimit, if_pos hst]
    split
    · exact ⟨.inl rfl, rfl⟩
    · exact ⟨.inr hst, rfl⟩
  rw [← hlimit.2] at herr
  have hne : (s.checkLimit l).task.taskStatus ≠ .kFailed ∧ (s.checkLimit l).task.taskStatus ≠ .kDeleted ∧
      (s.checkLimit l).task.taskStatus ≠ .kFinished := by
    rcases hlimit.1 with h | h <;> rw [h] <;> decide
  simp only [tick, checkTask, TaskBase.checkTask_of_errCode hne herr, TaskBase.setTaskStatus_taskStatus]

theorem tick_of_kFailed (hbt : s.task.param.type.isBt = false) (hst : s.task.taskStatus = .kFailed) (l : Tick) :
    (s.tick l).task.taskStatus = .kFailed := by
  have hlimit : s.checkLimit l = s := by simp [checkLimit, hst]
  rw [tick, hlimit]
  simp only [checkTask]
  generalize l.answer _ = a
  rcases s.task.checkTask_cases hbt a with ⟨h, -⟩ | ⟨h, -⟩ | ⟨-, heq | ⟨-, heq⟩⟩
  · exact absurd hst h.1
  · rw [hst] at h
    simp at h
  · rw [heq, hst]
  · rw [heq]
    exact hst

theorem Faithful.reportsErrors (hs : s.Faithful) : s.ReportsErrors := by
  intro hst herr hplace l l' hl
  rcases tick_errCode hs hst herr hplace hl with hfailed | ⟨hst', herr'⟩
  · exact tick_of_kFailed (tick_faithful hs l).notBt hfailed l'
  · exact tick_kFailed hst' herr' l'

end CurlTask

/-- In every run in which no percentage is taken for the whole file before the file is moved, a tick
finishes a task only when its file is in place, and an error that comes before fails it. -/
theorem run_finished_inPlace {param : TaskParam} (hbt : param.type.isBt = false) {isCanStart : Bool} {c : Call}
    {parseLink : DownloadErrorCode} {now : Nat} {s : CurlTask}
    (hs : CurlTask.create param isCanStart c parseLink now = some s) {es : List CurlTask.Event}
    (h : Along CurlTask.step CurlTask.Gapless s es) :
    Along CurlTask.step CurlTask.FinishesInPlace s es ∧ (run CurlTask.step s es).ReportsErrors := by
  have hinit := CurlTask.create_faithful hbt hs
  refine ⟨h.imp (I := CurlTask.Faithful) (fun _ _ hs he => CurlTask.step_faithful hs he)
    (fun _ e hs _ => hs.finishesInPlace e) hinit, ?_⟩
  exact (Along.run (I := CurlTask.Faithful) (fun _ _ hs he => CurlTask.step_faithful hs he) h hinit).reportsErrors

namespace CurlTask

instance : DecidableRel FinishesInPlace
  | _, .tick _ => inferInstanceAs (Decidable (_ → _ → _))
  | _, .pause | _, .resume .. | _, .retry .. | _, .restore .. | _, .delete | _, .reStart _ | _, .progress ..
  | _, .finish .. | _, .wait _ | _, .restart .. => isTrue trivial

instance : DecidableRel Gapless
  | _, .progress .. => inferInstanceAs (Decidable (_ → _ → _))
  | _, .restart .. => inferInstanceAs (Decidable (_ → _))
  | _, .pause | _, .resume .. | _, .retry .. | _, .restore .. | _, .delete | _, .reStart _ | _, .tick _
  | _, .finish .. | _, .wait _ => isTrue trivial

end CurlTask

def wholeFile : List CurlTask.Event := [.progress 3000 2000, .tick {}, .finish {} 0, .tick {}]

theorem run_finished_wholeFile :
    (run CurlTask.step .startedLink wholeFile).task.taskStatus = .kFinished ∧
      Along CurlTask.step CurlTask.FinishesInPlace .startedLink wholeFile ∧
      (run CurlTask.step .startedLink wholeFile).ReportsErrors :=
  ⟨by decide +kernel, run_finished_inPlace rfl CurlTask.create_startedLink (by decide +kernel)⟩

def allButOneByte : List CurlTask.Event := [.progress 2000001 2000000, .tick {}]

/-- The task is finished before its transfer has ended, and then the file cannot be moved. -/
theorem allButOneByte_finished :
    ¬ Along CurlTask.step CurlTask.FinishesInPlace .startedLink allButOneByte ∧
      (run CurlTask.step .startedLink (allButOneByte ++ [.finish { renamed := false } 0])).impl.errCode =
        .kRenameTempFileFailed ∧
      (run CurlTask.step .startedLink
        (allButOneByte ++ [.finish { renamed := false } 0, .tick {}, .tick {}])).task.taskStatus = .kFinished :=
  ⟨by decide +kernel, by decide +kernel, by decide +kernel⟩

end Nas.Download
