import NasServices.Download.Task.CurlTask

/-!
# A downloading task has a transfer

A curl task says that it is downloading when its engine has accepted `Start` or
`Resume`. `CurlTask.Live` is what a user takes this to mean: a transfer is
running, or it has ended and the task will hear of it, or one is about to be
started. `run_live` says when this holds: a transfer is not broken off with
`CURLE_PARTIAL_FILE`, on which `Perform` returns without a result; temporary
files can be created; and a task that is resumed after its transfer has ended
without a result has been paused for more than two minutes, since it is only then
that `TryReStart` starts a new one.
-/

namespace Nas.Download

theorem DownloadErrorCode.ne_kNormal {err : DownloadErrorCode} (h : 0 < err.code) : err ≠ .kNormal := by
  rintro rfl
  exact absurd h (by decide)

end Nas.Download

namespace Nas.NetCurl.CurlDownloadTaskImpl

variable {e e' : CurlDownloadTaskImpl} {c : Call} {r : Result} {now : Nat}

def isTransferring (e : CurlDownloadTaskImpl) : Bool :=
  e.httpTask.thread.isRunning && !e.httpTask.thread.isPaused

def hasResult (e : CurlDownloadTaskImpl) : Bool := e.errCode ≠ .kNormal || e.totalProgress = 100

theorem hasResult_of_errCode (h : 0 < e.errCode.code) : e.hasResult = true := by
  simp [hasResult, Download.DownloadErrorCode.ne_kNormal h]

theorem hasResult_of_totalProgress (h : e.totalProgress = 100) : e.hasResult = true := by
  simp [hasResult, h]

theorem httpError_pos (httpCode : Nat) : 0 < (httpError httpCode).code := by
  unfold httpError
  dsimp only
  split
  · decide
  · rename_i hnot
    simp only [Download.DownloadErrorCode.kHttpStartErrorCode] at hnot ⊢
    omega

theorem hasResult_leave (e : CurlDownloadTaskImpl) (r : Result) : (e.leave r).hasResult = true := by
  unfold leave taskResult
  split
  · refine hasResult_of_errCode ?_
    simp only [Download.DownloadErrorCode.kPerformCurlStartErrorCode]
    omega
  · split
    · exact hasResult_of_errCode (httpError_pos _)
    · unfold renameTempFile
      split
      · exact hasResult_of_totalProgress rfl
      · refine hasResult_of_errCode ?_
        show 0 < Download.DownloadErrorCode.kRenameTempFileFailed.code
        decide

theorem taskResult_httpTask (e : CurlDownloadTaskImpl) (r : Result) : (e.taskResult r).httpTask = e.httpTask := by
  unfold taskResult renameTempFile
  split_ifs <;> rfl

theorem leave_thread (e : CurlDownloadTaskImpl) (r : Result) : (e.leave r).httpTask.thread = .done := by
  rw [leave, taskResult_httpTask]

/-! ## Calls that start a transfer -/

theorem isTransferring_of_start (h : (e.start c).2 = .kNormal) : (e.start c).1.isTransferring = true := by
  revert h
  unfold start
  split
  · exact fun h => absurd (show Download.DownloadErrorCode.kCreateFileFailed = .kNormal from h) (by decide)
  · exact fun _ => rfl

theorem createTempFile_of_fopen (hc : c.fopen = true) (h : HttpDownloadTask) : (h.createTempFile c).2 = true := by
  unfold HttpDownloadTask.createTempFile
  split
  · rfl
  · exact hc

theorem start_of_fopen (hc : c.fopen = true) (e : CurlDownloadTaskImpl) : (e.start c).2 = .kNormal := by
  have hfile := createTempFile_of_fopen hc e.httpTask
  unfold start
  split
  · rename_i heq
    rw [heq] at hfile
    cases hfile
  · rfl

theorem isTransferring_of_resumeBreakPoint (h : (e.resumeBreakPoint c).2 = true) :
    (e.resumeBreakPoint c).1.isTransferring = true := by
  revert h
  unfold resumeBreakPoint
  split
  · exact fun h => (nomatch h)
  · split
    · exact fun _ => rfl
    · exact fun h => (nomatch h)

theorem resumeBreakPoint_of_fopen (hc : c.fopen = true) (hp : c.pathExists = true) (e : CurlDownloadTaskImpl) :
    (e.resumeBreakPoint c).2 = true := by
  have hfile := createTempFile_of_fopen hc e.httpTask
  unfold resumeBreakPoint
  split
  · rename_i heq
    rw [heq] at hfile
    cases hfile
  · rw [if_pos hp]

/-- `Resume` is accepted: there is a new transfer, or the old one is no longer paused. -/
theorem resume_of_true {isFailed : Bool} (h : (e.resume isFailed c).2 = true) :
    (e.resume isFailed c).1.isTransferring = true ∨
      e.isStarted = true ∧ isFailed = false ∧
        (e.resume isFailed c).1 = { e with httpTask := e.httpTask.setPaused false, isHttpTaskResume := true } := by
  revert h
  unfold resume
  cases hst : e.isStarted with
  | false => exact fun h => .inl (isTransferring_of_resumeBreakPoint h)
  | true =>
    cases isFailed with
    | false => exact fun _ => .inr ⟨rfl, rfl, rfl⟩
    | true =>
      have hbreak := isTransferring_of_resumeBreakPoint (e := e) (c := c)
      rcases hr : e.resumeBreakPoint c with ⟨e', _ | _⟩ <;> rw [hr] at hbreak
      · exact fun h => (nomatch h)
      · exact fun _ => .inl (hbreak rfl)

theorem isPaused_setPaused (h : HttpDownloadTask) : (h.setPaused false).thread.isPaused = false := by
  unfold HttpDownloadTask.setPaused
  rcases hth : h.thread with _ | _ | _ <;> simp [hth, Thread.isPaused]

theorem isRunning_setPaused (h : HttpDownloadTask) (paused : Bool) :
    (h.setPaused paused).thread.isRunning = h.thread.isRunning := by
  unfold HttpDownloadTask.setPaused
  rcases hth : h.thread with _ | _ | _ <;> simp [hth, Thread.isRunning]

theorem isTransferring_iff :
    e.isTransferring = true ↔ e.httpTask.thread.isRunning = true ∧ e.httpTask.thread.isPaused = false := by
  simp [isTransferring]

theorem finish_of_not_running (h : e.httpTask.thread.isRunning = false) (r : Result) (fileSize : Nat) :
    e.finish r fileSize = e := by
  unfold finish
  rcases hth : e.httpTask.thread with _ | _ | _ <;> simp [hth, Thread.isRunning] at h ⊢

theorem progress_of_not_running (h : e.httpTask.thread.isRunning = false) (dltotal dlnow : Nat) (elapsed : Bool) :
    e.progress dltotal dlnow elapsed = e := by
  unfold progress
  rcases hth : e.httpTask.thread with _ | _ | _ <;> simp [hth, Thread.isRunning] at h ⊢

theorem progress_thread (e : CurlDownloadTaskImpl) (dltotal dlnow : Nat) (elapsed : Bool) :
    (e.progress dltotal dlnow elapsed).httpTask.thread = e.httpTask.thread := by
  have hup : (e.httpTask.updateProgress dltotal dlnow).1.thread = e.httpTask.thread := by
    unfold HttpDownloadTask.updateProgress
    split <;> rfl
  unfold progress taskProgress
  split
  · dsimp only
    split_ifs <;> exact hup
  · rfl

/-- A transfer that ends is followed by another attempt, or by a result unless it ended with
`CURLE_PARTIAL_FILE`. -/
theorem finish_cases (hrun : e.httpTask.thread.isRunning = true) (hcode : CurlCode.ofCode r.curlCode ≠ .partialFile)
    (fileSize : Nat) :
    (e.finish r fileSize).isTransferring = true ∨
      (e.finish r fileSize).hasResult = true ∧ (e.finish r fileSize).httpTask.thread = .done := by
  unfold finish
  split
  · rename_i retryCount paused hth
    split
    · exact .inr ⟨hasResult_leave e r, leave_thread e r⟩
    · rename_i hnext
      refine absurd ?_ hcode
      revert hnext
      unfold CurlTask.next
      split_ifs <;> simp_all
    · exact .inl rfl
  · rename_i hnot
    cases hth : e.httpTask.thread with
    | running n p => exact absurd hth (hnot n p)
    | none | done => simp [hth, Thread.isRunning] at hrun

end Nas.NetCurl.CurlDownloadTaskImpl

namespace Nas.Download

open NetCurl (Call Result CurlCode CurlDownloadTaskImpl)
open Lib (Along run)

namespace CurlTask

variable {s : CurlTask} {c : Call}

/-- If the task is downloading, a transfer is running, or it has ended and its result is waiting, or
a `ReStart` is waiting that will start one. -/
def Live (s : CurlTask) : Prop :=
  s.task.taskStatus = .kDownloading →
    s.impl.isTransferring ∨ s.impl.hasResult ∨ (0 < s.posted ∧ s.impl.willReStart s.now)

/-- A plain `Resume` of the engine brings the transfer back, now or by `ReStart`. -/
def Resumable (s : CurlTask) : Prop :=
  s.task.isStarted → s.impl.isStarted → s.task.isValid →
    s.impl.httpTask.thread.isRunning ∨ s.impl.hasResult ∨ 120 < s.now - s.impl.lastPauseTime

def Served (s : CurlTask) : Event → Prop
  | .resume isCanStart c =>
    (s.task.isStarted = false → c.fopen) ∧
      (isCanStart → s.task.taskStatus = .kPaused → s.Resumable)
  | .retry _ c => s.task.isStarted = false → c.fopen
  | .restore isCanStart c =>
    (s.task.isStarted = false → c.fopen) ∧
      (isCanStart → s.task.preStatus = .kWaitting ∨ s.task.preStatus = .kDownloading → s.Resumable)
  | .tick l => l.isCanStart → s.task.taskStatus = .kWaitting → s.Resumable
  | .reStart c => s.task.taskStatus = .kDownloading → s.impl.willReStart s.now → c.fopen
  | .finish r _ => CurlCode.ofCode r.curlCode = .partialFile → s.task.taskStatus ≠ .kDownloading
  | .restart row c => row.taskStatus = .kDownloading → c.fopen ∧ c.pathExists
  | .pause | .delete | .progress .. | .wait _ => True

structure Sound (s : CurlTask) : Prop where
  notBt : s.task.param.type.isBt = false
  live : s.Live
  unpaused : s.task.taskStatus = .kDownloading → s.impl.httpTask.thread.isPaused = false
  valid : s.task.taskStatus = .kDownloading → s.task.isValid = true
  started : s.task.isValid = false → s.task.isStarted = true

theorem Sound.aside (hbt : s.task.param.type.isBt = false) (hne : s.task.taskStatus ≠ .kDownloading)
    (hst : s.task.isValid = false → s.task.isStarted = true) : s.Sound :=
  ⟨hbt, fun h => absurd h hne, fun h => absurd h hne, fun h => absurd h hne, hst⟩

theorem Sound.transferring (hbt : s.task.param.type.isBt = false) (htr : s.impl.isTransferring = true)
    (hv : s.task.isValid = true) : s.Sound :=
  ⟨hbt, fun _ => .inl htr, fun _ => (CurlDownloadTaskImpl.isTransferring_iff.mp htr).2, fun _ => hv,
    fun h => by rw [hv] at h; cases h⟩

theorem resume_sound (hbt : s.task.param.type.isBt = false) (hne : s.task.taskStatus ≠ .kDownloading)
    (hst : s.task.isStarted = true) (hr : s.task.taskStatus ≠ .kFailed → s.Resumable) (c : Call) :
    (s.resume c).Sound := by
  unfold resume
  dsimp only
  have htrue : (s.impl.resume (s.task.taskStatus == .kFailed || !s.task.isValid) c).2 = true → _ :=
    CurlDownloadTaskImpl.resume_of_true
  rcases hres : s.impl.resume (s.task.taskStatus == .kFailed || !s.task.isValid) c with ⟨impl, _ | _⟩ <;>
    rw [hres] at htrue <;> simp only [TaskBase.resume_eq hbt]
  · exact .aside hbt hne fun _ => hst
  · rcases htrue rfl with htr | ⟨hstarted, hfailed, heq⟩
    · exact .transferring hbt htr rfl
    · rw [Bool.or_eq_false_iff, beq_eq_false_iff_ne, Bool.not_eq_false'] at hfailed
      obtain rfl : impl = _ := heq
      have hlive := hr hfailed.1 hst hstarted hfailed.2
      refine ⟨hbt, fun _ => ?_, fun _ => CurlDownloadTaskImpl.isPaused_setPaused _, fun _ => rfl, fun h => (nomatch h)⟩
      rcases hlive with hrun | hres' | htime
      · refine .inl (CurlDownloadTaskImpl.isTransferring_iff.mpr ⟨?_, CurlDownloadTaskImpl.isPaused_setPaused _⟩)
        rw [CurlDownloadTaskImpl.isRunning_setPaused]
        exact hrun
      · exact .inr (.inl hres')
      · refine .inr (.inr ⟨Nat.succ_pos _, ?_⟩)
        simp only [CurlDownloadTaskImpl.willReStart, Bool.true_and, decide_eq_true_eq]
        exact htime

/-- A task that is started for the first time; if that is refused it is downloading without a transfer. -/
theorem start_cases (hbt : s.task.param.type.isBt = false) (hst : s.task.isStarted = false)
    (hv : s.task.isValid = true) (c : Call) :
    (s.start c).2 = .kNormal ∧ (s.start c).1.Sound ∨
      (s.start c).2 ≠ .kNormal ∧ (s.start c).1.task.param = s.task.param ∧ (s.start c).1.task.isValid = true ∧
        (s.start c).1.task.taskStatus = .kDownloading := by
  unfold start
  rw [if_neg (by simp [hst])]
  dsimp only
  have htr : (s.impl.start c).2 = .kNormal → _ := CurlDownloadTaskImpl.isTransferring_of_start
  rcases hres : s.impl.start c with ⟨impl, ret⟩
  rw [hres] at htr
  rw [TaskBase.start_eq hbt hst]
  by_cases hret : ret = .kNormal
  · rw [if_pos hret]
    exact .inl ⟨hret, .transferring hbt (htr hret) rfl⟩
  · rw [if_neg hret]
    exact .inr ⟨hret, rfl, hv, rfl⟩

theorem start_sound (hbt : s.task.param.type.isBt = false) (hst : s.task.isStarted = false)
    (hv : s.task.isValid = true) (hc : c.fopen = true) : (s.start c).1.Sound := by
  rcases start_cases hbt hst hv c with h | ⟨hret, -⟩
  · exact h.2
  · refine absurd ?_ hret
    unfold start
    rw [if_neg (by simp [hst])]
    dsimp only
    rw [TaskBase.start_eq hbt hst]
    exact CurlDownloadTaskImpl.start_of_fopen hc _

/-- A task that was put aside is taken up again. -/
theorem tryResume_sound (hs : s.Sound) (hne : s.task.taskStatus ≠ .kDownloading)
    (hfile : s.task.isStarted = false → c.fopen = true) {isCanStart : Bool}
    (hr : isCanStart = true → s.task.taskStatus ≠ .kFailed → s.Resumable) :
    (s.tryResume isCanStart c).Sound := by
  unfold tryResume
  split
  · rename_i hcan
    split
    · rename_i hst
      exact resume_sound hs.notBt hne hst (hr hcan) c
    · rename_i hst
      have hst' : s.task.isStarted = false := by simpa using hst
      exact start_sound hs.notBt hst' (by simpa [hst'] using hs.started) (hfile hst')
  · exact .aside hs.notBt (by simp) hs.started

/-- A task that has failed, or whose files are missing, is downloaded anew. -/
theorem retry_tryResume_sound (hs : s.Sound) (hfailed : s.task.taskStatus = .kFailed ∨ s.task.isValid = false)
    (hfile : s.task.isStarted = false → c.fopen = true) (isCanStart : Bool) :
    ((s.retry c).tryResume isCanStart c).Sound := by
  obtain ⟨hparam, hstatus, hvalid, hstarted⟩ := s.retry_task c
  have hne : s.task.taskStatus ≠ .kDownloading := by
    intro hd
    rcases hfailed with hf | hv
    · rw [hf] at hd
      cases hd
    · rw [hs.valid hd] at hv
      cases hv
  have hretry : (s.retry c).Sound := by
    refine .aside (by rw [hparam]; exact hs.notBt) (by rw [hstatus]; exact hne) ?_
    rw [hvalid, hstarted]
    exact hs.started
  refine tryResume_sound hretry (by rw [hstatus]; exact hne) (by rw [hstarted]; exact hfile) fun _ hnf _ _ hv => ?_
  rw [hstatus] at hnf
  rw [hvalid] at hv
  rcases hfailed with hf | hv'
  · exact absurd hf hnf
  · rw [hv'] at hv
    cases hv

theorem execRetryOperate_sound (hs : s.Sound) (hfile : s.task.isStarted = false → c.fopen = true)
    (isCanStart : Bool) : (s.execRetryOperate isCanStart c).Sound := by
  unfold execRetryOperate
  split
  · rename_i hfailed
    have h : (if s.task.hasImpl then (s.retry c).tryResume isCanStart c else s).Sound := by
      split
      · exact retry_tryResume_sound hs hfailed hfile isCanStart
      · exact hs
    exact ⟨h.notBt, h.live, h.unpaused, fun _ => rfl, fun hv => (nomatch hv)⟩
  · exact hs

theorem execResumeOperate_sound (hs : s.Sound) (hfile : s.task.isStarted = false → c.fopen = true)
    {isCanStart : Bool} (hr : isCanStart = true → s.task.taskStatus = .kPaused → s.Resumable) :
    (s.execResumeOperate isCanStart c).Sound := by
  unfold execResumeOperate
  split
  · rename_i hp
    exact tryResume_sound hs (by rw [hp]; decide) hfile fun hcan _ => hr hcan hp
  · rename_i hf
    split
    · exact retry_tryResume_sound hs (.inl hf) hfile isCanStart
    · exact hs
  · exact hs

/-- A task with its status changed by `Restore` alone waits, or is not taken up. -/
theorem restore_sound (hs : s.Sound) (hst : s.task.taskStatus = .kDeleted) (c : Call) :
    (s.restore c).Sound ∧ ((s.restore c).task.taskStatus = .kWaitting →
      (s.task.preStatus = .kWaitting ∨ s.task.preStatus = .kDownloading) ∧
        (s.restore c).task.isStarted = s.task.isStarted ∧ (s.restore c).impl = s.impl ∧
        (s.restore c).now = s.now) := by
  unfold restore
  split
  · rename_i hpre
    dsimp only
    have htrue : (s.impl.resume (s.task.preStatus == .kFailed || !s.task.isValid) c).2 = true → _ :=
      CurlDownloadTaskImpl.resume_of_true
    rcases hres : s.impl.resume (s.task.preStatus == .kFailed || !s.task.isValid) c with ⟨impl, ret⟩
    rw [hres] at htrue
    rcases TaskBase.restore_resumes hs.notBt hpre.2 { resume := ret, now := s.now } with
      ⟨hparam, hne, hnw, hvalid, hstarted⟩ | ⟨hf, hret, hparam, hvalid, hnw⟩
    · refine ⟨.aside (by rw [hparam]; exact hs.notBt) (hne hst) fun h => ?_, fun h => absurd h (hnw hst)⟩
      rw [hstarted]
      exact hs.started (hvalid h)
    · rcases htrue hret with htr | ⟨-, hfailed, -⟩
      · exact ⟨.transferring (by rw [hparam]; exact hs.notBt) htr hvalid, fun h => absurd h hnw⟩
      · simp [hf] at hfailed
  · rename_i hpre
    obtain ⟨hparam, hne, hw, hvalid, hstarted⟩ := TaskBase.restore_aside (not_and.mp hpre) { now := s.now }
    refine ⟨.aside (by rw [hparam]; exact hs.notBt) (hne hst) ?_, fun h => ⟨hw hst h, hstarted, rfl, rfl⟩⟩
    rw [hvalid, hstarted]
    exact hs.started

theorem execRestoreOperate_sound (hs : s.Sound) (hst : s.task.taskStatus = .kDeleted)
    (hfile : s.task.isStarted = false → c.fopen = true) {isCanStart : Bool}
    (hr : isCanStart = true → s.task.preStatus = .kWaitting ∨ s.task.preStatus = .kDownloading → s.Resumable) :
    (s.execRestoreOperate isCanStart c).Sound := by
  unfold execRestoreOperate
  split
  · rename_i hvalid
    obtain ⟨hrestored, hwaits⟩ := restore_sound hs hst c
    dsimp only
    split
    · rename_i hw
      obtain ⟨hpre, hstarted, himpl, hnow⟩ := hwaits hw.1
      have hne : (s.restore c).task.taskStatus ≠ .kDownloading := by rw [hw.1]; decide
      split
      · rename_i hst'
        refine resume_sound hrestored.notBt hne hst' (fun _ _ himplst _ => ?_) c
        rw [himpl] at himplst ⊢
        rw [hnow]
        exact hr hw.2 hpre (hstarted ▸ hst') himplst hvalid
      · rename_i hst'
        have hst'' : (s.restore c).task.isStarted = false := by simpa using hst'
        exact start_sound hrestored.notBt hst'' (by simpa [hst''] using hrestored.started)
          (hfile (hstarted ▸ hst''))
    · exact hrestored
  · exact execRetryOperate_sound hs hfile isCanStart

/-! ## Ticks -/

theorem checkLimit_sound (hs : s.Sound) {l : Tick}
    (hr : l.isCanStart = true → s.task.taskStatus = .kWaitting → s.Resumable) :
    (s.checkLimit l).Sound ∨
      (s.checkLimit l).task.param.type.isBt = false ∧ (s.checkLimit l).task.taskStatus = .kDownloading ∧
        (s.checkLimit l).task.errCode ≠ .kNormal ∧ (s.checkLimit l).task.isValid = true := by
  unfold checkLimit
  split
  · split
    · exact .inl (.aside hs.notBt (by simp) hs.started)
    · exact .inl hs
  · rename_i hne
    split
    · rename_i hw
      split
      · rename_i hst
        exact .inl (resume_sound hs.notBt hne hst (fun _ => hr hw.2 hw.1) l.call)
      · rename_i hst
        have hst' : s.task.isStarted = false := by simpa using hst
        have hcases := start_cases hs.notBt hst' (by simpa [hst'] using hs.started) l.call
        rcases hres : s.start l.call with ⟨s', err⟩
        rw [hres] at hcases
        dsimp only at hcases ⊢
        split
        · rename_i herr
          rcases hcases with ⟨herr', -⟩ | ⟨-, hparam, hvalid, hstatus⟩
          · exact absurd herr' herr
          · exact .inr ⟨by rw [hparam]; exact hs.notBt, hstatus, herr, hvalid⟩
        · rename_i herr
          rcases hcases with ⟨-, h⟩ | ⟨herr', -⟩
          · exact .inl h
          · exact absurd herr' herr
    · exact .inl hs

/-- What a tick takes from the engine is still there. -/
theorem getProgressInfo_live (e : CurlDownloadTaskImpl) (p : ℚ) :
    (e.getProgressInfo p).httpTask = e.httpTask ∧
      (∀ now, (e.getProgressInfo p).willReStart now = e.willReStart now) ∧
      (e.hasResult = true → (e.getProgressInfo p).hasResult = true) := by
  unfold CurlDownloadTaskImpl.getProgressInfo
  split
  · rename_i hzero
    refine ⟨rfl, fun _ => rfl, fun h => ?_⟩
    -- a complete download has its progress
    have hne : e.totalProgress ≠ 100 := by
      intro h100
      rw [h100] at hzero
      exact absurd hzero.1 (by decide +kernel)
    simp only [CurlDownloadTaskImpl.hasResult, hne, decide_false, Bool.or_false] at h
    simp only [CurlDownloadTaskImpl.hasResult, h, Bool.true_or]
  · exact ⟨rfl, fun _ => rfl, fun h => h⟩

theorem checkTask_sound {l : Tick} (hs : s.Sound ∨
    s.task.param.type.isBt = false ∧ s.task.taskStatus = .kDownloading ∧ s.task.errCode ≠ .kNormal ∧
      s.task.isValid = true) : (s.checkTask l).Sound := by
  have hbt : s.task.param.type.isBt = false := hs.elim (·.notBt) (·.1)
  have hst : s.task.isValid = false → s.task.isStarted = true :=
    hs.elim (·.started) fun h hv => by rw [h.2.2.2] at hv; cases hv
  unfold checkTask
  dsimp only
  generalize himpl : (if (s.task.taskStatus = .kDownloading ∨ s.task.taskStatus = .kChecking) ∧
    s.task.errCode = .kNormal then s.impl.getProgressInfo s.task.totalProgress else s.impl) = impl
  rcases s.task.checkTask_cases hbt (l.answer impl) with
    ⟨-, heq⟩ | ⟨hdown, herr, heq⟩ | ⟨hne, heq | ⟨hst', heq⟩⟩ <;> rw [heq]
  · exact .aside hbt (by simp) hst
  · rw [if_pos ⟨hdown, herr⟩] at himpl
    obtain ⟨hhttp, hwill, hres⟩ := getProgressInfo_live s.impl s.task.totalProgress
    rw [himpl] at hhttp hwill hres
    have h : s.Sound := hs.elim id fun h => absurd herr h.2.2.1
    rw [TaskBase.updateProgressInfo_eq hbt]
    split
    · exact .aside hbt (by simp [TaskBase.setFinished]) hst
    · refine ⟨hbt, fun hd => ?_, fun hd => ?_, h.valid, hst⟩
      · rcases h.live hd with htr | hresult | ⟨hposted, hre⟩
        · exact .inl (by rwa [CurlDownloadTaskImpl.isTransferring, hhttp])
        · exact .inr (.inl (hres hresult))
        · exact .inr (.inr ⟨hposted, (hwill s.now).trans hre⟩)
      · rw [hhttp]
        exact h.unpaused hd
  · exact .aside hbt hne.1 hst
  · exact .aside hbt hne.1 fun _ => hst'

theorem tick_sound (hs : s.Sound) {l : Tick}
    (hr : l.isCanStart = true → s.task.taskStatus = .kWaitting → s.Resumable) : (s.tick l).Sound :=
  checkTask_sound (checkLimit_sound hs hr)

/-! ## Runs -/

theorem finish_sound (hs : s.Sound) {r : Result}
    (hr : CurlCode.ofCode r.curlCode = .partialFile → s.task.taskStatus ≠ .kDownloading) (fileSize : Nat) :
    ({ s with impl := s.impl.finish r fileSize } : CurlTask).Sound := by
  by_cases hd : s.task.taskStatus = .kDownloading
  · by_cases hrun : s.impl.httpTask.thread.isRunning = true
    · rcases CurlDownloadTaskImpl.finish_cases hrun (fun h => hr h hd) fileSize with htr | ⟨hres, hdone⟩
      · exact .transferring hs.notBt htr (hs.valid hd)
      · exact ⟨hs.notBt, fun _ => .inr (.inl hres), fun _ => by rw [hdone]; rfl, hs.valid, hs.started⟩
    · rw [CurlDownloadTaskImpl.finish_of_not_running (by simpa using hrun)]
      exact hs
  · exact .aside hs.notBt hd hs.started

theorem progress_sound (hs : s.Sound) (dltotal dlnow : Nat) (elapsed : Bool) :
    ({ s with impl := s.impl.progress dltotal dlnow elapsed } : CurlTask).Sound := by
  by_cases hd : s.task.taskStatus = .kDownloading
  · by_cases hrun : s.impl.httpTask.thread.isRunning = true
    · -- it is not paused, so it goes on
      have hthread := CurlDownloadTaskImpl.progress_thread s.impl dltotal dlnow elapsed
      refine .transferring hs.notBt ?_ (hs.valid hd)
      rw [CurlDownloadTaskImpl.isTransferring_iff, hthread]
      exact ⟨hrun, hs.unpaused hd⟩
    · rw [CurlDownloadTaskImpl.progress_of_not_running (by simpa using hrun)]
      exact hs
  · exact .aside hs.notBt hd hs.started

theorem reStart_sound (hs : s.Sound)
    (hc : s.task.taskStatus = .kDownloading → s.impl.willReStart s.now = true → c.fopen = true) :
    ({ s with posted := s.posted - 1, impl := s.impl.tryReStart s.now c } : CurlTask).Sound := by
  by_cases hd : s.task.taskStatus = .kDownloading
  · unfold CurlDownloadTaskImpl.tryReStart
    split
    · rename_i hwill
      have hok := CurlDownloadTaskImpl.start_of_fopen (hc hd hwill) (s.impl.initTask c)
      exact .transferring hs.notBt (CurlDownloadTaskImpl.isTransferring_of_start hok) (hs.valid hd)
    · rename_i hwill
      refine ⟨hs.notBt, fun _ => ?_, hs.unpaused, hs.valid, hs.started⟩
      rcases hs.live hd with htr | hres | ⟨-, hre⟩
      · exact .inl htr
      · exact .inr (.inl hres)
      · exact absurd hre hwill
  · exact .aside hs.notBt hd hs.started

theorem wait_sound (hs : s.Sound) (seconds : Nat) : ({ s with now := s.now + seconds } : CurlTask).Sound := by
  refine ⟨hs.notBt, fun hd => ?_, hs.unpaused, hs.valid, hs.started⟩
  rcases hs.live hd with htr | hres | ⟨hposted, hre⟩
  · exact .inl htr
  · exact .inr (.inl hres)
  · refine .inr (.inr ⟨hposted, ?_⟩)
    simp only [CurlDownloadTaskImpl.willReStart, Bool.and_eq_true, decide_eq_true_eq] at hre ⊢
    exact ⟨hre.1, by omega⟩

theorem pauseTask_sound (hs : s.Sound) : s.pauseTask.Sound := by
  unfold pauseTask
  split
  · exact .aside hs.notBt (by simp [pause, TaskBase.pause]) hs.started
  · exact .aside hs.notBt (by simp) hs.started
  · exact .aside hs.notBt (by simp) hs.started
  · exact .aside hs.notBt (by simp) hs.started
  · exact hs

theorem deleteToRecycleBin_sound (hs : s.Sound) : s.deleteToRecycleBin.Sound := by
  unfold deleteToRecycleBin TaskBase.deleteToRecycleBin
  cases himpl : s.task.hasImpl with
  | false => simpa using hs
  | true =>
    simp only [Bool.not_true, Bool.false_eq_true, if_false, Bool.or_true, if_true]
    exact .aside hs.notBt (by simp) hs.started

theorem reload_sound (hs : s.Sound) {row : TaskBase.Row}
    (hc : row.taskStatus = .kDownloading → c.fopen = true ∧ c.pathExists = true) : (s.reload row c).Sound := by
  unfold reload
  dsimp only
  split
  · rename_i hd
    have hok := CurlDownloadTaskImpl.resumeBreakPoint_of_fopen (hc hd).1 (hc hd).2 { inPlace := s.impl.inPlace }
    have htr := CurlDownloadTaskImpl.isTransferring_of_resumeBreakPoint hok
    obtain ⟨hparam, -, hvalid, -⟩ := TaskBase.resumeDataFromDb_link hs.notBt row { resumeBreakPoint :=
      (({ inPlace := s.impl.inPlace } : CurlDownloadTaskImpl).resumeBreakPoint c).2 }
    exact .transferring (by rw [hparam]; exact hs.notBt) htr hvalid
  · rename_i hd
    obtain ⟨hparam, hstatus, hvalid, -⟩ := TaskBase.resumeDataFromDb_link hs.notBt row { resumeBreakPoint := false }
    refine .aside (by rw [hparam]; exact hs.notBt) (by rw [hstatus]; exact hd) fun h => ?_
    rw [hvalid] at h
    cases h

theorem act_sound (hs : s.Sound) {e : Event} (he : s.Served e) : (s.act e).Sound := by
  cases e with
  | pause => exact pauseTask_sound hs
  | resume isCanStart c => exact execResumeOperate_sound hs he.1 he.2
  | retry isCanStart c => exact execRetryOperate_sound hs he isCanStart
  | restore isCanStart c =>
    simp only [act]
    split
    · rename_i hst
      exact execRestoreOperate_sound hs hst he.1 he.2
    · exact hs
  | delete =>
    simp only [act]
    split
    · exact hs
    · exact deleteToRecycleBin_sound hs
  | tick l => exact tick_sound hs he
  | reStart c =>
    simp only [act]
    split
    · exact reStart_sound hs he
    · exact hs
  | progress dltotal dlnow elapsed => exact progress_sound hs dltotal dlnow elapsed
  | finish r fileSize => exact finish_sound hs he fileSize
  | wait seconds => exact wait_sound hs seconds
  | restart row c => exact reload_sound hs he

theorem step_sound (hs : s.Sound) {e : Event} (he : s.Served e) : (s.step e).Sound := by
  cases e with
  | restart row c => exact reload_sound hs he
  | _ =>
    simp only [step]
    split
    · exact hs
    · exact act_sound hs he

theorem linkParse_sound (hs : s.Sound) (a : Answer) : ({ s with task := s.task.linkParse a } : CurlTask).Sound := by
  unfold TaskBase.linkParse
  split
  · exact .aside hs.notBt (by simp) hs.started
  · exact hs

theorem create_sound {param : TaskParam} (hbt : param.type.isBt = false) {isCanStart : Bool}
    {parseLink : DownloadErrorCode} {now : Nat} (h : create param isCanStart c parseLink now = some s) : s.Sound := by
  obtain ⟨s', hs' | hstart, rfl⟩ := create_cases h
  · have hne : TaskStatus.kWaitting ≠ .kDownloading := by decide
    subst hs'
    exact linkParse_sound (.aside hbt hne fun hv => by cases hv) _
  · have hcases := start_cases (s := { task := { param }, now }) hbt rfl rfl c
    rw [hstart] at hcases
    rcases hcases with ⟨-, hs'⟩ | ⟨herr, -⟩
    · exact linkParse_sound hs' _
    · exact absurd rfl herr

end CurlTask

/-- In every run in which transfers are not broken off, temporary files can be created and a task
whose transfer ended without a result is resumed after two minutes or more, a task that is
downloading has its transfer. -/
theorem run_live {param : TaskParam} (hbt : param.type.isBt = false) {isCanStart : Bool} {c : Call}
    {parseLink : DownloadErrorCode} {now : Nat} {s : CurlTask}
    (hs : CurlTask.create param isCanStart c parseLink now = some s) {es : List CurlTask.Event}
    (h : Along CurlTask.step CurlTask.Served s es) : (run CurlTask.step s es).Live :=
  (Along.run (I := CurlTask.Sound) (fun _ _ hs he => CurlTask.step_sound hs he) h (CurlTask.create_sound hbt hs)).live

namespace CurlTask

instance : DecidablePred Live := fun _ => inferInstanceAs (Decidable (_ → _))

instance : DecidablePred Resumable := fun _ => inferInstanceAs (Decidable (_ → _ → _ → _))

instance : DecidableRel Served
  | _, .resume .. | _, .restore .. => inferInstanceAs (Decidable ((_ → _) ∧ (_ → _ → _)))
  | _, .retry .. => inferInstanceAs (Decidable (_ → _))
  | _, .tick _ | _, .reStart _ => inferInstanceAs (Decidable (_ → _ → _))
  | _, .finish .. | _, .restart .. => inferInstanceAs (Decidable (_ → _))
  | _, .pause | _, .delete | _, .progress .. | _, .wait _ => isTrue trivial

end CurlTask

def pausedForLong : List CurlTask.Event :=
  [.progress 1000 10, .tick {}, .pause, .finish { curlCode := 18 } 10, .wait 300, .resume true {}, .reStart {},
    .progress 990 100, .tick {}]

theorem run_live_pausedForLong :
    (run CurlTask.step .startedLink pausedForLong).task.taskStatus = .kDownloading ∧
      (run CurlTask.step .startedLink pausedForLong).Live :=
  ⟨by decide +kernel, run_live rfl CurlTask.create_startedLink (by decide +kernel)⟩

/-- A server that closes the connection early leaves the task downloading without a transfer, for
ever. -/
theorem partialFile_not_live :
    CurlTask.create CurlTask.startedLink.task.param true {} .kNormal 1000 = some .startedLink ∧
      ¬ (run CurlTask.step .startedLink [.finish { curlCode := 18 } 0]).Live ∧
      ¬ (run CurlTask.step .startedLink [.finish { curlCode := 18 } 0, .tick {}, .wait 3600, .tick {}]).Live :=
  ⟨rfl, by decide +kernel, by decide +kernel⟩

end Nas.Download
