import NasServices.Download.UserSelfMgr.Request

/-!
# What a failed operation leaves

`Resume`, `Retry` and `Restore` change a task before they ask the engine, and do not take
that back when it refuses. A link task is set downloading before its download is started; a
task that is tried again has lost its error, its progress and its create time by then, and
is valid afterwards. `failsCleanly_iff` says exactly when a refused operation can be seen
on the task; `tryResume_cases` is the one place where the engine refuses.
-/

namespace Nas.Download

structure TaskBase.View where
  taskStatus : TaskStatus
  taskCategory : TaskCategory
  isValid : Bool
  errCode : DownloadErrorCode
  totalProgress : ℚ
  createTime : Int
  deriving DecidableEq

def TaskBase.view (t : TaskBase) : TaskBase.View where
  taskStatus := t.taskStatus
  taskCategory := t.taskCategory
  isValid := t.isValid
  errCode := t.errCode
  totalProgress := t.totalProgress
  createTime := t.createTime

inductive Recovery
  | resume
  | retry
  | restore
  deriving DecidableEq

/-- The operation clears the task before it asks the engine. -/
def Recovery.Retries (op : Recovery) (t : TaskBase) : Prop :=
  t.hasImpl = true ∧
    match op with
    | .resume => t.taskStatus = .kFailed
    | .retry => t.taskStatus = .kFailed ∨ t.isValid = false
    | .restore => t.taskStatus = .kDeleted ∧ t.isValid = false

def Recovery.Continues (op : Recovery) (t : TaskBase) : Prop :=
  match op with
  | .resume => t.taskStatus = .kPaused ∧ ¬ (t.param.type = .kMagnet ∧ t.isParseFinish = false)
  | .retry => False
  | .restore => t.taskStatus = .kDeleted ∧ t.isValid = true ∧ t.hasImpl = true ∧
      (t.preStatus = .kWaitting ∨ t.preStatus = .kDownloading)

def Recovery.Unmarked (op : Recovery) (t : TaskBase) (a : Answer) : Prop :=
  t.errCode = .kNormal ∧ t.totalProgress = 0 ∧ t.createTime = a.now ∧ (op = .resume ∨ t.isValid = true)

def TaskBase.cleared (t : TaskBase) (a : Answer) : TaskBase :=
  { t.setCreateTimeStamp a with errCode := .kNormal, totalProgress := 0, isRetry := true }

theorem TaskBase.retry_eq_cleared {t : TaskBase} (h : t.hasImpl = true) (a : Answer) : t.retry a = (t.cleared a, true) := by
  simp [TaskBase.retry, TaskBase.cleared, h]

theorem TaskBase.retry_eq_self {t : TaskBase} (h : t.hasImpl = false) (a : Answer) : t.retry a = (t, false) := by
  simp [TaskBase.retry, h]

namespace UserSelfMgr

def recover (m : UserSelfMgr) (op : Recovery) (id : String) (a : Answer) : UserSelfMgr × DownloadErrorCode :=
  match op with
  | .resume => m.execResumeOperate id a
  | .retry => m.execRetryOperate id a
  | .restore => if m.hasStatus (· == .kDeleted) id then m.execRestoreOperate id a else (m, .kNormal)

variable {m : UserSelfMgr} {id : String} {t : TaskBase} {a : Answer}

/-! ## Where the engine refuses -/

def ResumeRefused (m : UserSelfMgr) (t : TaskBase) (a : Answer) : Prop :=
  m.isCanStart = true ∧ t.isStarted = true ∧ (t.resume m.isBtAutoDownload a).2 = false

def StartRefused (m : UserSelfMgr) (t : TaskBase) (a : Answer) : Prop :=
  m.isCanStart = true ∧ t.isStarted = false ∧ t.param.type.isBt = false ∧ a.start ≠ .kNormal

/-- What an operation comes to that asks the engine for the task: it fails when the engine refuses and
only then, and leaves the task as `resumed` or as `started`. -/
inductive Asked (m : UserSelfMgr) (t : TaskBase) (a : Answer) (id : String) (resumed started : TaskBase)
    (r : UserSelfMgr × DownloadErrorCode) : Prop
  | granted (err : r.2 = .kNormal) (resume : ¬ ResumeRefused m t a) (start : ¬ StartRefused m t a)
  | resumeRefused (err : r.2 ≠ .kNormal) (refused : ResumeRefused m t a)
    (task : r.1.findTask id = some resumed)
  | startRefused (err : r.2 ≠ .kNormal) (refused : StartRefused m t a)
    (task : r.1.findTask id = some started)

/-- A refused `Start` has set the task downloading. -/
theorem startTask_cases (m : UserSelfMgr) (id : String) (hs : t.isStarted = false) (a : Answer) :
    ((m.startTask id t a).2 = .kNormal ∧ ¬ (t.param.type.isBt = false ∧ a.start ≠ .kNormal)) ∨
      ((m.startTask id t a).2 ≠ .kNormal ∧ (t.param.type.isBt = false ∧ a.start ≠ .kNormal) ∧
        (m.startTask id t a).1.findTask id = some (t.setTaskStatus .kDownloading)) := by
  have hfind : (m.startTask id t a).1.findTask id = some (t.start a.start).1 := findTask_setTask ..
  have herr : (m.startTask id t a).2 = (t.start a.start).2 := rfl
  rw [hfind, herr, TaskBase.start, hs]
  by_cases hbt : t.param.type.isBt = true
  · by_cases hret : a.start = .kNormal <;> simp [hbt, hret]
  · by_cases hret : a.start = .kNormal <;> simp [hbt, hret]

/-- A task that `TryResume` does not resume is as it was. -/
theorem tryResume_asked (m : UserSelfMgr) (id : String) (t : TaskBase) (a : Answer) :
    Asked m t a id t (t.setTaskStatus .kDownloading) (m.tryResume id t a) := by
  rw [tryResume]
  by_cases hcan : m.isCanStart = true
  · rw [if_pos hcan]
    by_cases hs : t.isStarted = true
    · rw [if_pos hs]
      have hnot : ¬ StartRefused m t a := fun h => absurd (hs.symm.trans h.2.1) (by decide)
      cases hret : (t.resume m.isBtAutoDownload a).2 with
      | true =>
        refine .granted ?_ (fun h => absurd (hret.symm.trans h.2.2) (by decide)) hnot
        show (if (t.resume m.isBtAutoDownload a).2 then DownloadErrorCode.kNormal else .kResumeTaskFailed) = _
        rw [hret, if_pos rfl]
      | false =>
        refine .resumeRefused ?_ ⟨hcan, hs, hret⟩ ?_
        · show (if (t.resume m.isBtAutoDownload a).2 then DownloadErrorCode.kNormal else .kResumeTaskFailed) ≠ _
          rw [hret]
          decide
        · show (m.setTask id (t.resume m.isBtAutoDownload a).1).findTask id = some t
          rw [TaskBase.resume_of_false hret, findTask_setTask]
    · rw [if_neg hs]
      have hs := Bool.eq_false_iff.mpr hs
      have hnot : ¬ ResumeRefused m t a := fun h => absurd (hs.symm.trans h.2.1) (by decide)
      rcases startTask_cases m id hs a with ⟨herr, h⟩ | ⟨herr, h, hfind⟩
      · exact .granted herr hnot fun hr => h hr.2.2
      · exact .startRefused herr ⟨hcan, hs, h⟩ hfind
  · rw [if_neg hcan]
    exact .granted rfl (fun h => hcan h.1) fun h => hcan h.1

theorem refused_cleared (ht : m.findTask id = some t) (a : Answer) :
    (ResumeRefused (m.setTask id (t.cleared a)) (t.cleared a) a ↔ ResumeRefused m t a) ∧
      (StartRefused (m.setTask id (t.cleared a)) (t.cleared a) a ↔ StartRefused m t a) := by
  have hcan : (m.setTask id (t.cleared a)).isCanStart = m.isCanStart := isCanStart_setTask ht rfl
  have hresume : ((t.cleared a).resume m.isBtAutoDownload a).2 = (t.resume m.isBtAutoDownload a).2 := by
    have hkind : ((t.cleared a).param.type.isBt && (t.cleared a).taskStatus == .kWaitting) =
        (t.param.type.isBt && t.taskStatus == .kWaitting) := rfl
    rw [TaskBase.resume, TaskBase.resume, hkind]
    split
    · rfl
    · split <;> rfl
  have hauto : (m.setTask id (t.cleared a)).isBtAutoDownload = m.isBtAutoDownload := rfl
  constructor
  · rw [ResumeRefused, ResumeRefused, hcan, hauto, hresume]
    rfl
  · rw [StartRefused, StartRefused, hcan]
    rfl

/-! ## What is seen of a failure -/

def Clean (id : String) (t : TaskBase) (r : UserSelfMgr × DownloadErrorCode) : Prop :=
  r.2 ≠ .kNormal → ∃ t', r.1.findTask id = some t' ∧ t'.view = t.view

theorem clean_of_kNormal {r : UserSelfMgr × DownloadErrorCode} (h : r.2 = .kNormal) : Clean id t r :=
  fun herr => absurd h herr

theorem clean_self (ht : m.findTask id = some t) (err : DownloadErrorCode) : Clean id t (m, err) :=
  fun _ => ⟨t, ht, rfl⟩

/-- An operation that fails when the engine refuses is clean if a refused start never happens and
a refused resume cannot be seen. -/
theorem Asked.clean_iff {r : UserSelfMgr × DownloadErrorCode} {resumed started : TaskBase}
    (h : Asked m t a id resumed started r) (hstarted : started.view ≠ t.view) :
    Clean id t r ↔ ¬ StartRefused m t a ∧ (ResumeRefused m t a → resumed.view = t.view) := by
  rcases h with ⟨herr, hr, hs⟩ | ⟨herr, hr, hfind⟩ | ⟨herr, hs, hfind⟩
  · exact iff_of_true (clean_of_kNormal herr) ⟨hs, fun h => absurd h hr⟩
  · have hs : ¬ StartRefused m t a := fun hs => absurd (hr.2.1.symm.trans hs.2.1) (by decide)
    constructor
    · intro hclean
      obtain ⟨t', hfind', hview⟩ := hclean herr
      obtain rfl := Option.some.inj (hfind.symm.trans hfind')
      exact ⟨hs, fun _ => hview⟩
    · exact fun hview _ => ⟨resumed, hfind, hview.2 hr⟩
  · refine iff_of_false (fun hclean => ?_) fun h => h.1 hs
    obtain ⟨t', hfind', hview⟩ := hclean herr
    obtain rfl := Option.some.inj (hfind.symm.trans hfind')
    exact hstarted hview

/-- The engine does not refuse to start a link task, and if it refuses to resume a task that the
operation has cleared there was nothing to clear. -/
structure Unseen (m : UserSelfMgr) (op : Recovery) (t : TaskBase) (a : Answer) : Prop where
  start : op.Retries t ∨ op.Continues t → ¬ StartRefused m t a
  resume : op.Retries t → ResumeRefused m t a → op.Unmarked t a

theorem unseen_of_not {op : Recovery} (hr : ¬ op.Retries t) (hc : ¬ op.Continues t) : Unseen m op t a :=
  ⟨fun h => absurd h (not_or.mpr ⟨hr, hc⟩), fun h => absurd h hr⟩

theorem unseen_continues_iff {op : Recovery} (hr : ¬ op.Retries t) (hc : op.Continues t) :
    Unseen m op t a ↔ ¬ StartRefused m t a :=
  ⟨fun h => h.start (.inr hc), fun h => ⟨fun _ => h, fun h => absurd h hr⟩⟩

theorem unseen_retries_iff {op : Recovery} (hr : op.Retries t) :
    Unseen m op t a ↔ ¬ StartRefused m t a ∧ (ResumeRefused m t a → op.Unmarked t a) :=
  ⟨fun h => ⟨h.start (.inl hr), h.resume hr⟩, fun h => ⟨fun _ => h.1, fun _ => h.2⟩⟩

theorem view_setTaskStatus_ne {s : TaskStatus} (t' : TaskBase) (h : t.taskStatus ≠ s) :
    (t'.setTaskStatus s).view ≠ t.view :=
  fun hview => h (congrArg TaskBase.View.taskStatus hview).symm

theorem view_cleared_iff (t : TaskBase) (a : Answer) :
    (t.cleared a).view = t.view ↔ t.errCode = .kNormal ∧ t.totalProgress = 0 ∧ t.createTime = a.now := by
  constructor
  · intro h
    exact ⟨(congrArg TaskBase.View.errCode h).symm, (congrArg TaskBase.View.totalProgress h).symm,
      (congrArg TaskBase.View.createTime h).symm⟩
  · rintro ⟨herr, hprogress, htime⟩
    show TaskBase.View.mk t.taskStatus t.taskCategory t.isValid .kNormal 0 a.now = TaskBase.view t
    rw [← herr, ← hprogress, ← htime]
    rfl

theorem tryResume_cleared_asked (ht : m.findTask id = some t) (a : Answer) :
    Asked m t a id (t.cleared a) ((t.cleared a).setTaskStatus .kDownloading)
      ((m.setTask id (t.cleared a)).tryResume id (t.cleared a) a) := by
  obtain ⟨hresume, hstart⟩ := refused_cleared ht a
  rcases tryResume_asked (m.setTask id (t.cleared a)) id (t.cleared a) a with
    ⟨herr, hr, hs⟩ | ⟨herr, hr, hfind⟩ | ⟨herr, hs, hfind⟩
  · exact .granted herr (mt hresume.mpr hr) (mt hstart.mpr hs)
  · exact .resumeRefused herr (hresume.mp hr) hfind
  · exact .startRefused herr (hstart.mp hs) hfind

theorem findTask_setIsValid {t' : TaskBase} (h : m.findTask id = some t') :
    (m.setIsValid id).findTask id = some { t' with isValid := true } := by
  rw [setIsValid, h]
  exact findTask_setTask ..

theorem Asked.setIsValid {r : UserSelfMgr × DownloadErrorCode} {resumed started : TaskBase}
    (h : Asked m t a id resumed started r) :
    Asked m t a id { resumed with isValid := true } { started with isValid := true }
      (r.1.setIsValid id, r.2) := by
  rcases h with ⟨herr, hr, hs⟩ | ⟨herr, hr, hfind⟩ | ⟨herr, hs, hfind⟩
  · exact .granted herr hr hs
  · exact .resumeRefused herr hr (findTask_setIsValid hfind)
  · exact .startRefused herr hs (findTask_setIsValid hfind)

/-! ## The operations -/

theorem unseen_resume_of_ne (hpaused : t.taskStatus ≠ .kPaused) (hfailed : t.taskStatus ≠ .kFailed) :
    Unseen m .resume t a :=
  unseen_of_not (fun h => hfailed h.2) fun h => hpaused h.1

theorem execResumeOperate_clean_of_failed (ht : m.findTask id = some t) (hst : t.taskStatus = .kFailed)
    (a : Answer) : Clean id t (m.execResumeOperate id a) ↔ Unseen m .resume t a := by
  rw [execResumeOperate, ht]
  dsimp only
  rw [hst]
  dsimp only
  cases himpl : t.hasImpl with
  | false =>
    rw [TaskBase.retry_eq_self himpl]
    refine iff_of_true (clean_of_kNormal rfl) (unseen_of_not ?_ ?_)
    · exact fun h => absurd (himpl.symm.trans h.1) (by decide)
    · exact fun h => absurd (hst.symm.trans h.1) (by decide)
  | true =>
    rw [TaskBase.retry_eq_cleared himpl, unseen_retries_iff ⟨himpl, hst⟩]
    dsimp only
    rw [(tryResume_cleared_asked ht a).clean_iff (view_setTaskStatus_ne _ (by rw [hst]; decide)),
      view_cleared_iff]
    simp [Recovery.Unmarked]

/-- A finished torrent that the engine does not resume is left as it was. -/
theorem clean_resume (m : UserSelfMgr) (id : String) (t : TaskBase) (a : Answer) :
    Clean id t (match t.resume m.isBtAutoDownload a with
      | (t, true) => (m.setTask id (t.setTaskStatus .kSeeding), .kNormal)
      | (t, false) => (m.setTask id t, .kResumeTaskFailed)) := by
  cases hret : t.resume m.isBtAutoDownload a with
  | mk t' ret =>
    cases ret with
    | true => exact clean_of_kNormal rfl
    | false =>
      have hself := TaskBase.resume_of_false (congrArg Prod.snd hret)
      rw [hret] at hself
      exact fun _ => ⟨t', findTask_setTask .., congrArg TaskBase.view hself⟩

theorem execResumeOperate_clean (ht : m.findTask id = some t) (a : Answer) :
    Clean id t (m.execResumeOperate id a) ↔ Unseen m .resume t a := by
  by_cases hfailed : t.taskStatus = .kFailed
  · exact execResumeOperate_clean_of_failed ht hfailed a
  rw [execResumeOperate, ht]
  dsimp only
  split
  · rename_i hst
    have hr : ¬ Recovery.resume.Retries t := fun h => hfailed h.2
    by_cases hmagnet : t.param.type = .kMagnet ∧ t.isParseFinish = false
    · rw [if_pos hmagnet]
      exact iff_of_true (clean_of_kNormal rfl) (unseen_of_not hr fun h => h.2 hmagnet)
    · rw [if_neg hmagnet, unseen_continues_iff hr ⟨hst, hmagnet⟩,
        (tryResume_asked m id t a).clean_iff (view_setTaskStatus_ne t (by rw [hst]; decide))]
      exact and_iff_left fun _ => rfl
  · rename_i hst
    exact absurd hst hfailed
  · rename_i hst
    refine iff_of_true ?_ (unseen_resume_of_ne (by rw [hst]; decide) hfailed)
    split
    · exact clean_resume m id t a
    · exact clean_self ht _
  · rename_i hpaused _ _
    exact iff_of_true (clean_self ht _) (unseen_resume_of_ne hpaused hfailed)

theorem execRetryOperate_clean_of_hasImpl (ht : m.findTask id = some t) (himpl : t.hasImpl = true)
    (hretry : t.taskStatus = .kFailed ∨ t.isValid = false) (a : Answer) :
    Clean id t (m.execRetryOperate id a) ↔
      ¬ StartRefused m t a ∧ (ResumeRefused m t a → Recovery.retry.Unmarked t a) := by
  have hexec : m.execRetryOperate id a =
      ((((m.setTask id (t.cleared a)).tryResume id (t.cleared a) a).1.setIsValid id),
        ((m.setTask id (t.cleared a)).tryResume id (t.cleared a) a).2) := by
    rw [execRetryOperate, ht]
    dsimp only
    rw [if_pos hretry, TaskBase.retry_eq_cleared himpl]
  have hstarted : TaskBase.view { (t.cleared a).setTaskStatus .kDownloading with isValid := true } ≠
      t.view := by
    intro hview
    have hst : TaskStatus.kDownloading = t.taskStatus := congrArg TaskBase.View.taskStatus hview
    have hvalid : true = t.isValid := congrArg TaskBase.View.isValid hview
    rw [← hst, ← hvalid] at hretry
    exact absurd hretry (by decide)
  have hresumed : TaskBase.view { t.cleared a with isValid := true } = t.view ↔
      Recovery.retry.Unmarked t a := by
    constructor
    · intro hview
      have hvalid : true = t.isValid := congrArg TaskBase.View.isValid hview
      exact ⟨(congrArg TaskBase.View.errCode hview).symm, (congrArg TaskBase.View.totalProgress hview).symm,
        (congrArg TaskBase.View.createTime hview).symm, .inr hvalid.symm⟩
    · rintro ⟨herr, hprogress, htime, hvalid⟩
      have hvalid : t.isValid = true := hvalid.resolve_left (by decide)
      show TaskBase.View.mk t.taskStatus t.taskCategory true .kNormal 0 a.now = t.view
      rw [← herr, ← hprogress, ← htime, ← hvalid]
      rfl
  rw [hexec, (tryResume_cleared_asked ht a).setIsValid.clean_iff hstarted, hresumed]

theorem execRetryOperate_clean (ht : m.findTask id = some t) (a : Answer) :
    Clean id t (m.execRetryOperate id a) ↔ Unseen m .retry t a := by
  by_cases hretry : t.taskStatus = .kFailed ∨ t.isValid = false
  · cases himpl : t.hasImpl with
    | false =>
      have hr : ¬ Recovery.retry.Retries t := fun h => absurd (himpl.symm.trans h.1) (by decide)
      rw [execRetryOperate, ht]
      dsimp only
      rw [if_pos hretry, TaskBase.retry_eq_self himpl]
      exact iff_of_true (clean_of_kNormal rfl) (unseen_of_not hr not_false)
    | true => rw [execRetryOperate_clean_of_hasImpl ht himpl hretry a, unseen_retries_iff ⟨himpl, hretry⟩]
  · rw [execRetryOperate, ht]
    dsimp only
    rw [if_neg hretry]
    exact iff_of_true (clean_of_kNormal rfl) (unseen_of_not (fun h => hretry h.2) not_false)

theorem restore_taskStatus_ne_kWaitting (himpl : t.hasImpl = true) (hw : t.preStatus ≠ .kWaitting)
    (hd : t.preStatus ≠ .kDownloading) (isBtAutoDownload : Bool) (a : Answer) :
    (t.restore isBtAutoDownload a).2 = true ∧
      (t.restore isBtAutoDownload a).1.taskStatus ≠ .kWaitting := by
  rw [TaskBase.restore, himpl]
  simp only [Bool.not_true, Bool.false_eq_true, if_false]
  split
  case h_5 =>
    refine ⟨rfl, ?_⟩
    show (TaskBase.resume _ isBtAutoDownload a).1.taskStatus ≠ .kWaitting
    simp only [TaskBase.resume]
    split
    · simp
    · split <;> simp
  case h_6 hpre => exact absurd hpre hw
  case h_7 hpre => exact absurd hpre hd
  case h_8 => split <;> simp
  all_goals exact ⟨rfl, by simp [TaskBase.setCreateTimeStamp]⟩

theorem restore_kWaitting (himpl : t.hasImpl = true) (hpre : t.preStatus = .kWaitting ∨ t.preStatus = .kDownloading)
    (isBtAutoDownload : Bool) (a : Answer) :
    t.restore isBtAutoDownload a = ((t.setTaskStatus .kWaitting).setCreateTimeStamp a, true) := by
  rcases hpre with hpre | hpre <;> simp [TaskBase.restore, himpl, hpre]

/-- `Restore` of a task that waits afterwards: the answer of a resumed engine is not looked at. -/
theorem execRestoreOperate_clean_of_continues (ht : m.findTask id = some t) (hc : Recovery.restore.Continues t)
    (a : Answer) : Clean id t (m.execRestoreOperate id a) ↔ ¬ StartRefused m t a := by
  obtain ⟨hst, hvalid, himpl, hpre⟩ := hc
  have hcan : (m.setTask id ((t.setTaskStatus .kWaitting).setCreateTimeStamp a)).isCanStart = m.isCanStart :=
    isCanStart_setTask ht (by simp [slot, TaskBase.setCreateTimeStamp, hst])
  rw [execRestoreOperate, ht]
  dsimp only
  rw [if_pos hvalid, restore_kWaitting himpl hpre, hcan]
  dsimp only
  by_cases hroom : m.isCanStart = true
  · rw [if_pos ⟨rfl, hroom⟩]
    cases hs : t.isStarted with
    | true =>
      rw [if_pos (show ((t.setTaskStatus .kWaitting).setCreateTimeStamp a).isStarted = true from hs)]
      exact iff_of_true (clean_of_kNormal rfl) fun h => absurd (hs.symm.trans h.2.1) (by decide)
    | false =>
      have hs' : ((t.setTaskStatus .kWaitting).setCreateTimeStamp a).isStarted = false := hs
      rw [if_neg (by rw [hs']; decide)]
      rcases startTask_cases (m.setTask id ((t.setTaskStatus .kWaitting).setCreateTimeStamp a)) id hs' a with
        ⟨herr, h⟩ | ⟨herr, h, hfind⟩
      · exact iff_of_true (clean_of_kNormal herr) fun hr => h hr.2.2
      · refine iff_of_false (fun hclean => ?_) fun hr => hr ⟨hroom, hs, h⟩
        obtain ⟨t', hfind', hview⟩ := hclean herr
        obtain rfl := Option.some.inj (hfind.symm.trans hfind')
        exact view_setTaskStatus_ne _ (by rw [hst]; decide) hview
  · rw [if_neg fun h => hroom h.2]
    exact iff_of_true (clean_of_kNormal rfl) fun h => hroom h.1

theorem execRestoreOperate_clean (ht : m.findTask id = some t) (hst : t.taskStatus = .kDeleted) (a : Answer) :
    Clean id t (m.execRestoreOperate id a) ↔ Unseen m .restore t a := by
  cases hvalid : t.isValid with
  | false =>
    have hc : ¬ Recovery.restore.Continues t := fun h => absurd (hvalid.symm.trans h.2.1) (by decide)
    have hexec : m.execRestoreOperate id a = m.execRetryOperate id a := by
      rw [execRestoreOperate, ht]
      dsimp only
      rw [if_neg (by rw [hvalid]; decide)]
    rw [hexec]
    cases himpl : t.hasImpl with
    | false =>
      have hr (op : Recovery) : ¬ op.Retries t := fun h => absurd (himpl.symm.trans h.1) (by decide)
      exact iff_of_true ((execRetryOperate_clean ht a).mpr (unseen_of_not (hr _) not_false))
        (unseen_of_not (hr _) hc)
    | true =>
      have hr : Recovery.restore.Retries t := ⟨himpl, hst, hvalid⟩
      rw [execRetryOperate_clean_of_hasImpl ht himpl (.inr hvalid) a, unseen_retries_iff hr]
      simp [Recovery.Unmarked]
  | true =>
    have hr : ¬ Recovery.restore.Retries t := fun h => absurd (hvalid.symm.trans h.2.2) (by decide)
    by_cases hc : Recovery.restore.Continues t
    · rw [execRestoreOperate_clean_of_continues ht hc a, unseen_continues_iff hr hc]
    · refine iff_of_true ?_ (unseen_of_not hr hc)
      rw [execRestoreOperate, ht]
      dsimp only
      rw [if_pos hvalid]
      cases himpl : t.hasImpl with
      | false =>
        have hself : t.restore m.isBtAutoDownload a = (t, false) := by simp [TaskBase.restore, himpl]
        rw [hself]
        dsimp only
        rw [if_neg fun h => absurd (hst.symm.trans h.1) (by decide)]
        exact fun _ => ⟨t, findTask_setTask .., rfl⟩
      | true =>
        have hpre : ¬ (t.preStatus = .kWaitting ∨ t.preStatus = .kDownloading) :=
          fun h => hc ⟨hst, hvalid, himpl, h⟩
        obtain ⟨hret, hnot⟩ := restore_taskStatus_ne_kWaitting himpl (fun h => hpre (.inl h))
          (fun h => hpre (.inr h)) m.isBtAutoDownload a
        rw [if_neg fun h => hnot h.1]
        exact clean_of_kNormal (if_pos hret)

/-- A failed operation cannot be seen on the task exactly when no link task is refused its start, and
no task that was cleared for it is refused to be resumed. -/
theorem failsCleanly_iff (m : UserSelfMgr) (op : Recovery) (id : String) (a : Answer) :
    (∀ t, m.findTask id = some t → Clean id t (m.recover op id a)) ↔
      ∀ t, m.findTask id = some t → Unseen m op t a := by
  refine forall_congr' fun t => forall_congr' fun ht => ?_
  cases op with
  | resume => exact execResumeOperate_clean ht a
  | retry => exact execRetryOperate_clean ht a
  | restore =>
    have hguard : m.hasStatus (· == .kDeleted) id = (t.taskStatus == .kDeleted) := by rw [hasStatus, ht]
    rw [recover, hguard]
    by_cases hst : t.taskStatus = .kDeleted
    · rw [if_pos (by rw [hst]; rfl)]
      exact execRestoreOperate_clean ht hst a
    · rw [if_neg (by simpa using hst)]
      exact iff_of_true (clean_of_kNormal rfl) (unseen_of_not (fun h => hst h.2.1) fun h => hst h.1)

def single (t : TaskBase) : UserSelfMgr := { userId := "u", taskList := AList.singleton "1" t }

def pausedTask : TaskBase where
  param := { id := "1", url := "http://a/f", type := .kHttp }
  taskStatus := .kPaused

def failedTask : TaskBase where
  param := { id := "1", url := "http://a/f", type := .kHttp }
  taskStatus := .kFailed
  isStarted := true
  totalProgress := 50
  errCode := .kPerformCurlFailed
  createTime := 7

/-- The paused task is downloading after the engine has refused to start it; the failed one has lost its
error, its progress and its create time after the engine has refused to resume it. -/
theorem refused_seen :
    let m := (single pausedTask).recover .resume "1" { start := .kCreateFileFailed }
    let m' := (single failedTask).recover .resume "1" { now := 9, resume := false }
    (m.2 = .kCreateFileFailed ∧ (m.1.findTask "1").map (·.taskStatus) = some .kDownloading ∧
        ¬ Clean "1" pausedTask m) ∧
      m'.2 = .kResumeTaskFailed ∧
        (m'.1.findTask "1").map (fun t => (t.errCode, t.totalProgress, t.createTime)) = some (.kNormal, 0, 9) ∧
        ¬ Clean "1" failedTask m' := by
  have hdirty {r : UserSelfMgr × DownloadErrorCode} {t : TaskBase} (herr : r.2 ≠ .kNormal)
      (hview : (r.1.findTask "1").map TaskBase.view ≠ some t.view) : ¬ Clean "1" t r := by
    intro hclean
    obtain ⟨t', hfind, heq⟩ := hclean herr
    rw [hfind] at hview
    exact hview (congrArg some heq)
  refine ⟨⟨by decide +kernel, by decide +kernel, hdirty ?_ ?_⟩,
    by decide +kernel, by decide +kernel, hdirty ?_ ?_⟩
  all_goals decide +kernel

end UserSelfMgr

end Nas.Download
