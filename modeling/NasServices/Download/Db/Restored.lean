import NasServices.Download.Db.Reload

/-!
# Restoring a task after a restart

`Restore` goes back to the status the task had before it was deleted. That
status is kept in memory only: a reloaded task is restored as one that was
waiting. `restored_after_restart_iff` says for which tasks this is the same.
-/

namespace Nas.Download

open Lib UserSelfMgr
open TaskBase (Row)

variable {m : UserSelfMgr} {rows : List Row} {id : String} {t t' : TaskBase}

def restoredStatus (m : UserSelfMgr) (id : String) (a : Answer) : Option TaskStatus :=
  ((m.step (.restore [id] [id] fun _ => a)).findTask id).map (·.taskStatus)

def wokenStatus (isCanStart isBtAutoDownload isBt isStarted : Bool) (a : Answer) : TaskStatus :=
  if !isCanStart then .kWaitting
  else if isStarted then
    if isBt && !isBtAutoDownload then .kPaused else if a.resume then .kDownloading else .kWaitting
  else if isBt then .kWaitting else .kDownloading

section

variable {isCanStart isBtAutoDownload isBt isStarted : Bool} {a : Answer}

theorem wokenStatus_cases (isCanStart isBtAutoDownload isBt isStarted : Bool) (a : Answer) :
    wokenStatus isCanStart isBtAutoDownload isBt isStarted a ∈
      [TaskStatus.kWaitting, .kPaused, .kDownloading] := by
  unfold wokenStatus
  split_ifs <;> decide

theorem wokenStatus_eq_kPaused_iff :
    wokenStatus isCanStart isBtAutoDownload isBt isStarted a = .kPaused ↔
      isCanStart = true ∧ isStarted = true ∧ isBt = true ∧ isBtAutoDownload = false := by
  unfold wokenStatus
  split_ifs <;> simp_all

theorem wokenStatus_eq_kDownloading_iff (h : a.resume = true) :
    wokenStatus isCanStart isBtAutoDownload isBt isStarted a = .kDownloading ↔
      isCanStart = true ∧ if isStarted then isBt = true → isBtAutoDownload = true else isBt = false := by
  unfold wokenStatus
  split_ifs <;> simp_all

theorem wokenStatus_eq_wokenStatus_iff {isBt' : Bool} :
    wokenStatus isCanStart isBtAutoDownload isBt isStarted a =
      wokenStatus isCanStart isBtAutoDownload isBt' isStarted a ↔
    isBt = isBt' ∨ isCanStart = false ∨ (isStarted = true ∧ isBtAutoDownload = true) := by
  unfold wokenStatus
  cases isBt <;> cases isBt' <;> split_ifs <;> simp_all

end

def statusAfterRestore (isCanStart isBtAutoDownload : Bool) (t : TaskBase) (a : Answer) : TaskStatus :=
  if !t.hasImpl then .kDeleted
  else match t.preStatus with
    | .kFinished => .kFinished
    | .kParsing => .kParsing
    | .kPaused => .kPaused
    | .kSeeding => .kSeeding
    | .kFailed => if a.resume then .kDownloading else .kFailed
    | .kWaitting | .kDownloading => wokenStatus isCanStart isBtAutoDownload t.param.type.isBt t.isStarted a
    | _ => if t.isDownloadFinished then .kFinished else .kPaused

/-! ## The two requests -/

theorem resume_taskStatus_of_waitting (h : t.taskStatus = .kWaitting) (isBtAutoDownload : Bool) (a : Answer) :
    (t.resume isBtAutoDownload a).1.taskStatus =
      wokenStatus true isBtAutoDownload t.param.type.isBt true a := by
  cases hb : t.param.type.isBt <;> cases isBtAutoDownload <;> cases hr : a.resume <;>
    simp [TaskBase.resume, wokenStatus, h, hb, hr]

theorem resume_taskStatus_of_ne (h : t.taskStatus ≠ .kWaitting) (isBtAutoDownload : Bool) (a : Answer) :
    (t.resume isBtAutoDownload a).1.taskStatus = if a.resume then .kDownloading else t.taskStatus := by
  cases hr : a.resume <;> simp [TaskBase.resume, h, hr]

theorem start_taskStatus_of_waitting (h : t.taskStatus = .kWaitting) (hs : t.isStarted = false)
    (isBtAutoDownload : Bool) (a : Answer) :
    (t.start a.start).1.taskStatus = wokenStatus true isBtAutoDownload t.param.type.isBt false a := by
  cases hb : t.param.type.isBt with
  | true => simp [TaskBase.start_taskStatus_of_isBt hb, wokenStatus, h]
  | false =>
    by_cases ha : a.start = .kNormal <;> simp [TaskBase.start, wokenStatus, hs, hb, ha]

theorem restoredStatus_exec (ht : m.findTask id = some t) (hd : t.taskStatus = .kDeleted) (a : Answer) :
    restoredStatus m id a = ((m.execRestoreOperate id a).1.findTask id).map (·.taskStatus) := by
  have hrounds : matching [id] [id] = [id] := by simp [matching]
  have hcond : hasStatus (· == .kDeleted) m id = true := by simp [hasStatus, ht, hd]
  simp only [restoredStatus, step, restore, hrounds, forEach_cons, forEach_nil, operate, hcond, if_true]

theorem findTask_resumeTask (m : UserSelfMgr) (id : String) (t : TaskBase) (a : Answer) :
    (m.resumeTask id t a).1.findTask id = some (t.resume m.isBtAutoDownload a).1 :=
  findTask_setTask ..

theorem findTask_startTask (m : UserSelfMgr) (id : String) (t : TaskBase) (a : Answer) :
    (m.startTask id t a).1.findTask id = some (t.start a.start).1 :=
  findTask_setTask ..

theorem execRestoreOperate_waitting (ht : m.findTask id = some t) (hd : t.taskStatus = .kDeleted)
    (hv : t.isValid = true) (himpl : t.hasImpl = true)
    (hpre : t.preStatus = .kWaitting ∨ t.preStatus = .kDownloading) (a : Answer) :
    ((m.execRestoreOperate id a).1.findTask id).map (·.taskStatus) =
      some (wokenStatus m.isCanStart m.isBtAutoDownload t.param.type.isBt t.isStarted a) := by
  have hrestore : t.restore m.isBtAutoDownload a = ((t.setTaskStatus .kWaitting).setCreateTimeStamp a, true) := by
    rcases hpre with hpre | hpre <;> simp [TaskBase.restore, himpl, hpre]
  have hcan : (m.setTask id ((t.setTaskStatus .kWaitting).setCreateTimeStamp a)).isCanStart = m.isCanStart :=
    isCanStart_setTask ht (by simp [slot, hd, TaskBase.setCreateTimeStamp])
  simp only [execRestoreOperate, ht, hv, hrestore, hcan, if_true]
  cases hc : m.isCanStart with
  | false => simp [wokenStatus, TaskBase.setCreateTimeStamp]
  | true =>
    rw [if_pos ⟨rfl, rfl⟩]
    cases hs : t.isStarted with
    | true =>
      rw [if_pos (by exact hs), findTask_resumeTask, Option.map_some, resume_taskStatus_of_waitting rfl]
      rfl
    | false =>
      rw [if_neg (by simp [TaskBase.setCreateTimeStamp, hs]), findTask_startTask, Option.map_some,
        start_taskStatus_of_waitting rfl (by exact hs)]
      rfl

theorem restoredStatus_eq (ht : m.findTask id = some t) (hd : t.taskStatus = .kDeleted)
    (hv : t.isValid = true) (a : Answer) :
    restoredStatus m id a = some (statusAfterRestore m.isCanStart m.isBtAutoDownload t a) := by
  rw [restoredStatus_exec ht hd]
  cases himpl : t.hasImpl with
  | false =>
    have hrestore : t.restore m.isBtAutoDownload a = (t, false) := by simp [TaskBase.restore, himpl]
    simp [execRestoreOperate, ht, hv, hrestore, hd, statusAfterRestore, himpl]
  | true =>
    by_cases hpre : t.preStatus = .kWaitting ∨ t.preStatus = .kDownloading
    · rw [execRestoreOperate_waitting ht hd hv himpl hpre]
      rcases hpre with hpre | hpre <;> simp [statusAfterRestore, himpl, hpre]
    · -- every other former status is set at once, and is not `kWaitting`
      have hst : (t.restore m.isBtAutoDownload a).1.taskStatus =
          statusAfterRestore m.isCanStart m.isBtAutoDownload t a := by
        have hfailed : ({ t.setTaskStatus .kFailed with
            taskCategory := .kDownloadingTask } : TaskBase).taskStatus ≠ .kWaitting := by simp
        cases hp : t.preStatus with
        | kWaitting => exact absurd (.inl hp) hpre
        | kDownloading => exact absurd (.inr hp) hpre
        | kFailed =>
          simp only [TaskBase.restore, statusAfterRestore, himpl, hp]
          exact resume_taskStatus_of_ne hfailed m.isBtAutoDownload a
        | kDeleted | kCompletedDeleted | kChecking =>
          simp only [TaskBase.restore, statusAfterRestore, himpl, hp]
          cases t.isDownloadFinished <;> simp
        | _ => simp [TaskBase.restore, statusAfterRestore, himpl, hp, TaskBase.setCreateTimeStamp]
      have hne : statusAfterRestore m.isCanStart m.isBtAutoDownload t a ≠ .kWaitting := by
        cases hp : t.preStatus with
        | kWaitting => exact absurd (.inl hp) hpre
        | kDownloading => exact absurd (.inr hp) hpre
        | kFailed => cases hr : a.resume <;> simp [statusAfterRestore, himpl, hp, hr]
        | kDeleted | kCompletedDeleted | kChecking =>
          cases hf : t.isDownloadFinished <;> simp [statusAfterRestore, himpl, hp, hf]
        | _ => simp [statusAfterRestore, himpl, hp]
      simp [execRestoreOperate, ht, hv, hst, hne]

/-- The restart makes no difference to `Restore`: the task was waiting or downloading before it was
deleted, or it is resumed or paused in the same way for another reason. -/
def RestoresAlike (isCanStart isBtAutoDownload : Bool) (t : TaskBase) (isBt : Bool) (a : Answer) : Prop :=
  t.hasImpl = true ∧ match t.preStatus with
    | .kWaitting | .kDownloading =>
      isBt = t.param.type.isBt ∨ isCanStart = false ∨ (t.isStarted = true ∧ isBtAutoDownload = true)
    | .kPaused => isCanStart = true ∧ t.isStarted = true ∧ isBt = true ∧ isBtAutoDownload = false
    | .kFailed =>
      a.resume = true ∧ isCanStart = true ∧
        if t.isStarted then isBt = true → isBtAutoDownload = true else isBt = false
    | .kFinished | .kParsing | .kSeeding => False
    | _ =>
      t.isDownloadFinished = false ∧ isCanStart = true ∧ t.isStarted = true ∧ isBt = true ∧
        isBtAutoDownload = false

theorem statusAfterRestore_eq_iff (isCanStart isBtAutoDownload : Bool) (t : TaskBase) (isBt : Bool)
    (a : Answer) :
    wokenStatus isCanStart isBtAutoDownload isBt t.isStarted a =
      statusAfterRestore isCanStart isBtAutoDownload t a ↔
    RestoresAlike isCanStart isBtAutoDownload t isBt a := by
  have hne := wokenStatus_cases isCanStart isBtAutoDownload isBt t.isStarted a
  cases himpl : t.hasImpl with
  | false => simpa [RestoresAlike, statusAfterRestore, himpl] using fun h => by simp [h] at hne
  | true =>
    cases hp : t.preStatus with
    | kWaitting | kDownloading =>
      simp only [RestoresAlike, statusAfterRestore, himpl, hp, true_and]
      exact wokenStatus_eq_wokenStatus_iff ..
    | kPaused =>
      simp only [RestoresAlike, statusAfterRestore, himpl, hp, true_and]
      exact wokenStatus_eq_kPaused_iff ..
    | kFailed =>
      simp only [RestoresAlike, statusAfterRestore, himpl, hp, true_and]
      cases hr : a.resume with
      | true => simpa using wokenStatus_eq_kDownloading_iff hr
      | false => simpa using fun h => by simp [h] at hne
    | kFinished | kParsing | kSeeding =>
      simpa [RestoresAlike, statusAfterRestore, himpl, hp] using fun h => by simp [h] at hne
    | kDeleted | kCompletedDeleted | kChecking =>
      simp only [RestoresAlike, statusAfterRestore, himpl, hp, true_and]
      cases t.isDownloadFinished with
      | true => simpa using fun h => by simp [h] at hne
      | false => simpa using wokenStatus_eq_kPaused_iff ..

/-! ## After the restart -/

theorem resumeDataFromDb_ofTask (hd : t.taskStatus = .kDeleted) (param : TaskParam) (a : Answer) :
    (TaskBase.resumeDataFromDb (.ofTask t) param a).hasImpl = true ∧
    (TaskBase.resumeDataFromDb (.ofTask t) param a).isValid = true ∧
    (TaskBase.resumeDataFromDb (.ofTask t) param a).isStarted = t.isStarted := by
  have hne : (Row.ofTask t).taskStatus ≠ .kDownloading := by simp [Row.ofTask, hd]
  unfold TaskBase.resumeDataFromDb
  dsimp only
  split
  · unfold TaskBase.parseTorrent
    split <;> exact ⟨rfl, rfl, rfl⟩
  · rw [if_neg fun h => hne h.1]
    exact ⟨rfl, rfl, rfl⟩

theorem isBtAutoDownload_restart (m : UserSelfMgr) (rows : List Row) (host : Nat → Host) :
    (m.restart rows host).isBtAutoDownload = m.isBtAutoDownload := by
  let cleared : UserSelfMgr := { m with taskList := ∅, refs := ∅, engine := [], parseQueue := [] }
  have hinit : cleared.isBtAutoDownload = m.isBtAutoDownload := rfl
  refine forEach_keep (I := fun m' : UserSelfMgr => m'.isBtAutoDownload = m.isBtAutoDownload)
    (fun m' r h _ hm' => ?_) hinit host
  have hrow := resumeRow_reloaded m' r h
  generalize m'.resumeRow r h = m'' at hrow
  cases hrow <;> exact hm'

/-- A recycled valid task is restored to the same status with and without a restart if and only
if the waiting status that the restart assumes makes no difference. -/
theorem restored_after_restart_iff (ht : m.findTask id = some t) (hd : t.taskStatus = .kDeleted)
    (hv : t.isValid = true) (hid : t.param.id = id) (hnodup : (rows.map Row.id).Nodup) {k : Nat}
    (hk : rows[k]? = some (.ofTask t)) {host : Nat → Host}
    (ht' : (m.restart rows host).findTask id = some t')
    (hfree : (m.restart rows host).isCanStart = m.isCanStart) (a : Answer) :
    restoredStatus (m.restart rows host) id a = restoredStatus m id a ↔
      RestoresAlike m.isCanStart m.isBtAutoDownload t t'.param.type.isBt a := by
  have hreload : reload (.ofTask t) (host k) = some t' := by
    rw [← findTask_restart hnodup hk m host, ← ht', ← hid]
    rfl
  obtain ⟨w, hw, rfl⟩ := Option.map_eq_some_iff.mp hreload
  obtain ⟨himpl, hvalid, hstarted⟩ := resumeDataFromDb_ofTask hd w.param (host k).toAnswer
  obtain ⟨-, hst, hpre⟩ := resumeDataFromDb_status (.ofTask t) w.param (host k).toAnswer
  rw [restoredStatus_eq ht' (hst.trans hd) hvalid, restoredStatus_eq ht hd hv, hfree,
    isBtAutoDownload_restart, Option.some.injEq, ← statusAfterRestore_eq_iff]
  simp only [statusAfterRestore, himpl, hpre, hstarted]
  rfl

def binnedTask : TaskBase :=
  { param := { id := "1", url := "http://h/a", type := .kHttp }, taskStatus := .kDeleted,
    taskCategory := .kRecyclebinTask, preStatus := .kDownloading, isStarted := true }

def binnedMgr : UserSelfMgr := ({ userId := "u" } : UserSelfMgr).setTask "1" binnedTask

theorem binnedTask_restored :
    restoredStatus (binnedMgr.restart [.ofTask binnedTask] fun _ => {}) "1" {} =
      restoredStatus binnedMgr "1" {} := by
  have htype : ((binnedMgr.restart [.ofTask binnedTask] fun _ => {}).findTask "1").map
      (·.param.type.isBt) = some false := by decide +kernel
  obtain ⟨t', ht', hbt⟩ := Option.map_eq_some_iff.mp htype
  have ht : binnedMgr.findTask "1" = some binnedTask := findTask_setTask ..
  have hnodup : ([Row.ofTask binnedTask].map Row.id).Nodup := List.nodup_singleton _
  have hk : [Row.ofTask binnedTask][0]? = some (.ofTask binnedTask) := rfl
  refine (restored_after_restart_iff ht rfl rfl rfl hnodup hk ht' (by decide +kernel) {}).mpr ⟨rfl, ?_⟩
  exact .inl hbt

def binnedPaused : List Service.Work :=
  [.request (linkTask "1" "http://h/a"), .request (.pause ["1"] fun _ => {}),
    .request (.delete ["1"] false fun _ => {})] ++ List.replicate 12 .background

/-- It is paused when it is restored, and downloads when it is restored after a restart. -/
theorem binnedPaused_restored :
    let s := run Service.step { mgr := { userId := "u" } } binnedPaused
    let s' := s.step (.restart fun _ => {})
    s'.mgr.isCanStart = s.mgr.isCanStart ∧ restoredStatus s.mgr "1" {} = some .kPaused ∧
      restoredStatus s'.mgr "1" {} = some .kDownloading := by
  decide +kernel

end Nas.Download
