import NasServices.Download.Task.Coherence
import NasServices.Download.Task.Moves
import NasServices.Download.UserSelfMgr.Posts

/-!
# The last record posted is the task

`Logged t ps t'` says that an operation that made `t'` of `t` posted `ps`: only
records of this task, the last of which has the status of `t'`, and none if the
status is the same. It also says that status and category stay sound.
Operations compose (`Logged.trans`), so there is one lemma for each function
of a task.
-/

namespace Nas.Download

def Post.isOf (id : String) : Post → Prop
  | .updateTaskInfo t => t.param.id = id
  | .reStart taskId => taskId = id
  | _ => False

def rowStatus (s : TaskStatus) (ps : List Post) : TaskStatus :=
  ps.foldl (fun s p => match p with | .updateTaskInfo t => t.taskStatus | _ => s) s

@[simp] theorem rowStatus_append (s : TaskStatus) (ps qs : List Post) :
    rowStatus s (ps ++ qs) = rowStatus (rowStatus s ps) qs := List.foldl_append ..

structure Logged (t : TaskBase) (ps : List Post) (t' : TaskBase) : Prop where
  posts : ∀ p ∈ ps, p.isOf t.param.id
  status : rowStatus t.taskStatus ps = t'.taskStatus
  param : t'.param = t.param
  sound : t.Sound → t'.Sound

section Logged

variable {t t' t'' : TaskBase} {ps qs : List Post} {a : Answer} {isBtAutoDownload : Bool}

theorem Logged.trans (h : Logged t ps t') (h' : Logged t' qs t'') : Logged t (ps ++ qs) t'' where
  posts p hp := by
    rcases List.mem_append.mp hp with hp | hp
    · exact h.posts p hp
    · exact h.param ▸ h'.posts p hp
  status := by rw [rowStatus_append, h.status, h'.status]
  param := h'.param.trans h.param
  sound ht := h'.sound (h.sound ht)

theorem Logged.silent (hp : t'.param = t.param) (hs : t'.taskStatus = t.taskStatus)
    (hc : t'.taskCategory = t.taskCategory) : Logged t [] t' :=
  ⟨by simp, hs.symm, hp, fun ht => ht.of_eq hs hc⟩

theorem Logged.refl (t : TaskBase) : Logged t [] t := .silent rfl rfl rfl

theorem Logged.again (h : Logged t ps t') : Logged t (ps ++ [.updateTaskInfo t']) t' :=
  h.trans ⟨by simp [Post.isOf], rfl, rfl, fun ht => ht⟩

/-- What follows a post and changes neither status nor parameter needs no post. -/
theorem Logged.silent_right (h : Logged t ps t') (hp : t''.param = t'.param)
    (hs : t''.taskStatus = t'.taskStatus) (hc : t''.taskCategory = t'.taskCategory) :
    Logged t ps t'' := by
  simpa using h.trans (.silent hp hs hc)

namespace TaskBase

theorem setTaskStatus_logged (t : TaskBase) (s : TaskStatus)
    (hs : s ≠ .kFailed ∧ s ≠ .kCompletedDeleted) :
    Logged t (t.setTaskStatusPosts s) (t.setTaskStatus s) :=
  ⟨by simp [setTaskStatusPosts, Post.isOf], rfl, rfl, fun _ => t.setTaskStatus_sound hs.1 hs.2⟩

theorem setFailed_logged (hfin : t.taskStatus ≠ .kFinished) (hdel : t.taskStatus ≠ .kDeleted) :
    Logged t (t.setTaskStatusPosts .kFailed) (t.setTaskStatus .kFailed) :=
  ⟨by simp [setTaskStatusPosts, Post.isOf], rfl, rfl, fun ht => ht.setFailed hfin hdel⟩

theorem pause_logged (t : TaskBase) (a : Answer) : Logged t (t.pausePosts a) (t.pause a).1 := by
  unfold pausePosts pause
  split
  · exact t.setTaskStatus_logged _ (by decide)
  · exact .refl t

theorem resume_logged (t : TaskBase) (isBtAutoDownload : Bool) (a : Answer) :
    Logged t (t.resumePosts isBtAutoDownload a) (t.resume isBtAutoDownload a).1 := by
  have hrestart (u : TaskBase) : Logged u (if u.param.type.isCurl then [.reStart u.param.id] else []) u := by
    split
    · exact ⟨by simp [Post.isOf], rfl, rfl, fun hu => hu⟩
    · exact .refl u
  unfold resumePosts resume
  split
  · exact t.setTaskStatus_logged _ (by decide)
  · split
    · exact ((t.setTaskStatus_logged .kDownloading (by decide)).trans (hrestart _)).silent_right rfl rfl rfl
    · exact hrestart t

theorem start_logged (t : TaskBase) (ret : DownloadErrorCode) : Logged t t.startPosts (t.start ret).1 := by
  by_cases hst : t.isStarted = true
  · simp only [startPosts, start, hst, Bool.true_or, if_true]
    exact .refl t
  · by_cases hbt : t.param.type.isBt = true
    · simp only [startPosts, start, hst, hbt, Bool.or_true, if_true, if_false, Bool.false_eq_true]
      split
      · exact .silent rfl rfl rfl
      · exact .refl t
    · simp only [startPosts, start, hst, hbt, Bool.or_false, if_false, Bool.false_eq_true]
      split <;> exact (t.setTaskStatus_logged _ (by decide)).silent_right rfl rfl rfl

theorem retry_logged (t : TaskBase) (a : Answer) : Logged t [] (t.retry a).1 := by
  unfold retry
  split
  · exact .refl t
  · exact .silent rfl rfl rfl

theorem deleteToRecycleBin_logged (t : TaskBase) (a : Answer) :
    Logged t (t.deleteToRecycleBinPosts a) (t.deleteToRecycleBin a).1 := by
  unfold deleteToRecycleBinPosts deleteToRecycleBin
  by_cases himpl : t.hasImpl = true
  · by_cases hp : (t.taskStatus == .kFailed || a.pause) = true
    · simp only [himpl, hp, Bool.and_self, if_true, Bool.not_true, Bool.false_eq_true, if_false]
      have hd : Logged t (t.setTaskStatusPosts .kDeleted) { t.setTaskStatus .kDeleted with deleteTime := a.now } :=
        (t.setTaskStatus_logged .kDeleted (by decide)).silent_right rfl rfl rfl
      exact hd.again
    · simp only [himpl, hp, Bool.and_false, if_false, Bool.not_true, Bool.false_eq_true]
      exact .refl t
  · simp only [himpl, Bool.false_and, if_false, Bool.not_false, if_true, Bool.false_eq_true]
    exact .refl t

theorem restore_logged (t : TaskBase) (isBtAutoDownload : Bool) (a : Answer) :
    Logged t (t.restorePosts isBtAutoDownload a) (t.restore isBtAutoDownload a).1 := by
  have hset (s : TaskStatus) (hs : s ≠ .kFailed ∧ s ≠ .kCompletedDeleted) :
      Logged t (t.setTaskStatusPosts s) ((t.setTaskStatus s).setCreateTimeStamp a) :=
    (t.setTaskStatus_logged s hs).silent_right rfl rfl rfl
  unfold restorePosts restore
  split
  · exact .refl t
  · cases t.preStatus with
    | kFinished => exact t.setTaskStatus_logged _ (by decide)
    | kParsing | kPaused | kWaitting | kDownloading => exact hset _ (by decide)
    | kSeeding => exact (t.resume_logged isBtAutoDownload a).trans (setTaskStatus_logged _ _ (by decide))
    | kFailed =>
      -- the failed task is given its category and resumed from `kFailed`
      have hf : Logged t (t.setTaskStatusPosts .kFailed)
          { t.setTaskStatus .kFailed with taskCategory := .kDownloadingTask } :=
        ⟨by simp [setTaskStatusPosts, Post.isOf], rfl, rfl,
          fun _ => ⟨nofun, fun hs => absurd rfl hs, fun _ => .inl rfl⟩⟩
      exact (hf.trans (resume_logged _ isBtAutoDownload a)).silent_right rfl rfl rfl
    | kDeleted | kCompletedDeleted | kChecking =>
      dsimp only
      split <;> exact t.setTaskStatus_logged _ (by decide)

theorem exceCancelPosts_isOf (t : TaskBase) (a : Answer) (realDelete : Bool) :
    ∀ p ∈ t.exceCancelPosts a realDelete, p.isOf t.param.id := by
  have hset : ∀ p ∈ t.setTaskStatusPosts .kCompletedDeleted, p.isOf t.param.id := by
    simp [setTaskStatusPosts, Post.isOf]
  unfold exceCancelPosts
  split
  · split
    · exact hset
    · simp
  · split
    · exact hset
    · simp

theorem exceCancelPosts_of_false {realDelete : Bool} (h : (t.exceCancel a realDelete).2 = false) :
    t.exceCancelPosts a realDelete = [] := by
  unfold exceCancel at h
  unfold exceCancelPosts
  split at h
  · rename_i hasks
    rw [if_pos hasks]
    split at h
    · cases h
    · rename_i hno
      rw [if_neg hno]
  · split at h <;> cases h

theorem magnetParse_logged (t : TaskBase) (userId : String) (a : Answer) :
    Logged t (if t.hasImpl && a.torrentList.isNone then t.setTaskStatusPosts .kParsing else [])
      (t.magnetParse userId a).1 := by
  unfold magnetParse
  by_cases himpl : t.hasImpl = true
  · rcases a.torrentList with _ | l
    · simp only [himpl, Option.isNone_none, Bool.and_self, if_true, Bool.not_true, Bool.false_eq_true,
        if_false]
      exact (t.setTaskStatus_logged .kParsing (by decide)).silent_right rfl rfl rfl
    · simp only [himpl, Option.isNone_some, Bool.and_false, Bool.not_true, Bool.false_eq_true, if_false]
      exact .silent rfl rfl rfl
  · simp only [himpl, Bool.false_and, Bool.not_false, if_true, Bool.false_eq_true, if_false]
    exact .refl t

theorem linkParse_logged (hfin : t.taskStatus ≠ .kFinished) (hdel : t.taskStatus ≠ .kDeleted)
    (a : Answer) : Logged t (if t.param.fileSize = 0 ∧ a.parseLink ≠ .kNormal then
      { t with errCode := a.parseLink }.setTaskStatusPosts .kFailed else []) (t.linkParse a) := by
  unfold linkParse
  split
  · have herr : Logged t [] { t with errCode := a.parseLink } := .silent rfl rfl rfl
    exact herr.trans (setFailed_logged hfin hdel)
  · exact .refl t

theorem parse_logged (hfin : t.taskStatus ≠ .kFinished) (hdel : t.taskStatus ≠ .kDeleted)
    (userId : String) (a : Answer) : Logged t (t.parsePosts a) (t.parse userId a).1 := by
  unfold parsePosts parse
  cases t.param.type with
  | kMagnet => exact t.magnetParse_logged userId a
  | kTorrent => exact .refl t
  | _ => exact linkParse_logged hfin hdel a

theorem checkTaskIsFailed_logged (t : TaskBase) :
    Logged t t.checkTaskIsFailedPosts t.checkTaskIsFailed.1 := by
  unfold checkTaskIsFailedPosts checkTaskIsFailed
  split
  · rename_i hf
    exact (setFailed_logged hf.2.2.1 hf.2.1).again
  · exact .refl t

theorem updateFinished_logged (t : TaskBase) (a : Answer) :
    Logged t t.updateFinishedPosts (t.updateFinished a) := by
  unfold updateFinishedPosts updateFinished
  split
  · exact (t.setTaskStatus_logged .kFinished (by decide)).silent_right rfl rfl rfl
  · exact .refl t

theorem updateWorking_logged (t : TaskBase) (a : Answer) :
    Logged t (t.updateWorkingPosts a) (t.updateWorking a) := by
  unfold updateWorkingPosts updateWorking
  split
  · exact t.setTaskStatus_logged _ (by decide)
  · split
    · exact t.setTaskStatus_logged _ (by decide)
    · exact .refl t

theorem updateSeeding_logged (t : TaskBase) (a : Answer) :
    Logged t (t.updateSeedingPosts a) (t.updateSeeding a) := by
  unfold updateSeedingPosts updateSeeding
  split
  · exact t.setTaskStatus_logged _ (by decide)
  · exact .refl t

theorem updateProgressInfo_logged (t : TaskBase) (a : Answer) :
    Logged t (t.updateProgressInfoPosts a) (t.updateProgressInfo a) := by
  let t₀ := { t with totalProgress := a.totalProgress, errCode := a.errCode }
  have h₀ : Logged t [] t₀ := .silent rfl rfl rfl
  by_cases hbt : t.param.type.isBt = true
  · have heq : t.updateProgressInfo a = ((t₀.updateFinished a).updateWorking a).updateSeeding a := by
      show (if t.param.type.isBt = true then _ else _) = _
      rw [if_pos hbt]
    have hups := ((h₀.trans (t₀.updateFinished_logged a)).trans (updateWorking_logged _ a)).trans
      (updateSeeding_logged _ a)
    show Logged t (if t.param.type.isBt = true then _ else _) _
    rw [if_pos hbt, heq]
    exact hups.again
  · show Logged t (if t.param.type.isBt = true then _ else _) (if t.param.type.isBt = true then _ else _)
    rw [if_neg hbt, if_neg hbt, updateProgressInfo]
    dsimp only
    rw [if_neg hbt]
    have hfin : Logged t₀ (t₀.setTaskStatusPosts .kFinished) (t₀.setFinished a) :=
      (t₀.setTaskStatus_logged .kFinished (by decide)).silent_right rfl rfl rfl
    split
    · exact (h₀.trans hfin).again.again
    · exact h₀.again.again

theorem checkSeedingLimits_logged (t : TaskBase) (a : Answer) :
    Logged t (t.checkSeedingLimitsPosts a) (t.checkSeedingLimits a).1 := by
  unfold checkSeedingLimitsPosts checkSeedingLimits
  split
  · exact (t.setTaskStatus_logged .kFinished (by decide)).silent_right rfl rfl rfl
  · exact .refl t

theorem checkInvalidTask_logged (t : TaskBase) (a : Answer) : Logged t [] (t.checkInvalidTask a) := by
  unfold checkInvalidTask
  split
  · exact .silent rfl rfl rfl
  · exact .refl t

theorem checkTask_logged (t : TaskBase) (a : Answer) : Logged t (t.checkTaskPosts a) (t.checkTask a) := by
  have hf := t.checkTaskIsFailed_logged
  unfold checkTaskPosts checkTask
  rcases hc : t.checkTaskIsFailed with ⟨t₁, _ | _⟩ <;> rw [hc] at hf
  · exact hf.trans (.refl t₁)
  · refine hf.trans ?_
    dsimp only
    cases hst : t₁.taskStatus with
    | kPaused | kWaitting => exact (Logged.refl t₁).again
    | kChecking | kDownloading => exact t₁.updateProgressInfo_logged a
    | kSeeding =>
      dsimp only
      split
      · have hl := t₁.checkSeedingLimits_logged a
        rcases hs : t₁.checkSeedingLimits a with ⟨t₂, _ | _⟩ <;> rw [hs] at hl
        · simpa using hl.trans (t₂.checkInvalidTask_logged a)
        · exact hl
      · exact t₁.checkInvalidTask_logged a
    | kFinished | kDeleted => exact t₁.checkInvalidTask_logged a
    | _ => exact .refl t₁

end TaskBase

end Logged

end Nas.Download
