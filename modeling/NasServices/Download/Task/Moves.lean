import NasServices.Download.Task.TaskBase

/-!
# What the operations on a task can do to it

`Kept` is what no operation on a listed task changes: its parameter and
everything about its parsing. `Parsing` marks the tasks that are parsing or
would be restored to it; a `Move` keeps the task and brings none into that
set. There are two kinds. An `Op` (resume, start, retry, restore) puts no task
into the recycle bin. A `Quiet` one (the timer, a pause, a deletion) takes none
out of it and sets no resting task going.
-/

namespace Nas.Download.TaskBase

structure Kept (t t' : TaskBase) : Prop where
  param : t'.param = t.param
  hasImpl : t'.hasImpl = t.hasImpl
  fileList : t'.fileList = t.fileList
  parseFinished : t'.parseFinished = t.parseFinished
  parseCallback : t'.parseCallback = t.parseCallback
  parseSubscribed : t'.parseSubscribed = t.parseSubscribed

def Parsing (t : TaskBase) : Prop :=
  t.taskStatus = .kParsing ∨ (t.taskStatus = .kDeleted ∧ t.preStatus = .kParsing)

def Resting (t : TaskBase) : Prop :=
  t.taskStatus = .kPaused ∨ t.taskStatus = .kFailed ∨ t.taskStatus = .kDeleted

structure Move (t t' : TaskBase) : Prop where
  kept : Kept t t'
  parsing : t'.Parsing → t.Parsing

structure Op (t t' : TaskBase) : Prop extends Move t t' where
  bin : t'.taskStatus = .kDeleted → t.taskStatus = .kDeleted ∧ t'.preStatus = t.preStatus

structure Quiet (t t' : TaskBase) : Prop extends Move t t' where
  deleted : t.taskStatus = .kDeleted → t'.taskStatus = .kDeleted
  resting : t.Resting → t'.Resting

section

variable {t t' t'' : TaskBase} {a : Answer} {isBtAutoDownload : Bool}

theorem Kept.refl (t : TaskBase) : Kept t t := ⟨rfl, rfl, rfl, rfl, rfl, rfl⟩

theorem Kept.trans (h : Kept t t') (h' : Kept t' t'') : Kept t t'' :=
  ⟨h'.param.trans h.param, h'.hasImpl.trans h.hasImpl, h'.fileList.trans h.fileList,
    h'.parseFinished.trans h.parseFinished, h'.parseCallback.trans h.parseCallback,
    h'.parseSubscribed.trans h.parseSubscribed⟩

theorem Kept.isParseFinish (h : Kept t t') : t'.isParseFinish = t.isParseFinish := by
  simp only [TaskBase.isParseFinish, h.parseFinished, h.fileList]

theorem Move.refl (t : TaskBase) : Move t t := ⟨.refl t, id⟩

theorem Move.trans (h : Move t t') (h' : Move t' t'') : Move t t'' :=
  ⟨h.kept.trans h'.kept, h.parsing ∘ h'.parsing⟩

theorem Op.refl (t : TaskBase) : Op t t := ⟨.refl t, fun h => ⟨h, rfl⟩⟩

theorem Op.trans (h : Op t t') (h' : Op t' t'') : Op t t'' := by
  refine ⟨h.toMove.trans h'.toMove, fun hd => ?_⟩
  obtain ⟨hd', hpre'⟩ := h'.bin hd
  obtain ⟨hd'', hpre⟩ := h.bin hd'
  exact ⟨hd'', hpre'.trans hpre⟩

theorem Quiet.refl (t : TaskBase) : Quiet t t := ⟨.refl t, id, id⟩

theorem Quiet.trans (h : Quiet t t') (h' : Quiet t' t'') : Quiet t t'' :=
  ⟨h.toMove.trans h'.toMove, h'.deleted ∘ h.deleted, h'.resting ∘ h.resting⟩

theorem Move.of_eq (hk : Kept t t') (hs : t'.taskStatus = t.taskStatus)
    (hp : t'.preStatus = t.preStatus) : Move t t' := by
  refine ⟨hk, ?_⟩
  simp only [Parsing, hs, hp, imp_self]

theorem Op.of_eq (hk : Kept t t') (hs : t'.taskStatus = t.taskStatus)
    (hp : t'.preStatus = t.preStatus) : Op t t' :=
  ⟨.of_eq hk hs hp, fun hd => ⟨hs ▸ hd, hp⟩⟩

theorem Quiet.of_eq (hk : Kept t t') (hs : t'.taskStatus = t.taskStatus)
    (hp : t'.preStatus = t.preStatus) : Quiet t t' := by
  refine ⟨.of_eq hk hs hp, fun h => hs.trans h, ?_⟩
  simp only [Resting, hs, imp_self]

/-- A kept task that neither parses nor is deleted afterwards has been operated on. -/
theorem Op.of_kept (hk : Kept t t') (hs : t'.taskStatus ≠ .kParsing) (hd : t'.taskStatus ≠ .kDeleted) :
    Op t t' := by
  refine ⟨⟨hk, ?_⟩, fun h => absurd h hd⟩
  rintro (h | ⟨h, -⟩)
  · exact absurd h hs
  · exact absurd h hd

theorem Op.setErrorCode (h : Op t t') (err : DownloadErrorCode) : Op t { t' with errCode := err } :=
  h.trans (.of_eq ⟨rfl, rfl, rfl, rfl, rfl, rfl⟩ rfl rfl)

/-- A task that was not resting has nothing to keep but its parsing state. -/
theorem Quiet.of_move (h : Move t t') (hr : ¬ t.Resting) : Quiet t t' :=
  ⟨h, fun hd => absurd (.inr (.inr hd)) hr, fun hr' => absurd hr' hr⟩

theorem setTaskStatus_kept (t : TaskBase) (s : TaskStatus) : Kept t (t.setTaskStatus s) :=
  ⟨rfl, rfl, rfl, rfl, rfl, rfl⟩

theorem pause_kept (t : TaskBase) (a : Answer) : Kept t (t.pause a).1 := by
  unfold pause
  split
  · exact setTaskStatus_kept ..
  · exact .refl t

theorem resume_kept (t : TaskBase) (isBtAutoDownload : Bool) (a : Answer) :
    Kept t (t.resume isBtAutoDownload a).1 := by
  unfold resume
  split
  · exact setTaskStatus_kept ..
  · split
    · exact ⟨rfl, rfl, rfl, rfl, rfl, rfl⟩
    · exact .refl t

theorem start_kept (t : TaskBase) (ret : DownloadErrorCode) : Kept t (t.start ret).1 := by
  unfold start
  split
  · exact .refl t
  · split <;> split <;> exact ⟨rfl, rfl, rfl, rfl, rfl, rfl⟩

theorem retry_op (t : TaskBase) (a : Answer) : Op t (t.retry a).1 := by
  unfold retry
  split
  · exact .refl t
  · exact .of_eq ⟨rfl, rfl, rfl, rfl, rfl, rfl⟩ rfl rfl

theorem resume_op (t : TaskBase) (isBtAutoDownload : Bool) (a : Answer) :
    Op t (t.resume isBtAutoDownload a).1 := by
  unfold resume
  split
  · exact .of_kept (setTaskStatus_kept ..) nofun nofun
  · split
    · exact .of_kept ⟨rfl, rfl, rfl, rfl, rfl, rfl⟩ nofun nofun
    · exact .refl t

theorem start_op (t : TaskBase) (ret : DownloadErrorCode) : Op t (t.start ret).1 := by
  unfold start
  split
  · exact .refl t
  · split
    · split
      · exact .of_eq ⟨rfl, rfl, rfl, rfl, rfl, rfl⟩ rfl rfl
      · exact .refl t
    · split <;> exact .of_kept ⟨rfl, rfl, rfl, rfl, rfl, rfl⟩ nofun nofun

/-- A deleted task that is restored parses only if it was parsing when it was deleted. -/
theorem restore_op (hd : t.taskStatus = .kDeleted) (isBtAutoDownload : Bool) (a : Answer) :
    Op t (t.restore isBtAutoDownload a).1 := by
  unfold restore
  split
  · exact .refl t
  · split
    · exact .of_kept (setTaskStatus_kept ..) nofun nofun
    · rename_i hpre
      exact ⟨⟨⟨rfl, rfl, rfl, rfl, rfl, rfl⟩, fun _ => .inr ⟨hd, hpre⟩⟩, nofun⟩
    · exact .of_kept ⟨rfl, rfl, rfl, rfl, rfl, rfl⟩ nofun nofun
    · exact .of_kept ((resume_kept ..).trans (setTaskStatus_kept ..)) nofun nofun
    · -- the failed task is resumed from `kFailed`
      have hf : Op t { t.setTaskStatus .kFailed with taskCategory := .kDownloadingTask } :=
        .of_kept ⟨rfl, rfl, rfl, rfl, rfl, rfl⟩ nofun nofun
      exact (hf.trans (resume_op _ isBtAutoDownload a)).trans
        (.of_eq ⟨rfl, rfl, rfl, rfl, rfl, rfl⟩ rfl rfl)
    · exact .of_kept ⟨rfl, rfl, rfl, rfl, rfl, rfl⟩ nofun nofun
    · exact .of_kept ⟨rfl, rfl, rfl, rfl, rfl, rfl⟩ nofun nofun
    · split <;> exact .of_kept (setTaskStatus_kept ..) nofun nofun

/-- A task that goes to the recycle bin from `kParsing` remembers it. -/
theorem deleteToRecycleBin_quiet (t : TaskBase) (a : Answer) : Quiet t (t.deleteToRecycleBin a).1 := by
  unfold deleteToRecycleBin
  split
  · exact .refl t
  · split
    · refine ⟨⟨⟨rfl, rfl, rfl, rfl, rfl, rfl⟩, ?_⟩, fun _ => rfl, fun _ => .inr (.inr rfl)⟩
      rintro (h | ⟨-, h⟩)
      · cases h
      · exact .inl h
    · exact .refl t

/-! ## The timer -/

def Active (t : TaskBase) : Prop :=
  t.taskStatus ∈ [TaskStatus.kFinished, .kChecking, .kDownloading, .kSeeding]

structure Works (t t' : TaskBase) : Prop where
  kept : Kept t t'
  active : t.Active → t'.Active

theorem Works.trans (h : Works t t') (h' : Works t' t'') : Works t t'' :=
  ⟨h.kept.trans h'.kept, h'.active ∘ h.active⟩

theorem Works.refl (t : TaskBase) : Works t t := ⟨.refl t, id⟩

theorem setTaskStatus_works (t : TaskBase) {s : TaskStatus}
    (h : s ∈ [TaskStatus.kFinished, .kChecking, .kDownloading, .kSeeding]) :
    Works t (t.setTaskStatus s) := ⟨setTaskStatus_kept t s, fun _ => h⟩

theorem setFinished_works (t : TaskBase) (a : Answer) : Works t (t.setFinished a) :=
  ⟨⟨rfl, rfl, rfl, rfl, rfl, rfl⟩, fun _ => List.mem_cons_self⟩

theorem setFinished_op (t : TaskBase) (a : Answer) : Op t (t.setFinished a) :=
  .of_kept ⟨rfl, rfl, rfl, rfl, rfl, rfl⟩ nofun nofun

theorem updateFinished_works (t : TaskBase) (a : Answer) : Works t (t.updateFinished a) := by
  unfold updateFinished
  split
  · exact setFinished_works t a
  · exact .refl t

theorem updateWorking_works (t : TaskBase) (a : Answer) : Works t (t.updateWorking a) := by
  unfold updateWorking
  split
  · exact setTaskStatus_works t (by decide)
  · split
    · exact setTaskStatus_works t (by decide)
    · exact .refl t

theorem updateSeeding_works (t : TaskBase) (a : Answer) : Works t (t.updateSeeding a) := by
  unfold updateSeeding
  split
  · exact setTaskStatus_works t (by decide)
  · exact .refl t

theorem updateProgressInfo_works (t : TaskBase) (a : Answer) : Works t (t.updateProgressInfo a) := by
  have h₀ : Works t { t with totalProgress := a.totalProgress, errCode := a.errCode } :=
    ⟨⟨rfl, rfl, rfl, rfl, rfl, rfl⟩, id⟩
  unfold updateProgressInfo
  dsimp only
  split
  · exact ((h₀.trans (updateFinished_works _ a)).trans (updateWorking_works _ a)).trans
      (updateSeeding_works _ a)
  · split
    · exact h₀.trans (setFinished_works _ a)
    · exact h₀

theorem updateProgressInfo_quiet (h : t.taskStatus = .kChecking ∨ t.taskStatus = .kDownloading) :
    Quiet t (t.updateProgressInfo a) := by
  obtain ⟨hk, hactive⟩ := t.updateProgressInfo_works a
  have hst : (t.updateProgressInfo a).Active := hactive (by rcases h with h | h <;> simp [Active, h])
  refine .of_move (Op.of_kept hk (fun hp => ?_) fun hd => ?_).toMove (by rcases h with h | h <;> simp [Resting, h])
  · simp [Active, hp] at hst
  · simp [Active, hd] at hst

theorem checkInvalidTask_quiet (t : TaskBase) (a : Answer) : Quiet t (t.checkInvalidTask a) := by
  unfold checkInvalidTask
  split
  · exact .of_eq ⟨rfl, rfl, rfl, rfl, rfl, rfl⟩ rfl rfl
  · exact .refl t

theorem checkTaskIsFailed_quiet (t : TaskBase) : Quiet t t.checkTaskIsFailed.1 := by
  unfold checkTaskIsFailed
  split
  · rename_i h
    exact ⟨(Op.of_kept (t.setTaskStatus_kept .kFailed) nofun nofun).toMove, fun hd => absurd hd h.2.1,
      fun _ => .inr (.inl rfl)⟩
  · exact .refl t

theorem checkSeedingLimits_quiet (h : t.taskStatus = .kSeeding) :
    Quiet t (t.checkSeedingLimits a).1 := by
  unfold checkSeedingLimits
  split
  · exact .of_move (setFinished_op t a).toMove (by simp [Resting, h])
  · exact .refl t

/-- The timer takes no task out of the recycle bin and sets no resting task going. -/
theorem checkTask_quiet (t : TaskBase) (a : Answer) : Quiet t (t.checkTask a) := by
  have hq := t.checkTaskIsFailed_quiet
  unfold checkTask
  split
  · rename_i t₁ hf
    rwa [hf] at hq
  · rename_i t₁ hf
    rw [hf] at hq
    refine hq.trans ?_
    split
    · rename_i hst
      exact updateProgressInfo_quiet (.inl hst)
    · rename_i hst
      exact updateProgressInfo_quiet (.inr hst)
    · rename_i hst
      split
      · have hs := checkSeedingLimits_quiet (a := a) hst
        split
        · rename_i hl
          rwa [hl] at hs
        · rename_i hl
          rw [hl] at hs
          exact hs.trans (checkInvalidTask_quiet ..)
      · exact checkInvalidTask_quiet ..
    · exact checkInvalidTask_quiet ..
    · exact checkInvalidTask_quiet ..
    · exact .refl t₁

end

end Nas.Download.TaskBase
