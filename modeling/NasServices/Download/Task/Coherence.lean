import NasServices.Download.Task.TaskBase

/-!
# Status and category

`SetTaskStatus` derives the category from the status, but a failed task keeps
the one it had and `Restore` writes it by hand. `Sound` is the invariant that
the operations on a listed task keep: the category is the one of the status,
or that of a task under way if it failed. It implies `Coherent`.
-/

namespace Nas.Download.TaskBase

structure Coherent (t : TaskBase) : Prop where
  deleted : t.taskCategory = .kRecyclebinTask ↔ t.taskStatus = .kDeleted
  finished : t.taskCategory = .kFinishedTask ↔ t.taskStatus = .kFinished
  completedDeleted : t.taskCategory = .kUnkownnTask ↔ t.taskStatus = .kCompletedDeleted
  failed : t.taskStatus = .kFailed →
    t.taskCategory = .kDownloadingTask ∨ t.taskCategory = .kSeedingTask

structure Sound (t : TaskBase) : Prop where
  status : t.taskStatus ≠ .kCompletedDeleted
  category : t.taskStatus ≠ .kFailed → t.taskCategory = categoryOf t.taskStatus .kDownloadingTask
  failed : t.taskStatus = .kFailed →
    t.taskCategory = .kDownloadingTask ∨ t.taskCategory = .kSeedingTask

theorem Sound.coherent {t : TaskBase} (h : t.Sound) : t.Coherent := by
  by_cases hf : t.taskStatus = .kFailed
  · rcases h.failed hf with hc | hc <;> constructor <;> simp [hf, hc]
  · have hc := h.category hf
    have hst := h.status
    cases hs : t.taskStatus <;> simp only [hs, categoryOf] at hc <;> constructor <;> simp_all

structure New (t : TaskBase) : Prop where
  status : t.taskStatus = .kWaitting ∨ t.taskStatus = .kDownloading ∨ t.taskStatus = .kPaused
  category : t.taskCategory = .kDownloadingTask

theorem New.sound {t : TaskBase} (h : t.New) : t.Sound := by
  rcases h.status with hs | hs | hs <;> constructor <;> simp [hs, h.category, categoryOf]

theorem Sound.of_eq {t t' : TaskBase} (h : t.Sound) (hs : t'.taskStatus = t.taskStatus)
    (hc : t'.taskCategory = t.taskCategory) : t'.Sound :=
  ⟨by rw [hs]; exact h.status, by rw [hs, hc]; exact h.category, by rw [hs, hc]; exact h.failed⟩

theorem setTaskStatus_sound (t : TaskBase) {s : TaskStatus} (hf : s ≠ .kFailed)
    (hd : s ≠ .kCompletedDeleted) : (t.setTaskStatus s).Sound := by
  refine ⟨hd, fun _ => ?_, fun hs => absurd hs hf⟩
  show categoryOf s t.taskCategory = categoryOf s .kDownloadingTask
  cases s <;> first
    | rfl
    | exact absurd rfl hf

theorem Sound.setFailed {t : TaskBase} (h : t.Sound) (hfin : t.taskStatus ≠ .kFinished)
    (hdel : t.taskStatus ≠ .kDeleted) : (t.setTaskStatus .kFailed).Sound := by
  refine ⟨nofun, fun hs => absurd rfl hs, fun _ => ?_⟩
  show t.taskCategory = .kDownloadingTask ∨ t.taskCategory = .kSeedingTask
  by_cases hf : t.taskStatus = .kFailed
  · exact h.failed hf
  · have hc := h.category hf
    have hst := h.status
    cases hs : t.taskStatus <;> simp only [hs, categoryOf] at hc <;> simp_all

end Nas.Download.TaskBase
