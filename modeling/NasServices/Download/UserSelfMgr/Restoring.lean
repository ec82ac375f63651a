import NasServices.Download.UserSelfMgr.Failures
import NasServices.Download.UserSelfMgr.Resting

/-!
# Recycling a task and restoring it

`SetTaskStatus` keeps the former status in one variable, and `Restore` goes by it. Nothing that
happens to a valid task in the recycle bin sets its status again until it is restored, deleted
for good or a parse completes for it (`step_binned`), so the status it is restored to is the one
it was recycled from.

* `Binned s`: the task is in the bin and was in status `s` before;
* `binned_of_deletes`: what a delete request makes of a valid task;
* `step_binned`: what every event that spares the task leaves of it;
* `restore_binned`: what `Restore` makes of it.
-/

namespace Nas.Download.UserSelfMgr

structure Binned (s : TaskStatus) (t : TaskBase) : Prop where
  taskStatus : t.taskStatus = .kDeleted
  preStatus : t.preStatus = s
  hasImpl : t.hasImpl = true
  taskCategory : t.taskCategory = .kRecyclebinTask

variable {m : UserSelfMgr} {id : String} {t t' : TaskBase} {a : Answer} {s : TaskStatus}

/-- Parts of a task that are not about its status may change. -/
theorem Binned.of_eq (h : Binned s t) (hstatus : t'.taskStatus = t.taskStatus) (hpre : t'.preStatus = t.preStatus)
    (himpl : t'.hasImpl = t.hasImpl) (hcategory : t'.taskCategory = t.taskCategory) : Binned s t' :=
  ⟨hstatus.trans h.taskStatus, hpre.trans h.preStatus, himpl.trans h.hasImpl, hcategory.trans h.taskCategory⟩

/-! ## Into the bin -/

theorem deleteToRecycleBin_binned (t : TaskBase) (a : Answer) :
    (t.deleteToRecycleBin a).1 = t ∨
      Binned t.taskStatus (t.deleteToRecycleBin a).1 ∧ (t.deleteToRecycleBin a).1.isValid = t.isValid := by
  unfold TaskBase.deleteToRecycleBin
  split
  · exact .inl rfl
  · rename_i himpl
    have himpl : t.hasImpl = true := by simpa using himpl
    split
    · exact .inr ⟨⟨rfl, rfl, himpl, rfl⟩, rfl⟩
    · exact .inl rfl

def Recycling (t : TaskBase) (listed : Option TaskBase) : Prop :=
  listed = some t ∨ listed = none ∨ ∃ t', listed = some t' ∧ Binned t.taskStatus t' ∧ t'.isValid = true

theorem recycling_deleteToRecycleBin (hvalid : t.isValid = true) (a : Answer) :
    Recycling t (some (t.deleteToRecycleBin a).1) := by
  rcases deleteToRecycleBin_binned t a with heq | ⟨hb, hv⟩
  · exact .inl (congrArg some heq)
  · exact .inr (.inr ⟨_, rfl, hb, hv.trans hvalid⟩)

theorem findTask_removeTask (ht : m.findTask id = some t) (a : Answer) (report : UserSelfMgr → Bool → Reply) :
    (m.removeTask id t a report).1.findTask id = some t ∨ (m.removeTask id t a report).1.findTask id = none := by
  unfold removeTask cancel
  rcases hr : m.releaseTask t a with ⟨m', t', _ | _⟩
  · obtain rfl := releaseTask_of_false hr
    exact .inl (findTask_setTask ..)
  · exact .inr (findTask_erase ..)

theorem Recycling.removeTask (h : Recycling t (m.findTask id)) (ht' : m.findTask id = some t') (a : Answer)
    (report : UserSelfMgr → Bool → Reply) : Recycling t ((m.removeTask id t' a report).1.findTask id) := by
  rcases findTask_removeTask ht' a report with heq | heq
  · rwa [heq, ← ht']
  · exact .inr (.inl heq)

/-- A listed task that is being recycled is valid, and is the task itself unless it is in the bin. -/
theorem Recycling.cases (h : Recycling t (some t')) (hvalid : t.isValid = true) :
    t'.isValid = true ∧ (t'.taskCategory ≠ .kRecyclebinTask → t' = t) := by
  rcases h with heq | heq | ⟨t'', heq, hb, hv⟩
  · obtain rfl := Option.some.inj heq
    exact ⟨hvalid, fun _ => rfl⟩
  · cases heq
  · obtain rfl := Option.some.inj heq
    exact ⟨hv, fun hne => absurd hb.taskCategory hne⟩

theorem execDeleteOperate_recycling (hvalid : t.isValid = true) {r : UserSelfMgr × Reply}
    (h : Recycling t (r.1.findTask id)) (isDeleteLocalFile isJudgeTaskValid : Bool) (a : Answer) :
    Recycling t ((execDeleteOperate isDeleteLocalFile isJudgeTaskValid r id a).1.findTask id) := by
  unfold execDeleteOperate
  dsimp only
  split
  · exact h
  · rename_i t' ht'
    split
    · exact h
    · split
      · split
        · exact h
        · exact h.removeTask ht' a _
      · rename_i hcategory
        have heq := ((ht' ▸ h : Recycling t (some t')).cases hvalid).2 hcategory
        subst heq
        have hrec := recycling_deleteToRecycleBin hvalid a
        split
        · exact h
        · rename_i t₁ hd
          rw [hd] at hrec
          dsimp only
          rwa [findTask_setTask]

theorem execDeleteCategoryOperate_recycling (hvalid : t.isValid = true) {r : UserSelfMgr × Reply}
    (h : Recycling t (r.1.findTask id)) (taskCategory : TaskCategory) (isDeleteLocalFile : Bool) (a : Answer) :
    Recycling t ((execDeleteCategoryOperate taskCategory isDeleteLocalFile r id a).1.findTask id) := by
  unfold execDeleteCategoryOperate
  dsimp only
  split
  · exact h
  · rename_i t' ht'
    split
    · exact h.removeTask ht' a _
    · split
      · exact h
      · rename_i hsame
        split
        · split
          · exact h
          · exact h.removeTask ht' a _
        · rename_i hbin
          have hcategory : t'.taskCategory ≠ .kRecyclebinTask := fun heq => hbin ((not_not.mp hsame).symm.trans heq)
          have heq := ((ht' ▸ h : Recycling t (some t')).cases hvalid).2 hcategory
          subst heq
          dsimp only
          rw [findTask_setTask]
          exact recycling_deleteToRecycleBin hvalid a

theorem execCleanCategoryOperate_of_isValid {r : UserSelfMgr × Reply} (ht : r.1.findTask id = some t)
    (hvalid : t.isValid = true) (taskCategory : TaskCategory) (a : Answer) :
    execCleanCategoryOperate taskCategory r id a = r := by
  unfold execCleanCategoryOperate
  dsimp only
  rw [ht]
  dsimp only
  rw [if_pos (.inr hvalid)]

theorem execDeleteOperate_clean_of_isValid {r : UserSelfMgr × Reply} (ht : r.1.findTask id = some t)
    (hvalid : t.isValid = true) (isDeleteLocalFile : Bool) (a : Answer) :
    (execDeleteOperate isDeleteLocalFile true r id a).1 = r.1 := by
  unfold execDeleteOperate
  dsimp only
  rw [ht]
  simp only [hvalid, Bool.and_self, if_true]

theorem execDeleteCategoryOperate_of_ne {r : UserSelfMgr × Reply} {c : TaskCategory}
    (ht : r.1.findTask id = some t) (hall : c ≠ .kAll) (hne : t.taskCategory ≠ c) (isDeleteLocalFile : Bool)
    (a : Answer) : execDeleteCategoryOperate c isDeleteLocalFile r id a = r := by
  unfold execDeleteCategoryOperate
  dsimp only
  rw [ht]
  dsimp only
  rw [if_neg hall, if_pos hne]

theorem execCleanCategoryOperate_recycling (hvalid : t.isValid = true) {r : UserSelfMgr × Reply}
    (h : Recycling t (r.1.findTask id)) (taskCategory : TaskCategory) (a : Answer) :
    Recycling t ((execCleanCategoryOperate taskCategory r id a).1.findTask id) := by
  rcases ht' : r.1.findTask id with _ | t'
  · have hsame : execCleanCategoryOperate taskCategory r id a = r := by
      unfold execCleanCategoryOperate
      dsimp only
      rw [ht']
    rwa [hsame]
  · rwa [execCleanCategoryOperate_of_isValid ht' ((ht' ▸ h : Recycling t (some t')).cases hvalid).1]

theorem forEach_deleted_keep {P : Option TaskBase → Prop}
    {body : UserSelfMgr × Reply → String → Answer → UserSelfMgr × Reply}
    (hdel : ∀ r j a, Deleted j a r.1 (body r j a).1)
    (hself : ∀ r a, P (r.1.findTask id) → P ((body r id a).1.findTask id)) (h : P (m.findTask id))
    (rounds : List String) (ω : Nat → Answer) : P ((Lib.forEach body (m, {}) rounds ω).1.findTask id) := by
  refine Lib.forEach_keep (I := fun r : UserSelfMgr × Reply => P (r.1.findTask id)) ?_ h ω
  intro r j a _ hr
  by_cases hj : id = j
  · subst hj
    exact hself r a hr
  · rwa [(hdel r j a).findTask_ne hj]

/-- A delete request that leaves a valid task in the bin has recycled it from the status it was in. -/
theorem binned_of_deletes {e : Event} (he : e.deletes = true) (ht : m.findTask id = some t)
    (hvalid : t.isValid = true) (hst : t.taskStatus ≠ .kDeleted) (hbin : InBin ((m.step e).findTask id)) :
    ∃ t', (m.step e).findTask id = some t' ∧ Binned t.taskStatus t' ∧ t'.isValid = true := by
  have h : Recycling t ((m.step e).findTask id) := by
    have hstart : Recycling t (m.findTask id) := .inl ht
    cases e with
    | delete ids b ω =>
      exact forEach_deleted_keep (execDeleteOperate_deleted b false)
        (fun r a hr => execDeleteOperate_recycling hvalid hr b false a) hstart ids ω
    | clean ids ω =>
      exact forEach_deleted_keep (execDeleteOperate_deleted false true)
        (fun r a hr => execDeleteOperate_recycling hvalid hr false true a) hstart ids ω
    | deleteCategory c b ω =>
      exact forEach_deleted_keep (execDeleteCategoryOperate_deleted c b)
        (fun r a hr => execDeleteCategoryOperate_recycling hvalid hr c b a) hstart _ ω
    | cleanCategory c ω =>
      exact forEach_deleted_keep (execCleanCategoryOperate_deleted c)
        (fun r a hr => execCleanCategoryOperate_recycling hvalid hr c a) hstart _ ω
    | _ => cases he
  rcases h with heq | heq | h
  · rw [heq] at hbin
    exact absurd hbin hst
  · rw [heq] at hbin
    exact hbin.elim
  · exact h

/-! ## In the bin -/

/-- The event does not restore the task or delete it for good, and no parse completes for it. A create
request that finds the metadata of a magnet link at once completes a parse for the task that has the
user's id. -/
def Spares (id : String) (m : UserSelfMgr) : Event → Prop
  | .createLink _ _ ω | .createTorrent _ _ ω => id ≠ m.userId ∨ ∀ k, (ω k).torrentList = none
  | .restore queue ids _ => id ∉ matching queue ids
  | .restoreAll queue _ => id ∉ queue
  | .delete ids _ _ => id ∉ ids
  | .deleteCategory c _ _ => c ≠ .kAll ∧ c ≠ .kRecyclebinTask
  | .runParse _ => ∀ msg rest, m.parseQueue = msg :: rest → msg.1 ≠ id
  | .reset _ | .restart .. => False
  | _ => True

def ListedBinned (s : TaskStatus) (listed : Option TaskBase) : Prop := ∃ t, listed = some t ∧ Binned s t

theorem ListedBinned.setTask {j : String} (h : ListedBinned s (m.findTask id)) (ht : m.findTask j = some t)
    (hb : Binned s t → Binned s t') : ListedBinned s ((m.setTask j t').findTask id) := by
  by_cases hj : id = j
  · subst hj
    obtain ⟨t₁, ht₁, hb₁⟩ := h
    obtain rfl := Option.some.inj (ht.symm.trans ht₁)
    exact ⟨t', findTask_setTask .., hb hb₁⟩
  · rwa [findTask_setTask_ne m t' hj]

theorem execPauseOperate_of_deleted (ht : m.findTask id = some t) (hst : t.taskStatus = .kDeleted) (a : Answer) :
    (m.execPauseOperate id a).1 = m := by
  rw [execPauseOperate, ht]
  simp only [pauseTask, hst]

theorem execResumeOperate_of_deleted (ht : m.findTask id = some t) (hst : t.taskStatus = .kDeleted) (a : Answer) :
    (m.execResumeOperate id a).1 = m := by
  rw [execResumeOperate, ht]
  simp only [hst]

theorem execRetryOperate_of_deleted (ht : m.findTask id = some t) (hst : t.taskStatus = .kDeleted)
    (hvalid : t.isValid = true) (a : Answer) : (m.execRetryOperate id a).1 = m := by
  rw [execRetryOperate, ht]
  dsimp only
  rw [if_neg]
  rw [hst, hvalid]
  decide

theorem forEach_operate_still {cond : UserSelfMgr → String → Bool}
    {exec : UserSelfMgr → String → Answer → UserSelfMgr × DownloadErrorCode} {rounds : List String}
    {rel : TaskBase → TaskBase → Prop} (hexec : ∀ m j a, Updates rel j m (exec m j a).1)
    (hself : ∀ m a, m.findTask id = some t → (exec m id a).1 = m) (ht : m.findTask id = some t)
    (ω : Nat → Answer) : (Lib.forEach (operate cond exec) (m, {}) rounds ω).1.findTask id = some t := by
  refine forEach_operate_keep (I := fun m => m.findTask id = some t) ?_ ht {} ω
  intro m j a _ _ hm
  by_cases hj : id = j
  · subst hj
    rwa [hself m a hm]
  · rwa [(hexec m j a).other id hj]

theorem forEach_deleted_still {body : UserSelfMgr × Reply → String → Answer → UserSelfMgr × Reply}
    (hdel : ∀ r j a, Deleted j a r.1 (body r j a).1)
    (hself : ∀ r a, r.1.findTask id = some t → (body r id a).1 = r.1) (ht : m.findTask id = some t)
    (rounds : List String) (ω : Nat → Answer) :
    (Lib.forEach body (m, {}) rounds ω).1.findTask id = some t :=
  forEach_deleted_keep (P := (· = some t)) hdel (fun r a hr => by rwa [hself r a hr]) ht rounds ω

/-- A tick may only find that the files of a recycled task are gone. -/
theorem Binned.checkTask (h : Binned s t) (a : Answer) : Binned s (t.checkTask a) := by
  have hpass : t.checkTaskIsFailed = (t, true) := by
    simp [TaskBase.checkTaskIsFailed, h.taskStatus]
  have heq : t.checkTask a = t.checkInvalidTask a := by
    simp only [TaskBase.checkTask, hpass, h.taskStatus]
  rw [heq, TaskBase.checkInvalidTask]
  split
  · exact h.of_eq rfl rfl rfl rfl
  · exact h

theorem ListedBinned.checkLimit {c : LimitCheck} (h : ListedBinned s (c.mgr.findTask id)) (j : String)
    (a : Answer) : ListedBinned s ((UserSelfMgr.checkLimit c j a).mgr.findTask id) := by
  by_cases hj : id = j
  · subst hj
    obtain ⟨t, ht, hb⟩ := h
    have hsame : UserSelfMgr.checkLimit c id a = c := by
      rw [UserSelfMgr.checkLimit, ht]
      dsimp only
      rw [hb.taskStatus, if_neg (by decide), if_neg fun hw => absurd hw.1 (by decide)]
    rw [hsame]
    exact ⟨t, ht, hb⟩
  · rwa [(checkLimit_round c j a).updates.other id hj]

theorem ListedBinned.timerChcek (h : ListedBinned s (m.findTask id)) (queue : List String) (ω ω' : Nat → Answer) :
    ListedBinned s ((m.timerChcek queue ω ω').findTask id) := by
  unfold UserSelfMgr.timerChcek
  split
  · have hlimit : ListedBinned s ((m.checkTaskCountLimit queue ω).1.findTask id) :=
      Lib.forEach_keep (I := fun c : LimitCheck => ListedBinned s (c.mgr.findTask id))
        (fun c j a _ hc => hc.checkLimit j a) h ω
    refine Lib.forEach_keep (I := fun m : UserSelfMgr => ListedBinned s (m.findTask id)) ?_ hlimit ω'
    intro m j a _ hm
    unfold UserSelfMgr.checkTask
    split
    · exact hm
    · rename_i t ht
      exact hm.setTask ht fun hb => hb.checkTask a
  · exact h

/-- A task is parsed without a callback when the engine has no metadata. -/
theorem findTask_parseTask_of_none {j : String} (hj : id ≠ j) (ha : a.torrentList = none) :
    (m.parseTask j a).findTask id = m.findTask id := by
  unfold parseTask
  split
  · rfl
  · rename_i t ht
    have hnone : (t.parse m.userId a).2 = none := by
      unfold TaskBase.parse
      split
      · unfold TaskBase.magnetParse
        rw [ha]
        split <;> rfl
      · rfl
      · rfl
    split
    · exact findTask_setTask_ne m _ hj
    · rename_i hp
      rw [hp] at hnone
      cases hnone

/-- A create request changes no task that was listed before if no parse completes in it. -/
theorem findTask_createAll_of_none (ht : m.findTask id = some t) (params : List TaskParam) (host : Nat → Host)
    {ω : Nat → Answer} (hω : ∀ k, (ω k).torrentList = none) :
    (m.createAll params host ω).1.findTask id = some t := by
  have hc := Lib.forEach_keep (I := Untouched m id t)
    (fun c param a (_ : param ∈ params) hc => hc.execCreate param a) (s := { mgr := m })
    ⟨ht, rfl, List.not_mem_nil⟩ host
  refine Lib.forEach_keep_get (I := fun m' : UserSelfMgr => m'.findTask id = some t) ?_ hc.findTask
  intro m' k j hj hm'
  have hne : id ≠ j := fun heq => hc.needParse (heq ▸ List.mem_of_getElem? hj)
  rwa [findTask_parseTask_of_none hne (hω k)]

theorem createAll_spared (ht : m.findTask id = some t) (params : List TaskParam) (host : Nat → Host)
    {ω : Nat → Answer} (h : id ≠ m.userId ∨ ∀ k, (ω k).torrentList = none) :
    (m.createAll params host ω).1.findTask id = some t := by
  rcases h with hu | hω
  · exact findTask_createAll ht hu params host ω
  · exact findTask_createAll_of_none ht params host hω

theorem ListedBinned.metadataDownloaded (h : ListedBinned s (m.findTask id)) (j : String) (result : TorrentList) :
    ListedBinned s ((m.metadataDownloaded j result).findTask id) := by
  unfold UserSelfMgr.metadataDownloaded
  split
  · exact h
  · rename_i t₁ ht₁
    refine h.setTask ht₁ fun hb₁ => ?_
    unfold TaskBase.parseMangetResult
    split
    · exact hb₁.of_eq rfl rfl rfl rfl
    · exact hb₁

theorem ListedBinned.setFileList (h : ListedBinned s (m.findTask id)) (j : String) (l : TorrentList) :
    ListedBinned s ((m.setFileList j l).findTask id) := by
  unfold UserSelfMgr.setFileList
  split
  · exact h
  · rename_i t₁ ht₁
    split
    · exact h.setTask ht₁ fun hb₁ => hb₁.of_eq rfl rfl rfl rfl
    · exact h

theorem step_binned {e : Event} (ht : m.findTask id = some t) (hb : Binned s t) (hvalid : t.isValid = true)
    (hspares : Spares id m e) : ListedBinned s ((m.step e).findTask id) := by
  have hst := hb.taskStatus
  have hlisted : ListedBinned s (m.findTask id) := ⟨t, ht, hb⟩
  have hstill {m' : UserSelfMgr} (h : m'.findTask id = some t) : ListedBinned s (m'.findTask id) := ⟨t, h, hb⟩
  cases e with
  | createLink sourceList host ω | createTorrent request host ω =>
    exact hstill (createAll_spared ht _ host hspares)
  | pause ids ω | pauseAll ω =>
    exact hstill (forEach_operate_still execPauseOperate_updates
      (fun m a hm => execPauseOperate_of_deleted hm hst a) ht ω)
  | resume queue ids ω | resumeAll queue ω =>
    exact hstill (forEach_operate_still execResumeOperate_updates
      (fun m a hm => execResumeOperate_of_deleted hm hst a) ht ω)
  | retry queue ids ω | retryAll queue ω =>
    exact hstill (forEach_operate_still execRetryOperate_updates
      (fun m a hm => execRetryOperate_of_deleted hm hst hvalid a) ht ω)
  | restore queue ids ω | restoreAll queue ω =>
    exact hstill ((findTask_forEach_operate (fun m j a hc => execRestoreOperate_updates hc a) hspares {} ω).trans ht)
  | delete ids b ω =>
    exact hstill ((findTask_forEach_deleted (execDeleteOperate_deleted b false) hspares {} ω).trans ht)
  | clean ids ω =>
    exact hstill (forEach_deleted_still (execDeleteOperate_deleted false true)
      (fun r a hr => execDeleteOperate_clean_of_isValid hr hvalid false a) ht ids ω)
  | deleteCategory c b ω =>
    have hne : t.taskCategory ≠ c := fun heq => hspares.2 (heq.symm.trans hb.taskCategory)
    refine hstill (forEach_deleted_still (execDeleteCategoryOperate_deleted c b) (fun r a hr => ?_) ht _ ω)
    rw [execDeleteCategoryOperate_of_ne hr hspares.1 hne]
  | cleanCategory c ω =>
    refine hstill (forEach_deleted_still (execCleanCategoryOperate_deleted c) (fun r a hr => ?_) ht _ ω)
    rw [execCleanCategoryOperate_of_isValid hr hvalid]
  | timer queue ω ω' => exact hlisted.timerChcek queue ω ω'
  | metadataDownloaded j result => exact hlisted.metadataDownloaded j result
  | setFileList j l => exact hlisted.setFileList j l
  | runParse a =>
    show ListedBinned s ((m.runParse a).findTask id)
    unfold UserSelfMgr.runParse
    split
    · exact hlisted
    · rename_i msg rest hq
      rw [findTask_onParseComplete_ne (Ne.symm (hspares msg rest hq))]
      exact hlisted
  | reset ω => exact hspares.elim
  | restart rows host => exact hspares.elim
  | settings n b => exact hlisted

/-! ## Out of the bin -/

/-- The status a task is restored to: the one it was recycled from, but a task that waited or was
downloading waits, unless there is a slot for it. -/
def RestoredTo (former : TaskStatus) (isCanStart : Bool) (restored : TaskStatus) : Prop :=
  match former with
  | .kWaitting | .kDownloading =>
    restored = .kWaitting ∨ isCanStart = true ∧ (restored = .kDownloading ∨ restored = .kPaused)
  | _ => restored = former

theorem execRestoreOperate_of_isValid (ht : m.findTask id = some t) (hst : t.taskStatus = .kDeleted)
    (hvalid : t.isValid = true) (a : Answer) :
    (m.recover .restore id a).1 =
      let t' := (t.restore m.isBtAutoDownload a).1
      if t'.taskStatus = .kWaitting ∧ (m.setTask id t').isCanStart then
        if t'.isStarted then ((m.setTask id t').resumeTask id t' a).1 else ((m.setTask id t').startTask id t' a).1
      else m.setTask id t' := by
  have hguard : m.hasStatus (· == .kDeleted) id = true := by
    rw [hasStatus_of_findTask ht, hst]
    rfl
  rw [recover, if_pos hguard, execRestoreOperate, ht]
  dsimp only
  rw [if_pos hvalid]
  split
  · split <;> rfl
  · rfl

theorem restore_taskStatus (himpl : t.hasImpl = true) (hpre : t.preStatus = s)
    (hs : s ∈ [TaskStatus.kPaused, .kFinished, .kSeeding]) (isBtAutoDownload : Bool) (a : Answer) :
    (t.restore isBtAutoDownload a).1.taskStatus = s := by
  simp only [List.mem_cons, List.not_mem_nil, or_false] at hs
  rcases hs with rfl | rfl | rfl <;>
    simp [TaskBase.restore, himpl, hpre, TaskBase.setCreateTimeStamp]

theorem resume_taskStatus_of_kWaitting (hst : t.taskStatus = .kWaitting) (isBtAutoDownload : Bool) (a : Answer) :
    (t.resume isBtAutoDownload a).1.taskStatus = .kWaitting ∨
      (t.resume isBtAutoDownload a).1.taskStatus = .kDownloading ∨
      (t.resume isBtAutoDownload a).1.taskStatus = .kPaused := by
  unfold TaskBase.resume
  split
  · exact .inr (.inr rfl)
  · split
    · exact .inr (.inl rfl)
    · exact .inl hst

theorem start_taskStatus_of_kWaitting (hst : t.taskStatus = .kWaitting) (ret : DownloadErrorCode) :
    (t.start ret).1.taskStatus = .kWaitting ∨ (t.start ret).1.taskStatus = .kDownloading := by
  unfold TaskBase.start
  split
  · exact .inl hst
  · split
    · split <;> exact .inl hst
    · dsimp only
      split <;> exact .inr rfl

theorem restore_binned (ht : m.findTask id = some t) (hb : Binned s t) (hvalid : t.isValid = true)
    (hs : s ∈ [TaskStatus.kPaused, .kFinished, .kSeeding, .kWaitting, .kDownloading]) (a : Answer) :
    ∃ t', (m.recover .restore id a).1.findTask id = some t' ∧ RestoredTo s m.isCanStart t'.taskStatus := by
  rw [execRestoreOperate_of_isValid ht hb.taskStatus hvalid]
  dsimp only
  by_cases hrest : s ∈ [TaskStatus.kPaused, .kFinished, .kSeeding]
  · have hto := restore_taskStatus hb.hasImpl hb.preStatus hrest m.isBtAutoDownload a
    have hne : s ≠ .kWaitting := by
      rintro rfl
      exact absurd hrest (by decide)
    rw [if_neg fun h => hne (hto.symm.trans h.1)]
    refine ⟨_, findTask_setTask .., ?_⟩
    simp only [List.mem_cons, List.not_mem_nil, or_false] at hrest
    rcases hrest with rfl | rfl | rfl <;> exact hto
  · have hwait : s = .kWaitting ∨ s = .kDownloading := by
      simp only [List.mem_cons, List.not_mem_nil, or_false, not_or] at hs hrest
      tauto
    have hgoal {t' : TaskBase} (h : t'.taskStatus = .kWaitting ∨
        m.isCanStart = true ∧ (t'.taskStatus = .kDownloading ∨ t'.taskStatus = .kPaused)) :
        RestoredTo s m.isCanStart t'.taskStatus := by
      rcases hwait with rfl | rfl <;> exact h
    have hpre : t.preStatus = .kWaitting ∨ t.preStatus = .kDownloading := by
      rw [hb.preStatus]
      exact hwait
    have hcan : (m.setTask id ((t.setTaskStatus .kWaitting).setCreateTimeStamp a)).isCanStart = m.isCanStart :=
      isCanStart_setTask ht (by simp [slot, TaskBase.setCreateTimeStamp, hb.taskStatus])
    rw [restore_kWaitting hb.hasImpl hpre]
    dsimp only
    rw [hcan]
    have hst : ((t.setTaskStatus .kWaitting).setCreateTimeStamp a).taskStatus = .kWaitting := rfl
    split
    · rename_i hroom
      split
      · refine ⟨_, findTask_setTask .., hgoal ?_⟩
        exact (resume_taskStatus_of_kWaitting hst _ a).imp_right fun h => ⟨hroom.2, h⟩
      · refine ⟨_, findTask_setTask .., hgoal ?_⟩
        exact (start_taskStatus_of_kWaitting hst a.start).imp_right fun h => ⟨hroom.2, .inl h⟩
    · exact ⟨_, findTask_setTask .., hgoal (.inl hst)⟩

def ListedValid (id : String) (m : UserSelfMgr) : Prop := ∀ t, m.findTask id = some t → t.isValid = true

/-- A valid task that is recycled by a request is restored to the status it was recycled from, whatever
has happened in between that spared it and left it valid. -/
theorem restore_recycled {m : UserSelfMgr} {id : String} {t : TaskBase} {e : Event} {es : List Event}
    (ht : m.findTask id = some t) (hvalid : t.isValid = true)
    (hst : t.taskStatus ∈ [TaskStatus.kPaused, .kFinished, .kSeeding, .kWaitting, .kDownloading])
    (he : e.deletes = true) (hbin : InBin ((m.step e).findTask id))
    (hes : Lib.Along step (fun m e => Spares id m e ∧ ListedValid id (m.step e)) (m.step e) es) (a : Answer) :
    ∃ t', ((Lib.run step (m.step e) es).recover .restore id a).1.findTask id = some t' ∧
      RestoredTo t.taskStatus (Lib.run step (m.step e) es).isCanStart t'.taskStatus := by
  have hne : t.taskStatus ≠ .kDeleted := by
    intro hd
    rw [hd] at hst
    exact absurd hst (by decide)
  have hstart := binned_of_deletes he ht hvalid hne hbin
  -- the invariant of the run: the task is valid, in the bin, and knows the status it came from
  have hrun := hes.run (I := fun m => ∃ t', m.findTask id = some t' ∧ Binned t.taskStatus t' ∧ t'.isValid = true)
    (fun m e hm h => by
      obtain ⟨t₁, ht₁, hb₁, hv₁⟩ := hm
      obtain ⟨t₂, ht₂, hb₂⟩ := step_binned ht₁ hb₁ hv₁ h.1
      exact ⟨t₂, ht₂, hb₂, h.2 t₂ ht₂⟩) hstart
  obtain ⟨t', ht', hb', hv'⟩ := hrun
  exact restore_binned ht' hb' hv' hst a

def betweenTicks : List Event :=
  [.timer ["1"] (fun _ => {}) fun _ => {}, linkTask "2" "http://a/g", .pause ["2"] fun _ => {},
    .timer ["1", "2"] (fun _ => {}) fun _ => {}]

theorem inBin_of_map {o : Option TaskBase} (h : o.map (·.taskStatus) = some .kDeleted) : InBin o := by
  obtain ⟨t, rfl, hst⟩ := Option.map_eq_some_iff.mp h
  exact hst

theorem listedValid_of_map (h : (m.findTask id).map (·.isValid) = some true) : ListedValid id m := by
  intro t ht
  rw [ht] at h
  exact Option.some.inj h

theorem pausedTask_restored :
    ∃ t', ((Lib.run step ((single pausedTask).step (.delete ["1"] false fun _ => {})) betweenTicks).recover
      .restore "1" {}).1.findTask "1" = some t' ∧ RestoredTo .kPaused (Lib.run step ((single pausedTask).step
        (.delete ["1"] false fun _ => {})) betweenTicks).isCanStart t'.taskStatus := by
  have ht : (single pausedTask).findTask "1" = some pausedTask := by decide +kernel
  have hbin : InBin (((single pausedTask).step (.delete ["1"] false fun _ => {})).findTask "1") :=
    inBin_of_map (by decide +kernel)
  refine restore_recycled ht rfl (by decide) rfl hbin ?_ {}
  rw [betweenTicks]
  simp only [Lib.along_cons, Lib.along_nil, and_true]
  refine ⟨⟨trivial, listedValid_of_map ?_⟩, ⟨.inl ?_, listedValid_of_map ?_⟩,
    ⟨trivial, listedValid_of_map ?_⟩, ⟨trivial, listedValid_of_map ?_⟩⟩
  all_goals decide +kernel

end Nas.Download.UserSelfMgr
