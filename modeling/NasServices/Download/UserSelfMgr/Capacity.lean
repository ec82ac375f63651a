import NasServices.Download.UserSelfMgr.Frame

/-!
# User operations and the download limit

Every path on which a request sets a task downloading asks `IsCanStart` first,
except one: `TaskBase::Restore` resumes a task that had failed before it was
deleted, whatever the number of downloading tasks. `FitsIn` is kept by every
other operation, one lemma for each; `step_fitsIn` puts them together, with
the condition on restore requests that the exception needs.
-/

namespace Nas.Download.UserSelfMgr

structure FitsIn (limit : Nat) (m : UserSelfMgr) : Prop where
  eq : m.taskLimitCount = limit
  le : m.downloadingTaskNum ≤ limit

section FitsIn

variable {limit : Nat} {m : UserSelfMgr} {id : String} {t t' : TaskBase} {a : Answer}

theorem downloadingTaskNum_setTask_le (m : UserSelfMgr) (id : String) (t : TaskBase) :
    (m.setTask id t).downloadingTaskNum ≤ m.downloadingTaskNum + slot t := by
  rcases h : m.findTask id with _ | t₀
  · exact (Lib.sumBy_insert_of_notMem h).trans_le (Nat.add_comm ..).le
  · have := downloadingTaskNum_setTask h t
    omega

theorem FitsIn.setTask_of_isCanStart (h : FitsIn limit m) (hc : m.isCanStart) (id : String)
    (t : TaskBase) : FitsIn limit (m.setTask id t) := by
  have hlt : m.downloadingTaskNum < m.taskLimitCount := by simpa [isCanStart] using hc
  have hle := downloadingTaskNum_setTask_le m id t
  have hslot := slot_le_one t
  have heq := h.eq
  exact ⟨heq, by omega⟩

theorem FitsIn.setTask_of_ne (h : FitsIn limit m) (id : String) (ht : t.taskStatus ≠ .kDownloading) :
    FitsIn limit (m.setTask id t) := by
  have hle := downloadingTaskNum_setTask_le m id t
  have hnum := h.le
  rw [slot_eq_zero ht] at hle
  exact ⟨h.eq, by omega⟩

theorem FitsIn.setTask_of_eq (h : FitsIn limit m) (hf : m.findTask id = some t)
    (ht : t'.taskStatus = t.taskStatus) : FitsIn limit (m.setTask id t') := by
  have hnum := h.le
  have heq := downloadingTaskNum_setTask hf t'
  have hslot : slot t' = slot t := by simp only [slot, ht]
  exact ⟨h.eq, by omega⟩

theorem FitsIn.engine (h : FitsIn limit m) (calls : List EngineCall) :
    FitsIn limit { m with engine := calls } := ⟨h.eq, h.le⟩

theorem FitsIn.startTask (h : FitsIn limit m) (hc : m.isCanStart) :
    FitsIn limit (m.startTask id t a).1 := (h.setTask_of_isCanStart hc id _).engine _

theorem FitsIn.resumeTask (h : FitsIn limit m) (hc : m.isCanStart) :
    FitsIn limit (m.resumeTask id t a).1 := h.setTask_of_isCanStart hc id _

theorem FitsIn.tryResume (h : FitsIn limit m) : FitsIn limit (m.tryResume id t a).1 := by
  unfold UserSelfMgr.tryResume
  split
  · rename_i hc
    split
    · exact h.resumeTask hc
    · exact h.startTask hc
  · exact h.setTask_of_ne id (by rw [TaskBase.setTaskStatus_taskStatus]; decide)

theorem FitsIn.setIsValid (h : FitsIn limit m) : FitsIn limit (m.setIsValid id) := by
  unfold UserSelfMgr.setIsValid
  split
  · exact h
  · rename_i hf
    exact h.setTask_of_eq hf rfl

theorem FitsIn.onParseComplete (h : FitsIn limit m) (msg : TaskBase.ParseMessage) :
    FitsIn limit (m.onParseComplete msg a) := by
  unfold UserSelfMgr.onParseComplete
  split
  · exact h
  · dsimp only
    split
    · rename_i hc
      split
      · exact h.setTask_of_isCanStart hc _ _
      · exact h.setTask_of_isCanStart hc _ _
    · exact h.setTask_of_ne _ (by rw [TaskBase.setTaskStatus_taskStatus]; decide)

theorem FitsIn.execRetryOperate (h : FitsIn limit m) : FitsIn limit (m.execRetryOperate id a).1 := by
  unfold UserSelfMgr.execRetryOperate
  split
  · exact h
  · rename_i t hf
    split
    · split
      · exact h.setIsValid
      · rename_i t' hr
        have hst : t'.taskStatus = t.taskStatus := by
          rw [← TaskBase.retry_taskStatus t a, hr]
        exact ((h.setTask_of_eq hf hst).tryResume).setIsValid
    · exact h

theorem FitsIn.execResumeOperate (h : FitsIn limit m) :
    FitsIn limit (m.execResumeOperate id a).1 := by
  unfold UserSelfMgr.execResumeOperate
  split
  · exact h
  · rename_i t hf
    split
    · split
      · exact h.setTask_of_ne id (by rw [TaskBase.setTaskStatus_taskStatus]; decide)
      · exact h.tryResume
    · split
      · exact h
      · rename_i t' hr
        have hst : t'.taskStatus = t.taskStatus := by
          rw [← TaskBase.retry_taskStatus t a, hr]
        exact (h.setTask_of_eq hf hst).tryResume
    · rename_i hfin
      split
      · split
        · exact h.setTask_of_ne id (by rw [TaskBase.setTaskStatus_taskStatus]; decide)
        · rename_i t' hr
          have ht' : t' = t := by
            have := TaskBase.resume_of_false (t := t) (a := a) (by rw [hr])
            rwa [hr] at this
          exact h.setTask_of_eq hf (by rw [ht'])
      · exact h
    · exact h

def FailedInBin (m : UserSelfMgr) (id : String) : Prop :=
  ∃ t, m.findTask id = some t ∧ t.taskStatus = .kDeleted ∧ t.isValid = true ∧ t.preStatus = .kFailed

theorem FitsIn.execRestoreOperate (h : FitsIn limit m) (hd : m.hasStatus (· == .kDeleted) id)
    (hf : ¬ FailedInBin m id) : FitsIn limit (m.execRestoreOperate id a).1 := by
  unfold UserSelfMgr.execRestoreOperate
  split
  · exact h
  · rename_i t ht
    rw [hasStatus_of_findTask ht, beq_iff_eq] at hd
    split
    · rename_i hv
      have hpre : t.preStatus ≠ .kFailed := fun hpre => hf ⟨t, ht, hd, hv, hpre⟩
      have hne := TaskBase.restore_taskStatus_ne (by rw [hd]; decide) hpre m.isBtAutoDownload a
      have h' := h.setTask_of_ne id hne
      dsimp only
      split
      · rename_i hw
        split
        · exact h'.resumeTask hw.2
        · exact h'.startTask hw.2
      · exact h'
    · exact h.execRetryOperate

/-! ## Creation -/

theorem execStart_taskStatus_ne {h : Host} (ht : t.taskStatus ≠ .kDownloading)
    (hc : m.isCanStart = false) : (m.execStart t h).task.taskStatus ≠ .kDownloading := by
  unfold execStart
  split
  · rename_i hty
    have hst : (execMagnet t h).task.taskStatus = t.taskStatus :=
      TaskBase.start_taskStatus_of_isBt (by simp [hty, DownloadType.isBt]) _
    rwa [hst]
  · rename_i hty
    have hadmit : m.admitTorrent t = t.setTaskStatus .kWaitting := by
      simp only [admitTorrent, hc, Bool.false_eq_true, if_false]
    simp only [execNoneBt, hc, Bool.false_eq_true, if_false, startNew, hadmit]
    rw [TaskBase.start_taskStatus_of_isBt (by simp [hty, DownloadType.isBt])]
    simp
  · simpa only [execNoneBt, hc, Bool.false_eq_true, if_false] using ht

theorem FitsIn.addTask (h : FitsIn limit m) (id : String) (ht : t.taskStatus = .kDownloading → m.isCanStart) :
    FitsIn limit (m.addTask id t).1 := by
  unfold UserSelfMgr.addTask
  split
  · exact h
  · have h' : FitsIn limit (m.setTask id t) := by
      by_cases hst : t.taskStatus = .kDownloading
      · exact h.setTask_of_isCanStart (ht hst) id t
      · exact h.setTask_of_ne id hst
    exact ⟨h'.eq, h'.le⟩

theorem FitsIn.releaseTask (h : FitsIn limit m) : FitsIn limit (m.releaseTask t a).1 := ⟨h.eq, h.le⟩

theorem FitsIn.execCreate {c : Creation} (h : FitsIn limit c.mgr) (param : TaskParam) (host : Host) :
    FitsIn limit (execCreate c param host).mgr := by
  unfold UserSelfMgr.execCreate
  split
  · exact h
  · rename_i t err same hc
    have hst : t.taskStatus ≠ .kDownloading := by
      obtain ⟨-, ⟨url, hasImpl, createTime, rfl⟩, -⟩ := createTask_fresh hc
      exact nofun
    have h₁ : FitsIn limit { c.mgr with made := t.param :: c.mgr.made } := ⟨h.eq, h.le⟩
    generalize ({ c.mgr with made := t.param :: c.mgr.made } : UserSelfMgr) = m at h₁
    dsimp only
    split
    · exact h₁
    · split
      · exact h₁.engine _
      · have hroom : (m.execStart t host).task.taskStatus = .kDownloading → m.isCanStart := by
          intro hd
          cases hcan : m.isCanStart with
          | true => rfl
          | false => exact absurd hd (execStart_taskStatus_ne hst hcan)
        have h₂ := (h₁.engine ((m.execStart t host).calls ++ m.engine)).addTask param.id hroom
        split
        · rename_i hadd
          rw [hadd] at h₂
          exact h₂.releaseTask
        · rename_i hadd
          rw [hadd] at h₂
          exact h₂

theorem FitsIn.parseTask (h : FitsIn limit m) : FitsIn limit (m.parseTask id a) := by
  unfold UserSelfMgr.parseTask
  split
  · exact h
  · rename_i t hf
    have h' : FitsIn limit (m.setTask id (t.parse m.userId a).1) := by
      rcases t.parse_taskStatus m.userId a with hst | hst | hst
      · exact h.setTask_of_eq hf hst
      · exact h.setTask_of_ne id (by rw [hst]; decide)
      · exact h.setTask_of_ne id (by rw [hst]; decide)
    split
    · rename_i hp
      rwa [hp] at h'
    · rename_i hp
      rw [hp] at h'
      exact h'.onParseComplete _

theorem FitsIn.createAll (h : FitsIn limit m) (params : List TaskParam) (host : Nat → Host)
    (ω : Nat → Answer) : FitsIn limit (m.createAll params host ω).1 := by
  have hcreate := Lib.forEach_keep (I := fun c : Creation => FitsIn limit c.mgr)
    (fun c param a (_ : param ∈ params) hc => hc.execCreate param a) (s := { mgr := m }) h host
  exact Lib.forEach_keep (fun _ _ _ _ h => h.parseTask) hcreate ω

/-! ## Requests -/

/-- The rounds of a restore request reach the branch of `Restore` that does not ask for
room: one of its tasks is in the recycle bin and had failed before. An invalid
task is retried instead, which makes it valid, so it counts when its id comes twice. -/
def RestoresFailed (m : UserSelfMgr) (rounds : List String) : Prop :=
  ∃ id t, id ∈ rounds ∧ m.findTask id = some t ∧ t.taskStatus = .kDeleted ∧
    t.preStatus = .kFailed ∧ (t.isValid = true ∨ 1 < rounds.count id)

theorem RestoresFailed.cons {rounds : List String} (h : RestoresFailed m rounds) (id : String) :
    RestoresFailed m (id :: rounds) := by
  obtain ⟨j, t, hj, hf, hd, hp, hv⟩ := h
  refine ⟨j, t, List.mem_cons_of_mem _ hj, hf, hd, hp, hv.imp_right fun hc => ?_⟩
  exact hc.trans_le (List.count_le_count_cons)

theorem RestoresFailed.of_execRestoreOperate {rounds : List String}
    (hd : m.hasStatus (· == .kDeleted) id)
    (h : RestoresFailed (m.execRestoreOperate id a).1 rounds) : RestoresFailed m (id :: rounds) := by
  have hu := execRestoreOperate_updates hd a
  obtain ⟨j, t', hj, hf, hd', hp', hv⟩ := h
  by_cases hne : j = id
  · subst hne
    rcases ht : m.findTask j with _ | t
    · rw [hu.none ht] at hf; cases hf
    · obtain ⟨t₁, ht₁, hop⟩ := hu.task t ht
      obtain rfl : t₁ = t' := Option.some.inj (ht₁.symm.trans hf)
      obtain ⟨hdel, hpre⟩ := hop.bin hd'
      refine ⟨j, t, List.mem_cons_self, ht, hdel, hpre ▸ hp', .inr ?_⟩
      have := List.count_pos_iff.mpr hj
      rw [List.count_cons_self]
      omega
  · rw [hu.other j hne] at hf
    refine RestoresFailed.cons ⟨j, t', hj, hf, hd', hp', ?_⟩ id
    exact hv

theorem FitsIn.forEach_restore (h : FitsIn limit m) {rounds : List String}
    (hr : ¬ RestoresFailed m rounds) (r : Reply) (ω : Nat → Answer) :
    FitsIn limit
      (Lib.forEach (operate (hasStatus (· == .kDeleted)) UserSelfMgr.execRestoreOperate) (m, r)
        rounds ω).1 := by
  refine (Lib.forEach_scan_all (I := fun (s : UserSelfMgr × Reply) rest =>
    FitsIn limit s.1 ∧ ¬ RestoresFailed s.1 rest) ?_ ⟨h, hr⟩).1
  rintro ⟨m, r⟩ id rest k ⟨hm, hno⟩
  unfold operate
  split
  · rename_i hd
    refine ⟨hm.execRestoreOperate hd fun ⟨t, ht, hdel, hv, hpre⟩ => hno ?_,
      fun hres => hno (hres.of_execRestoreOperate hd)⟩
    exact ⟨id, t, List.mem_cons_self, ht, hdel, hpre, .inl hv⟩
  · exact ⟨hm, fun hres => hno (hres.cons id)⟩

end FitsIn

/-! ## Runs -/

def Event.isUserOperation : Event → Bool
  | .createLink .. | .createTorrent .. | .resume .. | .resumeAll .. | .retry .. | .retryAll ..
  | .restore .. | .restoreAll .. | .runParse .. => true
  | _ => false

def Event.RestoresFailed (m : UserSelfMgr) : Event → Prop
  | .restore queue ids _ => UserSelfMgr.RestoresFailed m (matching queue ids)
  | .restoreAll queue _ => UserSelfMgr.RestoresFailed m queue
  | _ => False

theorem FitsIn.runParse {limit : Nat} {m : UserSelfMgr} (h : FitsIn limit m) (a : Answer) :
    FitsIn limit (m.runParse a) := by
  unfold UserSelfMgr.runParse
  split
  · exact h
  · rename_i msg rest _
    have h' : FitsIn limit { m with parseQueue := rest } := ⟨h.eq, h.le⟩
    exact h'.onParseComplete msg

theorem step_fitsIn {limit : Nat} {m : UserSelfMgr} {e : Event} (h : FitsIn limit m)
    (hop : e.isUserOperation) (hr : ¬ e.RestoresFailed m) : FitsIn limit (m.step e) := by
  cases e with
  | createLink sourceList host ω => exact h.createAll _ host ω
  | createTorrent request host ω => exact h.createAll _ host ω
  | resume queue ids ω =>
    exact forEach_operate_keep (fun _ _ _ _ _ h => h.execResumeOperate) h _ ω
  | resumeAll queue ω =>
    exact forEach_operate_keep (fun _ _ _ _ _ h => h.execResumeOperate) h _ ω
  | retry queue ids ω =>
    exact forEach_operate_keep (fun _ _ _ _ _ h => h.execRetryOperate) h _ ω
  | retryAll queue ω =>
    exact forEach_operate_keep (fun _ _ _ _ _ h => h.execRetryOperate) h _ ω
  | restore queue ids ω => exact h.forEach_restore hr _ ω
  | restoreAll queue ω => exact h.forEach_restore hr _ ω
  | runParse a => exact h.runParse a
  | _ => cases hop

/-- In every run in which no restore request covers a recycled task that had failed, every
user operation and parse completion that starts with at most `limit` tasks
downloading ends with at most `limit`. -/
theorem run_keeps_taskLimitCount (m : UserSelfMgr) (es : List Event)
    (h : Lib.Along step (fun m e => ¬ e.RestoresFailed m) m es) :
    Lib.Along step (fun m e => e.isUserOperation → m.downloadingTaskNum ≤ m.taskLimitCount →
      (m.step e).downloadingTaskNum ≤ m.taskLimitCount) m es :=
  h.imp (I := fun _ => True) (fun _ _ _ _ => trivial)
    (fun _ _ _ hr hop hle => (step_fitsIn ⟨rfl, hle⟩ hop hr).le) trivial

/-- A task is created, deleted and restored while it is the only one. -/
theorem run_keeps_taskLimitCount_restored :
    Lib.Along step (fun m e => e.isUserOperation → m.downloadingTaskNum ≤ m.taskLimitCount →
      (m.step e).downloadingTaskNum ≤ m.taskLimitCount) { userId := "u" }
      [linkTask "a" "http://a", .delete ["a"] false fun _ => {}, .restoreAll ["a"] fun _ => {}] := by
  refine run_keeps_taskLimitCount _ _ ⟨nofun, nofun, ?_, trivial⟩
  rintro ⟨id, t, hid, ht, -, hpre, -⟩
  obtain rfl := List.mem_singleton.mp hid
  have hstatus : (((({ userId := "u" } : UserSelfMgr).step (linkTask "a" "http://a")).step
      (.delete ["a"] false fun _ => {})).findTask "a").map (·.preStatus) = some .kDownloading := by
    decide +kernel
  rw [ht] at hstatus
  simp [hpre] at hstatus

def failedThenFull : List Event :=
  [.settings 1 true, linkTask "b" "http://b",
    .timer ["b"] (fun _ => {}) fun _ => { errCode := ⟨1106⟩ }, .timer ["b"] (fun _ => {}) fun _ => {},
    .delete ["b"] false fun _ => {}, linkTask "a" "http://a"]

/-- Restoring the failed task then makes two tasks download. -/
theorem restore_exceeds_taskLimitCount :
    (Lib.run step { userId := "u" } failedThenFull).taskLimitCount = 1 ∧
    (Lib.run step { userId := "u" } failedThenFull).downloadingTaskNum = 1 ∧
    (Event.restore ["b", "a"] ["b"] fun _ => {}).isUserOperation = true ∧
    ((Lib.run step { userId := "u" } failedThenFull).step
      (.restore ["b", "a"] ["b"] fun _ => {})).downloadingTaskNum = 2 := by
  decide +kernel

end Nas.Download.UserSelfMgr
