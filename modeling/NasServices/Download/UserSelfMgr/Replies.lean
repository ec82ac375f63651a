import NasServices.Download.UserSelfMgr.Duplicates
import NasServices.Download.UserSelfMgr.Message
import NasServices.Download.UserSelfMgr.Outcomes
import NasServices.Lib.Rounds

/-!
# Which tasks a reply has an entry for

A request that names tasks works through the ids in rounds, and each round adds
at most one entry to the two lists, for the id it is about. A round on an id that
is not listed adds one only if it deletes: the others report through
`BuildMessageData`, which looks the task up and returns if there is none. A
restore passes over a task that is not in the recycle bin.

So a reply has exactly one entry for each id it was asked about if no id is given
twice and every one of them is listed (`complete_iff`, with what else there is to
say about a restore). The error code is that of the failed list.
-/

namespace Nas.Download

open Lib (forEach_keep forEach_append forEach_view forEach_add)

def Reply.ids (r : Reply) : List String := r.successList.map (·.taskId) ++ r.failedList.map (·.taskId)

def Message.ids (msg : Message) : List String :=
  msg.successList.map (·.taskId) ++ msg.failedList.map (·.taskId)

/-- A restore takes the task out of the recycle bin. One that is not valid is retried instead, and
stays there if it is to be resumed or started and its status does not change by that. -/
def TaskBase.leavesBin (t : TaskBase) (isCanStart : Bool) (a : Answer) : Bool :=
  t.hasImpl && (t.isValid || !isCanStart || if t.isStarted then a.resume else !t.param.type.isBt)

theorem TaskBase.restore_taskStatus_ne_kDeleted {t : TaskBase} (b : Bool) (a : Answer) (h : t.hasImpl = true) :
    (t.restore b a).1.taskStatus ≠ .kDeleted := by
  simp only [TaskBase.restore, h, Bool.not_true, Bool.false_eq_true, if_false]
  split <;> simp [TaskBase.setCreateTimeStamp, TaskBase.resume]
  all_goals split <;> simp

namespace UserSelfMgr

variable {m m' : UserSelfMgr} {id j : String} {t : TaskBase} {r r' : Reply} {n : Nat}

/-! ## Entries -/

def Adds (id : String) (n : Nat) (r r' : Reply) : Prop :=
  ∀ j, r'.ids.count j = r.ids.count j + if id = j then n else 0

theorem Adds.own (h : Adds id n r r') : r'.ids.count id = r.ids.count id + n := by
  rw [h id, if_pos rfl]

theorem Adds.other (h : Adds id n r r') (hne : id ≠ j) : r'.ids.count j = r.ids.count j := by
  rw [h j, if_neg hne, Nat.add_zero]

theorem Adds.le (h : Adds id n r r') (j : String) : r.ids.count j ≤ r'.ids.count j := by
  rw [h j]
  exact Nat.le_add_right ..

theorem Adds.refl (id : String) (r : Reply) : Adds id 0 r r := by
  intro j
  split <;> rfl

theorem Entry.adds {e : Option Bool} (h : Entry id r e r') : Adds id (if e.isSome then 1 else 0) r r' := by
  intro j
  cases h with
  | nothing => simp
  | success hd | failed hd =>
    simp only [Reply.ids, List.map_append, List.count_append, List.map_cons, List.map_nil, hd, List.count_singleton,
      beq_iff_eq, Option.isSome_some, if_true]
    omega

theorem buildMessageData_adds (m : UserSelfMgr) (id : String)
    (hid : ∀ t, m.findTask id = some t → t.param.id = id) (err : DownloadErrorCode) (isDelete : Bool) (r : Reply) :
    Adds id (if (m.findTask id).isSome then 1 else 0) r (m.buildMessageData id err isDelete r) := by
  have hadds := (buildMessageData_entry m id hid err isDelete r).adds
  rwa [Option.isSome_map] at hadds

/-! ## Pause, resume and retry -/

theorem ListedById.of_paramOf_eq (hm : m.ListedById) (h : paramOf m' = paramOf m) : m'.ListedById := by
  intro j p hp
  exact hm j p (by rwa [h] at hp)

theorem isSome_findTask_eq (m : UserSelfMgr) (id : String) : (m.findTask id).isSome = (paramOf m id).isSome :=
  Option.isSome_map.symm

section Operate

variable {exec : UserSelfMgr → String → Answer → UserSelfMgr × DownloadErrorCode}

theorem operate_adds {s : UserSelfMgr × Reply} {cond : UserSelfMgr → String → Bool} (hcond : cond s.1 id = true)
    {a : Answer} (hexec : paramOf (exec s.1 id a).1 = paramOf s.1) (hs : s.1.ListedById) :
    Adds id (if (paramOf s.1 id).isSome then 1 else 0) s.2 (operate cond exec s id a).2 := by
  have hadds := buildMessageData_adds (exec s.1 id a).1 id (fun _ ht => (hs.of_paramOf_eq hexec).param_id ht)
    (exec s.1 id a).2 false s.2
  rw [isSome_findTask_eq, hexec] at hadds
  unfold operate
  rw [if_pos hcond]
  exact hadds

theorem count_forEach_operate (hexec : ∀ m id a, paramOf (exec m id a).1 = paramOf m) (hm : m.ListedById)
    (rounds : List String) (ω : Nat → Answer) (j : String) :
    (Lib.forEach (operate (fun _ _ => true) exec) (m, {}) rounds ω).2.ids.count j =
      if (m.findTask j).isSome then rounds.count j else 0 := by
  have hcount : (Lib.forEach (operate (fun _ _ => true) exec) (m, {}) rounds ω).2.ids.count j =
      0 + (if (m.findTask j).isSome then 1 else 0) * rounds.count j := by
    refine forEach_add (I := fun s : UserSelfMgr × Reply => s.1.ListedById ∧ paramOf s.1 = paramOf m)
      (f := fun s : UserSelfMgr × Reply => s.2.ids.count j) ?_ ?_ ?_ ⟨hm, rfl⟩ rounds ω
    · intro s y a hs
      have hparam : paramOf (operate (fun _ _ => true) exec s y a).1 = paramOf s.1 := hexec s.1 y a
      exact ⟨hs.1.of_paramOf_eq hparam, hparam.trans hs.2⟩
    · intro s a hs
      rw [(operate_adds rfl (hexec s.1 j a) hs.1).own, isSome_findTask_eq, hs.2]
    · intro s y a hs hne
      exact (operate_adds rfl (hexec s.1 y a) hs.1).other hne
  rw [hcount]
  split <;> omega

end Operate

theorem execPauseOperate_paramOf (m : UserSelfMgr) (id : String) (a : Answer) :
    paramOf (m.execPauseOperate id a).1 = paramOf m :=
  (Pieces.of_updates (execPauseOperate_updates m id a) fun _ _ h => h.kept).paramOf_eq

theorem execResumeOperate_paramOf (m : UserSelfMgr) (id : String) (a : Answer) :
    paramOf (m.execResumeOperate id a).1 = paramOf m :=
  (Pieces.of_updates (execResumeOperate_updates m id a) fun _ _ h => h.kept).paramOf_eq

theorem execRetryOperate_paramOf (m : UserSelfMgr) (id : String) (a : Answer) :
    paramOf (m.execRetryOperate id a).1 = paramOf m :=
  (Pieces.of_updates (execRetryOperate_updates m id a) fun _ _ h => h.kept).paramOf_eq

theorem execDeleteOperate_adds (isDeleteLocalFile isJudgeTaskValid : Bool) {s : UserSelfMgr × Reply}
    (hs : s.1.ListedById) (id : String) (a : Answer) :
    Adds id 1 s.2 (execDeleteOperate isDeleteLocalFile isJudgeTaskValid s id a).2 := by
  obtain ⟨ok, hentry, -⟩ := execDeleteOperate_outcome isDeleteLocalFile isJudgeTaskValid hs id a
  exact hentry.adds

theorem count_forEach_execDeleteOperate (isDeleteLocalFile isJudgeTaskValid : Bool) (hm : m.ListedById)
    (ids : List String) (ω : Nat → Answer) (j : String) :
    (Lib.forEach (execDeleteOperate isDeleteLocalFile isJudgeTaskValid) (m, {}) ids ω).2.ids.count j =
      ids.count j := by
  have hcount : (Lib.forEach (execDeleteOperate isDeleteLocalFile isJudgeTaskValid) (m, {}) ids ω).2.ids.count j =
      0 + 1 * ids.count j :=
    forEach_add (I := fun s : UserSelfMgr × Reply => s.1.ListedById)
      (f := fun s : UserSelfMgr × Reply => s.2.ids.count j)
      (fun s y a hs => (execDeleteOperate_deleted _ _ s y a).listedById hs)
      (fun s a hs => (execDeleteOperate_adds _ _ hs j a).own)
      (fun s y a hs hne => (execDeleteOperate_adds _ _ hs y a).other hne) hm ids ω
  rw [hcount]
  omega

/-! ## Restore -/

theorem hasStatus_setTask (p : TaskStatus → Bool) : (m.setTask id t).hasStatus p id = p t.taskStatus := by
  rw [hasStatus_of_findTask (findTask_setTask ..)]

theorem hasStatus_setIsValid (p : TaskStatus → Bool) : (m.setIsValid id).hasStatus p id = m.hasStatus p id := by
  unfold setIsValid
  split
  · rfl
  · rename_i t ht
    rw [hasStatus_setTask, hasStatus_of_findTask ht]

/-- A task that has been restored is not put back into the bin by the start that may follow. -/
theorem resume_taskStatus_ne_kDeleted (h : t.taskStatus ≠ .kDeleted) (b : Bool) (a : Answer) :
    (t.resume b a).1.taskStatus ≠ .kDeleted := by
  unfold TaskBase.resume
  split
  · simp
  · split
    · simp
    · exact h

theorem start_taskStatus_ne_kDeleted (h : t.taskStatus ≠ .kDeleted) (ret : DownloadErrorCode) :
    (t.start ret).1.taskStatus ≠ .kDeleted := by
  unfold TaskBase.start
  split
  · exact h
  · split
    · split
      · exact h
      · exact h
    · dsimp only
      split <;> simp

theorem start_taskStatus_of_link (hnot : t.isStarted = false) (hbt : t.param.type.isBt = false)
    (ret : DownloadErrorCode) : (t.start ret).1.taskStatus = .kDownloading := by
  unfold TaskBase.start
  rw [if_neg (by simp [hnot]), if_neg (by simp [hbt])]
  dsimp only
  split <;> rfl

theorem hasStatus_startTask (p : TaskStatus → Bool) (a : Answer) :
    (m.startTask id t a).1.hasStatus p id = p (t.start a.start).1.taskStatus :=
  hasStatus_of_findTask (findTask_setTask ..) p

theorem hasStatus_resumeTask (p : TaskStatus → Bool) (a : Answer) :
    (m.resumeTask id t a).1.hasStatus p id = p (t.resume m.isBtAutoDownload a).1.taskStatus :=
  hasStatus_of_findTask (findTask_setTask ..) p

/-- A task in the bin leaves it by `TryResume` if it waits, starts or resumes. -/
theorem hasStatus_tryResume (hd : t.taskStatus = .kDeleted) (a : Answer) :
    (m.tryResume id t a).1.hasStatus (· == .kDeleted) id =
      !(!m.isCanStart || if t.isStarted then a.resume else !t.param.type.isBt) := by
  have hresume : ((t.resume m.isBtAutoDownload a).1.taskStatus == .kDeleted) = !a.resume := by
    simp only [TaskBase.resume, hd]
    cases a.resume <;> simp [hd]
  have hstart : t.isStarted = false →
      ((t.start a.start).1.taskStatus == .kDeleted) = t.param.type.isBt := by
    intro hnot
    cases hbt : t.param.type.isBt
    · rw [beq_eq_false_iff_ne, start_taskStatus_of_link hnot hbt]
      decide
    · rw [TaskBase.start_taskStatus_of_isBt hbt, hd]
      rfl
  unfold tryResume
  cases m.isCanStart
  · simp [hasStatus_setTask]
  · cases hs : t.isStarted
    · simp only [if_true, Bool.false_eq_true, if_false, Bool.not_true, Bool.false_or, Bool.not_not, ← hstart hs]
      exact hasStatus_startTask ..
    · simp only [if_true, Bool.not_true, Bool.false_or, ← hresume]
      exact hasStatus_resumeTask ..

theorem hasStatus_execRetryOperate (ht : m.findTask id = some t) (hd : t.taskStatus = .kDeleted)
    (hvalid : t.isValid = false) (a : Answer) :
    (m.execRetryOperate id a).1.hasStatus (· == .kDeleted) id = !t.leavesBin m.isCanStart a := by
  unfold execRetryOperate
  rw [ht]
  dsimp only
  rw [if_pos (.inr hvalid)]
  cases himpl : t.hasImpl
  · have hretry : t.retry a = (t, false) := by simp [TaskBase.retry, himpl]
    simp [hretry, hasStatus_setIsValid, hasStatus_of_findTask ht, hd, TaskBase.leavesBin, himpl]
  · obtain ⟨t', hretry, hst, hstarted, hparam⟩ : ∃ t', t.retry a = (t', true) ∧ t'.taskStatus = t.taskStatus ∧
        t'.isStarted = t.isStarted ∧ t'.param = t.param :=
      ⟨_, if_neg (by simp [himpl]), rfl, rfl, rfl⟩
    have hcan : (m.setTask id t').isCanStart = m.isCanStart :=
      isCanStart_setTask ht (by rw [slot, slot, hst])
    rw [hretry]
    dsimp only
    rw [hasStatus_setIsValid, hasStatus_tryResume (hst.trans hd), hcan, hstarted, hparam, TaskBase.leavesBin, himpl,
      hvalid, Bool.true_and, Bool.false_or]

theorem hasStatus_execRestoreOperate (ht : m.findTask id = some t) (hd : t.taskStatus = .kDeleted) (a : Answer) :
    (m.execRestoreOperate id a).1.hasStatus (· == .kDeleted) id = !t.leavesBin m.isCanStart a := by
  unfold execRestoreOperate
  rw [ht]
  dsimp only
  split
  · rename_i hvalid
    rw [TaskBase.leavesBin, hvalid]
    cases himpl : t.hasImpl
    · have hrestore : t.restore m.isBtAutoDownload a = (t, false) := by simp [TaskBase.restore, himpl]
      simp [hrestore, hd, hasStatus_setTask]
    · have hne := TaskBase.restore_taskStatus_ne_kDeleted m.isBtAutoDownload a himpl
      simp only [Bool.true_or, Bool.and_true, Bool.not_true]
      split
      · split
        · rw [hasStatus_resumeTask, beq_eq_false_iff_ne]
          exact resume_taskStatus_ne_kDeleted hne _ a
        · rw [hasStatus_startTask, beq_eq_false_iff_ne]
          exact start_taskStatus_ne_kDeleted hne _
      · rw [hasStatus_setTask, beq_eq_false_iff_ne]
        exact hne
  · rename_i hvalid
    exact hasStatus_execRetryOperate ht hd (by simpa using hvalid) a

abbrev restoreRound : UserSelfMgr × Reply → String → Answer → UserSelfMgr × Reply :=
  operate (hasStatus (· == .kDeleted)) execRestoreOperate

section Rounds

variable {s : UserSelfMgr × Reply} {a : Answer}

theorem restoreRound_of_not (h : s.1.hasStatus (· == .kDeleted) id = false) : restoreRound s id a = s := by
  unfold restoreRound operate
  rw [h, if_neg Bool.false_ne_true]

theorem restoreRound_of_deleted (h : s.1.hasStatus (· == .kDeleted) id = true) :
    (restoreRound s id a).1 = (s.1.execRestoreOperate id a).1 := by
  unfold restoreRound operate
  rw [if_pos h]

theorem restoreRound_paramOf (s : UserSelfMgr × Reply) (id : String) (a : Answer) :
    paramOf (restoreRound s id a).1 = paramOf s.1 := by
  cases h : s.1.hasStatus (· == .kDeleted) id
  · rw [restoreRound_of_not h]
  · rw [restoreRound_of_deleted h]
    exact (Pieces.of_updates (execRestoreOperate_updates h a) fun _ _ h => h.kept).paramOf_eq

theorem restoreRound_findTask_ne (s : UserSelfMgr × Reply) (a : Answer) (hne : j ≠ id) :
    (restoreRound s id a).1.findTask j = s.1.findTask j := by
  cases h : s.1.hasStatus (· == .kDeleted) id
  · rw [restoreRound_of_not h]
  · rw [restoreRound_of_deleted h]
    exact (execRestoreOperate_updates h a).other j hne

theorem isSome_paramOf_of_hasStatus {p : TaskStatus → Bool} (h : m.hasStatus p id = true) :
    (paramOf m id).isSome = true := by
  rw [← isSome_findTask_eq]
  unfold hasStatus at h
  split at h
  · cases h
  · rename_i t ht
    rw [ht, Option.isSome_some]

/-- A round on a task in the bin adds an entry, and one on another task none. -/
theorem restoreRound_adds (hs : s.1.ListedById) (id : String) (a : Answer) :
    Adds id (if s.1.hasStatus (· == .kDeleted) id then 1 else 0) s.2 (restoreRound s id a).2 := by
  cases h : s.1.hasStatus (· == .kDeleted) id
  · rw [restoreRound_of_not h]
    exact .refl id s.2
  · have hparam := restoreRound_paramOf s id a
    rw [restoreRound_of_deleted h] at hparam
    have hadds := operate_adds h hparam hs
    rw [isSome_paramOf_of_hasStatus h] at hadds
    exact hadds

theorem le_count_forEach_restoreRound (hs : s.1.ListedById) (rounds : List String) (ω : Nat → Answer) (j : String) :
    s.2.ids.count j ≤ (Lib.forEach restoreRound s rounds ω).2.ids.count j := by
  refine (forEach_keep (I := fun u : UserSelfMgr × Reply => u.1.ListedById ∧ s.2.ids.count j ≤ u.2.ids.count j)
    (fun u y a _ hu => ?_) ⟨hs, Nat.le_refl _⟩ ω).2
  exact ⟨hu.1.of_paramOf_eq (restoreRound_paramOf u y a), hu.2.trans ((restoreRound_adds hu.1 y a).le j)⟩

theorem forEach_restoreRound_of_not (h : s.1.hasStatus (· == .kDeleted) id = false) (n : Nat) (ω : Nat → Answer) :
    Lib.forEach restoreRound s (List.replicate n id) ω = s := by
  induction n generalizing ω with
  | zero => rfl
  | succ n ih => rw [List.replicate_succ, Lib.forEach_cons, restoreRound_of_not h, ih]

/-- The rounds on one task, which come one after the other, add exactly one entry if there is one
round or the task leaves the bin in the first of them. -/
theorem count_replicate_iff (hs : s.1.ListedById) (ht : s.1.findTask id = some t) (hd : t.taskStatus = .kDeleted)
    (n : Nat) (ω : Nat → Answer) :
    (Lib.forEach restoreRound s (List.replicate (n + 1) id) ω).2.ids.count id = s.2.ids.count id + 1 ↔
      n = 0 ∨ t.leavesBin s.1.isCanStart (ω 0) = true := by
  have hin : s.1.hasStatus (· == .kDeleted) id = true := by
    rw [hasStatus_of_findTask ht, hd]
    rfl
  have hfirst : (restoreRound s id (ω 0)).2.ids.count id = s.2.ids.count id + 1 := by
    rw [(restoreRound_adds hs id (ω 0)).own, hin, if_pos rfl]
  have hafter : (restoreRound s id (ω 0)).1.hasStatus (· == .kDeleted) id = !t.leavesBin s.1.isCanStart (ω 0) := by
    rw [restoreRound_of_deleted hin, hasStatus_execRestoreOperate ht hd]
  rw [List.replicate_succ, Lib.forEach_cons]
  cases hleaves : t.leavesBin s.1.isCanStart (ω 0)
  · cases n with
    | zero => simp [hfirst]
    | succ n =>
      -- the second round adds another entry, and none is taken away
      rw [hleaves] at hafter
      have hs' := hs.of_paramOf_eq (restoreRound_paramOf s id (ω 0))
      have hsecond : (restoreRound (restoreRound s id (ω 0)) id (ω 1)).2.ids.count id = s.2.ids.count id + 2 := by
        rw [(restoreRound_adds hs' id (ω 1)).own, hfirst, hafter]
        rfl
      have hle := le_count_forEach_restoreRound (hs'.of_paramOf_eq (restoreRound_paramOf _ id (ω 1)))
        (List.replicate n id) (fun k => ω (k + 1 + 1)) id
      rw [List.replicate_succ, Lib.forEach_cons]
      simp only [Nat.zero_add, Nat.succ_ne_zero, Bool.false_eq_true, or_self, iff_false]
      omega
  · rw [hleaves] at hafter
    rw [forEach_restoreRound_of_not hafter, hfirst]
    simp

end Rounds

def restoreReached (m : UserSelfMgr) (queue ids : List String) (ω : Nat → Answer) (id : String) : UserSelfMgr :=
  (m.restore (queue.takeWhile (· != id)) ids ω).1

def restoreAnswer (queue ids : List String) (ω : Nat → Answer) (id : String) : Answer :=
  ω (matching (queue.takeWhile (· != id)) ids).length

theorem not_mem_matching {queue : List String} (h : j ∉ queue) (ids : List String) : j ∉ matching queue ids := by
  intro hmem
  obtain ⟨taskId, htask, hj⟩ := List.mem_flatMap.mp hmem
  have heq : j = taskId := by simpa using (List.mem_filter.mp hj).2
  exact h (heq ▸ htask)

theorem forEach_restoreRound_view {s : UserSelfMgr × Reply} (hs : s.1.ListedById) {rounds : List String}
    (hj : j ∉ rounds) (ω : Nat → Answer) :
    (Lib.forEach restoreRound s rounds ω).1.findTask j = s.1.findTask j ∧
      (Lib.forEach restoreRound s rounds ω).2.ids.count j = s.2.ids.count j := by
  refine Prod.mk.inj (forEach_view (I := fun u : UserSelfMgr × Reply => u.1.ListedById)
    (f := fun u : UserSelfMgr × Reply => (u.1.findTask j, u.2.ids.count j)) ?_ ?_ hs hj ω)
  · intro u y a hu
    exact hu.of_paramOf_eq (restoreRound_paramOf u y a)
  · intro u y a hu hne
    rw [restoreRound_findTask_ne u a hne.symm, (restoreRound_adds hu y a).other hne]

theorem matching_append (queue queue' ids : List String) :
    matching (queue ++ queue') ids = matching queue ids ++ matching queue' ids := List.flatMap_append

theorem matching_cons (id : String) (queue ids : List String) :
    matching (id :: queue) ids = List.replicate (ids.count id) id ++ matching queue ids := by
  rw [matching, List.flatMap_cons, List.filter_beq]
  rfl

/-- The entries for a task come from the rounds on it, which start where the queue comes to it. -/
theorem count_restore_eq (hm : m.ListedById) {queue : List String} (hnodup : queue.Nodup) (hid : id ∈ queue)
    (ids : List String) (ω : Nat → Answer) :
    ∃ (s : UserSelfMgr × Reply) (ω' : Nat → Answer), s.1 = m.restoreReached queue ids ω id ∧ s.1.ListedById ∧
      s.1.findTask id = m.findTask id ∧ s.2.ids.count id = 0 ∧ ω' 0 = restoreAnswer queue ids ω id ∧
      (m.restore queue ids ω).2.ids.count id =
        (Lib.forEach restoreRound s (List.replicate (ids.count id) id) ω').2.ids.count id := by
  obtain ⟨after, hqueue, hbefore⟩ := Lib.eq_takeWhile_append hid
  have hafter : id ∉ after := by
    rw [hqueue] at hnodup
    exact (List.nodup_cons.mp (List.nodup_append.mp hnodup).2.1).1
  have hkeep : ∀ {s : UserSelfMgr × Reply} rounds ω, s.1.ListedById →
      (Lib.forEach restoreRound s rounds ω).1.ListedById := fun rounds ω hs =>
    forEach_keep (I := fun u : UserSelfMgr × Reply => u.1.ListedById)
      (fun u y a _ hu => hu.of_paramOf_eq (restoreRound_paramOf u y a)) hs ω
  obtain ⟨hfind, hcount⟩ :=
    forEach_restoreRound_view (s := (m, {})) hm (not_mem_matching hbefore ids) ω
  refine ⟨Lib.forEach restoreRound (m, {}) (matching (queue.takeWhile (· != id)) ids) ω,
    fun k => ω ((matching (queue.takeWhile (· != id)) ids).length + k), rfl, hkeep _ _ hm, hfind, hcount, rfl, ?_⟩
  have hrounds : matching queue ids = matching (queue.takeWhile (· != id)) ids ++
      (List.replicate (ids.count id) id ++ matching after ids) := by
    rw [← matching_cons, ← matching_append, ← hqueue]
  rw [restore, hrounds, forEach_append, forEach_append]
  exact (forEach_restoreRound_view (hkeep _ _ (hkeep _ _ hm)) (not_mem_matching hafter ids) _).2

/-- A restore request has exactly one entry for a task it names if the task is in the bin, and the
task is named once or leaves the bin by the first round on it. -/
theorem count_restore_eq_one_iff (hm : m.ListedById) {queue : List String} (hq : queue.Perm m.taskIds)
    {ids : List String} (hid : id ∈ ids) (ω : Nat → Answer) :
    (m.restore queue ids ω).2.ids.count id = 1 ↔
      ∃ t, m.findTask id = some t ∧ t.taskStatus = .kDeleted ∧ (ids.count id = 1 ∨
        t.leavesBin (m.restoreReached queue ids ω id).isCanStart (restoreAnswer queue ids ω id) = true) := by
  rcases ht : m.findTask id with _ | t
  · have hnot : id ∉ queue := by
      rw [hq.mem_iff, mem_taskIds_iff, ht]
      exact Bool.false_ne_true
    have hcount := (forEach_restoreRound_view (s := (m, {})) hm (not_mem_matching hnot ids) ω).2
    simp only [restore, hcount]
    simp [Reply.ids]
  · have hmem : id ∈ queue := by
      rw [hq.mem_iff, mem_taskIds_iff, ht]
      rfl
    obtain ⟨s, ω', hreached, hs, hfind, hzero, hanswer, hcount⟩ :=
      count_restore_eq hm (hq.nodup_iff.mpr m.nodup_taskIds) hmem ids ω
    obtain ⟨n, hn⟩ : ∃ n, ids.count id = n + 1 := ⟨ids.count id - 1, by
      have hpos := List.count_pos_iff.mpr hid
      omega⟩
    rw [ht] at hfind
    rw [hcount, ← hreached, ← hanswer, hn]
    by_cases hd : t.taskStatus = .kDeleted
    · have hiff := count_replicate_iff hs hfind hd n ω'
      rw [hzero, Nat.zero_add] at hiff
      rw [hiff]
      simp [hd]
    · have hout : s.1.hasStatus (· == .kDeleted) id = false := by
        rw [hasStatus_of_findTask hfind]
        simpa using hd
      rw [forEach_restoreRound_of_not hout, hzero]
      simp [hd]

end UserSelfMgr

/-! ## Complete replies -/

open UserSelfMgr

/-- When a reply has exactly one entry for each id. -/
def IdRequest.Answerable (m : UserSelfMgr) (queue ids : List String) (ω : Nat → Answer) : IdRequest → Prop
  | .pause | .resume | .retry => ids.Nodup ∧ ∀ id ∈ ids, (m.findTask id).isSome = true
  | .restore => ∀ id ∈ ids, ∃ t, m.findTask id = some t ∧ t.taskStatus = .kDeleted ∧ (ids.count id = 1 ∨
      t.leavesBin (m.restoreReached queue ids ω id).isCanStart (restoreAnswer queue ids ω id) = true)
  | .clean | .delete _ => ids.Nodup

theorem nodup_iff_count {ids : List String} : ids.Nodup ↔ ∀ id ∈ ids, ids.count id = 1 := by
  rw [List.nodup_iff_count_le_one]
  constructor
  · intro h id hid
    have hle := h id
    have hpos := List.count_pos_iff.mpr hid
    omega
  · intro h id
    by_cases hid : id ∈ ids
    · exact (h id hid).le
    · rw [List.count_eq_zero.mpr hid]
      omega

theorem count_matching {m : UserSelfMgr} {queue : List String} (hq : queue.Perm m.taskIds) (ids : List String)
    (id : String) :
    (matching queue ids).count id = if (m.findTask id).isSome then ids.count id else 0 := by
  split
  · rename_i hsome
    have hid : id ∈ queue := hq.mem_iff.mpr (mem_taskIds_iff.mpr hsome)
    obtain ⟨after, hqueue, hbefore⟩ := Lib.eq_takeWhile_append hid
    have hafter : id ∉ after := by
      have hnodup := hq.nodup_iff.mpr m.nodup_taskIds
      rw [hqueue] at hnodup
      exact (List.nodup_cons.mp (List.nodup_append.mp hnodup).2.1).1
    rw [hqueue, matching_append, matching_cons, List.count_append, List.count_append,
      List.count_eq_zero.mpr (not_mem_matching hbefore ids), List.count_replicate_self,
      List.count_eq_zero.mpr (not_mem_matching hafter ids), Nat.zero_add, Nat.add_zero]
  · rename_i hnone
    have hid : id ∉ queue := fun hmem => hnone (mem_taskIds_iff.mp (hq.mem_iff.mp hmem))
    exact List.count_eq_zero.mpr (not_mem_matching hid ids)

theorem count_one_iff_of_listed {m : UserSelfMgr} {ids : List String} {count : String → Nat}
    (hcount : ∀ id, count id = if (m.findTask id).isSome then ids.count id else 0) :
    (∀ id ∈ ids, count id = 1) ↔ ids.Nodup ∧ ∀ id ∈ ids, (m.findTask id).isSome = true := by
  rw [nodup_iff_count]
  constructor
  · intro h
    have hlisted : ∀ id ∈ ids, (m.findTask id).isSome = true := by
      intro id hid
      by_contra hnone
      have hone := h id hid
      rw [hcount, if_neg hnone] at hone
      cases hone
    refine ⟨fun id hid => ?_, hlisted⟩
    have hone := h id hid
    rwa [hcount, if_pos (hlisted id hid)] at hone
  · rintro ⟨hnodup, hlisted⟩ id hid
    rw [hcount, if_pos (hlisted id hid)]
    exact hnodup id hid

theorem IdRequest.count_one_iff {m : UserSelfMgr} (hm : m.ListedById) {queue : List String}
    (hq : queue.Perm m.taskIds) (req : IdRequest) (ids : List String) (ω : Nat → Answer) :
    (∀ id ∈ ids, (req.run m queue ids ω).2.ids.count id = 1) ↔ req.Answerable m queue ids ω := by
  have hmatching : ∀ id, (if (m.findTask id).isSome then (matching queue ids).count id else 0) =
      if (m.findTask id).isSome then ids.count id else 0 := by
    intro id
    rw [count_matching hq]
    split <;> rfl
  cases req with
  | pause => exact count_one_iff_of_listed (count_forEach_operate execPauseOperate_paramOf hm ids ω)
  | resume =>
    exact count_one_iff_of_listed fun id =>
      (count_forEach_operate execResumeOperate_paramOf hm _ ω id).trans (hmatching id)
  | retry =>
    exact count_one_iff_of_listed fun id =>
      (count_forEach_operate execRetryOperate_paramOf hm _ ω id).trans (hmatching id)
  | restore => exact forall₂_congr fun id hid => count_restore_eq_one_iff hm hq hid ω
  | clean =>
    refine Iff.trans (forall₂_congr fun id _ => ?_) nodup_iff_count.symm
    exact Eq.congr_left (count_forEach_execDeleteOperate false true hm ids ω id)
  | delete isDeleteLocalFile =>
    refine Iff.trans (forall₂_congr fun id _ => ?_) nodup_iff_count.symm
    exact Eq.congr_left (count_forEach_execDeleteOperate isDeleteLocalFile false hm ids ω id)

/-- In any state of a run, the message of a request has exactly one entry for each id it was asked
about, and the error code of its failed list, if and only if the ids can be answered so. -/
theorem complete_iff {m₀ : UserSelfMgr} (hm₀ : m₀.taskList = ∅) (es : List Event) (req : IdRequest)
    {queue : List String} (hq : queue.Perm (Lib.run step m₀ es).taskIds) (ids : List String) (ω : Nat → Answer)
    (callId : String) :
    ((∀ id ∈ ids, (req.message (Lib.run step m₀ es) queue ids ω callId).ids.count id = 1) ∧
      ((req.message (Lib.run step m₀ es) queue ids ω callId).errno = downloadErrNoToOutErrNo .kNormal ↔
        (req.message (Lib.run step m₀ es) queue ids ω callId).failedList = [])) ↔
      req.Answerable (Lib.run step m₀ es) queue ids ω := by
  have hparse : req.operation ≠ .kParse := by
    cases req <;> exact fun h => nomatch h
  have herrno := errno_assembleMessage_iff hparse callId (req.run (Lib.run step m₀ es) queue ids ω).2
  exact (and_iff_left herrno).trans (req.count_one_iff (run_listedById hm₀ es) hq ids ω)

/-- Two listed tasks, each named once. -/
theorem complete_iff_twoTasks :
    let m := Lib.run step { userId := "u" } [linkTask "a" "http://a", linkTask "b" "http://b"]
    let msg := IdRequest.pause.message m ["b", "a"] ["a", "b"] (fun _ => {}) "call"
    msg.ids.count "a" = 1 ∧ msg.ids.count "b" = 1 := by
  have hcount : ∀ id ∈ ["a", "b"], (IdRequest.pause.message
      (Lib.run step { userId := "u" } [linkTask "a" "http://a", linkTask "b" "http://b"]) ["b", "a"] ["a", "b"]
      (fun _ => {}) "call").ids.count id = 1 :=
    ((complete_iff rfl [linkTask "a" "http://a", linkTask "b" "http://b"] .pause (by decide +kernel) _ _ _).2
      ⟨by decide +kernel, by decide +kernel⟩).1
  exact ⟨hcount "a" (by decide), hcount "b" (by decide)⟩

/-- An id that is not listed has no entry, and the message is a normal one. -/
theorem pause_unknown_unanswered :
    (IdRequest.pause.message (Lib.run step { userId := "u" } []) [] ["x"] (fun _ => {}) "call").ids.count "x" = 0 ∧
      (IdRequest.pause.message (Lib.run step { userId := "u" } []) [] ["x"] (fun _ => {}) "call").errno =
        downloadErrNoToOutErrNo .kNormal := by
  decide +kernel

end Nas.Download
