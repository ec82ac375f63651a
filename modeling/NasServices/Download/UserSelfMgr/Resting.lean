import NasServices.Download.UserSelfMgr.Listing

/-!
# Paused and recycled tasks

A task in the recycle bin stays there, and a paused task is not set going,
until the user asks for it. Every request, and the timer, keeps to that
(`Quiet` operations, and loops that do not come to the task). The exception is
`OnParseComplete`, which overwrites the status of the task it finds without
looking at it; `Event.Overwrites` is when that happens. Under a create
request it happens to the task that has the user's id as its own, since the
callback that `Parse` runs at once is given the user id for the task id.
-/

namespace Nas.Download.UserSelfMgr

open TaskBase (Quiet)

def InBin : Option TaskBase → Prop
  | none => False
  | some t => t.taskStatus = .kDeleted

def AtRest : Option TaskBase → Prop
  | none => True
  | some t => t.Resting

section

variable {m m' : UserSelfMgr} {id : String} {t t' : TaskBase} {a : Answer}

structure Steady (Q : Option TaskBase → Prop) : Prop where
  quiet : ∀ t t', Quiet t t' → Q (some t) → Q (some t')
  status : ∀ t t', t'.taskStatus = t.taskStatus → Q (some t) → Q (some t')

theorem steady_inBin : Steady InBin where
  quiet _ _ hq hd := hq.deleted hd
  status _ _ hs hd := hs.trans hd

theorem steady_atRest : Steady AtRest where
  quiet _ _ hq hr := hq.resting hr
  status t t' hs hr := by
    simpa only [AtRest, TaskBase.Resting, hs] using hr

/-! ## The timer and the engine -/

variable {Q : Option TaskBase → Prop}

theorem Steady.checkTaskCountLimit (hQ : Steady Q) (h : Q (m.findTask id)) (queue : List String)
    (ω : Nat → Answer) : Q ((m.checkTaskCountLimit queue ω).1.findTask id) := by
  refine Lib.forEach_keep (I := fun c : LimitCheck => Q (c.mgr.findTask id)) ?_ h ω
  intro c j a _ hc
  exact (checkLimit_round c j a).updates.keep hQ.quiet hc

theorem Steady.timerChcek (hQ : Steady Q) (h : Q (m.findTask id)) (queue : List String)
    (ω ω' : Nat → Answer) : Q ((m.timerChcek queue ω ω').findTask id) := by
  unfold UserSelfMgr.timerChcek
  split
  · refine Lib.forEach_keep (I := fun m : UserSelfMgr => Q (m.findTask id)) ?_
      (hQ.checkTaskCountLimit h queue ω) ω'
    intro m j a _ hm
    exact (checkTask_updates m j a).keep hQ.quiet hm
  · exact h

theorem Steady.setTask (hQ : Steady Q) {j : String} (ht : m.findTask j = some t)
    (hs : t'.taskStatus = t.taskStatus) (h : Q (m.findTask id)) : Q ((m.setTask j t').findTask id) := by
  by_cases hne : id = j
  · subst hne
    rw [ht] at h
    rw [findTask_setTask]
    exact hQ.status t t' hs h
  · rwa [findTask_setTask_ne m t' hne]

theorem parseMangetResult_taskStatus (t : TaskBase) (result : TorrentList) :
    (t.parseMangetResult result).1.taskStatus = t.taskStatus := by
  unfold TaskBase.parseMangetResult
  split <;> rfl

theorem Steady.metadataDownloaded (hQ : Steady Q) (h : Q (m.findTask id)) (j : String)
    (result : TorrentList) : Q ((m.metadataDownloaded j result).findTask id) := by
  unfold UserSelfMgr.metadataDownloaded
  split
  · exact h
  · rename_i t ht
    exact hQ.setTask ht (parseMangetResult_taskStatus t result) h

theorem Steady.setFileList (hQ : Steady Q) (h : Q (m.findTask id)) (j : String) (l : TorrentList) :
    Q ((m.setFileList j l).findTask id) := by
  unfold UserSelfMgr.setFileList
  split
  · exact h
  · rename_i t ht
    split
    · exact hQ.setTask ht rfl h
    · exact h

/-! ## Requests -/

theorem findTask_forEach_operate {cond : UserSelfMgr → String → Bool}
    {exec : UserSelfMgr → String → Answer → UserSelfMgr × DownloadErrorCode} {rounds : List String}
    {rel : TaskBase → TaskBase → Prop} (hexec : ∀ m j a, cond m j → Updates rel j m (exec m j a).1)
    (hid : id ∉ rounds) (r : Reply) (ω : Nat → Answer) :
    (Lib.forEach (operate cond exec) (m, r) rounds ω).1.findTask id = m.findTask id := by
  refine forEach_operate_keep (I := fun m' => m'.findTask id = m.findTask id) ?_ rfl r ω
  intro m₁ j a hj hc h
  rw [(hexec m₁ j a hc).other id (fun he => hid (he ▸ hj)), h]

/-- A restore request does nothing to a task that is not in the recycle bin. -/
theorem findTask_forEach_restore (ht : m.findTask id = some t) (hd : t.taskStatus ≠ .kDeleted)
    (rounds : List String) (r : Reply) (ω : Nat → Answer) :
    (Lib.forEach (operate (hasStatus (· == .kDeleted)) execRestoreOperate) (m, r) rounds ω).1.findTask id
      = some t := by
  refine forEach_operate_keep (I := fun m' => m'.findTask id = some t) ?_ ht r ω
  intro m₁ j a _ hc h
  rw [(execRestoreOperate_updates hc a).other id ?_, h]
  rintro rfl
  rw [hasStatus_of_findTask h, beq_iff_eq] at hc
  exact hd hc

theorem Steady.forEach_pause (hQ : Steady Q) {cond : UserSelfMgr → String → Bool}
    (h : Q (m.findTask id)) (rounds : List String) (r : Reply) (ω : Nat → Answer) :
    Q ((Lib.forEach (operate cond execPauseOperate) (m, r) rounds ω).1.findTask id) :=
  forEach_operate_keep (I := fun m => Q (m.findTask id))
    (fun m j a _ _ hm => (execPauseOperate_updates m j a).keep hQ.quiet hm) h r ω

theorem inBin_forEach_resume {cond : UserSelfMgr → String → Bool} (h : InBin (m.findTask id))
    (rounds : List String) (r : Reply) (ω : Nat → Answer) :
    InBin ((Lib.forEach (operate cond execResumeOperate) (m, r) rounds ω).1.findTask id) := by
  refine forEach_operate_keep (I := fun m => InBin (m.findTask id)) ?_ h r ω
  intro m₁ j a _ _ hm
  refine (execResumeOperate_updates m₁ j a).keep ?_ hm
  intro t t' hr hd
  rw [hr.deleted hd]
  exact hd

/-! ## Deletion -/

theorem Deleted.atRest {j : String} (hd : Deleted j a m m') (h : AtRest (m.findTask id)) :
    AtRest (m'.findTask id) := by
  by_cases hne : id = j
  · subst hne
    rcases ht' : m'.findTask id with _ | t'
    · trivial
    · obtain ⟨t, ht, hq⟩ := hd.quiet ht'
      rw [ht] at h
      exact hq.resting h
  · rwa [hd.findTask_ne hne]

theorem forEach_deleted_atRest {body : UserSelfMgr × Reply → String → Answer → UserSelfMgr × Reply}
    (hbody : ∀ s j a, Deleted j a s.1 (body s j a).1) (h : AtRest (m.findTask id))
    (rounds : List String) (r : Reply) (ω : Nat → Answer) :
    AtRest ((Lib.forEach body (m, r) rounds ω).1.findTask id) :=
  Lib.forEach_keep (I := fun s : UserSelfMgr × Reply => AtRest (s.1.findTask id))
    (fun s j a _ hs => (hbody s j a).atRest hs) h ω

theorem findTask_forEach_deleted {body : UserSelfMgr × Reply → String → Answer → UserSelfMgr × Reply}
    (hbody : ∀ s j a, Deleted j a s.1 (body s j a).1) {rounds : List String} (hid : id ∉ rounds)
    (r : Reply) (ω : Nat → Answer) :
    (Lib.forEach body (m, r) rounds ω).1.findTask id = m.findTask id := by
  refine Lib.forEach_keep (I := fun s : UserSelfMgr × Reply => s.1.findTask id = m.findTask id) ?_ rfl ω
  intro s j a hj hs
  have hne : id ≠ j := fun he => hid (he ▸ hj)
  rw [(hbody s j a).findTask_ne hne, hs]

/-- Outside the recycle bin, deleting a category only puts tasks into it. -/
theorem execDeleteCategoryOperate_updates {taskCategory : TaskCategory} (hall : taskCategory ≠ .kAll)
    (hbin : taskCategory ≠ .kRecyclebinTask) (isDeleteLocalFile : Bool) (s : UserSelfMgr × Reply)
    (id : String) (a : Answer) :
    Updates Quiet id s.1 (execDeleteCategoryOperate taskCategory isDeleteLocalFile s id a).1 := by
  unfold execDeleteCategoryOperate
  dsimp only
  split
  · exact .refl Quiet.refl id s.1
  · rename_i t ht
    rw [if_neg hall, if_neg hbin]
    split
    · exact .refl Quiet.refl id s.1
    · exact updates_setTask ht (t.deleteToRecycleBin_quiet a)

theorem execCleanCategoryOperate_updates {taskCategory : TaskCategory}
    (hbin : taskCategory ≠ .kRecyclebinTask) (s : UserSelfMgr × Reply) (id : String) (a : Answer) :
    Updates Quiet id s.1 (execCleanCategoryOperate taskCategory s id a).1 := by
  unfold execCleanCategoryOperate
  dsimp only
  split
  · exact .refl Quiet.refl id s.1
  · rename_i t ht
    rw [if_neg hbin]
    split
    · exact .refl Quiet.refl id s.1
    · exact updates_setTask ht (t.deleteToRecycleBin_quiet a)

theorem inBin_forEach {body : UserSelfMgr × Reply → String → Answer → UserSelfMgr × Reply}
    (hbody : ∀ s j a, Updates Quiet j s.1 (body s j a).1) (h : InBin (m.findTask id))
    (rounds : List String) (r : Reply) (ω : Nat → Answer) :
    InBin ((Lib.forEach body (m, r) rounds ω).1.findTask id) :=
  Lib.forEach_keep (I := fun s : UserSelfMgr × Reply => InBin (s.1.findTask id))
    (fun s j a _ hs => (hbody s j a).keep steady_inBin.quiet hs) h ω

/-! ## Creation -/

/-- What a create request has left of a task listed before: the task itself, and that it will
not be parsed. -/
structure Untouched (m : UserSelfMgr) (id : String) (t : TaskBase) (c : Creation) : Prop where
  findTask : c.mgr.findTask id = some t
  userId : c.mgr.userId = m.userId
  needParse : id ∉ c.needParse

theorem Untouched.execCreate {c : Creation} (h : Untouched m id t c) (param : TaskParam) (host : Host) :
    Untouched m id t (execCreate c param host) := by
  have hc := execCreate_created c param host
  generalize UserSelfMgr.execCreate c param host = c' at hc
  cases hc with
  | refused => exact ⟨h.findTask, h.userId, h.needParse⟩
  | dropped => exact ⟨h.findTask, h.userId, h.needParse⟩
  | listed ht hid himpl hs reply =>
    have hne : id ≠ param.id := by
      rintro rfl
      rw [h.findTask] at hid
      cases hid
    refine ⟨(findTask_list_ne hne _ _).trans h.findTask, h.userId, ?_⟩
    simpa [hne] using h.needParse

/-- A create request changes no task that was listed before, unless its id is the user's. -/
theorem findTask_createAll (ht : m.findTask id = some t) (hu : id ≠ m.userId)
    (params : List TaskParam) (host : Nat → Host) (ω : Nat → Answer) :
    (m.createAll params host ω).1.findTask id = some t := by
  have hc := Lib.forEach_keep (I := Untouched m id t)
    (fun c param a (_ : param ∈ params) hc => hc.execCreate param a) (s := { mgr := m }) ⟨ht, rfl, List.not_mem_nil⟩ host
  refine (Lib.forEach_keep (I := fun m' : UserSelfMgr => m'.findTask id = some t ∧ m'.userId = m.userId)
    ?_ ⟨hc.findTask, hc.userId⟩ ω).1
  rintro m' j a hj ⟨hf, hid⟩
  have hne : id ≠ j := fun he => hc.needParse (he ▸ hj)
  exact ⟨(findTask_parseTask_ne hne (hid ▸ hu) a).trans hf, (parseTask_userId m' j a).trans hid⟩

end

/-! ## Runs -/

/-- The request takes tasks out of the recycle bin or deletes them for good, and covers the
task in the bin with this id. -/
def Event.recovers (id : String) : Event → Prop
  | .restore queue ids _ | .retry queue ids _ => id ∈ matching queue ids
  | .restoreAll queue _ | .retryAll queue _ => id ∈ queue
  | .delete ids _ _ | .clean ids _ => id ∈ ids
  | .deleteCategory c _ _ => c = .kAll ∨ c = .kRecyclebinTask
  | .cleanCategory c _ => c = .kRecyclebinTask
  | _ => False

def Event.resumes (id : String) : Event → Prop
  | .resume queue ids _ | .retry queue ids _ => id ∈ matching queue ids
  | .resumeAll queue _ | .retryAll queue _ => id ∈ queue
  | _ => False

def Event.unloads : Event → Bool
  | .reset .. | .restart .. => true
  | _ => false

/-- A completed parse is about to overwrite the status of a paused or recycled task. With a
free slot and automatic download off, a paused task is only paused again. -/
def Event.Overwrites (m : UserSelfMgr) : Event → Prop
  | .runParse _ => ∃ msg rest t, m.parseQueue = msg :: rest ∧ m.findTask msg.1 = some t ∧
      (t.taskStatus = .kDeleted ∨
        t.taskStatus = .kPaused ∧ ¬ (m.isCanStart = true ∧ m.isBtAutoDownload = false))
  | .createLink .. | .createTorrent .. => ∃ t, m.findTask m.userId = some t ∧
      (t.taskStatus = .kDeleted ∨ t.taskStatus = .kPaused)
  | _ => False

/-- The step leaves recycled tasks in the bin and paused tasks at rest, those it covers apart. -/
structure StaysPut (m : UserSelfMgr) (e : Event) : Prop where
  deleted : ∀ id t, m.findTask id = some t → t.taskStatus = .kDeleted → ¬ e.recovers id →
    ∃ t', (m.step e).findTask id = some t' ∧ t'.taskStatus = .kDeleted
  paused : ∀ id t, m.findTask id = some t → t.taskStatus = .kPaused → ¬ e.resumes id →
    ∀ t', (m.step e).findTask id = some t' →
      t'.taskStatus ∉ [TaskStatus.kDownloading, .kWaitting, .kParsing]

section

variable {m : UserSelfMgr} {e : Event}

theorem StaysPut.intro
    (hdel : ∀ id t, m.findTask id = some t → t.taskStatus = .kDeleted → ¬ e.recovers id →
      InBin ((m.step e).findTask id))
    (hpause : ∀ id t, m.findTask id = some t → t.taskStatus = .kPaused → ¬ e.resumes id →
      AtRest ((m.step e).findTask id)) : StaysPut m e := by
  constructor
  · intro id t ht hd hno
    have h := hdel id t ht hd hno
    rcases hf : (m.step e).findTask id with _ | t'
    · rw [hf] at h
      exact h.elim
    · rw [hf] at h
      exact ⟨t', rfl, h⟩
  · intro id t ht hp hno t' ht' hmem
    have h := hpause id t ht hp hno
    rw [ht'] at h
    rcases h with h | h | h <;> simp [h] at hmem

theorem StaysPut.of_steady
    (h : ∀ {Q : Option TaskBase → Prop} {id : String}, Steady Q → Q (m.findTask id) →
      Q ((m.step e).findTask id)) : StaysPut m e := by
  refine .intro (fun id t ht hd _ => h steady_inBin ?_) fun id t ht hp _ => h steady_atRest ?_
  · rw [ht]
    exact hd
  · rw [ht]
    exact .inl hp

theorem of_findTask_eq {Q : Option TaskBase → Prop} {m' : UserSelfMgr} {id : String} {t : TaskBase}
    (h : m'.findTask id = m.findTask id) (ht : m.findTask id = some t) (hQ : Q (some t)) : Q (m'.findTask id) := by
  rw [h, ht]
  exact hQ

theorem create_staysPut (params : List TaskParam) (host : Nat → Host) (ω : Nat → Answer)
    (hstep : m.step e = (m.createAll params host ω).1)
    (hno : ¬ ∃ t, m.findTask m.userId = some t ∧ (t.taskStatus = .kDeleted ∨ t.taskStatus = .kPaused)) :
    StaysPut m e := by
  refine .intro (fun id t ht hd _ => ?_) fun id t ht hp _ => ?_
  · have hu : id ≠ m.userId := fun he => hno ⟨t, he ▸ ht, .inl hd⟩
    rw [hstep]
    exact of_findTask_eq ((findTask_createAll ht hu params host ω).trans ht.symm) ht hd
  · have hu : id ≠ m.userId := fun he => hno ⟨t, he ▸ ht, .inr hp⟩
    rw [hstep]
    exact of_findTask_eq ((findTask_createAll ht hu params host ω).trans ht.symm) ht (.inl hp)

theorem resume_staysPut {cond : UserSelfMgr → String → Bool} {rounds : List String} {ω : Nat → Answer}
    (hstep : m.step e = (Lib.forEach (operate cond execResumeOperate) (m, {}) rounds ω).1)
    (hcov : ∀ id, id ∈ rounds → e.resumes id) : StaysPut m e := by
  refine .intro (fun id t ht hd _ => ?_) fun id t ht hp hno => ?_
  · rw [hstep]
    exact inBin_forEach_resume (by rw [ht]; exact hd) rounds {} ω
  · rw [hstep]
    exact of_findTask_eq (findTask_forEach_operate (fun m j a _ => execResumeOperate_updates m j a)
      (fun hid => hno (hcov id hid)) {} ω) ht (.inl hp)

theorem retry_staysPut {cond : UserSelfMgr → String → Bool} {rounds : List String} {ω : Nat → Answer}
    (hstep : m.step e = (Lib.forEach (operate cond execRetryOperate) (m, {}) rounds ω).1)
    (hcov : ∀ id, id ∈ rounds → e.resumes id ∧ e.recovers id) : StaysPut m e := by
  have hsame : ∀ id, id ∉ rounds → (m.step e).findTask id = m.findTask id := by
    intro id hid
    rw [hstep]
    exact findTask_forEach_operate (fun m j a _ => execRetryOperate_updates m j a) hid {} ω
  exact .intro
    (fun id _ ht hd hno => of_findTask_eq (hsame id fun hid => hno (hcov id hid).2) ht hd)
    fun id _ ht hp hno => of_findTask_eq (hsame id fun hid => hno (hcov id hid).1) ht (.inl hp)

theorem restore_staysPut {rounds : List String} {ω : Nat → Answer}
    (hstep : m.step e =
      (Lib.forEach (operate (hasStatus (· == .kDeleted)) execRestoreOperate) (m, {}) rounds ω).1)
    (hcov : ∀ id, id ∈ rounds → e.recovers id) : StaysPut m e := by
  refine .intro (fun id t ht hd hno => ?_) fun id t ht hp _ => ?_
  · rw [hstep]
    exact of_findTask_eq (findTask_forEach_operate (fun m j a hc => execRestoreOperate_updates hc a)
      (fun hid => hno (hcov id hid)) {} ω) ht hd
  · rw [hstep]
    have hd : t.taskStatus ≠ .kDeleted := by rw [hp]; decide
    exact of_findTask_eq ((findTask_forEach_restore ht hd rounds {} ω).trans ht.symm) ht (.inl hp)

theorem delete_staysPut {body : UserSelfMgr × Reply → String → Answer → UserSelfMgr × Reply}
    {rounds : List String} {ω : Nat → Answer} (hstep : m.step e = (Lib.forEach body (m, {}) rounds ω).1)
    (hbody : ∀ s j a, Deleted j a s.1 (body s j a).1)
    (hcov : (∀ id, id ∈ rounds → e.recovers id) ∨ (∀ id, e.recovers id) ∨
      ∀ s j a, Updates Quiet j s.1 (body s j a).1) : StaysPut m e := by
  refine .intro (fun id t ht hd hno => ?_) fun id t ht hp _ => ?_
  · rw [hstep]
    rcases hcov with hcov | hcov | hquiet
    · exact of_findTask_eq (findTask_forEach_deleted hbody (fun hid => hno (hcov id hid)) {} ω) ht hd
    · exact absurd (hcov id) hno
    · exact inBin_forEach hquiet (by rw [ht]; exact hd) rounds {} ω
  · rw [hstep]
    exact forEach_deleted_atRest hbody (by rw [ht]; exact .inl hp) rounds {} ω

theorem runParse_staysPut (a : Answer) (hno : ¬ (Event.runParse a).Overwrites m) :
    StaysPut m (.runParse a) := by
  rcases hq : m.parseQueue with _ | ⟨msg, rest⟩
  · refine .of_steady fun {Q id} _ h => ?_
    rwa [step, runParse, hq]
  · have hstep : m.step (.runParse a) = ({ m with parseQueue := rest } : UserSelfMgr).onParseComplete msg a := by
      rw [step, runParse, hq]
    have hother : ∀ id, id ≠ msg.1 → (m.step (.runParse a)).findTask id = m.findTask id := by
      intro id hne
      rw [hstep, findTask_onParseComplete_ne hne]
      rfl
    refine .intro (fun id t ht hd _ => ?_) fun id t ht hp _ => ?_
    · refine of_findTask_eq (hother id ?_) ht hd
      rintro rfl
      exact hno ⟨msg, rest, t, hq, ht, .inl hd⟩
    · by_cases hid : id = msg.1
      · subst hid
        have hfree : m.isCanStart = true ∧ m.isBtAutoDownload = false :=
          not_not.mp fun hf => hno ⟨msg, rest, t, hq, ht, .inr ⟨hp, hf⟩⟩
        obtain ⟨t', hc, heq⟩ := onParseComplete_eq (m := { m with parseQueue := rest }) ht a
        rw [hstep, heq, findTask_setTask]
        have hcan : isCanStart { m with parseQueue := rest } = true := hfree.1
        have hst := hc.taskStatus
        rw [hcan, if_pos rfl, hfree.2] at hst
        exact .inl hst
      · exact of_findTask_eq (hother id hid) ht (.inl hp)

/-- Every step that drops no list and overwrites nothing leaves such tasks where they are. -/
theorem step_staysPut (hu : e.unloads = false) (hno : ¬ e.Overwrites m) : StaysPut m e := by
  cases e with
  | createLink sourceList host ω => exact create_staysPut _ host ω rfl hno
  | createTorrent request host ω => exact create_staysPut _ host ω rfl hno
  | pause ids ω => exact .of_steady fun hQ h => hQ.forEach_pause h ids {} ω
  | pauseAll ω => exact .of_steady fun hQ h => hQ.forEach_pause h m.taskIds {} ω
  | resume queue ids ω => exact resume_staysPut rfl fun _ hid => hid
  | resumeAll queue ω => exact resume_staysPut rfl fun _ hid => hid
  | retry queue ids ω => exact retry_staysPut rfl fun _ hid => ⟨hid, hid⟩
  | retryAll queue ω => exact retry_staysPut rfl fun _ hid => ⟨hid, hid⟩
  | restore queue ids ω => exact restore_staysPut rfl fun _ hid => hid
  | restoreAll queue ω => exact restore_staysPut rfl fun _ hid => hid
  | delete ids b ω =>
    exact delete_staysPut rfl (execDeleteOperate_deleted b false) (.inl fun _ hid => hid)
  | clean ids ω =>
    exact delete_staysPut rfl (execDeleteOperate_deleted false true) (.inl fun _ hid => hid)
  | deleteCategory c b ω =>
    refine delete_staysPut rfl (execDeleteCategoryOperate_deleted c b) (.inr ?_)
    by_cases hc : c = .kAll ∨ c = .kRecyclebinTask
    · exact .inl fun _ => hc
    · rw [not_or] at hc
      exact .inr (execDeleteCategoryOperate_updates hc.1 hc.2 b)
  | cleanCategory c ω =>
    refine delete_staysPut rfl (execCleanCategoryOperate_deleted c) (.inr ?_)
    by_cases hc : c = .kRecyclebinTask
    · exact .inl fun _ => hc
    · exact .inr (execCleanCategoryOperate_updates hc)
  | timer queue ω ω' => exact .of_steady fun hQ h => hQ.timerChcek h queue ω ω'
  | metadataDownloaded j result => exact .of_steady fun hQ h => hQ.metadataDownloaded h j result
  | setFileList j l => exact .of_steady fun hQ h => hQ.setFileList h j l
  | runParse a => exact runParse_staysPut a hno
  | reset ω => cases hu
  | restart rows host => cases hu
  | settings n b => exact .of_steady fun _ h => h

end

/-- In every run in which no completed parse overwrites a paused or recycled task, every
request, tick and parse completion leaves recycled tasks in the bin unless it
restores, retries or deletes them, and sets no paused task going unless it
resumes or retries it. -/
theorem run_staysPut (m : UserSelfMgr) (es : List Event)
    (h : Lib.Along step (fun m e => ¬ e.Overwrites m) m es) :
    Lib.Along step (fun m e => e.unloads = false → StaysPut m e) m es :=
  h.imp (I := fun _ => True) (fun _ _ _ _ => trivial) (fun _ _ _ hno hu => step_staysPut hu hno) trivial

def parsedAfter (e : Event) : List Event :=
  [magnetTask "a", .metadataDownloaded "a" ⟨"f", by decide⟩, e, .runParse {}]

/-- The parse completes while the task is parsing; then it is paused and the timer runs. -/
theorem run_staysPut_parsing :
    Lib.Along step (fun m e => e.unloads = false → StaysPut m e) { userId := "u" }
      (parsedAfter (.settings 1 true) ++ [.pause ["a"] fun _ => {}, .timer ["a"] (fun _ => {}) fun _ => {}]) := by
  refine run_staysPut _ _ ⟨?_, nofun, nofun, ?_, nofun, nofun, trivial⟩
  · rintro ⟨t, ht, -⟩
    cases ht
  · rintro ⟨msg, rest, t, hq, ht, hst⟩
    have hstatus : ((Lib.run step { userId := "u" } (parsedAfter (.settings 1 true)).dropLast).findTask
        "a").map (·.taskStatus) = some .kParsing := by decide +kernel
    have hmsg : (Lib.run step { userId := "u" } (parsedAfter (.settings 1 true)).dropLast).parseQueue =
        [("a", "f")] := by decide +kernel
    obtain rfl : ("a", "f") = msg := (List.cons.inj (hmsg.symm.trans hq)).1
    rw [show (Lib.run step { userId := "u" } (parsedAfter (.settings 1 true)).dropLast).findTask "a" =
      some t from ht] at hstatus
    obtain hpars : t.taskStatus = .kParsing := Option.some.inj hstatus
    rw [hpars] at hst
    rcases hst with hst | ⟨hst, -⟩ <;> cases hst

/-- A task that was deleted or paused after its metadata came is set downloading again. -/
theorem runParse_overwrites :
    ¬ Lib.Along step (fun m e => e.unloads = false → StaysPut m e) { userId := "u" }
      (parsedAfter (.delete ["a"] false fun _ => {})) ∧
    ¬ Lib.Along step (fun m e => e.unloads = false → StaysPut m e) { userId := "u" }
      (parsedAfter (.pause ["a"] fun _ => {})) := by
  have hstatus (e : Event) (s : TaskStatus)
      (he : ((Lib.run step { userId := "u" } (parsedAfter e).dropLast).findTask "a").map (·.taskStatus) =
        some s) : ∃ t, (Lib.run step { userId := "u" } (parsedAfter e).dropLast).findTask "a" = some t ∧
        t.taskStatus = s := by
    simpa using he
  constructor
  · rintro ⟨-, -, -, h, -⟩
    obtain ⟨t, ht, hst⟩ := hstatus (.delete ["a"] false fun _ => {}) .kDeleted (by decide +kernel)
    obtain ⟨t', ht', hst'⟩ := (h rfl).deleted "a" t ht hst nofun
    have hafter : ((Lib.run step { userId := "u" } (parsedAfter (.delete ["a"] false fun _ => {}))).findTask
        "a").map (·.taskStatus) = some .kDownloading := by decide +kernel
    rw [show (Lib.run step { userId := "u" } (parsedAfter (.delete ["a"] false fun _ => {}))).findTask
      "a" = some t' from ht'] at hafter
    rw [Option.map_some, hst'] at hafter
    cases hafter
  · rintro ⟨-, -, -, h, -⟩
    obtain ⟨t, ht, hst⟩ := hstatus (.pause ["a"] fun _ => {}) .kPaused (by decide +kernel)
    have hafter : ((Lib.run step { userId := "u" } (parsedAfter (.pause ["a"] fun _ => {}))).findTask
        "a").map (·.taskStatus) = some .kDownloading := by decide +kernel
    obtain ⟨t', ht', hst'⟩ := Option.map_eq_some_iff.mp hafter
    have hno := (h rfl).paused "a" t ht hst nofun t' ht'
    rw [hst'] at hno
    exact hno List.mem_cons_self

end Nas.Download.UserSelfMgr
