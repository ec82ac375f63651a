import NasServices.Download.Task.Moves
import NasServices.Download.UserSelfMgr.Limit

/-!
# What an operation on one task leaves alone

`Updates rel id m m'` says that the step from `m` to `m'` changed no task but
the one with this id, changed that one as `rel` allows, and touched nothing
else except for starting that task's download in the engine. There is one
lemma for every operation on a listed task; a property of all runs then needs
only the relation (`TaskBase.Op`, `TaskBase.Quiet`).
-/

namespace Nas.Download.UserSelfMgr

open TaskBase (Kept Op Quiet)

structure Updates (rel : TaskBase → TaskBase → Prop) (id : String) (m m' : UserSelfMgr) : Prop where
  other : ∀ j, j ≠ id → m'.findTask j = m.findTask j
  task : ∀ t, m.findTask id = some t → ∃ t', m'.findTask id = some t' ∧ rel t t'
  none : m.findTask id = none → m'.findTask id = none
  userId : m'.userId = m.userId
  userInfo : m'.userInfo = m.userInfo
  isBtAutoDownload : m'.isBtAutoDownload = m.isBtAutoDownload
  refs : m'.refs = m.refs
  parseQueue : m'.parseQueue = m.parseQueue
  made : m'.made = m.made
  engine : ∃ calls, m'.engine = calls ++ m.engine ∧
    ∀ c ∈ calls, ∃ t, m.findTask id = some t ∧ c = .start t.param.hash

section Updates

variable {rel rel' : TaskBase → TaskBase → Prop} {id : String} {m m' m'' : UserSelfMgr}
  {t t' : TaskBase} {a : Answer}

theorem Updates.refl (hrel : ∀ t, rel t t) (id : String) (m : UserSelfMgr) : Updates rel id m m where
  other _ _ := rfl
  task t ht := ⟨t, ht, hrel t⟩
  none h := h
  userId := rfl
  userInfo := rfl
  isBtAutoDownload := rfl
  refs := rfl
  parseQueue := rfl
  made := rfl
  engine := ⟨[], rfl, nofun⟩

theorem Updates.mono (h : Updates rel id m m') (hrel : ∀ t t', rel t t' → rel' t t') :
    Updates rel' id m m' :=
  { h with task := fun t ht => let ⟨t', ht', hr⟩ := h.task t ht; ⟨t', ht', hrel t t' hr⟩ }

theorem Updates.trans (h : Updates rel id m m') (h' : Updates rel' id m' m'')
    {rel'' : TaskBase → TaskBase → Prop} (hrel : ∀ t t' t'', rel t t' → rel' t' t'' → rel'' t t'')
    (hhash : ∀ t t', rel t t' → t'.param = t.param) : Updates rel'' id m m'' where
  other j hj := (h'.other j hj).trans (h.other j hj)
  task t ht := by
    obtain ⟨t', ht', hr⟩ := h.task t ht
    obtain ⟨t'', ht'', hr'⟩ := h'.task t' ht'
    exact ⟨t'', ht'', hrel t t' t'' hr hr'⟩
  none hn := h'.none (h.none hn)
  userId := h'.userId.trans h.userId
  userInfo := h'.userInfo.trans h.userInfo
  isBtAutoDownload := h'.isBtAutoDownload.trans h.isBtAutoDownload
  refs := h'.refs.trans h.refs
  parseQueue := h'.parseQueue.trans h.parseQueue
  made := h'.made.trans h.made
  engine := by
    obtain ⟨calls, he, hc⟩ := h.engine
    obtain ⟨calls', he', hc'⟩ := h'.engine
    refine ⟨calls' ++ calls, by rw [he', he, List.append_assoc], fun c hmem => ?_⟩
    rcases List.mem_append.mp hmem with hmem | hmem
    · obtain ⟨t', ht', rfl⟩ := hc' c hmem
      rcases ht : m.findTask id with _ | t
      · rw [h.none ht] at ht'; cases ht'
      · obtain ⟨t₁, ht₁, hr⟩ := h.task t ht
        obtain rfl : t₁ = t' := Option.some.inj (ht₁.symm.trans ht')
        exact ⟨t, rfl, by rw [hhash t t₁ hr]⟩
    · exact hc c hmem

theorem Updates.op_trans (h : Updates Op id m m') (h' : Updates Op id m' m'') : Updates Op id m m'' :=
  h.trans h' (fun _ _ _ h h' => h.trans h') fun _ _ h => h.kept.param

theorem updates_setTask (ht : m.findTask id = some t) (h : rel t t') :
    Updates rel id m (m.setTask id t') where
  other j hj := findTask_setTask_ne m t' hj
  task t₁ ht₁ := ⟨t', findTask_setTask .., Option.some.inj (ht.symm.trans ht₁) ▸ h⟩
  none hn := by rw [ht] at hn; cases hn
  userId := rfl
  userInfo := rfl
  isBtAutoDownload := rfl
  refs := rfl
  parseQueue := rfl
  made := rfl
  engine := ⟨[], rfl, nofun⟩

theorem startCalls_hash {c : EngineCall} {ret : DownloadErrorCode} (h : c ∈ startCalls t ret) :
    c = .start t.param.hash := by
  unfold startCalls at h
  split at h
  · exact List.mem_singleton.mp h
  · cases h

theorem updates_setTask_start (ht : m.findTask id = some t) (h : rel t t') (ret : DownloadErrorCode) :
    Updates rel id m { m.setTask id t' with engine := startCalls t ret ++ m.engine } :=
  { updates_setTask ht h with
    engine := ⟨startCalls t ret, rfl, fun _ hc => ⟨t, ht, startCalls_hash hc⟩⟩ }

theorem startTask_updates (ht : m.findTask id = some t) : Updates Op id m (m.startTask id t a).1 :=
  updates_setTask_start ht (t.start_op a.start) a.start

theorem resumeTask_updates (ht : m.findTask id = some t) : Updates Op id m (m.resumeTask id t a).1 :=
  updates_setTask ht (t.resume_op m.isBtAutoDownload a)

theorem tryResume_updates (ht : m.findTask id = some t) : Updates Op id m (m.tryResume id t a).1 := by
  unfold tryResume
  split
  · split
    · exact resumeTask_updates ht
    · exact startTask_updates ht
  · exact updates_setTask ht (.of_kept (t.setTaskStatus_kept _) nofun nofun)

theorem setIsValid_updates (id : String) (m : UserSelfMgr) : Updates Op id m (m.setIsValid id) := by
  unfold setIsValid
  split
  · exact .refl Op.refl id m
  · rename_i ht
    exact updates_setTask ht (.of_eq ⟨rfl, rfl, rfl, rfl, rfl, rfl⟩ rfl rfl)

/-! ## User operations -/

theorem quiet_setTaskStatus {s s' : TaskStatus} (hs : t.taskStatus = s)
    (h : s ∈ [TaskStatus.kDownloading, .kWaitting, .kParsing, .kSeeding]) (hk : Kept t t')
    (h' : s' ∉ [TaskStatus.kParsing, .kDeleted]) : Quiet t (t'.setTaskStatus s') := by
  subst hs
  refine .of_move (Op.of_kept (hk.trans (t'.setTaskStatus_kept s')) (fun hp => ?_) fun hd => ?_).toMove ?_
  · simp [← hp] at h'
  · simp [← hd] at h'
  · rintro (hr | hr | hr) <;> simp [hr] at h

theorem pauseTask_updates (ht : m.findTask id = some t) (a : Answer) :
    Updates Quiet id m (m.pauseTask id t a).1 := by
  unfold pauseTask
  split
  · rename_i hst
    split
    · rename_i hp
      obtain rfl := TaskBase.pause_eq_true hp
      exact updates_setTask ht (quiet_setTaskStatus hst (by decide) (.refl t) (by decide))
    · exact .refl Quiet.refl id m
  · rename_i hst
    exact updates_setTask ht (quiet_setTaskStatus hst (by decide) (.refl t) (by decide))
  · rename_i hst
    exact updates_setTask ht (quiet_setTaskStatus hst (by decide) (.refl t) (by decide))
  · rename_i hst
    split
    · rename_i hp
      obtain rfl := TaskBase.pause_eq_true hp
      exact updates_setTask ht (quiet_setTaskStatus hst (by decide) (t.setTaskStatus_kept _) (by decide))
    · exact .refl Quiet.refl id m
  · exact .refl Quiet.refl id m

theorem execPauseOperate_updates (m : UserSelfMgr) (id : String) (a : Answer) :
    Updates Quiet id m (m.execPauseOperate id a).1 := by
  unfold execPauseOperate
  split
  · exact .refl Quiet.refl id m
  · rename_i t ht
    exact pauseTask_updates ht a

theorem retry_tryResume_updates (ht : m.findTask id = some t) (hr : t.retry a = (t', true)) :
    Updates Op id m ((m.setTask id t').tryResume id t' a).1 := by
  have hop : Op t t' := by
    have := t.retry_op a
    rwa [hr] at this
  exact (updates_setTask ht hop).op_trans (tryResume_updates (findTask_setTask ..))

/-- The one way back to `kParsing`: a paused magnet task whose metadata is not known is resumed. -/
structure Reparse (t t' : TaskBase) : Prop where
  type : t.param.type = .kMagnet
  paused : t.taskStatus = .kPaused
  isParseFinish : t.isParseFinish = false
  eq : t' = t.setTaskStatus .kParsing

theorem Reparse.kept (h : Reparse t t') : Kept t t' := h.eq ▸ t.setTaskStatus_kept .kParsing

/-- What `Resume` does to a task: one in the recycle bin is not touched, and only a paused
one is paused afterwards. -/
structure Resumed (t t' : TaskBase) : Prop where
  op : Op t t' ∨ Reparse t t'
  deleted : t.taskStatus = .kDeleted → t' = t
  paused : t'.taskStatus = .kPaused → t.taskStatus = .kPaused

theorem Resumed.kept (h : Resumed t t') : Kept t t' := h.op.elim (·.kept) (·.kept)

theorem Resumed.refl (t : TaskBase) : Resumed t t := ⟨.inl (.refl t), fun _ => rfl, id⟩

theorem Resumed.of_op (h : Op t t') (hd : t.taskStatus ≠ .kDeleted)
    (hp : t'.taskStatus = .kPaused → t.taskStatus = .kPaused) : Resumed t t' :=
  ⟨.inl h, fun hd' => absurd hd' hd, hp⟩

theorem resume_paused (hw : t.taskStatus ≠ .kWaitting) {isBtAutoDownload : Bool}
    (hp : (t.resume isBtAutoDownload a).1.taskStatus = .kPaused) : t.taskStatus = .kPaused := by
  unfold TaskBase.resume at hp
  split at hp
  · rename_i hc
    simp [hw] at hc
  · split at hp
    · cases hp
    · exact hp

theorem start_paused {ret : DownloadErrorCode} (hp : (t.start ret).1.taskStatus = .kPaused) :
    t.taskStatus = .kPaused := by
  unfold TaskBase.start at hp
  split at hp
  · exact hp
  · split at hp
    · split at hp <;> exact hp
    · split at hp <;> cases hp

theorem tryResume_resumed (ht : m.findTask id = some t) (hd : t.taskStatus ≠ .kDeleted)
    (hw : t.taskStatus ≠ .kWaitting) : Updates Resumed id m (m.tryResume id t a).1 := by
  unfold tryResume
  split
  · split
    · exact updates_setTask ht (.of_op (t.resume_op _ a) hd (resume_paused hw))
    · exact updates_setTask_start ht (.of_op (t.start_op _) hd start_paused) a.start
  · exact updates_setTask ht (.of_op (.of_kept (t.setTaskStatus_kept _) nofun nofun) hd nofun)

/-- A failed task is retried first, which keeps it failed. -/
theorem retry_tryResume_resumed (ht : m.findTask id = some t) (hst : t.taskStatus = .kFailed)
    (hr : t.retry a = (t', true)) : Updates Resumed id m ((m.setTask id t').tryResume id t' a).1 := by
  have hop := t.retry_op a
  have hst' := t.retry_taskStatus a
  rw [hr] at hop hst'
  have hfailed : t'.taskStatus = .kFailed := hst'.trans hst
  have hset : Updates (fun t t' => Op t t' ∧ t.taskStatus = .kFailed ∧ t'.taskStatus = .kFailed) id m
      (m.setTask id t') := updates_setTask ht ⟨hop, hst, hfailed⟩
  refine hset.trans (tryResume_resumed (findTask_setTask ..) (by rw [hfailed]; decide)
    (by rw [hfailed]; decide)) ?_ fun _ _ h => h.1.kept.param
  rintro t₁ t₂ t₃ ⟨hop, hf₁, hf₂⟩ hres
  refine .of_op ?_ (by rw [hf₁]; decide) fun hp => ?_
  · rcases hres.op with h | h
    · exact hop.trans h
    · have := h.paused
      rw [hf₂] at this
      cases this
  · have := hres.paused hp
    rw [hf₂] at this
    cases this

theorem execResumeOperate_updates (m : UserSelfMgr) (id : String) (a : Answer) :
    Updates Resumed id m (m.execResumeOperate id a).1 := by
  unfold execResumeOperate
  split
  · exact .refl Resumed.refl id m
  · rename_i t ht
    split
    · rename_i hst
      split
      · rename_i hp
        have hd : t.taskStatus ≠ .kDeleted := by rw [hst]; decide
        exact updates_setTask ht ⟨.inr ⟨hp.1, hst, hp.2, rfl⟩, fun hd' => absurd hd' hd, nofun⟩
      · exact tryResume_resumed ht (by rw [hst]; decide) (by rw [hst]; decide)
    · rename_i hst
      split
      · exact .refl Resumed.refl id m
      · rename_i t' hr
        exact retry_tryResume_resumed ht hst hr
    · rename_i hst
      split
      · have hop := t.resume_op m.isBtAutoDownload a
        split
        · rename_i t' hr
          rw [hr] at hop
          have hseed : Op t (t'.setTaskStatus .kSeeding) :=
            hop.trans (.of_kept (TaskBase.setTaskStatus_kept _ _) nofun nofun)
          exact updates_setTask ht (.of_op hseed (by rw [hst]; decide) nofun)
        · rename_i t' hr
          have heq := TaskBase.resume_of_false (t := t) (a := a) (by rw [hr])
          rw [hr] at heq
          exact updates_setTask ht (heq ▸ .refl t)
      · exact .refl Resumed.refl id m
    · exact .refl Resumed.refl id m

theorem execRetryOperate_updates (m : UserSelfMgr) (id : String) (a : Answer) :
    Updates Op id m (m.execRetryOperate id a).1 := by
  unfold execRetryOperate
  split
  · exact .refl Op.refl id m
  · rename_i t ht
    split
    · split
      · exact setIsValid_updates id m
      · rename_i t' hr
        exact (retry_tryResume_updates ht hr).op_trans (setIsValid_updates id _)
    · exact .refl Op.refl id m

theorem execRestoreOperate_updates (hd : m.hasStatus (· == .kDeleted) id) (a : Answer) :
    Updates Op id m (m.execRestoreOperate id a).1 := by
  unfold execRestoreOperate
  split
  · exact .refl Op.refl id m
  · rename_i t ht
    rw [hasStatus_of_findTask ht, beq_iff_eq] at hd
    split
    · have hr := updates_setTask ht (TaskBase.restore_op hd m.isBtAutoDownload a)
      dsimp only
      split
      · split
        · exact hr.op_trans (resumeTask_updates (findTask_setTask ..))
        · exact hr.op_trans (startTask_updates (findTask_setTask ..))
      · exact hr
    · exact execRetryOperate_updates m id a

theorem forEach_operate_keep {I : UserSelfMgr → Prop} {cond : UserSelfMgr → String → Bool}
    {exec : UserSelfMgr → String → Answer → UserSelfMgr × DownloadErrorCode} {rounds : List String}
    (hexec : ∀ m j a, j ∈ rounds → cond m j → I m → I (exec m j a).1) (hm : I m) (r : Reply)
    (ω : Nat → Answer) : I (Lib.forEach (operate cond exec) (m, r) rounds ω).1 := by
  refine Lib.forEach_keep (I := fun s : UserSelfMgr × Reply => I s.1) ?_ hm ω
  intro s j a hj hs
  unfold operate
  split
  · rename_i hc
    exact hexec s.1 j a hj hc hs
  · exact hs

/-- A property of what is listed under an id is kept if the change of the one task keeps it. -/
theorem Updates.keep {Q : Option TaskBase → Prop} (hQ : ∀ t t', rel t t' → Q (some t) → Q (some t'))
    (hu : Updates rel id m m') {j : String} (hj : Q (m.findTask j)) : Q (m'.findTask j) := by
  by_cases hne : j = id
  · subst hne
    rcases ht : m.findTask j with _ | t
    · rwa [hu.none ht, ← ht]
    · obtain ⟨t', ht', hr⟩ := hu.task t ht
      rw [ht] at hj
      rw [ht']
      exact hQ t t' hr hj
  · rwa [hu.other j hne]

/-! ## The timer -/

theorem woken_op (m : UserSelfMgr) (t : TaskBase) (a : Answer) : Op t (m.woken t a) := by
  unfold woken
  split
  · exact t.resume_op _ a
  · split
    · exact (t.start_op a.start).setErrorCode _
    · exact t.start_op a.start

theorem Round.updates {c c' : LimitCheck} (h : Round c id a c') : Updates Quiet id c.mgr c'.mgr := by
  cases h with
  | skip => exact .refl Quiet.refl id _
  | count => exact .refl Quiet.refl id _
  | demote ht hst =>
    exact updates_setTask ht (quiet_setTaskStatus hst (by decide) (TaskBase.pause_kept _ a) (by decide))
  | @wake t ht hst =>
    have hr : ¬ t.Resting := by rintro (h | h | h) <;> rw [h] at hst <;> cases hst
    dsimp only
    rw [wake_eq]
    split
    · exact updates_setTask ht (.of_move (woken_op ..).toMove hr)
    · exact updates_setTask_start ht (.of_move (woken_op ..).toMove hr) a.start

theorem checkTask_updates (m : UserSelfMgr) (id : String) (a : Answer) :
    Updates Quiet id m (m.checkTask id a) := by
  unfold checkTask
  split
  · exact .refl Quiet.refl id m
  · rename_i ht
    exact updates_setTask ht (TaskBase.checkTask_quiet _ a)

end Updates

end Nas.Download.UserSelfMgr
