import NasServices.Download.SharedDownloads
import NasServices.Download.UserSelfMgr.Orders

/-!
# The events that stop a shared object

Cancelling is guarded by the reference counts, so a download that another user shares
is not removed (`Shared.not_stops_cancelOrders`). Nothing guards the other calls: a
task that is paused, put into the recycle bin or demoted by the limit pauses the
object of its hash, and an ed2k task that is retried removes it. `Event.Stops` says of
each event, in the state in which it comes, that it does so to a hash, and
`Shared.stops_of_mem_orders` that no event stops an object otherwise.
-/

namespace Nas.Download

/-! ## The task behind an order -/

namespace TaskBase

def On (hash : String) (t : TaskBase) : Prop :=
  t.param.type.isPeerToPeer = true ∧ t.param.hash = hash

instance (hash : String) : DecidablePred (On hash) := fun _ => inferInstanceAs (Decidable (_ ∧ _))

def Fails (t : TaskBase) : Prop :=
  t.taskStatus = .kFailed ∨ t.isValid = false ∨ t.preStatus = .kFailed

instance : DecidablePred Fails := fun _ => inferInstanceAs (Decidable (_ ∨ _))

def Renews (hash : String) (t : TaskBase) : Prop := t.On hash ∧ t.param.type = .kEd2k ∧ t.Fails

instance (hash : String) : DecidablePred (Renews hash) := fun _ => inferInstanceAs (Decidable (_ ∧ _))

variable {hash : String} {t t' : TaskBase} {a : Answer} {o : Order} {isBtAutoDownload : Bool}

theorem On.of_param (h : t'.param = t.param) (ht' : t'.On hash) : t.On hash := by
  unfold On at ht' ⊢
  rwa [h] at ht'

theorem of_mem_order {f : String → Order} (h : o ∈ t.order f) :
    t.param.type.isPeerToPeer = true ∧ o = f t.param.hash := by
  unfold order at h
  split at h
  · rename_i hp
    exact ⟨hp, List.mem_singleton.mp h⟩
  · cases h

theorem on_of_mem_pauseOrders (h : o ∈ t.pauseOrders a) (hs : o.Stops hash) : t.On hash := by
  unfold pauseOrders at h
  split at h
  · obtain ⟨hp, rfl⟩ := of_mem_order h
    exact ⟨hp, hs⟩
  · cases h

theorem not_stops_startOrders {ret : DownloadErrorCode} (h : o ∈ t.startOrders ret) : ¬ o.Stops hash := by
  simp only [startOrders] at h
  split at h
  · cases h
  · obtain ⟨-, rfl⟩ := of_mem_order h
    exact id

theorem renews_of_mem_resumeOrders (h : o ∈ t.resumeOrders isBtAutoDownload a) (hs : o.Stops hash) :
    t.Renews hash := by
  unfold resumeOrders at h
  split at h
  · cases h
  · split at h
    · rename_i hfail
      simp only [Bool.and_eq_true, beq_iff_eq, Bool.or_eq_true, Bool.not_eq_true'] at hfail
      rcases List.mem_append.mp h with h | h
      · obtain ⟨hp, rfl⟩ := of_mem_order h
        exact ⟨⟨hp, hs⟩, hfail.1, hfail.2.imp_right .inl⟩
      · obtain ⟨-, rfl⟩ := of_mem_order h
        exact hs.elim
    · obtain ⟨-, rfl⟩ := of_mem_order h
      exact hs.elim

/-! ### Failures are not made by resuming -/

structure Mends (t t' : TaskBase) : Prop where
  param : t'.param = t.param
  fails : t'.Fails → t.Fails

theorem Mends.refl (t : TaskBase) : Mends t t := ⟨rfl, id⟩

theorem Mends.trans {t'' : TaskBase} (h : Mends t t') (h' : Mends t' t'') : Mends t t'' :=
  ⟨h'.param.trans h.param, h.fails ∘ h'.fails⟩

theorem Mends.renews (h : Mends t t') (ht' : t'.Renews hash) : t.Renews hash :=
  ⟨ht'.1.of_param h.param, h.param ▸ ht'.2.1, h.fails ht'.2.2⟩

theorem Mends.of_eq (hp : t'.param = t.param) (hs : t'.taskStatus = t.taskStatus)
    (hpre : t'.preStatus = t.preStatus) (hv : t'.isValid = false → t.isValid = false) : Mends t t' := by
  refine ⟨hp, ?_⟩
  rintro (h | h | h)
  · exact .inl (hs ▸ h)
  · exact .inr (.inl (hv h))
  · exact .inr (.inr (hpre ▸ h))

/-- A task that is given another status than `kFailed` remembers the one it had. -/
theorem Mends.of_setTaskStatus (hp : t'.param = t.param) (hs : t'.taskStatus ≠ .kFailed)
    (hpre : t'.preStatus = t.taskStatus) (hv : t'.isValid = false → t.isValid = false) : Mends t t' := by
  refine ⟨hp, ?_⟩
  rintro (h | h | h)
  · exact absurd h hs
  · exact .inr (.inl (hv h))
  · exact .inl (hpre ▸ h)

theorem mends_setTaskStatus {s : TaskStatus} (hs : s ≠ .kFailed) : Mends t (t.setTaskStatus s) :=
  .of_setTaskStatus rfl hs rfl id

theorem mends_resume (t : TaskBase) (isBtAutoDownload : Bool) (a : Answer) :
    Mends t (t.resume isBtAutoDownload a).1 := by
  unfold resume
  split
  · exact mends_setTaskStatus (by decide)
  · split
    · exact .of_setTaskStatus rfl nofun rfl nofun
    · exact .refl t

theorem mends_start (t : TaskBase) (ret : DownloadErrorCode) : Mends t (t.start ret).1 := by
  unfold start
  split
  · exact .refl t
  · split
    · split
      · exact .of_eq rfl rfl rfl nofun
      · exact .refl t
    · split
      · exact .of_setTaskStatus rfl nofun rfl nofun
      · exact mends_setTaskStatus (by decide)

theorem mends_retry (t : TaskBase) (a : Answer) : Mends t (t.retry a).1 := by
  unfold retry
  split
  · exact .refl t
  · exact .of_eq rfl rfl rfl id

theorem mends_restore (t : TaskBase) (isBtAutoDownload : Bool) (a : Answer) :
    Mends t (t.restore isBtAutoDownload a).1 := by
  unfold restore
  split
  · exact .refl t
  · split
    · exact mends_setTaskStatus (by decide)
    · exact .of_setTaskStatus rfl nofun rfl id
    · exact .of_setTaskStatus rfl nofun rfl id
    · exact (mends_resume t isBtAutoDownload a).trans (mends_setTaskStatus (by decide))
    · -- it failed before it was deleted
      rename_i hpre
      refine ⟨?_, fun _ => .inr (.inr hpre)⟩
      exact (mends_resume { t.setTaskStatus .kFailed with taskCategory := .kDownloadingTask }
        isBtAutoDownload a).param
    · exact .of_setTaskStatus rfl nofun rfl id
    · exact .of_setTaskStatus rfl nofun rfl id
    · split <;> exact mends_setTaskStatus (by decide)

theorem renews_of_mem_restoreOrders (h : o ∈ t.restoreOrders isBtAutoDownload a) (hs : o.Stops hash) :
    t.Renews hash := by
  unfold restoreOrders at h
  split at h
  · cases h
  · split at h
    · exact renews_of_mem_resumeOrders h hs
    · rename_i hpre
      obtain ⟨hon, hty, -⟩ := renews_of_mem_resumeOrders h hs
      exact ⟨hon, hty, .inr (.inr hpre)⟩
    · cases h

/-! ### Deletion and the timer -/

def Bins (hash : String) (cond : TaskBase → Prop) (t : TaskBase) : Prop :=
  t.On hash ∧ t.taskCategory ≠ .kRecyclebinTask ∧ t.taskStatus ≠ .kFailed ∧ cond t

instance (hash : String) (cond : TaskBase → Prop) [DecidablePred cond] : DecidablePred (Bins hash cond) :=
  fun _ => inferInstanceAs (Decidable (_ ∧ _))

theorem of_mem_deleteToRecycleBinOrders (h : o ∈ t.deleteToRecycleBinOrders a) (hs : o.Stops hash) :
    t.On hash ∧ t.taskStatus ≠ .kFailed := by
  unfold deleteToRecycleBinOrders at h
  split at h
  · cases h
  · rename_i hf
    refine ⟨on_of_mem_pauseOrders h hs, fun hst => hf ?_⟩
    simp [hst]

theorem of_mem_exceCancelOrders {realDelete : Bool} (h : o ∈ t.exceCancelOrders a realDelete)
    (hs : o.Stops hash) : t.On hash ∧ realDelete = true := by
  unfold exceCancelOrders at h
  split at h
  · rename_i hasks
    obtain ⟨hp, rfl⟩ := of_mem_order h
    refine ⟨⟨hp, hs⟩, ?_⟩
    simp only [asksCancel, Bool.and_eq_true] at hasks
    exact hasks.1.1
  · cases h

/-- A tick pauses the object of a task that has seeded enough or finds no room on the disk. -/
def HasEnough (a : Answer) (t : TaskBase) : Prop :=
  a.reachLimit = true ∨ t.param.type = .kEd2k ∧ a.isDiskFull = true

instance (a : Answer) : DecidablePred (HasEnough a) := fun _ => inferInstanceAs (Decidable (_ ∨ _))

theorem of_mem_checkTaskOrders (h : o ∈ t.checkTaskOrders a) (hs : o.Stops hash) :
    t.On hash ∧ t.HasEnough a := by
  have hparam := (checkTaskIsFailed_quiet t).kept.param
  unfold checkTaskOrders at h
  split at h
  · cases h
  · rename_i t₁ ht₁
    rw [ht₁] at hparam
    have hprogress : o ∈ t₁.updateProgressInfoOrders a → t.On hash ∧ t.HasEnough a := by
      intro h
      unfold updateProgressInfoOrders at h
      split at h
      · rename_i hfull
        simp only [Bool.and_eq_true, beq_iff_eq] at hfull
        obtain ⟨hp, rfl⟩ := of_mem_order h
        exact ⟨On.of_param hparam ⟨hp, hs⟩, .inr ⟨hparam ▸ hfull.1, hfull.2⟩⟩
      · cases h
    split at h
    · exact hprogress h
    · exact hprogress h
    · split at h
      · unfold checkSeedingLimitsOrders at h
        split at h
        · rename_i hlim
          exact ⟨(on_of_mem_pauseOrders h hs).of_param hparam, .inl hlim⟩
        · cases h
      · cases h
    · cases h

end TaskBase

/-! ## Rounds -/

namespace UserSelfMgr

open TaskBase (On Renews Bins HasEnough Mends)

def Has (m : UserSelfMgr) (ids : List String) (P : Nat → TaskBase → Prop) : Prop :=
  ∃ k < ids.length, ∃ id ∈ ids[k]?, ∃ t ∈ m.findTask id, P k t

instance (m : UserSelfMgr) (ids : List String) (P : Nat → TaskBase → Prop) [∀ k, DecidablePred (P k)] :
    Decidable (m.Has ids P) :=
  inferInstanceAs (Decidable (∃ k < ids.length, ∃ id ∈ ids[k]?, ∃ t ∈ m.findTask id, P k t))

def NoNew (Bad : TaskBase → Prop) (m m' : UserSelfMgr) : Prop :=
  ∀ id, ∀ t' ∈ m'.findTask id, Bad t' → ∃ t ∈ m.findTask id, Bad t

variable {Bad : TaskBase → Prop} {m m' m'' : UserSelfMgr} {id hash : String} {t t' : TaskBase} {a : Answer}
  {o : Order} {ids : List String} {P : Nat → TaskBase → Prop}

theorem has_of_getElem? {k : Nat} (hk : ids[k]? = some id) (ht : m.findTask id = some t) (hP : P k t) :
    m.Has ids P := ⟨k, (List.getElem?_eq_some_iff.mp hk).1, id, hk, t, ht, hP⟩

theorem Has.imp {P' : Nat → TaskBase → Prop} (h : m.Has ids P) (hP : ∀ k t, P k t → P' k t) : m.Has ids P' := by
  obtain ⟨k, hk, id, hid, t, ht, h⟩ := h
  exact ⟨k, hk, id, hid, t, ht, hP k t h⟩

theorem NoNew.refl (m : UserSelfMgr) : NoNew Bad m m := fun _ t ht hb => ⟨t, ht, hb⟩

theorem NoNew.trans (h : NoNew Bad m m') (h' : NoNew Bad m' m'') : NoNew Bad m m'' := by
  intro id t ht hb
  obtain ⟨t', ht', hb'⟩ := h' id t ht hb
  exact h id t' ht' hb'

theorem noNew_setTask (ht : m.findTask id = some t) (h : Bad t' → Bad t) : NoNew Bad m (m.setTask id t') := by
  intro j t₁ ht₁ hb
  by_cases hj : j = id
  · rw [hj, findTask_setTask] at ht₁
    obtain rfl := Option.some.inj ht₁
    exact ⟨t, hj ▸ ht, h hb⟩
  · rw [findTask_setTask_ne m t' hj] at ht₁
    exact ⟨t₁, ht₁, hb⟩

/-- A request stops an object only for a task that is bad when the request comes, if its rounds
stop one only for a bad task and make none. -/
theorem has_of_mem_requestOrders {cond : UserSelfMgr → String → Bool}
    {exec : UserSelfMgr → String → Answer → UserSelfMgr × DownloadErrorCode}
    {orders : UserSelfMgr → String → Answer → List Order}
    (hexec : ∀ m j a, cond m j → NoNew Bad m (exec m j a).1)
    (hstop : ∀ m j a, cond m j → o ∈ orders m j a → ∃ t ∈ m.findTask j, Bad t) {ω : Nat → Answer}
    (ho : o ∈ m.requestOrders cond exec orders ids ω) : m.Has ids fun _ => Bad := by
  obtain ⟨k, j, hj, ho⟩ := Lib.mem_forEachLog_get ho
  have hloop : NoNew Bad m (Lib.forEach (operate cond exec) (m, {}) (ids.take k) ω).1 :=
    forEach_operate_keep (I := NoNew Bad m) (fun m' j a _ hc hm => hm.trans (hexec m' j a hc)) (.refl m) {} ω
  unfold operateOrders at ho
  split at ho
  · rename_i hc
    obtain ⟨t', ht', hb'⟩ := hstop _ j (ω k) hc ho
    obtain ⟨t, ht, hb⟩ := hloop j t' ht' hb'
    exact has_of_getElem? hj ht hb
  · cases ho

theorem execPauseOperate_noNew {l : List TaskStatus} (hp : .kPaused ∉ l) (hf : .kFinished ∉ l)
    (m : UserSelfMgr) (id : String) (a : Answer) :
    NoNew (fun t => t.On hash ∧ t.taskStatus ∈ l) m (m.execPauseOperate id a).1 := by
  unfold execPauseOperate
  split
  · exact .refl m
  · rename_i t ht
    have hpaused : ∀ t', t'.taskStatus = .kPaused →
        NoNew (fun t => t.On hash ∧ t.taskStatus ∈ l) m (m.setTask id t') := fun t' hst =>
      noNew_setTask ht fun hb => absurd (hst ▸ hb.2) hp
    unfold pauseTask
    split
    · split
      · rename_i t' hpause
        rw [TaskBase.pause_eq_true hpause]
        exact hpaused _ rfl
      · exact .refl m
    · exact hpaused _ rfl
    · exact hpaused _ rfl
    · split
      · exact noNew_setTask ht fun hb => absurd hb.2 hf
      · exact .refl m
    · exact .refl m

theorem of_mem_execPauseOrders (h : o ∈ m.execPauseOrders id a) (hs : o.Stops hash) :
    ∃ t ∈ m.findTask id, t.On hash ∧ t.taskStatus ∈ [TaskStatus.kDownloading, .kSeeding] := by
  unfold execPauseOrders at h
  split at h
  · cases h
  · rename_i t ht
    unfold pauseTaskOrders at h
    split at h
    · rename_i hst
      exact ⟨t, ht, TaskBase.on_of_mem_pauseOrders h hs, by simp [hst]⟩
    · rename_i hst
      exact ⟨t, ht, TaskBase.on_of_mem_pauseOrders h hs, by simp [hst]⟩
    · cases h

/-! ### Resuming -/

theorem of_mem_tryResumeOrders (h : o ∈ m.tryResumeOrders t a) (hs : o.Stops hash) : t.Renews hash := by
  unfold tryResumeOrders wakeOrders at h
  split at h
  · split at h
    · exact TaskBase.renews_of_mem_resumeOrders h hs
    · exact absurd hs (TaskBase.not_stops_startOrders h)
  · cases h

theorem noNew_mends (ht : m.findTask id = some t) (h : Mends t t') :
    NoNew (Renews hash) m (m.setTask id t') := noNew_setTask ht h.renews

theorem tryResume_noNew (ht : m.findTask id = some t) : NoNew (Renews hash) m (m.tryResume id t a).1 := by
  unfold tryResume
  split
  · split
    · exact noNew_mends ht (t.mends_resume m.isBtAutoDownload a)
    · exact noNew_mends ht (t.mends_start a.start)
  · exact noNew_mends ht (TaskBase.mends_setTaskStatus (by decide))

theorem retry_tryResume_noNew (ht : m.findTask id = some t) (hr : t.retry a = (t', true)) :
    NoNew (Renews hash) m ((m.setTask id t').tryResume id t' a).1 := by
  have hmends := t.mends_retry a
  rw [hr] at hmends
  exact (noNew_mends ht hmends).trans (tryResume_noNew (findTask_setTask ..))

theorem of_mem_retryOrders (hr : t.retry a = (t', true)) (h : o ∈ m.tryResumeOrders t' a)
    (hs : o.Stops hash) : t.Renews hash := by
  have hmends := t.mends_retry a
  rw [hr] at hmends
  exact hmends.renews (of_mem_tryResumeOrders h hs)

theorem setIsValid_noNew (m : UserSelfMgr) (id : String) : NoNew (Renews hash) m (m.setIsValid id) := by
  unfold setIsValid
  split
  · exact .refl m
  · rename_i ht
    exact noNew_mends ht (.of_eq rfl rfl rfl nofun)

theorem execResumeOperate_noNew (m : UserSelfMgr) (id : String) (a : Answer) :
    NoNew (Renews hash) m (m.execResumeOperate id a).1 := by
  unfold execResumeOperate
  split
  · exact .refl m
  · rename_i t ht
    split
    · split
      · exact noNew_mends ht (TaskBase.mends_setTaskStatus (by decide))
      · exact tryResume_noNew ht
    · split
      · exact .refl m
      · rename_i hr
        exact retry_tryResume_noNew ht hr
    · have hmends := t.mends_resume m.isBtAutoDownload a
      split
      · split
        · rename_i hr
          rw [hr] at hmends
          exact noNew_mends ht (hmends.trans (TaskBase.mends_setTaskStatus (by decide)))
        · rename_i hr
          rw [hr] at hmends
          exact noNew_mends ht hmends
      · exact .refl m
    · exact .refl m

theorem of_mem_execResumeOrders (h : o ∈ m.execResumeOrders id a) (hs : o.Stops hash) :
    ∃ t ∈ m.findTask id, t.Renews hash := by
  unfold execResumeOrders at h
  split at h
  · cases h
  · rename_i t ht
    refine ⟨t, ht, ?_⟩
    split at h
    · split at h
      · cases h
      · exact of_mem_tryResumeOrders h hs
    · split at h
      · cases h
      · rename_i hr
        exact of_mem_retryOrders hr h hs
    · split at h
      · exact TaskBase.renews_of_mem_resumeOrders h hs
      · cases h
    · cases h

theorem execRetryOperate_noNew (m : UserSelfMgr) (id : String) (a : Answer) :
    NoNew (Renews hash) m (m.execRetryOperate id a).1 := by
  unfold execRetryOperate
  split
  · exact .refl m
  · rename_i t ht
    split
    · split
      · exact setIsValid_noNew m id
      · rename_i hr
        exact (retry_tryResume_noNew ht hr).trans (setIsValid_noNew _ id)
    · exact .refl m

theorem of_mem_execRetryOrders (h : o ∈ m.execRetryOrders id a) (hs : o.Stops hash) :
    ∃ t ∈ m.findTask id, t.Renews hash := by
  unfold execRetryOrders at h
  split at h
  · cases h
  · rename_i t ht
    split at h
    · split at h
      · cases h
      · rename_i hr
        exact ⟨t, ht, of_mem_retryOrders hr h hs⟩
    · cases h

theorem execRestoreOperate_noNew (m : UserSelfMgr) (id : String) (a : Answer) :
    NoNew (Renews hash) m (m.execRestoreOperate id a).1 := by
  unfold execRestoreOperate
  split
  · exact .refl m
  · rename_i t ht
    split
    · have hrestore : NoNew (Renews hash) m (m.setTask id (t.restore m.isBtAutoDownload a).1) :=
        noNew_mends ht (t.mends_restore m.isBtAutoDownload a)
      have hresumed := (t.restore m.isBtAutoDownload a).1.mends_resume m.isBtAutoDownload a
      have hstarted := (t.restore m.isBtAutoDownload a).1.mends_start a.start
      dsimp only
      split
      · split
        · exact hrestore.trans (noNew_mends (findTask_setTask ..) hresumed)
        · exact hrestore.trans (noNew_mends (findTask_setTask ..) hstarted)
      · exact hrestore
    · exact execRetryOperate_noNew m id a

theorem of_mem_execRestoreOrders (h : o ∈ m.execRestoreOrders id a) (hs : o.Stops hash) :
    ∃ t ∈ m.findTask id, t.Renews hash := by
  unfold execRestoreOrders at h
  split at h
  · cases h
  · rename_i t ht
    split at h
    · refine ⟨t, ht, ?_⟩
      rcases List.mem_append.mp h with h | h
      · exact TaskBase.renews_of_mem_restoreOrders h hs
      · split at h
        · exact (t.mends_restore m.isBtAutoDownload a).renews (of_mem_tryResumeOrders h hs)
        · cases h
    · exact of_mem_execRetryOrders h hs

/-! ### Deletion -/

theorem cancelOrders_eq (m : UserSelfMgr) (t : TaskBase) (a : Answer) :
    m.cancelOrders t a = t.exceCancelOrders a (m.refs.isLast t.param.hash) :=
  congrArg Prod.fst (TaskRefCount.release_snd_eq _ m.refs t.param.hash)

theorem on_of_mem_cancelOrders (h : o ∈ m.cancelOrders t a) (hs : o.Stops hash) : t.On hash := by
  rw [cancelOrders_eq] at h
  exact (TaskBase.of_mem_exceCancelOrders h hs).1

/-- While the counts are exact, a download that another user shares is not removed. -/
theorem Shared.not_stops_cancelOrders {others : String → Nat} (h : Shared others m)
    (ht : m.findTask id = some t) (hpos : 0 < others hash) (ho : o ∈ m.cancelOrders t a) :
    ¬ o.Stops hash := by
  intro hs
  rw [cancelOrders_eq] at ho
  obtain ⟨⟨-, rfl⟩, hlast⟩ := TaskBase.of_mem_exceCancelOrders ho hs
  have hnum := hashNum_pos ht
  have hrefs := h.refs t.param.hash
  rw [TaskRefCount.tally_of_pos (by unfold total; omega)] at hrefs
  rw [TaskRefCount.isLast, hrefs, decide_eq_true_eq] at hlast
  unfold total at hlast
  omega

/-- A deletion puts tasks into the recycle bin or takes them off the list. -/
theorem Deleted.noNew {cond : TaskBase → Prop} (hd : Deleted id a m m') : NoNew (Bins hash cond) m m' := by
  intro j t' ht' hb
  by_cases hj : j = id
  · subst hj
    obtain ⟨t, ht, rfl | rfl⟩ := hd.listed ht'
    · exact ⟨_, ht, hb⟩
    · refine ⟨t, ht, ?_⟩
      unfold TaskBase.deleteToRecycleBin at hb
      split at hb
      · exact hb
      · split at hb
        · exact absurd rfl hb.2.1
        · exact hb
  · rw [hd.findTask_ne hj] at ht'
    exact ⟨t', ht', hb⟩

def Disposes (cond : TaskBase → Prop) (hash : String) (m : UserSelfMgr) (id : String) (a : Answer)
    (o : Order) : Prop :=
  ∃ t ∈ m.findTask id, t.Bins hash cond ∨ o ∈ m.cancelOrders t a

variable {s : UserSelfMgr × Reply} {isDeleteLocalFile : Bool} {c : TaskCategory}

theorem disposes_of_mem_execDeleteOrders {isJudgeTaskValid : Bool}
    (h : o ∈ execDeleteOrders isDeleteLocalFile isJudgeTaskValid s id a) (hs : o.Stops hash) :
    Disposes (fun t => isJudgeTaskValid = true → t.isValid = false) hash s.1 id a o := by
  unfold execDeleteOrders at h
  split at h
  · cases h
  · rename_i t ht
    refine ⟨t, ht, ?_⟩
    split at h
    · cases h
    · rename_i hj
      split at h
      · split at h
        · cases h
        · exact .inr h
      · rename_i hbin
        obtain ⟨hon, hst⟩ := TaskBase.of_mem_deleteToRecycleBinOrders h hs
        exact .inl ⟨hon, hbin, hst, by simpa using hj⟩

theorem disposes_of_mem_execDeleteCategoryOrders
    (h : o ∈ execDeleteCategoryOrders c isDeleteLocalFile s id a) (hs : o.Stops hash) :
    Disposes (fun t => c ≠ .kAll ∧ t.taskCategory = c) hash s.1 id a o := by
  unfold execDeleteCategoryOrders at h
  split at h
  · cases h
  · rename_i t ht
    refine ⟨t, ht, ?_⟩
    split at h
    · exact .inr h
    · rename_i hall
      split at h
      · cases h
      · rename_i hcat
        have hcat : t.taskCategory = c := not_not.mp hcat
        split at h
        · split at h
          · cases h
          · exact .inr h
        · rename_i hbin
          obtain ⟨hon, hst⟩ := TaskBase.of_mem_deleteToRecycleBinOrders h hs
          exact .inl ⟨hon, hcat ▸ hbin, hst, hall, hcat⟩

theorem disposes_of_mem_execCleanCategoryOrders (h : o ∈ execCleanCategoryOrders c s id a)
    (hs : o.Stops hash) :
    Disposes (fun t => t.taskCategory = c ∧ t.isValid = false) hash s.1 id a o := by
  unfold execCleanCategoryOrders at h
  split at h
  · cases h
  · rename_i t ht
    refine ⟨t, ht, ?_⟩
    split at h
    · cases h
    · rename_i hcond
      obtain ⟨hcat, hv⟩ := not_or.mp hcond
      have hcat : t.taskCategory = c := not_not.mp hcat
      split at h
      · exact .inr h
      · rename_i hbin
        obtain ⟨hon, hst⟩ := TaskBase.of_mem_deleteToRecycleBinOrders h hs
        exact .inl ⟨hon, hcat ▸ hbin, hst, hcat, by simpa using hv⟩

/-- A delete or clean request under exact counts: an object that another user shares is stopped
only for a task that goes to the recycle bin. -/
theorem Shared.has_of_deletes {others : String → Nat} (h : Shared others m)
    {body : UserSelfMgr × Reply → String → Answer → UserSelfMgr × Reply}
    {orders : UserSelfMgr × Reply → String → Answer → List Order} {cond : TaskBase → Prop}
    (hbody : ∀ s j a, Deleted j a s.1 (body s j a).1)
    (horders : ∀ {s j a}, o ∈ orders s j a → Disposes cond hash s.1 j a o)
    (hg : Guarded others ids m) {ω : Nat → Answer} (hc : ∀ k, (ω k).cancel = true)
    (hpos : 0 < others hash) (ho : o ∈ Lib.forEachLog body orders (m, {}) ids ω) (hs : o.Stops hash) :
    m.Has ids fun _ => Bins hash cond := by
  obtain ⟨k, j, hj, ho⟩ := Lib.mem_forEachLog_get ho
  have hshared : Shared others (Lib.forEach body (m, {}) (ids.take k) ω).1 :=
    (h.forEach_deleted hbody (fun id hid => hg id (List.mem_of_mem_take hid)) {} hc).1
  have hloop : NoNew (Bins hash cond) m (Lib.forEach body (m, {}) (ids.take k) ω).1 :=
    Lib.forEach_keep (I := fun s : UserSelfMgr × Reply => NoNew (Bins hash cond) m s.1)
      (fun s j a _ hs => hs.trans (hbody s j a).noNew) (.refl m) ω
  obtain ⟨t', ht', hb | hcancel⟩ := horders ho
  · obtain ⟨t, ht, hb⟩ := hloop j t' ht' hb
    exact has_of_getElem? hj ht hb
  · exact absurd hs (hshared.not_stops_cancelOrders ht' hpos hcancel)

theorem has_of_mem_resetOrders {ω : Nat → Answer}
    (ho : o ∈ Lib.forEachLog resetTask resetTaskOrders m ids ω) (hs : o.Stops hash) :
    m.Has ids fun _ => On hash := by
  obtain ⟨k, j, hj, ho⟩ := Lib.mem_forEachLog_get ho
  have hloop : Listed (fun id p => ∃ t ∈ m.findTask id, t.param = p)
      (Lib.forEach resetTask m (ids.take k) ω) :=
    Lib.forEach_keep (fun _ j a _ hm => hm.resetTask j a) (fun _ t ht => ⟨t, ht, rfl⟩) ω
  unfold resetTaskOrders at ho
  split at ho
  · cases ho
  · rename_i t' ht'
    have hon : t'.On hash := by
      rcases List.mem_append.mp ho with ho | ho
      · exact TaskBase.on_of_mem_pauseOrders ho hs
      · exact (on_of_mem_cancelOrders ho hs).of_param (t'.pause_kept _).param
    obtain ⟨t, ht, hp⟩ := hloop j t' ht'
    exact has_of_getElem? hj ht (hon.of_param hp.symm)

/-! ### Parsing and creation -/

theorem of_mem_onParseCompleteOrders {msg : TaskBase.ParseMessage} (h : o ∈ m.onParseCompleteOrders msg a)
    (hs : o.Stops hash) :
    (m.isCanStart && m.isBtAutoDownload) = false ∧ ∃ t ∈ m.findTask msg.1, t.On hash := by
  unfold onParseCompleteOrders at h
  split at h
  · cases h
  · rename_i t ht
    split at h
    · cases h
    · rename_i hroom
      exact ⟨Bool.eq_false_iff.mpr hroom, t, ht, TaskBase.on_of_mem_pauseOrders h hs⟩

theorem of_mem_runParseOrders (h : o ∈ m.runParseOrders a) (hs : o.Stops hash) :
    (m.isCanStart && m.isBtAutoDownload) = false ∧
      ∃ msg ∈ m.parseQueue.head?, ∃ t ∈ m.findTask msg.1, t.On hash := by
  unfold runParseOrders at h
  split at h
  · cases h
  · rename_i msg rest hqueue
    obtain ⟨hroom, t, ht, hon⟩ := of_mem_onParseCompleteOrders h hs
    exact ⟨hroom, msg, by rw [hqueue]; rfl, t, ht, hon⟩

/-- The callback that `Parse` runs at once looks for a task under the user's id. -/
theorem of_mem_parseTaskOrders (h : o ∈ m.parseTaskOrders id a) (hs : o.Stops hash) :
    ∃ t ∈ m.findTask m.userId, t.On hash := by
  unfold parseTaskOrders at h
  split at h
  · cases h
  · rename_i t ht
    split at h
    · cases h
    · rename_i t₁ msg hparse
      have hparam := parse_param t m.userId a
      rw [hparse] at hparam
      obtain ⟨-, t', ht', hon⟩ := of_mem_onParseCompleteOrders h hs
      rw [parse_message hparse] at ht'
      have hlisted : Listed (fun id p => ∃ t ∈ m.findTask id, t.param = p) (m.setTask id t₁) :=
        Listed.setTask (fun _ t ht => ⟨t, ht, rfl⟩) ⟨t, ht, hparam.symm⟩
      obtain ⟨t₂, ht₂, hp⟩ := hlisted _ t' ht'
      exact ⟨t₂, ht₂, hon.of_param hp.symm⟩

theorem not_stops_execStartOrders {h : Host} (ho : o ∈ m.execStartOrders t h) : ¬ o.Stops hash := by
  have hnone : ∀ {t ret}, o ∈ m.execNoneBtOrders t ret → ¬ o.Stops hash := by
    intro t ret ho
    unfold execNoneBtOrders at ho
    split at ho
    · exact TaskBase.not_stops_startOrders ho
    · cases ho
  unfold execStartOrders at ho
  split at ho
  · exact TaskBase.not_stops_startOrders ho
  · rcases List.mem_append.mp ho with ho | ho
    · exact TaskBase.not_stops_startOrders ho
    · exact hnone ho
  · exact hnone ho

/-- Creating tasks stops nothing: a task that is refused was never referenced. -/
theorem not_stops_execCreateOrders {c : Creation} {param : TaskParam} {h : Host}
    (ho : o ∈ execCreateOrders c param h) : ¬ o.Stops hash := by
  unfold execCreateOrders at ho
  split at ho
  · cases ho
  · rename_i t err same hc
    obtain ⟨hid, -, -⟩ := createTask_fresh hc
    dsimp only at ho
    split at ho
    · cases ho
    · rcases List.mem_append.mp ho with ho | ho
      · exact not_stops_execStartOrders ho
      · split at ho
        · cases ho
        · rw [addTask_of_none hid] at ho
          cases ho

theorem Listed.execCreate {Q : String → TaskParam → Prop} {c : Creation} (h : Listed Q c.mgr) {param : TaskParam}
    (hQ : ∀ p, Q param.id p) (host : Host) : Listed Q (execCreate c param host).mgr := by
  have hcreated := execCreate_created c param host
  generalize UserSelfMgr.execCreate c param host = c' at hcreated
  cases hcreated with
  | refused => exact h
  | dropped => exact h
  | @listed t ht hid himpl s hs reply =>
    have hset : Listed Q (c.mgr.setTask param.id s.task) := h.setTask (hQ _)
    exact hset

theorem execCreate_userId (c : Creation) (param : TaskParam) (host : Host) :
    (execCreate c param host).mgr.userId = c.mgr.userId := by
  have hcreated := execCreate_created c param host
  generalize execCreate c param host = c' at hcreated
  cases hcreated with
  | refused => rfl
  | dropped => rfl
  | listed => rfl

/-- A create request may pause a task that is listed under the user's own id. -/
theorem has_of_mem_createAllOrders {params : List TaskParam} {host : Nat → Host} {ω : Nat → Answer}
    (ho : o ∈ m.createAllOrders params host ω) (hs : o.Stops hash) :
    (∃ p ∈ params, p.id = m.userId) ∨ ∃ t ∈ m.findTask m.userId, t.On hash := by
  by_contra hno
  obtain ⟨hnew, hold⟩ := not_or.mp hno
  let Q (id : String) (p : TaskParam) : Prop := id = m.userId → ¬ (p.type.isPeerToPeer = true ∧ p.hash = hash)
  have hm : Listed Q m := fun id t ht hid hon => hold ⟨t, hid ▸ ht, hon⟩
  rcases List.mem_append.mp ho with ho | ho
  · obtain ⟨_, _, _, ho⟩ := Lib.mem_forEachLog ho
    exact not_stops_execCreateOrders ho hs
  · let I (m' : UserSelfMgr) : Prop := Listed Q m' ∧ m'.userId = m.userId
    have hcreate : I (Lib.forEach execCreate { mgr := m } params host).mgr := by
      refine Lib.forEach_keep (I := fun c : Creation => I c.mgr) (fun c p h hp hc => ⟨?_, ?_⟩) ⟨hm, rfl⟩ host
      · exact hc.1.execCreate (fun _ hid => absurd ⟨p, hp, hid⟩ hnew) h
      · rw [execCreate_userId, hc.2]
    obtain ⟨k, id, -, ho⟩ := Lib.mem_forEachLog_get ho
    obtain ⟨t, ht, hon⟩ := of_mem_parseTaskOrders ho hs
    have hparse : ∀ ids ω, I (Lib.forEach parseTask (Lib.forEach execCreate { mgr := m } params host).mgr ids ω) :=
      fun ids ω => Lib.forEach_keep (fun m' id a _ hm' =>
        ⟨hm'.1.pieces (parseTask_pieces m' id a), by rw [parseTask_userId, hm'.2]⟩) hcreate ω
    exact (hparse _ ω).1 _ t ht (hparse _ ω).2 hon

/-! ### The timer -/

/-- The loop of `CheckTaskCountLimit` over a queue without repetitions: a task that is still to
come is as it was, and the running count is that of the downloading tasks before. -/
structure Counted (m : UserSelfMgr) (queue : List String) (c : LimitCheck) (rest : List String) : Prop where
  nodup : rest.Nodup
  limit : c.mgr.taskLimitCount = m.taskLimitCount
  same : ∀ id ∈ rest, c.mgr.findTask id = m.findTask id
  count : c.downloadingCount + rest.countP m.downloading = queue.countP m.downloading

theorem Counted.round {queue rest : List String} {c c' : LimitCheck} (h : Counted m queue c (id :: rest))
    (hr : Round c id a c') : Counted m queue c' rest := by
  obtain ⟨hid, hnd⟩ := List.nodup_cons.mp h.nodup
  refine ⟨hnd, hr.taskLimitCount.trans h.limit, fun j hj => ?_, ?_⟩
  · rw [hr.findTask_ne (fun heq => hid (heq ▸ hj)), h.same j (List.mem_cons_of_mem _ hj)]
  · have hdown : c.mgr.downloading id = m.downloading id := hasStatus_congr (h.same id List.mem_cons_self) _
    have hcount := h.count
    rw [List.countP_cons] at hcount
    rw [hr.downloadingCount, hdown]
    cases hd : m.downloading id <;> simp only [hd] at hcount ⊢ <;> simp at hcount ⊢ <;> omega

def Demoted (m : UserSelfMgr) (queue : List String) (k : Nat) (t : TaskBase) : Prop :=
  t.taskStatus = .kDownloading ∧ m.taskLimitCount < (queue.take (k + 1)).countP m.downloading

instance (m : UserSelfMgr) (queue : List String) (k : Nat) : DecidablePred (m.Demoted queue k) :=
  fun _ => inferInstanceAs (Decidable (_ ∧ _))

theorem has_of_mem_checkLimitOrders {queue : List String} (hq : queue.Nodup) {ω : Nat → Answer}
    (ho : o ∈ Lib.forEachLog checkLimit checkLimitOrders { mgr := m } queue ω) (hs : o.Stops hash) :
    m.Has queue fun k t => t.On hash ∧ m.Demoted queue k t ∨ t.Renews hash := by
  obtain ⟨k, id, hk, ho⟩ := Lib.mem_forEachLog_get ho
  have hcounted : Counted m queue (Lib.forEach checkLimit { mgr := m } (queue.take k) ω) (queue.drop k) :=
    Lib.forEach_scan (fun _ _ _ _ h => h.round (checkLimit_round ..))
      (by rw [List.take_append_drop]; exact ⟨hq, rfl, fun _ _ => rfl, Nat.zero_add _⟩)
  generalize Lib.forEach checkLimit { mgr := m } (queue.take k) ω = c at hcounted ho
  have hdrop : queue.drop k = id :: queue.drop (k + 1) := by
    obtain ⟨hlt, rfl⟩ := List.getElem?_eq_some_iff.mp hk
    exact List.drop_eq_getElem_cons hlt
  have hsame := hcounted.same id (by rw [hdrop]; exact List.mem_cons_self)
  unfold checkLimitOrders at ho
  split at ho
  · cases ho
  · rename_i t ht
    rw [hsame] at ht
    refine has_of_getElem? hk ht ?_
    split at ho
    · rename_i hst
      split at ho
      · rename_i hover
        refine .inl ⟨TaskBase.on_of_mem_pauseOrders ho hs, hst, ?_⟩
        have hd : m.downloading id = true := by rw [downloading, hasStatus_of_findTask ht, hst]; rfl
        have hcount := hcounted.count
        have hsplit : (queue.take (k + 1)).countP m.downloading + (queue.drop (k + 1)).countP m.downloading =
            queue.countP m.downloading := by rw [← List.countP_append, List.take_append_drop]
        rw [hdrop, List.countP_cons, if_pos hd] at hcount
        rw [hcounted.limit] at hover
        omega
      · cases ho
    · split at ho
      · exact .inr (of_mem_tryResumeOrders ho hs)
      · cases ho

theorem has_of_mem_checkTaskOrders {queue : List String} {ω ω' : Nat → Answer}
    (ho : o ∈ Lib.forEachLog checkTask checkTaskOrders (m.checkTaskCountLimit queue ω).1 queue ω')
    (hs : o.Stops hash) : m.Has queue fun k t => t.On hash ∧ t.HasEnough (ω' k) := by
  obtain ⟨k, id, hk, ho⟩ := Lib.mem_forEachLog_get ho
  have hloop := (checkTaskCountLimit_pieces m queue ω).trans (forEach_checkTask_pieces _ (queue.take k) ω')
  have hlisted : Listed (fun id p => ∃ t ∈ m.findTask id, t.param = p) m := fun _ t ht => ⟨t, ht, rfl⟩
  unfold checkTaskOrders at ho
  split at ho
  · cases ho
  · rename_i t' ht'
    obtain ⟨hon, henough⟩ := TaskBase.of_mem_checkTaskOrders ho hs
    obtain ⟨t, ht, hparam⟩ := hlisted.pieces hloop id t' ht'
    refine has_of_getElem? hk ht ⟨hon.of_param hparam.symm, ?_⟩
    unfold TaskBase.HasEnough at henough ⊢
    rwa [hparam]

theorem has_of_mem_timerChcekOrders {queue : List String} (hq : queue.Nodup) {ω ω' : Nat → Answer}
    (ho : o ∈ m.timerChcekOrders queue ω ω') (hs : o.Stops hash) :
    m.Has queue fun k t => t.On hash ∧ (m.Demoted queue k t ∨ t.HasEnough (ω' k)) ∨ t.Renews hash := by
  unfold timerChcekOrders at ho
  split at ho
  · rcases List.mem_append.mp ho with ho | ho
    · refine (has_of_mem_checkLimitOrders hq ho hs).imp fun k t hb => ?_
      exact hb.imp_left fun hb => ⟨hb.1, .inl hb.2⟩
    · refine (has_of_mem_checkTaskOrders ho hs).imp fun k t hb => ?_
      exact .inl ⟨hb.1, .inr hb.2⟩
  · cases ho

/-! ## Events -/

/-- The event stops the object of this hash, unless the reference counts spare it. The queue of a
tick is `SortTask`'s, in which no task stands twice. -/
def Event.Stops (m : UserSelfMgr) (hash : String) : Event → Prop
  | .createLink sourceList _ _ =>
    (∃ p ∈ sourceList.map (·.param), p.id = m.userId) ∨ ∃ t ∈ m.findTask m.userId, t.On hash
  | .createTorrent request _ _ =>
    (∃ p ∈ [request.param], p.id = m.userId) ∨ ∃ t ∈ m.findTask m.userId, t.On hash
  | .pause ids _ =>
    m.Has ids fun _ t => t.On hash ∧ t.taskStatus ∈ [TaskStatus.kDownloading, .kSeeding]
  | .pauseAll _ => m.Has m.taskIds fun _ t => t.On hash ∧ t.taskStatus ∈ [TaskStatus.kDownloading]
  | .resume queue ids _ | .retry queue ids _ | .restore queue ids _ =>
    m.Has (matching queue ids) fun _ => Renews hash
  | .resumeAll queue _ | .retryAll queue _ | .restoreAll queue _ => m.Has queue fun _ => Renews hash
  | .delete ids _ _ => m.Has ids fun _ => Bins hash fun _ => True
  | .clean ids _ => m.Has ids fun _ => Bins hash fun t => t.isValid = false
  | .deleteCategory c _ _ => m.Has m.taskIds fun _ => Bins hash fun t => c ≠ .kAll ∧ t.taskCategory = c
  | .cleanCategory c _ => m.Has m.taskIds fun _ => Bins hash fun t => t.taskCategory = c ∧ t.isValid = false
  | .timer queue _ ω' => ¬ queue.Nodup ∨ m.Has queue fun k t =>
      t.On hash ∧ (m.Demoted queue k t ∨ t.HasEnough (ω' k)) ∨ t.Renews hash
  | .runParse _ => (m.isCanStart && m.isBtAutoDownload) = false ∧
      ∃ msg ∈ m.parseQueue.head?, ∃ t ∈ m.findTask msg.1, t.On hash
  | .reset _ => m.Has m.taskIds fun _ => On hash
  | .metadataDownloaded .. | .setFileList .. | .restart .. | .settings .. => False

instance (m : UserSelfMgr) (hash : String) : (e : Event) → Decidable (e.Stops m hash)
  | .createLink .. | .createTorrent .. | .timer .. => inferInstanceAs (Decidable (_ ∨ _))
  | .pause .. | .pauseAll .. | .resume .. | .resumeAll .. | .retry .. | .retryAll .. | .restore ..
  | .restoreAll .. | .delete .. | .deleteCategory .. | .clean .. | .cleanCategory .. | .reset .. =>
    inferInstanceAs (Decidable (m.Has _ _))
  | .runParse .. => inferInstanceAs (Decidable (_ ∧ _))
  | .metadataDownloaded .. | .setFileList .. | .restart .. | .settings .. => inferInstanceAs (Decidable False)

/-- Under exact counts, an event that stops the object of a hash which another user shares is one
of those that `Event.Stops` lists. -/
theorem Shared.stops_of_mem_orders {others : String → Nat} (h : Shared others m) {e : Event}
    (hc : ∀ k, (e.removeAnswers k).cancel = true)
    (hg : ∀ id, e.mayRemove id → ∀ t, m.findTask id = some t → Skips t →
      DownloadManager.live t.param.hash m.engine = true → 0 < others t.param.hash)
    (hpos : 0 < others hash) (ho : o ∈ m.orders e) (hs : o.Stops hash) : e.Stops m hash := by
  have hrenew : ∀ {cond exec orders rounds ω}, (∀ m j a, cond m j → NoNew (Renews hash) m (exec m j a).1) →
      (∀ m j a, o ∈ orders m j a → ∃ t ∈ m.findTask j, t.Renews hash) →
      o ∈ m.requestOrders cond exec orders rounds ω → m.Has rounds fun _ => Renews hash :=
    fun hexec horders ho => has_of_mem_requestOrders hexec (fun m j a _ => horders m j a) ho
  cases e with
  | createLink sourceList host ω => exact has_of_mem_createAllOrders ho hs
  | createTorrent request host ω => exact has_of_mem_createAllOrders ho hs
  | pause ids ω =>
    exact has_of_mem_requestOrders (fun m j a _ => execPauseOperate_noNew (by decide) (by decide) m j a)
      (fun m j a _ ho => of_mem_execPauseOrders ho hs) ho
  | pauseAll ω =>
    refine has_of_mem_requestOrders (fun m j a _ => execPauseOperate_noNew (by decide) (by decide) m j a)
      (fun m j a hcond ho => ?_) ho
    obtain ⟨t, ht, hon, hst⟩ := of_mem_execPauseOrders ho hs
    rw [hasStatus_of_findTask ht] at hcond
    refine ⟨t, ht, hon, ?_⟩
    cases hstatus : t.taskStatus <;> simp [hstatus] at hcond hst ⊢
  | resume queue ids ω | resumeAll queue ω =>
    exact hrenew (fun m j a _ => execResumeOperate_noNew m j a) (fun m j a ho => of_mem_execResumeOrders ho hs) ho
  | retry queue ids ω | retryAll queue ω =>
    exact hrenew (fun m j a _ => execRetryOperate_noNew m j a) (fun m j a ho => of_mem_execRetryOrders ho hs) ho
  | restore queue ids ω | restoreAll queue ω =>
    exact hrenew (fun m j a _ => execRestoreOperate_noNew m j a) (fun m j a ho => of_mem_execRestoreOrders ho hs) ho
  | delete ids b ω =>
    have hbins := h.has_of_deletes (execDeleteOperate_deleted b false)
      (fun ho => disposes_of_mem_execDeleteOrders ho hs) hg hc hpos ho hs
    exact hbins.imp fun _ t hb => ⟨hb.1, hb.2.1, hb.2.2.1, trivial⟩
  | clean ids ω =>
    have hbins := h.has_of_deletes (execDeleteOperate_deleted false true)
      (fun ho => disposes_of_mem_execDeleteOrders ho hs) hg hc hpos ho hs
    exact hbins.imp fun _ t hb => ⟨hb.1, hb.2.1, hb.2.2.1, hb.2.2.2 rfl⟩
  | deleteCategory c b ω =>
    exact h.has_of_deletes (execDeleteCategoryOperate_deleted c b)
      (fun ho => disposes_of_mem_execDeleteCategoryOrders ho hs) (fun id _ => hg id trivial) hc hpos ho hs
  | cleanCategory c ω =>
    exact h.has_of_deletes (execCleanCategoryOperate_deleted c)
      (fun ho => disposes_of_mem_execCleanCategoryOrders ho hs) (fun id _ => hg id trivial) hc hpos ho hs
  | timer queue ω ω' =>
    by_cases hq : queue.Nodup
    · exact .inr (has_of_mem_timerChcekOrders hq ho hs)
    · exact .inl hq
  | runParse a => exact of_mem_runParseOrders ho hs
  | reset ω => exact has_of_mem_resetOrders ho hs
  | metadataDownloaded | setFileList | restart | settings => cases ho

end UserSelfMgr

end Nas.Download
