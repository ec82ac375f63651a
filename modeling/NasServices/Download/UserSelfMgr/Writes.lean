import NasServices.Download.UserSelfMgr.Listing
import NasServices.Download.UserSelfMgr.Logged

/-!
# Events as chains of pieces that post

`Wrote` is a piece of the manager's work that changes what is listed under one
id, with what it posts about it. Every event but a reset or a restart is a
chain of such pieces (`step_writes`), so what the posts do to the database has
to be looked at for a `Change` only. An event that does not remove tasks keeps
what is listed, and restarts only what is listed (`step_tracks`).
-/

namespace Nas.Download.UserSelfMgr

/-- What happens to the entry of one id, and what is posted about it. A new task is posted
if the user is `known`; only an event that `removes` tasks takes one off the list. -/
inductive Change (known removes : Bool) (id : String) : Option TaskBase → List Post → Option TaskBase → Prop
  | kept {t t' : TaskBase} {ps : List Post} (h : Logged t ps t') : Change known removes id (some t) ps (some t')
  | removed {t : TaskBase} {ps : List Post} (hr : removes = true) (h : ∀ p ∈ ps, p.isOf t.param.id) :
    Change known removes id (some t) (ps ++ [.deleteTaskInfo id]) none
  | absent : Change known removes id none [] none
  /-- A task that was made for a request, but not listed. -/
  | refused {t t' : TaskBase} {ps : List Post} (hid : t.param.id = id) (h : Logged t ps t')
    (hstart : ∀ j, .reStart j ∉ ps) (hnew : t'.New) : Change known removes id none ps none
  | listed {t t' : TaskBase} {ps : List Post} (hid : t.param.id = id) (h : Logged t ps t')
    (hstart : ∀ j, .reStart j ∉ ps) (hnew : t'.New) :
    Change known removes id none (ps ++ if known then [.addTaskInfo t'] else []) (some t')

structure Wrote (removes : Bool) (id : String) (m : UserSelfMgr) (ps : List Post) (m' : UserSelfMgr) : Prop where
  other : ∀ j, j ≠ id → m'.findTask j = m.findTask j
  change : Change m.userInfo.isSome removes id (m.findTask id) ps (m'.findTask id)
  userInfo : m.userInfo.isSome → m'.userInfo.isSome

inductive Writes (removes : Bool) : UserSelfMgr → List Post → UserSelfMgr → Prop
  | refl (m : UserSelfMgr) : Writes removes m [] m
  | snoc {m m' m'' : UserSelfMgr} {ps qs : List Post} {id : String} (h : Writes removes m ps m')
    (hw : Wrote removes id m' qs m'') : Writes removes m (ps ++ qs) m''

variable {m m' m'' : UserSelfMgr} {id : String} {t t' : TaskBase} {ps qs : List Post} {a : Answer}
  {h : Host} {removes : Bool}

theorem Wrote.writes (hw : Wrote removes id m ps m') : Writes removes m ps m' := .snoc (.refl m) hw

theorem Writes.trans (hw : Writes removes m ps m') (hw' : Writes removes m' qs m'') :
    Writes removes m (ps ++ qs) m'' := by
  induction hw' with
  | refl => simpa using hw
  | snoc _ hlast ih => rw [← List.append_assoc]; exact .snoc ih hlast

/-- A loop whose rounds are chains of pieces while they keep an invariant is one. -/
theorem writes_forEach_keep {S A R : Type*} (mgr : S → UserSelfMgr) {I : S → Prop} {body : S → A → R → S}
    {log : S → A → R → List Post} {xs : List A}
    (hbody : ∀ s x a, x ∈ xs → I s → Writes removes (mgr s) (log s x a) (mgr (body s x a)) ∧ I (body s x a))
    {s : S} (hs : I s) (ω : Nat → R) :
    Writes removes (mgr s) (Lib.forEachLog body log s xs ω) (mgr (Lib.forEach body s xs ω)) ∧
      I (Lib.forEach body s xs ω) := by
  induction xs generalizing s ω with
  | nil => exact ⟨.refl _, hs⟩
  | cons x xs ih =>
    obtain ⟨hw, hs'⟩ := hbody s x (ω 0) List.mem_cons_self hs
    obtain ⟨hw', hlast⟩ := ih (fun s y a hy => hbody s y a (List.mem_cons_of_mem _ hy)) hs' _
    exact ⟨hw.trans hw', hlast⟩

theorem writes_forEach {S A R : Type*} (mgr : S → UserSelfMgr) {body : S → A → R → S}
    {log : S → A → R → List Post} {xs : List A}
    (hbody : ∀ s x a, x ∈ xs → Writes removes (mgr s) (log s x a) (mgr (body s x a))) (s : S) (ω : Nat → R) :
    Writes removes (mgr s) (Lib.forEachLog body log s xs ω) (mgr (Lib.forEach body s xs ω)) :=
  (writes_forEach_keep (I := fun _ => True) mgr (fun s x a hx _ => ⟨hbody s x a hx, trivial⟩) trivial ω).1

theorem Change.refl (known : Bool) (o : Option TaskBase) : Change known removes id o [] o := by
  cases o with
  | none => exact .absent
  | some t => exact .kept (.refl t)

theorem wrote_same (hl : m'.taskList = m.taskList) (hu : m.userInfo.isSome → m'.userInfo.isSome)
    (id : String) : Wrote removes id m [] m' := by
  have hfind (j : String) : m'.findTask j = m.findTask j := by rw [findTask, findTask, hl]
  exact ⟨fun j _ => hfind j, by rw [hfind id]; exact .refl _ _, hu⟩

theorem wrote_refl (id : String) (m : UserSelfMgr) : Wrote removes id m [] m := wrote_same rfl (fun hu => hu) id

theorem wrote_setTask (ht : m.findTask id = some t) (hl : Logged t ps t')
    (hlist : m'.taskList = (m.setTask id t').taskList) (hu : m'.userInfo = m.userInfo) :
    Wrote removes id m ps m' where
  other j hj := by
    have := findTask_setTask_ne m t' hj
    rw [findTask, ← hlist] at this
    exact this
  change := by
    have hset := findTask_setTask m id t'
    rw [findTask, ← hlist] at hset
    rw [ht, findTask, hset]
    exact .kept hl
  userInfo := by rw [hu]; exact fun hu => hu

/-! ## User operations -/

theorem pauseTask_wrote (ht : m.findTask id = some t) (a : Answer) :
    Wrote removes id m (pauseTaskPosts t a) (m.pauseTask id t a).1 := by
  unfold pauseTaskPosts pauseTask
  cases t.taskStatus with
  | kDownloading =>
    cases hok : a.pause <;>
      simp only [TaskBase.pause, TaskBase.pausePosts, hok, if_true, Bool.false_eq_true, if_false]
    · exact wrote_refl id m
    · exact wrote_setTask ht (t.setTaskStatus_logged _ (by decide)) rfl rfl
  | kWaitting | kParsing => exact wrote_setTask ht (t.setTaskStatus_logged _ (by decide)) rfl rfl
  | kSeeding =>
    cases hok : a.pause <;>
      simp only [TaskBase.pause, TaskBase.pausePosts, hok, if_true, Bool.false_eq_true, if_false]
    · exact wrote_refl id m
    · -- paused by `Pause`, and then by the manager
      have hpaused := t.setTaskStatus_logged .kPaused (by decide)
      exact wrote_setTask ht (hpaused.trans (TaskBase.setTaskStatus_logged _ _ (by decide))) rfl rfl
  | _ => exact wrote_refl id m

theorem execPauseOperate_wrote (m : UserSelfMgr) (id : String) (a : Answer) :
    Wrote removes id m (m.execPausePosts id a) (m.execPauseOperate id a).1 := by
  unfold execPausePosts execPauseOperate
  rcases ht : m.findTask id with _ | t
  · exact wrote_refl id m
  · exact pauseTask_wrote ht a

theorem setTask_setTask (m : UserSelfMgr) (id : String) (t t' : TaskBase) :
    (m.setTask id t).setTask id t' = m.setTask id t' := by
  simp only [setTask, AList.insert_insert]

theorem tryResume_wrote (ht : m.findTask id = some t) (hl : Logged t [] t')
    (hset : ∀ t'', m'.setTask id t'' = m.setTask id t'') :
    Wrote removes id m (m'.tryResumePosts t' a) (m'.tryResume id t' a).1 := by
  have hlist (t'' : TaskBase) : (m'.setTask id t'').taskList = (m.setTask id t'').taskList := by rw [hset]
  have huser : m'.userInfo = m.userInfo := by
    have := congrArg UserSelfMgr.userInfo (hset t)
    exact this
  unfold tryResumePosts tryResume
  split
  · split
    · exact wrote_setTask ht (hl.trans (t'.resume_logged m'.isBtAutoDownload a)) (hlist _) huser
    · exact wrote_setTask ht (hl.trans (t'.start_logged a.start)) (hlist _) huser
  · exact wrote_setTask ht (hl.trans (t'.setTaskStatus_logged .kWaitting (by decide))) (hlist _) huser

theorem retry_tryResume_wrote (ht : m.findTask id = some t) (hr : t.retry a = (t', true)) :
    Wrote removes id m ((m.setTask id t').tryResumePosts t' a) ((m.setTask id t').tryResume id t' a).1 := by
  have hl := t.retry_logged a
  rw [hr] at hl
  exact tryResume_wrote ht hl fun t'' => setTask_setTask ..

theorem execResumeOperate_wrote (m : UserSelfMgr) (id : String) (a : Answer) :
    Wrote removes id m (m.execResumePosts id a) (m.execResumeOperate id a).1 := by
  unfold execResumePosts execResumeOperate
  rcases ht : m.findTask id with _ | t
  · exact wrote_refl id m
  · cases hst : t.taskStatus with
    | kPaused =>
      simp only [hst]
      split
      · exact wrote_setTask ht (t.setTaskStatus_logged _ (by decide)) rfl rfl
      · exact tryResume_wrote ht (.refl t) fun _ => rfl
    | kFailed =>
      simp only [hst]
      rcases hr : t.retry a with ⟨t', _ | _⟩
      · exact wrote_refl id m
      · exact retry_tryResume_wrote ht hr
    | kFinished =>
      simp only [hst]
      split
      · have hl := t.resume_logged m.isBtAutoDownload a
        rcases hr : t.resume m.isBtAutoDownload a with ⟨t', _ | _⟩ <;> rw [hr] at hl
        · exact wrote_setTask ht (by simpa using hl) rfl rfl
        · exact wrote_setTask ht (hl.trans (t'.setTaskStatus_logged .kSeeding (by decide))) rfl rfl
      · exact wrote_refl id m
    | _ =>
      simp only [hst]
      exact wrote_refl id m

/-- `SetIsValid(true)` after a piece of work on a listed task shows in no post. -/
theorem Wrote.setIsValid (ht : m.findTask id = some t) (hw : Wrote removes id m ps m') :
    Wrote removes id m ps (m'.setIsValid id) := by
  unfold UserSelfMgr.setIsValid
  rcases ht' : m'.findTask id with _ | t'
  · exact hw
  · obtain ⟨hother, hchange, huser⟩ := hw
    rw [ht, ht'] at hchange
    refine ⟨fun j hj => (findTask_setTask_ne m' _ hj).trans (hother j hj), ?_, huser⟩
    rw [ht, findTask_setTask]
    cases hchange with
    | kept hl => exact .kept (hl.silent_right rfl rfl rfl)

theorem execRetryOperate_wrote (m : UserSelfMgr) (id : String) (a : Answer) :
    Wrote removes id m (m.execRetryPosts id a) (m.execRetryOperate id a).1 := by
  unfold execRetryPosts execRetryOperate
  rcases ht : m.findTask id with _ | t
  · exact wrote_refl id m
  · dsimp only
    split
    · rcases hr : t.retry a with ⟨t', _ | _⟩
      · exact (wrote_refl id m).setIsValid ht
      · exact (retry_tryResume_wrote ht hr).setIsValid ht
    · exact wrote_refl id m

theorem execRestoreOperate_wrote (m : UserSelfMgr) (id : String) (a : Answer) :
    Wrote removes id m (m.execRestorePosts id a) (m.execRestoreOperate id a).1 := by
  unfold execRestorePosts execRestoreOperate
  rcases ht : m.findTask id with _ | t
  · exact wrote_refl id m
  · dsimp only
    split
    · have hl := t.restore_logged m.isBtAutoDownload a
      generalize t.restorePosts m.isBtAutoDownload a = ps at hl ⊢
      generalize t.restore m.isBtAutoDownload a = r at hl ⊢
      have hlist (t'' : TaskBase) : ((m.setTask id r.1).setTask id t'').taskList = (m.setTask id t'').taskList := by
        rw [setTask_setTask]
      split
      · split
        · exact wrote_setTask ht (hl.trans (r.1.resume_logged m.isBtAutoDownload a)) (hlist _) rfl
        · exact wrote_setTask ht (hl.trans (r.1.start_logged a.start)) (hlist _) rfl
      · exact wrote_setTask ht (by simpa using hl) rfl rfl
    · exact execRetryOperate_wrote m id a

/-! ## Deletion -/

theorem cancelPosts_eq (m : UserSelfMgr) (t : TaskBase) (a : Answer) :
    ∃ realDelete, m.cancelPosts t a = t.exceCancelPosts a realDelete ∧
      (m.releaseTask t a).2.2 = (t.exceCancel a realDelete).2 := by
  unfold cancelPosts releaseTask TaskRefCount.release
  rcases m.refs.lookup t.param.hash with _ | n
  · exact ⟨false, rfl, rfl⟩
  · dsimp only
    split
    · exact ⟨true, rfl, rfl⟩
    · exact ⟨false, rfl, rfl⟩

theorem releaseTask_posts (m : UserSelfMgr) (t : TaskBase) (a : Answer) :
    (∀ p ∈ m.cancelPosts t a, p.isOf t.param.id) ∧
      ((m.releaseTask t a).2.2 = false → m.cancelPosts t a = []) := by
  obtain ⟨realDelete, hposts, hret⟩ := m.cancelPosts_eq t a
  rw [hposts, hret]
  exact ⟨t.exceCancelPosts_isOf a realDelete, TaskBase.exceCancelPosts_of_false⟩

theorem removeTask_wrote (ht : m.findTask id = some t) (report : UserSelfMgr → Bool → Reply) :
    Wrote true id m (m.removeTaskPosts id t a) (m.removeTask id t a report).1 := by
  obtain ⟨hposts, hnone⟩ := m.releaseTask_posts t a
  unfold removeTaskPosts removeTask cancel
  rcases hr : m.releaseTask t a with ⟨m', t', _ | _⟩ <;> rw [hr] at hnone
  · have heq := releaseTask_eq hr
    have hlist : (m'.setTask id t').taskList = (m.setTask id t').taskList := by rw [heq]; rfl
    rw [hnone rfl, releaseTask_of_false hr] at *
    exact wrote_setTask ht (.refl t) hlist (by rw [heq]; rfl)
  · have heq := releaseTask_eq hr
    refine ⟨fun j hj => (Deleted.removed ht hr).findTask_ne hj, ?_, by rw [heq]; exact fun hu => hu⟩
    rw [ht, findTask_erase]
    exact .removed rfl hposts

theorem deleteToRecycleBin_wrote (ht : m.findTask id = some t) (a : Answer) :
    Wrote removes id m (t.deleteToRecycleBinPosts a) (m.setTask id (t.deleteToRecycleBin a).1) :=
  wrote_setTask ht (t.deleteToRecycleBin_logged a) rfl rfl

theorem deleteToRecycleBinPosts_of_false (hd : t.deleteToRecycleBin a = (t', false)) :
    t.deleteToRecycleBinPosts a = [] := by
  unfold TaskBase.deleteToRecycleBin at hd
  split at hd
  · rename_i himpl
    simp [TaskBase.deleteToRecycleBinPosts, show t.hasImpl = false by simpa using himpl]
  · split at hd <;> cases hd

theorem execDeleteOperate_wrote (isDeleteLocalFile isJudgeTaskValid : Bool) (s : UserSelfMgr × Reply)
    (id : String) (a : Answer) :
    Wrote true id s.1 (execDeletePosts isDeleteLocalFile isJudgeTaskValid s id a)
      (execDeleteOperate isDeleteLocalFile isJudgeTaskValid s id a).1 := by
  obtain ⟨m, r⟩ := s
  unfold execDeletePosts execDeleteOperate
  dsimp only
  rcases ht : m.findTask id with _ | t
  · exact wrote_refl id m
  · dsimp only
    split
    · exact wrote_refl id m
    · split
      · split
        · exact wrote_refl id m
        · exact removeTask_wrote ht _
      · have hbin : Wrote true id m _ _ := deleteToRecycleBin_wrote ht a
        rcases hd : t.deleteToRecycleBin a with ⟨t', _ | _⟩
        · rw [deleteToRecycleBinPosts_of_false hd]
          exact wrote_refl id m
        · rwa [hd] at hbin

theorem execDeleteCategoryOperate_wrote (taskCategory : TaskCategory) (isDeleteLocalFile : Bool)
    (s : UserSelfMgr × Reply) (id : String) (a : Answer) :
    Wrote true id s.1 (execDeleteCategoryPosts taskCategory isDeleteLocalFile s id a)
      (execDeleteCategoryOperate taskCategory isDeleteLocalFile s id a).1 := by
  obtain ⟨m, r⟩ := s
  unfold execDeleteCategoryPosts execDeleteCategoryOperate
  dsimp only
  rcases ht : m.findTask id with _ | t
  · exact wrote_refl id m
  · dsimp only
    split
    · exact removeTask_wrote ht _
    · split
      · exact wrote_refl id m
      · split
        · split
          · exact wrote_refl id m
          · exact removeTask_wrote ht _
        · exact deleteToRecycleBin_wrote ht a

theorem execCleanCategoryOperate_wrote (taskCategory : TaskCategory) (s : UserSelfMgr × Reply)
    (id : String) (a : Answer) :
    Wrote true id s.1 (execCleanCategoryPosts taskCategory s id a)
      (execCleanCategoryOperate taskCategory s id a).1 := by
  obtain ⟨m, r⟩ := s
  unfold execCleanCategoryPosts execCleanCategoryOperate
  dsimp only
  rcases ht : m.findTask id with _ | t
  · exact wrote_refl id m
  · dsimp only
    split
    · exact wrote_refl id m
    · split
      · exact removeTask_wrote ht _
      · exact deleteToRecycleBin_wrote ht a

/-! ## Creation -/

theorem execNoneBt_logged (m : UserSelfMgr) (t : TaskBase) (ret : DownloadErrorCode) :
    Logged t (m.execNoneBtPosts t) (m.execNoneBt t ret).task := by
  unfold execNoneBtPosts execNoneBt
  split
  · exact t.start_logged ret
  · exact .refl t

/-- How a new task is started, with what is posted. A torrent task is given its status and its
`is_download_now` before the first post. -/
theorem execStart_logged (m : UserSelfMgr) (t : TaskBase) (h : Host) :
    ∃ t₀, t₀.param.id = t.param.id ∧ Logged t₀ (m.execStartPosts t h) (m.execStart t h).task := by
  unfold execStartPosts execStart
  cases t.param.type with
  | kMagnet => exact ⟨{ t with parseCallback := true }, rfl, TaskBase.start_logged _ h.start⟩
  | kTorrent =>
    obtain ⟨torrent, hp, -⟩ := m.admitTorrent_param t
    have hfirst : Logged (m.admitTorrent t)
        (.updateTaskInfo (m.admitTorrent t) :: (m.admitTorrent t).startPosts)
        (startNew (m.admitTorrent t) h.start).task :=
      (Logged.refl _).again.trans (TaskBase.start_logged _ h.start)
    exact ⟨m.admitTorrent t, by rw [hp], hfirst.trans (m.execNoneBt_logged _ h.startAgain)⟩
  | _ => exact ⟨t, rfl, m.execNoneBt_logged t h.start⟩

theorem reStart_notMem_execStartPosts (m : UserSelfMgr) (t : TaskBase) (h : Host) (j : String) :
    .reStart j ∉ m.execStartPosts t h := by
  have hstart (t : TaskBase) : .reStart j ∉ t.startPosts := by
    unfold TaskBase.startPosts
    split <;> simp [TaskBase.setTaskStatusPosts]
  have hnone (t : TaskBase) : .reStart j ∉ m.execNoneBtPosts t := by
    unfold execNoneBtPosts
    split
    · exact hstart t
    · simp
  unfold execStartPosts
  split
  · exact hstart _
  · simp [hstart, hnone]
  · exact hnone t

theorem start_new (ht : t.New) (ret : DownloadErrorCode) : (t.start ret).1.New := by
  unfold TaskBase.start
  split
  · exact ht
  · split
    · split <;> exact ⟨ht.status, ht.category⟩
    · split <;> exact ⟨.inr (.inl rfl), rfl⟩

theorem execNoneBt_new (ht : t.New) (m : UserSelfMgr) (ret : DownloadErrorCode) :
    (m.execNoneBt t ret).task.New := by
  unfold execNoneBt
  split
  · exact start_new ht ret
  · exact ht

theorem admitTorrent_new (m : UserSelfMgr) (t : TaskBase) : (m.admitTorrent t).New := by
  unfold admitTorrent
  dsimp only
  split
  · split
    · exact ⟨.inr (.inr rfl), rfl⟩
    · exact ⟨.inr (.inl rfl), rfl⟩
  · exact ⟨.inl rfl, rfl⟩

theorem execStart_new (ht : t.New) (m : UserSelfMgr) (h : Host) : (m.execStart t h).task.New := by
  unfold execStart
  cases t.param.type with
  | kMagnet => exact start_new (t := { t with parseCallback := true }) ⟨ht.status, ht.category⟩ h.start
  | kTorrent => exact execNoneBt_new (start_new (m.admitTorrent_new t) h.start) m h.startAgain
  | _ => exact execNoneBt_new ht m h.start

/-- A task made for a request has the id of the request and does not come from the database. -/
theorem Fresh.new {param : TaskParam} (ht : Fresh param h t) :
    t.param.id = param.id ∧ t.param.isFromDbResume = param.isFromDbResume ∧ t.New := by
  obtain ⟨url, hasImpl, createTime, rfl⟩ := ht
  obtain ⟨url', hash, hcons⟩ := TaskFactory.construct_eq param h
  rw [hcons]
  exact ⟨rfl, rfl, .inl rfl, rfl⟩

theorem execCreate_wrote (c : Creation) {param : TaskParam} (hdb : param.isFromDbResume = false)
    (h : Host) : Wrote removes param.id c.mgr (execCreatePosts c param h) (execCreate c param h).mgr := by
  unfold execCreatePosts execCreate
  rcases hc : c.mgr.createTask param h with ⟨_ | t, err, same⟩
  · exact wrote_refl ..
  · obtain ⟨hid, hfresh, -⟩ := createTask_fresh hc
    obtain ⟨htid, htdb, htnew⟩ := hfresh.new
    dsimp only
    by_cases herr : err ≠ .kNormal
    · rw [if_pos herr, if_pos herr]
      refine ⟨fun j _ => rfl, ?_, fun hu => hu⟩
      show Change _ _ _ (c.mgr.findTask param.id) [] (c.mgr.findTask param.id)
      exact .refl _ _
    · rw [if_neg herr, if_neg herr]
      obtain ⟨t₀, hid₀, hl⟩ := execStart_logged { c.mgr with made := t.param :: c.mgr.made } t h
      have hnew := execStart_new htnew { c.mgr with made := t.param :: c.mgr.made } h
      obtain ⟨torrent, hparam, -⟩ :=
        (execStart_startedFrom { c.mgr with made := t.param :: c.mgr.made } t h).param
      have hstart := reStart_notMem_execStartPosts { c.mgr with made := t.param :: c.mgr.made } t h
      generalize execStartPosts { c.mgr with made := t.param :: c.mgr.made } t h = ps at hl hstart ⊢
      generalize execStart { c.mgr with made := t.param :: c.mgr.made } t h = s at hl hnew hparam ⊢
      by_cases hserr : s.err ≠ .kNormal
      · rw [if_pos hserr, if_pos hserr, List.append_nil]
        refine ⟨fun j _ => rfl, ?_, fun hu => hu⟩
        show Change _ _ _ (c.mgr.findTask param.id) ps (c.mgr.findTask param.id)
        rw [hid]
        exact .refused (hid₀.trans htid) hl hstart hnew
      · rw [if_neg hserr, if_neg hserr]
        have hfrom : s.task.param.isFromDbResume = false := by rw [hparam]; exact htdb.trans hdb
        rw [addTask_of_none hid]
        refine ⟨fun j hj => findTask_list_ne hj _ _, ?_, fun hu => hu⟩
        rw [hid, findTask_list, addTaskPosts, hfrom, Bool.not_false, Bool.and_true]
        exact .listed (hid₀.trans htid) hl hstart hnew

theorem onParseComplete_wrote (m : UserSelfMgr) (msg : TaskBase.ParseMessage) (a : Answer) :
    Wrote removes msg.1 m (m.onParseCompletePosts msg a) (m.onParseComplete msg a) := by
  unfold onParseCompletePosts onParseComplete
  rcases ht : m.findTask msg.1 with _ | t
  · exact wrote_refl ..
  · let t₁ := { t with parseFinished := true, fileList := msg.2 }
    have h₁ : Logged t [] t₁ := .silent rfl rfl rfl
    have hpause := h₁.trans (t₁.pause_logged a)
    dsimp only
    split
    · split
      · exact wrote_setTask ht (hpause.trans (TaskBase.setTaskStatus_logged _ .kPaused (by decide))) rfl rfl
      · exact wrote_setTask ht (h₁.trans (t₁.setTaskStatus_logged .kDownloading (by decide))) rfl rfl
    · exact wrote_setTask ht (hpause.trans (TaskBase.setTaskStatus_logged _ .kWaitting (by decide))) rfl rfl

def Parsable (m : UserSelfMgr) (id : String) : Prop :=
  ∀ t, m.findTask id = some t → t.taskStatus ≠ .kFinished ∧ t.taskStatus ≠ .kDeleted

theorem Parsable.of_eq {j : String} (hp : m.Parsable j) (heq : m'.findTask j = m.findTask j) :
    m'.Parsable j := fun t ht => hp t (heq ▸ ht)

theorem Parsable.setTask {j : String} (hp : m.Parsable j) (ht : t'.taskStatus ≠ .kFinished)
    (ht' : t'.taskStatus ≠ .kDeleted) (id : String) : (m.setTask id t').Parsable j := by
  by_cases hj : j = id
  · intro t₁ ht₁
    rw [hj, findTask_setTask] at ht₁
    obtain rfl := Option.some.inj ht₁
    exact ⟨ht, ht'⟩
  · exact hp.of_eq (findTask_setTask_ne m t' hj)

theorem Parsable.onParseComplete {j : String} (hp : m.Parsable j) (msg : TaskBase.ParseMessage)
    (a : Answer) : (m.onParseComplete msg a).Parsable j := by
  rcases ht : m.findTask msg.1 with _ | t
  · rw [onParseComplete_of_none ht]
    exact hp
  · obtain ⟨t', hc, heq⟩ := onParseComplete_eq ht a
    have hst := hc.taskStatus
    rw [heq]
    refine hp.setTask ?_ ?_ msg.1 <;> rw [hst] <;> split <;> try split
    all_goals decide

/-- Parsing a task may complete the parse of the one, if any, that has the user's id. -/
theorem parseTask_writes (hp : m.Parsable id) (a : Answer) :
    Writes removes m (m.parseTaskPosts id a) (m.parseTask id a) := by
  unfold parseTaskPosts parseTask
  rcases ht : m.findTask id with _ | t
  · exact (wrote_refl id m).writes
  · have hl := TaskBase.parse_logged (hp t ht).1 (hp t ht).2 m.userId a
    dsimp only
    rcases hparse : t.parse m.userId a with ⟨t', _ | msg⟩ <;> rw [hparse] at hl
    · rw [List.append_nil]
      exact (wrote_setTask ht hl rfl rfl).writes
    · exact .snoc (wrote_setTask ht hl rfl rfl).writes (onParseComplete_wrote _ msg a)

theorem Parsable.parseTask {j : String} (hj : m.Parsable j) (hid : m.Parsable id) (a : Answer) :
    (m.parseTask id a).Parsable j := by
  unfold UserSelfMgr.parseTask
  rcases ht : m.findTask id with _ | t
  · exact hj
  · have hst : (t.parse m.userId a).1.taskStatus ≠ .kFinished ∧
        (t.parse m.userId a).1.taskStatus ≠ .kDeleted := by
      rcases t.parse_taskStatus m.userId a with h | h | h <;> rw [h]
      · exact hid t ht
      · decide
      · decide
    dsimp only
    rcases hparse : t.parse m.userId a with ⟨t', _ | msg⟩ <;> rw [hparse] at hst
    · exact hj.setTask hst.1 hst.2 id
    · exact (hj.setTask hst.1 hst.2 id).onParseComplete msg a

theorem execCreate_parsable {c : Creation} (hc : ∀ j ∈ c.needParse, c.mgr.Parsable j)
    {param : TaskParam} (hdb : param.isFromDbResume = false) (h : Host) :
    ∀ j ∈ (execCreate c param h).needParse, (execCreate c param h).mgr.Parsable j := by
  have hwrote : Wrote false param.id c.mgr _ _ := execCreate_wrote c hdb h
  have hcreated := execCreate_created c param h
  generalize execCreatePosts c param h = ps at hwrote
  generalize execCreate c param h = c' at hwrote hcreated
  cases hcreated with
  | refused => exact fun j hj => (hc j hj).of_eq rfl
  | dropped => exact fun j hj => (hc j hj).of_eq rfl
  | listed ht hid himpl hs reply =>
    rename_i s
    have hchange := hwrote.change
    rw [hid, findTask_list] at hchange
    have hnew : s.task.New := by
      cases hchange with
      | listed _ _ _ hnew => exact hnew
    intro j hj t' ht'
    by_cases hjid : j = param.id
    · rw [hjid, findTask_list] at ht'
      obtain rfl := Option.some.inj ht'
      rcases hnew.status with h | h | h <;> rw [h] <;> decide
    · refine hc j ?_ t' ((findTask_list_ne hjid _ _).symm.trans ht')
      simpa [hjid] using hj

theorem createAll_writes (m : UserSelfMgr) {params : List TaskParam}
    (hdb : ∀ p ∈ params, p.isFromDbResume = false) (host : Nat → Host) (ω : Nat → Answer) :
    Writes removes m (m.createAllPosts params host ω) (m.createAll params host ω).1 := by
  obtain ⟨hcreate, hparse⟩ := writes_forEach_keep Creation.mgr
    (I := fun c : Creation => ∀ j ∈ c.needParse, c.mgr.Parsable j)
    (fun c p h hp hc => ⟨(execCreate_wrote c (hdb p hp) h).writes, execCreate_parsable hc (hdb p hp) h⟩)
    (s := { mgr := m }) (by simp) host
  refine hcreate.trans (writes_forEach_keep (fun m' => m')
    (I := fun m' => ∀ j ∈ (Lib.forEach execCreate { mgr := m } params host).needParse, m'.Parsable j)
    (fun m' id a hid hm => ⟨parseTask_writes (hm id hid) a, fun j hj => (hm j hj).parseTask (hm id hid) a⟩)
    hparse ω).1

/-! ## The timer -/

theorem wake_wrote (ht : m.findTask id = some t) (a : Answer) :
    Wrote removes id m (m.wakePosts t a) (m.wake id t a) := by
  unfold wakePosts wake
  split
  · exact wrote_setTask ht (t.resume_logged m.isBtAutoDownload a) rfl rfl
  · have hl := t.start_logged a.start
    rcases hst : t.start a.start with ⟨t', err⟩
    rw [hst] at hl
    have herr : Logged t t.startPosts { t' with errCode := err } := hl.silent_right rfl rfl rfl
    dsimp only
    split
    · exact wrote_setTask ht herr rfl rfl
    · exact wrote_setTask ht hl rfl rfl

theorem checkLimit_wrote (c : LimitCheck) (id : String) (a : Answer) :
    Wrote removes id c.mgr (checkLimitPosts c id a) (checkLimit c id a).mgr := by
  unfold checkLimitPosts checkLimit
  rcases ht : c.mgr.findTask id with _ | t
  · exact wrote_refl ..
  · dsimp only
    split
    · split
      · have hwait := (t.pause_logged a).trans (TaskBase.setTaskStatus_logged _ .kWaitting (by decide))
        exact wrote_setTask ht hwait rfl rfl
      · exact wrote_refl ..
    · split
      · exact wake_wrote ht a
      · exact wrote_refl ..

theorem checkTask_wrote (m : UserSelfMgr) (id : String) (a : Answer) :
    Wrote removes id m (m.checkTaskPosts id a) (m.checkTask id a) := by
  unfold checkTaskPosts checkTask
  rcases ht : m.findTask id with _ | t
  · exact wrote_refl id m
  · exact wrote_setTask ht (t.checkTask_logged a) rfl rfl

theorem timerChcek_writes (m : UserSelfMgr) (queue : List String) (ω ω' : Nat → Answer) :
    Writes removes m (m.timerChcekPosts queue ω ω') (m.timerChcek queue ω ω') := by
  unfold timerChcekPosts timerChcek
  split
  · exact (writes_forEach LimitCheck.mgr (fun c id a _ => (checkLimit_wrote c id a).writes)
      { mgr := m } ω).trans
      (writes_forEach (fun m => m) (fun m id a _ => (checkTask_wrote m id a).writes) _ ω')
  · exact .refl m

/-! ## Events -/

theorem request_writes {cond : UserSelfMgr → String → Bool}
    {exec : UserSelfMgr → String → Answer → UserSelfMgr × DownloadErrorCode}
    {posts : UserSelfMgr → String → Answer → List Post}
    (hexec : ∀ m id a, Wrote removes id m (posts m id a) (exec m id a).1) (m : UserSelfMgr) (ids : List String)
    (ω : Nat → Answer) :
    Writes removes m (m.requestPosts cond exec posts ids ω) (Lib.forEach (operate cond exec) (m, {}) ids ω).1 := by
  refine writes_forEach (S := UserSelfMgr × Reply) Prod.fst (fun s id a _ => ?_) (m, {}) ω
  unfold operatePosts operate
  split
  · exact (hexec s.1 id a).writes
  · exact .refl s.1

theorem deletes_writes {body : UserSelfMgr × Reply → String → Answer → UserSelfMgr × Reply}
    {posts : UserSelfMgr × Reply → String → Answer → List Post}
    (hbody : ∀ s id a, Wrote removes id s.1 (posts s id a) (body s id a).1) (m : UserSelfMgr) (ids : List String)
    (ω : Nat → Answer) :
    Writes removes m (Lib.forEachLog body posts (m, {}) ids ω) (Lib.forEach body (m, {}) ids ω).1 :=
  writes_forEach (S := UserSelfMgr × Reply) Prod.fst (fun s id a _ => (hbody s id a).writes) (m, {}) ω

theorem runParse_writes (m : UserSelfMgr) (a : Answer) : Writes removes m (m.runParsePosts a) (m.runParse a) := by
  unfold runParsePosts runParse
  rcases m.parseQueue with _ | ⟨msg, rest⟩
  · exact .refl m
  · have hqueue : Wrote removes msg.1 m [] { m with parseQueue := rest } := by
      refine wrote_same ?_ ?_ msg.1
      · rfl
      · exact fun hu => hu
    exact hqueue.writes.trans (onParseComplete_wrote _ msg a).writes

theorem metadataDownloaded_writes (m : UserSelfMgr) (id : String) (l : TorrentList) :
    Writes removes m [] (m.metadataDownloaded id l) := by
  unfold metadataDownloaded
  rcases ht : m.findTask id with _ | t
  · exact .refl m
  · have hl : Logged t [] (t.parseMangetResult l).1 := by
      unfold TaskBase.parseMangetResult
      split
      · exact .silent rfl rfl rfl
      · exact .refl t
    refine Wrote.writes (?_ : Wrote removes id m [] _)
    exact wrote_setTask ht hl rfl rfl

theorem setFileList_writes (m : UserSelfMgr) (id : String) (l : TorrentList) :
    Writes removes m [] (m.setFileList id l) := by
  unfold setFileList
  rcases ht : m.findTask id with _ | t
  · exact .refl m
  · dsimp only
    split
    · have hl : Logged t [] (t.parseTorrent (some l)) := .silent rfl rfl rfl
      exact (wrote_setTask ht hl rfl rfl).writes
    · exact .refl m

def Event.ends : Event → Bool
  | .reset .. | .restart .. => true
  | _ => false

theorem step_writes {e : Event} (he : e.ends = false) : Writes e.removes m (m.posts e) (m.step e) := by
  cases e with
  | createLink sourceList host ω =>
    refine createAll_writes m (fun p hp => ?_) host ω
    obtain ⟨d, -, rfl⟩ := List.mem_map.mp hp
    rfl
  | createTorrent request host ω =>
    refine createAll_writes m (fun p hp => ?_) host ω
    rw [List.mem_singleton.mp hp]
    rfl
  | pause | pauseAll => exact request_writes execPauseOperate_wrote ..
  | resume | resumeAll => exact request_writes execResumeOperate_wrote ..
  | retry | retryAll => exact request_writes execRetryOperate_wrote ..
  | restore | restoreAll => exact request_writes execRestoreOperate_wrote ..
  | delete ids b ω => exact deletes_writes (execDeleteOperate_wrote b false) ..
  | clean ids ω => exact deletes_writes (execDeleteOperate_wrote false true) ..
  | deleteCategory c b ω => exact deletes_writes (execDeleteCategoryOperate_wrote c b) ..
  | cleanCategory c ω => exact deletes_writes (execCleanCategoryOperate_wrote c) ..
  | timer queue ω ω' => exact timerChcek_writes m queue ω ω'
  | metadataDownloaded id l => exact metadataDownloaded_writes m id l
  | setFileList id l => exact setFileList_writes m id l
  | runParse a => exact runParse_writes m a
  | settings n b =>
    refine (wrote_same ?_ ?_ "").writes
    · rfl
    · exact fun _ => rfl
  | reset | restart => cases he

/-! ## What stays listed -/

def paramOf (m : UserSelfMgr) (id : String) : Option TaskParam := (m.findTask id).map (·.param)

def ListedById (m : UserSelfMgr) : Prop := ∀ id p, m.paramOf id = some p → p.id = id

/-- Nothing leaves the list; what is inserted into the database, and what is restarted, is on it. -/
structure Tracks (m : UserSelfMgr) (ps : List Post) (m' : UserSelfMgr) : Prop where
  kept : ∀ id p, m.paramOf id = some p → m'.paramOf id = some p
  listed : ∀ t, .addTaskInfo t ∈ ps → m'.paramOf t.param.id = some t.param
  byId : m.ListedById → m'.ListedById
  restarted : m.ListedById → ∀ j, .reStart j ∈ ps → (m'.paramOf j).isSome

theorem Change.tracks {known : Bool} {o o' : Option TaskBase} (hc : Change known false id o ps o') :
    (∀ t, o = some t → ∃ t', o' = some t' ∧ t'.param = t.param) ∧
      (∀ t, .addTaskInfo t ∈ ps → t.param.id = id ∧ o' = some t) ∧
      ((∀ t, o = some t → t.param.id = id) →
        (∀ t', o' = some t' → t'.param.id = id) ∧ ∀ j, .reStart j ∈ ps → j = id ∧ o'.isSome) := by
  have hpost {t t' : TaskBase} {ps : List Post} (hl : Logged t ps t') {w : TaskBase}
      (hmem : .addTaskInfo w ∈ ps) : False := hl.posts (.addTaskInfo w) hmem
  cases hc with
  | @kept t t' _ hl =>
    refine ⟨fun w hw => ⟨t', rfl, ?_⟩, fun w hw => (hpost hl hw).elim, fun hid => ⟨fun w hw => ?_, fun j hj => ?_⟩⟩
    · rw [← Option.some.inj hw, hl.param]
    · rw [← Option.some.inj hw, hl.param, hid t rfl]
    · have hj' : j = t.param.id := hl.posts (.reStart j) hj
      exact ⟨hj'.trans (hid t rfl), rfl⟩
  | removed hr => cases hr
  | absent => exact ⟨fun _ ht => (nomatch ht), fun _ ht => (nomatch ht),
      fun _ => ⟨fun _ ht => (nomatch ht), fun _ hj => (nomatch hj)⟩⟩
  | refused _ hl hstart =>
    exact ⟨fun _ ht => (nomatch ht), fun w hw => (hpost hl hw).elim,
      fun _ => ⟨fun _ ht => (nomatch ht), fun j hj => (hstart j hj).elim⟩⟩
  | @listed t t' ps hid hl hstart =>
    have hid' : t'.param.id = id := by rw [hl.param, hid]
    refine ⟨fun _ ht => (nomatch ht), fun w hw => ?_, fun _ => ⟨fun w hw => ?_, fun j hj => ?_⟩⟩
    · rcases List.mem_append.mp hw with hw | hw
      · exact (hpost hl hw).elim
      · split at hw
        · obtain rfl := Post.addTaskInfo.inj (List.mem_singleton.mp hw)
          exact ⟨hid', rfl⟩
        · cases hw
    · rw [← Option.some.inj hw, hid']
    · rcases List.mem_append.mp hj with hj | hj
      · exact (hstart j hj).elim
      · split at hj <;> simp at hj

theorem Wrote.tracks (hw : Wrote false id m ps m') : Tracks m ps m' := by
  obtain ⟨hkept, hadd, hstart⟩ := hw.change.tracks
  have hother (j : String) (hj : j ≠ id) : m'.paramOf j = m.paramOf j := by
    rw [paramOf, paramOf, hw.other j hj]
  have hid (hm : m.ListedById) (t : TaskBase) (ht : m.findTask id = some t) : t.param.id = id :=
    hm id t.param (by rw [paramOf, ht, Option.map_some])
  refine ⟨fun j p hp => ?_, fun t ht => ?_, fun hm j p hp => ?_, fun hm j hj => ?_⟩
  · by_cases hj : j = id
    · subst hj
      obtain ⟨t, ht, rfl⟩ := Option.map_eq_some_iff.mp hp
      obtain ⟨t', ht', hparam⟩ := hkept t ht
      rw [paramOf, ht', Option.map_some, hparam]
    · rwa [hother j hj]
  · obtain ⟨htid, ht'⟩ := hadd t ht
    rw [htid, paramOf, ht', Option.map_some]
  · by_cases hj : j = id
    · subst hj
      obtain ⟨t, ht, rfl⟩ := Option.map_eq_some_iff.mp hp
      exact (hstart (hid hm)).1 t ht
    · exact hm j p (by rwa [← hother j hj])
  · obtain ⟨rfl, hsome⟩ := (hstart (hid hm)).2 j hj
    rwa [paramOf, Option.isSome_map]

theorem Writes.tracks (hw : Writes false m ps m') : Tracks m ps m' := by
  induction hw with
  | refl => exact ⟨fun _ _ hp => hp, fun _ ht => (nomatch ht), fun hm => hm, fun _ _ hj => (nomatch hj)⟩
  | snoc _ hlast ih =>
    have hstep := hlast.tracks
    refine ⟨fun j p hp => hstep.kept j p (ih.kept j p hp), fun t ht => ?_, fun hm => hstep.byId (ih.byId hm),
      fun hm j hj => ?_⟩
    · rcases List.mem_append.mp ht with ht | ht
      · exact hstep.kept _ _ (ih.listed t ht)
      · exact hstep.listed t ht
    · rcases List.mem_append.mp hj with hj | hj
      · obtain ⟨p, hp⟩ := Option.isSome_iff_exists.mp (ih.restarted hm j hj)
        rw [hstep.kept j p hp, Option.isSome_some]
      · exact hstep.restarted (ih.byId hm) j hj

theorem step_tracks {e : Event} (he : e.removes = false) : Tracks m (m.posts e) (m.step e) := by
  have hends : e.ends = false := by
    cases e with
    | reset | restart => cases he
    | _ => rfl
  have hw : Writes e.removes m _ _ := step_writes hends
  rw [he] at hw
  exact hw.tracks

end Nas.Download.UserSelfMgr
