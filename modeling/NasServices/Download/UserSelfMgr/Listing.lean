import NasServices.Download.UserSelfMgr.Frame

/-!
# How tasks come on the list and leave it

What is left of the manager's work after `Updates`: the rounds of a create
request (`Created`), of a delete or clean request (`Deleted`) and of a reload
(`Reloaded`). Each round has a lemma that says which of these it was, with
everything it did to the lists, the reference counts and the engine; the
proofs about runs split these cases and look into no operation.
-/

namespace Nas.Download.UserSelfMgr

open TaskBase (Quiet)

variable {m m' : UserSelfMgr} {id : String} {t t' : TaskBase} {a : Answer} {h : Host}

/-! ## Creation -/

/-- How `ExecCreate` starts a new task: the parameter is the same but for `is_download_now`,
only a task without error has been started in the engine, and a magnet task has
got its callback and nothing else that parsing looks at. -/
structure StartedFrom (t : TaskBase) (s : Started) : Prop where
  param : ∃ torrent, s.task.param = { t.param with torrent } ∧
    torrent.isSome = t.param.torrent.isSome
  calls : ∀ c ∈ s.calls, c = .start t.param.hash
  refused : s.err ≠ .kNormal → s.calls = []
  magnet : t.param.type = .kMagnet → s.task.taskStatus = t.taskStatus ∧
    s.task.hasImpl = t.hasImpl ∧ s.task.parseCallback = true

theorem StartedFrom.hash {s : Started} (hs : StartedFrom t s) : s.task.param.hash = t.param.hash := by
  obtain ⟨torrent, hp, -⟩ := hs.param
  rw [hp]

/-- `Start` reports the engine's refusal of a link task and nothing else. -/
theorem startCalls_of_start_ne {ret : DownloadErrorCode} (hne : (t.start ret).2 ≠ .kNormal) :
    startCalls t ret = [] := by
  unfold TaskBase.start at hne
  unfold startCalls
  split at hne
  · exact absurd rfl hne
  · split at hne
    · split at hne <;> exact absurd rfl hne
    · rename_i hst _
      split at hne
      · exact absurd ‹_› hne
      · rename_i hret
        simp [hret]

theorem start_snd_of_isBt (hbt : t.param.type.isBt = true) (ret : DownloadErrorCode) :
    (t.start ret).2 = .kNormal := by
  unfold TaskBase.start
  rw [if_pos hbt]
  split
  · rfl
  · split <;> rfl

theorem startNew_startedFrom (ret : DownloadErrorCode) (hty : t.param.type ≠ .kMagnet) :
    StartedFrom t (startNew t ret) where
  param := ⟨t.param.torrent, by rw [startNew, (t.start_kept ret).param], rfl⟩
  calls _ hc := startCalls_hash hc
  refused hne := startCalls_of_start_ne hne
  magnet h := absurd h hty

theorem execNoneBt_startedFrom (m : UserSelfMgr) (ret : DownloadErrorCode)
    (hty : t.param.type ≠ .kMagnet) : StartedFrom t (m.execNoneBt t ret) := by
  unfold execNoneBt
  split
  · exact startNew_startedFrom ret hty
  · exact ⟨⟨_, rfl, rfl⟩, nofun, fun _ => rfl, fun h => absurd h hty⟩

theorem execMagnet_startedFrom (hty : t.param.type = .kMagnet) : StartedFrom t (execMagnet t h) := by
  have hbt : ({ t with parseCallback := true } : TaskBase).param.type.isBt = true := by
    rw [hty]
    rfl
  have hk := TaskBase.start_kept { t with parseCallback := true } h.start
  refine ⟨⟨_, by rw [execMagnet, startNew, hk.param], rfl⟩, fun _ hc => startCalls_hash hc,
    fun hne => absurd (start_snd_of_isBt hbt h.start) hne, fun _ => ?_⟩
  exact ⟨TaskBase.start_taskStatus_of_isBt hbt h.start, hk.hasImpl, hk.parseCallback⟩

theorem admitTorrent_param (m : UserSelfMgr) (t : TaskBase) :
    ∃ torrent, (m.admitTorrent t).param = { t.param with torrent } ∧
      torrent.isSome = t.param.torrent.isSome := by
  unfold admitTorrent
  dsimp only
  split
  · split <;> exact ⟨_, rfl, Option.isSome_map⟩
  · exact ⟨_, rfl, rfl⟩

/-- A torrent task goes through two starts, neither of which reports an error. -/
theorem execStart_startedFrom (m : UserSelfMgr) (t : TaskBase) (h : Host) :
    StartedFrom t (m.execStart t h) := by
  unfold execStart
  split
  · rename_i hty
    exact execMagnet_startedFrom hty
  · rename_i hty
    obtain ⟨torrent, hp, hsome⟩ := m.admitTorrent_param t
    have hty' : (m.admitTorrent t).param.type ≠ .kMagnet := by rw [hp, hty]; decide
    have h₁ := startNew_startedFrom (t := m.admitTorrent t) h.start hty'
    have hk := (m.admitTorrent t).start_kept h.start
    have h₂ := m.execNoneBt_startedFrom (t := (startNew (m.admitTorrent t) h.start).task)
      h.startAgain (by rw [startNew, hk.param]; exact hty')
    obtain ⟨torrent', hp', hsome'⟩ := h₂.param
    have hpar : (startNew (m.admitTorrent t) h.start).task.param = { t.param with torrent } :=
      hk.param.trans hp
    refine ⟨⟨torrent', ?_, ?_⟩, fun c hc => ?_, fun hne => ?_, fun hm => by rw [hty] at hm; cases hm⟩
    · rw [hpar] at hp'
      exact hp'
    · rw [hsome', hpar]
      exact hsome
    · rcases List.mem_append.mp hc with hc | hc
      · rw [h₂.calls c hc, hpar]
      · rw [h₁.calls c hc, hp]
    · refine absurd ?_ hne
      dsimp only
      unfold execNoneBt
      split
      · exact start_snd_of_isBt (by rw [hpar, hty]; rfl) _
      · rfl
  · rename_i hty _
    exact m.execNoneBt_startedFrom h.start (fun hm => by simp_all)

/-- A task as a create request lists it: it has the id of the request, and a magnet task has
its adapter and its callback and no status yet. -/
structure NewlyListed (param : TaskParam) (t : TaskBase) : Prop where
  id : t.param.id = param.id
  isFromDbResume : t.param.isFromDbResume = param.isFromDbResume
  magnet : t.param.type = .kMagnet →
    t.hasImpl = true ∧ t.parseCallback = true ∧ t.taskStatus = .kWaitting

theorem StartedFrom.newlyListed {param : TaskParam} {s : Started} (hs : StartedFrom t s)
    (ht : Fresh param h t) (himpl : t.param.type.isBt = true → t.hasImpl = true) :
    NewlyListed param s.task := by
  obtain ⟨torrent, hp, -⟩ := hs.param
  obtain ⟨url, hasImpl, createTime, rfl⟩ := ht
  obtain ⟨url', hash, hcons⟩ := TaskFactory.construct_eq param h
  rw [hcons] at hp himpl hs
  refine ⟨by rw [hp], by rw [hp], fun hty => ?_⟩
  rw [hp] at hty
  obtain ⟨hst, himpl', hcb⟩ := hs.magnet hty
  refine ⟨himpl'.trans (himpl ?_), hcb, hst⟩
  rw [show TaskFactory.getDownloadType h.pathExists param.url = .kMagnet from hty]
  rfl

def list (m : UserSelfMgr) (id : String) (t : TaskBase) (calls : List EngineCall)
    (param : TaskParam) : UserSelfMgr :=
  { m.setTask id t with
    refs := m.refs.addRef t.param.hash, engine := calls ++ m.engine, made := param :: m.made }

@[simp] theorem findTask_list (m : UserSelfMgr) (id : String) (t : TaskBase)
    (calls : List EngineCall) (param : TaskParam) : (m.list id t calls param).findTask id = some t :=
  findTask_setTask ..

theorem findTask_list_ne {j : String} (hj : j ≠ id) (calls : List EngineCall) (param : TaskParam) :
    (m.list id t calls param).findTask j = m.findTask j := findTask_setTask_ne m t hj

theorem addTask_of_none (hid : m.findTask id = none) (t : TaskBase) (calls : List EngineCall)
    (param : TaskParam) :
    addTask { m with made := param :: m.made, engine := calls ++ m.engine } id t =
      (m.list id t calls param, true) := by
  unfold addTask
  split
  · rename_i hsome
    rw [show m.findTask id = some _ from hsome] at hid
    cases hid
  · rfl

inductive Created (c : Creation) (param : TaskParam) (h : Host) : Creation → Prop
  | refused (same : String) (err : DownloadErrorCode) :
    Created c param h (c.refuse c.mgr param.id same err)
  | dropped {t : TaskBase} (ht : Fresh param h t) (same : String) (err : DownloadErrorCode) :
    Created c param h (c.refuse { c.mgr with made := t.param :: c.mgr.made } param.id same err)
  | listed {t : TaskBase} (ht : Fresh param h t) (hid : c.mgr.findTask param.id = none)
    (himpl : t.param.type.isBt = true → t.hasImpl = true) {s : Started} (hs : StartedFrom t s)
    (reply : CreateReply) :
    Created c param h
      { mgr := c.mgr.list param.id s.task s.calls t.param, needParse := c.needParse ++ [param.id], reply }

theorem execCreate_created (c : Creation) (param : TaskParam) (h : Host) :
    Created c param h (execCreate c param h) := by
  unfold execCreate
  split
  · exact .refused ..
  · rename_i t err same hc
    obtain ⟨hid, hfresh, himpl⟩ := createTask_fresh hc
    dsimp only
    split
    · exact .dropped hfresh same err
    · rename_i herr
      have hs := execStart_startedFrom { c.mgr with made := t.param :: c.mgr.made } t h
      generalize execStart { c.mgr with made := t.param :: c.mgr.made } t h = s at hs
      split
      · rename_i hne
        rw [hs.refused hne]
        exact .dropped hfresh "" s.err
      · rw [addTask_of_none hid]
        exact .listed hfresh hid (himpl (not_not.mp herr)) hs _

/-! ## Parsing -/

/-- The callback that `Parse` runs at once is given the user id and the task id. -/
theorem parse_message {userId : String} {msg : TaskBase.ParseMessage}
    (hp : t.parse userId a = (t', some msg)) : msg = (userId, t.param.id) := by
  unfold TaskBase.parse at hp
  split at hp
  · unfold TaskBase.magnetParse at hp
    split at hp
    · cases hp
    · split at hp
      · cases hp
      · simp only [Prod.mk.injEq] at hp
        split at hp
        · exact (Option.some.inj hp.2).symm
        · exact nomatch hp.2
  · cases hp
  · cases hp

structure Completed (m : UserSelfMgr) (result : String) (t t' : TaskBase) : Prop where
  param : t'.param = t.param
  hasImpl : t'.hasImpl = t.hasImpl
  parseCallback : t'.parseCallback = t.parseCallback
  parseFinished : t'.parseFinished = true
  fileList : t'.fileList = result
  taskStatus : t'.taskStatus =
    if m.isCanStart then if m.isBtAutoDownload then .kDownloading else .kPaused else .kWaitting

theorem Completed.not_parsing {result : String} (hc : Completed m result t t') : ¬ t'.Parsing := by
  rintro (hp | ⟨hp, -⟩) <;> rw [hc.taskStatus] at hp
  all_goals split at hp
  all_goals first
    | split at hp <;> cases hp
    | cases hp

/-- A completed parse changes the task that the message names and nothing else. -/
theorem onParseComplete_eq {msg : TaskBase.ParseMessage} (ht : m.findTask msg.1 = some t) (a : Answer) :
    ∃ t', Completed m msg.2 t t' ∧ m.onParseComplete msg a = m.setTask msg.1 t' := by
  let t₁ := { t with parseFinished := true, fileList := msg.2 }
  have hpause := t₁.pause_kept a
  unfold onParseComplete
  rw [ht]
  dsimp only
  split
  · rename_i hcan
    split
    · rename_i hauto
      refine ⟨(t₁.pause a).1.setTaskStatus .kPaused, ⟨hpause.param, hpause.hasImpl,
        hpause.parseCallback, hpause.parseFinished, hpause.fileList, ?_⟩, rfl⟩
      rw [if_pos hcan, if_neg (by simpa using hauto)]
      rfl
    · rename_i hauto
      refine ⟨t₁.setTaskStatus .kDownloading, ⟨rfl, rfl, rfl, rfl, rfl, ?_⟩, rfl⟩
      rw [if_pos hcan, if_pos (by simpa using hauto)]
      rfl
  · rename_i hcan
    refine ⟨(t₁.pause a).1.setTaskStatus .kWaitting, ⟨hpause.param, hpause.hasImpl,
      hpause.parseCallback, hpause.parseFinished, hpause.fileList, ?_⟩, rfl⟩
    rw [if_neg hcan]
    rfl

theorem onParseComplete_of_none {msg : TaskBase.ParseMessage} (ht : m.findTask msg.1 = none)
    (a : Answer) : m.onParseComplete msg a = m := by
  unfold onParseComplete
  rw [ht]

theorem findTask_onParseComplete_ne {msg : TaskBase.ParseMessage} {j : String} (hj : j ≠ msg.1)
    (m : UserSelfMgr) (a : Answer) : (m.onParseComplete msg a).findTask j = m.findTask j := by
  rcases ht : m.findTask msg.1 with _ | t
  · rw [onParseComplete_of_none ht]
  · obtain ⟨t', -, heq⟩ := onParseComplete_eq ht a
    rw [heq, findTask_setTask_ne m t' hj]

theorem onParseComplete_userId (m : UserSelfMgr) (msg : TaskBase.ParseMessage) (a : Answer) :
    (m.onParseComplete msg a).userId = m.userId := by
  rcases ht : m.findTask msg.1 with _ | t
  · rw [onParseComplete_of_none ht]
  · obtain ⟨t', -, heq⟩ := onParseComplete_eq ht a
    rw [heq]
    rfl

theorem onParseComplete_parseQueue (m : UserSelfMgr) (msg : TaskBase.ParseMessage) (a : Answer) :
    (m.onParseComplete msg a).parseQueue = m.parseQueue := by
  rcases ht : m.findTask msg.1 with _ | t
  · rw [onParseComplete_of_none ht]
  · obtain ⟨t', -, heq⟩ := onParseComplete_eq ht a
    rw [heq]
    rfl

/-- Parsing a task may also change the one, if any, that has the user's id as its id. -/
theorem findTask_parseTask_ne {j : String} (hj : j ≠ id) (hu : j ≠ m.userId) (a : Answer) :
    (m.parseTask id a).findTask j = m.findTask j := by
  unfold parseTask
  split
  · rfl
  · split
    · exact findTask_setTask_ne m _ hj
    · rename_i hp
      rw [findTask_onParseComplete_ne (by rw [parse_message hp]; exact hu)]
      exact findTask_setTask_ne m _ hj

theorem parseTask_userId (m : UserSelfMgr) (id : String) (a : Answer) :
    (m.parseTask id a).userId = m.userId := by
  unfold parseTask
  split
  · rfl
  · split
    · rfl
    · exact onParseComplete_userId ..

/-! ## Deletion -/

theorem findTask_erase (m : UserSelfMgr) (id : String) : (m.erase id).findTask id = none :=
  AList.lookup_erase ..

theorem findTask_erase_ne {j : String} (hj : j ≠ id) : (m.erase id).findTask j = m.findTask j :=
  AList.lookup_erase_ne hj

theorem releaseTask_eq {ok : Bool} (hr : m.releaseTask t a = (m', t', ok)) :
    m' = { m with refs := m'.refs, engine := m'.engine } := by
  obtain rfl : (m.releaseTask t a).1 = m' := by rw [hr]
  rfl

theorem exceCancel_of_false {realDelete : Bool} (hc : (t.exceCancel a realDelete).2 = false) :
    (t.exceCancel a realDelete).1 = t := by
  unfold TaskBase.exceCancel at hc ⊢
  split
  · rename_i hasks
    rw [if_pos hasks] at hc
    split
    · rename_i hok
      simp [hok] at hc
    · rfl
  · rename_i hasks
    rw [if_neg hasks] at hc
    split at hc <;> cases hc

theorem releaseTask_of_false (hr : m.releaseTask t a = (m', t', false)) : t' = t := by
  obtain ⟨realDelete, hcb⟩ := TaskRefCount.release_snd (cancelCallback t a) m.refs t.param.hash
  have hret : (cancelCallback t a realDelete).2 = false := by
    rw [← hcb]
    exact congrArg (·.2.2) hr
  obtain rfl : (cancelCallback t a realDelete).1.1 = t' := by
    rw [← hcb]
    exact congrArg (·.2.1) hr
  exact exceCancel_of_false hret

theorem releaseTask_snd (m : UserSelfMgr) (t : TaskBase) (a : Answer) :
    (m.releaseTask t a).2.2 = (t.exceCancel a (m.refs.isLast t.param.hash)).2 := by
  show (m.refs.release t.param.hash (cancelCallback t a)).2.2 = _
  rw [TaskRefCount.release_snd_eq]
  rfl

theorem releaseTask_param (m : UserSelfMgr) (t : TaskBase) (a : Answer) : (m.releaseTask t a).2.1.param = t.param := by
  obtain ⟨realDelete, hcb⟩ := TaskRefCount.release_snd (cancelCallback t a) m.refs t.param.hash
  show (m.refs.release t.param.hash (cancelCallback t a)).2.1.1.param = t.param
  rw [hcb]
  show (t.exceCancel a realDelete).1.param = t.param
  unfold TaskBase.exceCancel
  split_ifs <;> rfl

/-- What a round of a delete or clean request can do: put the task into the recycle bin, take
it off the list, or fail to. -/
inductive Deleted (id : String) (a : Answer) (m : UserSelfMgr) : UserSelfMgr → Prop
  | same : Deleted id a m m
  | binned {t : TaskBase} (ht : m.findTask id = some t) :
    Deleted id a m (m.setTask id (t.deleteToRecycleBin a).1)
  | removed {t t' : TaskBase} {m' : UserSelfMgr} (ht : m.findTask id = some t)
    (hr : m.releaseTask t a = (m', t', true)) : Deleted id a m ((m'.setTask id t').erase id)
  | refused {t : TaskBase} {m' : UserSelfMgr} (ht : m.findTask id = some t)
    (hr : m.releaseTask t a = (m', t, false)) : Deleted id a m (m'.setTask id t)

theorem removeTask_deleted (ht : m.findTask id = some t) (report : UserSelfMgr → Bool → Reply) :
    Deleted id a m (m.removeTask id t a report).1 := by
  unfold removeTask cancel
  rcases hr : m.releaseTask t a with ⟨m', t', _ | _⟩
  · obtain rfl := releaseTask_of_false hr
    exact .refused ht hr
  · exact .removed ht hr

theorem execDeleteOperate_deleted (isDeleteLocalFile isJudgeTaskValid : Bool) (s : UserSelfMgr × Reply)
    (id : String) (a : Answer) :
    Deleted id a s.1 (execDeleteOperate isDeleteLocalFile isJudgeTaskValid s id a).1 := by
  unfold execDeleteOperate
  dsimp only
  split
  · exact .same
  · rename_i t ht
    split
    · exact .same
    · split
      · split
        · exact .same
        · exact removeTask_deleted ht _
      · have hbin := Deleted.binned (a := a) ht
        split
        · exact .same
        · rename_i t' hd
          rwa [hd] at hbin

theorem execDeleteCategoryOperate_deleted (taskCategory : TaskCategory) (isDeleteLocalFile : Bool)
    (s : UserSelfMgr × Reply) (id : String) (a : Answer) :
    Deleted id a s.1 (execDeleteCategoryOperate taskCategory isDeleteLocalFile s id a).1 := by
  unfold execDeleteCategoryOperate
  dsimp only
  split
  · exact .same
  · rename_i t ht
    split
    · exact removeTask_deleted ht _
    · split
      · exact .same
      · split
        · split
          · exact .same
          · exact removeTask_deleted ht _
        · exact .binned ht

theorem execCleanCategoryOperate_deleted (taskCategory : TaskCategory) (s : UserSelfMgr × Reply)
    (id : String) (a : Answer) :
    Deleted id a s.1 (execCleanCategoryOperate taskCategory s id a).1 := by
  unfold execCleanCategoryOperate
  dsimp only
  split
  · exact .same
  · rename_i t ht
    split
    · exact .same
    · split
      · exact removeTask_deleted ht _
      · exact .binned ht

def Event.deletes : Event → Bool
  | .delete .. | .deleteCategory .. | .clean .. | .cleanCategory .. => true
  | _ => false

theorem step_keep_of_deletes {I : UserSelfMgr → Prop}
    (hI : ∀ m m' id a, I m → Deleted id a m m' → I m') {e : Event} (he : e.deletes = true) (hm : I m) :
    I (m.step e) := by
  have hloop : ∀ {body : UserSelfMgr × Reply → String → Answer → UserSelfMgr × Reply},
      (∀ s id a, Deleted id a s.1 (body s id a).1) → ∀ ids ω,
        I (Lib.forEach body (m, {}) ids ω).1 := fun hbody ids ω =>
    Lib.forEach_keep (I := fun s : UserSelfMgr × Reply => I s.1)
      (fun s id a _ hs => hI _ _ id a hs (hbody s id a)) hm ω
  cases e with
  | delete ids b ω => exact hloop (execDeleteOperate_deleted b false) ids ω
  | clean ids ω => exact hloop (execDeleteOperate_deleted false true) ids ω
  | deleteCategory c b ω => exact hloop (execDeleteCategoryOperate_deleted c b) _ ω
  | cleanCategory c ω => exact hloop (execCleanCategoryOperate_deleted c) _ ω
  | _ => cases he

theorem Deleted.findTask_ne {j : String} (hd : Deleted id a m m') (hj : j ≠ id) :
    m'.findTask j = m.findTask j := by
  cases hd with
  | same => rfl
  | binned ht => exact findTask_setTask_ne _ _ hj
  | removed ht hr => rw [findTask_erase_ne hj, findTask_setTask_ne _ _ hj, releaseTask_eq hr]; rfl
  | refused ht hr => rw [findTask_setTask_ne _ _ hj, releaseTask_eq hr]; rfl

/-- A task that is still listed after a deletion was listed before, and is as it was or in
the recycle bin. -/
theorem Deleted.listed (hd : Deleted id a m m') (ht' : m'.findTask id = some t') :
    ∃ t, m.findTask id = some t ∧ (t' = t ∨ t' = (t.deleteToRecycleBin a).1) := by
  cases hd with
  | same => exact ⟨t', ht', .inl rfl⟩
  | @binned t ht =>
    rw [findTask_setTask] at ht'
    exact ⟨t, ht, .inr (Option.some.inj ht').symm⟩
  | removed ht hr => rw [findTask_erase] at ht'; cases ht'
  | @refused t _ ht hr =>
    rw [findTask_setTask] at ht'
    exact ⟨t, ht, .inl (Option.some.inj ht').symm⟩

theorem Deleted.quiet (hd : Deleted id a m m') (ht' : m'.findTask id = some t') :
    ∃ t, m.findTask id = some t ∧ Quiet t t' := by
  obtain ⟨t, ht, rfl | rfl⟩ := hd.listed ht'
  · exact ⟨_, ht, .refl _⟩
  · exact ⟨t, ht, t.deleteToRecycleBin_quiet a⟩

/-! ## Reload -/

theorem resumeDataFromDb_status (r : TaskBase.Row) (param : TaskParam) (a : Answer) :
    (TaskBase.resumeDataFromDb r param a).param = param ∧
    (TaskBase.resumeDataFromDb r param a).taskStatus = r.taskStatus ∧
    (TaskBase.resumeDataFromDb r param a).preStatus = .kWaitting := by
  unfold TaskBase.resumeDataFromDb
  dsimp only
  split
  · unfold TaskBase.parseTorrent
    split <;> exact ⟨rfl, rfl, rfl⟩
  · split
    · split <;> exact ⟨rfl, rfl, rfl⟩
    · exact ⟨rfl, rfl, rfl⟩

inductive Reloaded (m : UserSelfMgr) (r : TaskBase.Row) (h : Host) : UserSelfMgr → Prop
  | refused : Reloaded m r h m
  | dropped : Reloaded m r h { m with made := TaskFactory.construct r.param h :: m.made }
  | listed {t : TaskBase} (hid : m.findTask r.id = none)
    (ht : t = TaskBase.resumeDataFromDb r (TaskFactory.construct r.param h) h.toAnswer) :
    Reloaded m r h (m.list r.id t (if t.isStarted then [.start t.param.hash] else [])
      (TaskFactory.construct r.param h))

theorem resumeRow_reloaded (m : UserSelfMgr) (r : TaskBase.Row) (h : Host) :
    Reloaded m r h (m.resumeRow r h) := by
  unfold resumeRow
  split
  · exact .refused
  · rename_i t ht
    have hp : t.param = TaskFactory.construct r.param h := (TaskFactory.createTask_eq ht).1
    dsimp only
    rw [hp]
    unfold addTask
    rcases hid : m.findTask r.id with _ | t₀
    · rw [show findTask { m with made := TaskFactory.construct r.param h :: m.made } r.id = none from hid]
      dsimp only
      have hl := Reloaded.listed (h := h) hid rfl
      split
      · rename_i hst
        rwa [if_pos hst] at hl
      · rename_i hst
        rwa [if_neg hst] at hl
    · rw [show findTask { m with made := TaskFactory.construct r.param h :: m.made } r.id = some t₀ from hid]
      exact .dropped

theorem resumeDataFromDb_id (r : TaskBase.Row) (h : Host) (a : Answer) :
    (TaskBase.resumeDataFromDb r (TaskFactory.construct r.param h) a).param.id = r.id := by
  obtain ⟨url, hash, hcons⟩ := TaskFactory.construct_eq r.param h
  rw [(resumeDataFromDb_status ..).1, hcons]
  rfl

theorem restart_listed {P : String → TaskBase → Prop} {rows : List TaskBase.Row}
    (hrow : ∀ r ∈ rows, ∀ h : Host,
      P r.id (TaskBase.resumeDataFromDb r (TaskFactory.construct r.param h) h.toAnswer))
    (m : UserSelfMgr) (host : Nat → Host) : ∀ id t, (m.restart rows host).findTask id = some t → P id t := by
  refine Lib.forEach_keep (I := fun m' : UserSelfMgr => ∀ id t, m'.findTask id = some t → P id t)
    (fun m' r h hr hm' => ?_) (fun id t ht => by cases ht) host
  have hreload := resumeRow_reloaded m' r h
  generalize m'.resumeRow r h = m'' at hreload
  cases hreload with
  | refused => exact hm'
  | dropped => exact hm'
  | listed hid ht =>
    intro j t' ht'
    by_cases hj : j = r.id
    · rw [hj, findTask_list] at ht'
      rw [hj, ← Option.some.inj ht', ht]
      exact hrow r hr h
    · rw [findTask_list_ne hj] at ht'
      exact hm' j t' ht'

end Nas.Download.UserSelfMgr
