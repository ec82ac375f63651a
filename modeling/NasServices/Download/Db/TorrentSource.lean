import NasServices.Download.Db.Service
import NasServices.Download.UserSelfMgr.Pieces
import NasServices.Download.UserSelfMgr.Removals

/-!
# The user's own torrent file

A torrent task works on a copy of the file it is given, and removes the copy when
it goes. The copy may fail, and then the task's url is still the user's file: it is
removed with the task, whatever `is_private_cloud_source` says
(`failedCopy_removed`).

`run_spares` says what keeps a file `p` on the disk, over all runs of a user's
service and across restarts: who names it, names it as a private torrent file that
is copied, and no deletion of downloaded files reaches it (`Service.Spares`). The
flag is not stored, and need not be: what is stored is the path of the copy.
-/

namespace Nas.Download

open Lib UserSelfMgr Lib.LexicalPath
open TaskBase (Row)

variable {p : Normal} {m m' : UserSelfMgr} {param : TaskParam} {h : Host} {t : TaskBase} {a : Answer}

/-! ## Tasks that do not have the file -/

def TaskParam.Clear (p : Normal) (param : TaskParam) : Prop := ∀ r ∈ param.deleteTorrentFile, ¬ r.Removes p

theorem TaskParam.clear_iff : param.Clear p ↔ ¬ Names p param.url ∧
    ∀ part, param.torrent = some part → part.isPrivateCloudSource = false → ¬ Names p part.frontTransUrl := by
  have hfile (path : String) : (∀ r ∈ deleteFile path, ¬ r.Removes p) ↔ ¬ Names p path := by
    rw [← removes_deleteFile_iff]
    simp
  have hpart : (∀ r ∈ param.deleteTorrentFile, ¬ r.Removes p) ↔ (∀ r ∈ deleteFile param.url, ¬ r.Removes p) ∧
      ∀ part, param.torrent = some part → part.isPrivateCloudSource = false →
        ∀ r ∈ deleteFile part.frontTransUrl, ¬ r.Removes p := by
    rw [deleteTorrentFile, List.forall_mem_append]
    refine and_congr_right fun _ => ?_
    rcases param.torrent with _ | part
    · simp
    · cases hpriv : part.isPrivateCloudSource <;> simp [hpriv]
  simp only [Clear, hpart, hfile]

/-- The file `p` outlives a task that is made of this parameter: whoever gives it as a torrent to be
removed says that it is private; it is only given as a torrent file that is copied; and neither the
copy nor the url of a link is that file. -/
structure SparesSource (p : Normal) (param : TaskParam) (h : Host) : Prop where
  front : ∀ part, param.torrent = some part → part.isPrivateCloudSource = false → ¬ Names p part.frontTransUrl
  copied : Names p param.url → TaskFactory.getDownloadType h.pathExists param.url = .kUnknown ∨
    TaskFactory.getDownloadType h.pathExists param.url = .kTorrent ∧ h.hasImpl = true ∧ h.copyFile.isSome = true
  copy : ∀ dest, h.copyFile = some dest → ¬ Names p dest
  link : ¬ Names p param.url → ∀ url, h.isValidUrl param.url = some url → ¬ Names p url

theorem checkCondition_url (t : TaskBase) (h : Host) :
    (t.checkCondition h).1.param.url = t.param.url ∨
      t.param.type.isBt = false ∧ h.isValidUrl t.param.url = some (t.checkCondition h).1.param.url := by
  unfold TaskBase.checkCondition
  split
  · exact .inl rfl
  · rename_i hty
    rcases hurl : h.isValidUrl t.param.url with _ | url
    · exact .inl rfl
    · refine .inr ⟨?_, rfl⟩
      simp only [Bool.or_eq_true, not_or, Bool.not_eq_true] at hty
      exact hty.1

/-- The object that `TaskFactory` makes is of the type that its source has, which is a known one. -/
theorem taskFactory_type (ht : TaskFactory.createTask param h = some t) :
    t.param.type = TaskFactory.getDownloadType h.pathExists param.url ∧ t.param.type ≠ .kUnknown := by
  obtain ⟨hparam, -, hload⟩ := TaskFactory.createTask_eq ht
  obtain ⟨url, hash, hcons⟩ := TaskFactory.construct_eq param h
  refine ⟨by rw [hparam, hcons], fun hun => ?_⟩
  rw [hun] at hload
  cases hload

theorem SparesSource.construct (hs : SparesSource p param h) (hdb : param.isFromDbResume = false)
    (ht : TaskFactory.createTask param h = some t) : ¬ Names p t.param.url := by
  obtain ⟨hty, hknown⟩ := taskFactory_type ht
  rw [hty] at hknown
  rw [(TaskFactory.createTask_eq ht).1, TaskFactory.construct_url]
  by_cases hnames : Names p param.url
  · obtain hun | ⟨htor, himpl, hcopy⟩ := hs.copied hnames
    · exact absurd hun hknown
    · rw [if_pos ⟨htor, hdb, himpl⟩]
      obtain ⟨dest, hdest⟩ := Option.isSome_iff_exists.mp hcopy
      rw [hdest]
      exact hs.copy dest hdest
  · split
    · cases hcopy : h.copyFile with
      | none => exact hnames
      | some dest => exact hs.copy dest hcopy
    · exact hnames

/-- A task object that is made under these conditions does not have the file. -/
theorem SparesSource.clear (hs : SparesSource p param h) (hdb : param.isFromDbResume = false)
    {err : DownloadErrorCode} {same : String} (hc : m.createTask param h = (some t, err, same)) :
    t.param.Clear p := by
  have hfresh := (createTask_fresh hc).2.1
  obtain ⟨-, t₀, ht₀, hmade⟩ := createTask_some hc
  have h₀ := hs.construct hdb ht₀
  have hurl : ¬ Names p t.param.url := by
    rcases hmade with ⟨rfl, -⟩ | ⟨rfl, -⟩
    · exact h₀
    · rcases checkCondition_url t₀ h with heq | ⟨hbt, hlink⟩
      · rwa [heq]
      · -- a link's url is still the requested one
        have hsame : t₀.param.url = param.url := by
          rw [(TaskFactory.createTask_eq ht₀).1, TaskFactory.construct_url, if_neg]
          rintro ⟨htor, -⟩
          rw [(taskFactory_type ht₀).1, htor] at hbt
          cases hbt
        rw [hsame] at h₀ hlink
        exact hs.link h₀ _ hlink
  obtain ⟨url, hasImpl, createTime, rfl⟩ := hfresh
  obtain ⟨url', hash, hcons⟩ := TaskFactory.construct_eq param h
  refine TaskParam.clear_iff.mpr ⟨hurl, fun part hpart => hs.front part ?_⟩
  rwa [hcons] at hpart

/-! ## Creation -/

/-- Starting a new task changes nothing that decides which files are its own. -/
theorem execStart_deleteTorrentFile (m : UserSelfMgr) (t : TaskBase) (h : Host) :
    (m.execStart t h).task.param.deleteTorrentFile = t.param.deleteTorrentFile := by
  have hnone (t : TaskBase) (ret : DownloadErrorCode) : (m.execNoneBt t ret).task.param = t.param := by
    unfold execNoneBt
    split
    · exact (t.start_kept ret).param
    · rfl
  have hadmit : (m.admitTorrent t).param.deleteTorrentFile = t.param.deleteTorrentFile := by
    unfold admitTorrent TaskParam.deleteTorrentFile
    dsimp only
    split
    · split <;> cases t.param.torrent <;> rfl
    · rfl
  unfold execStart
  split
  · have hstart := (({ t with parseCallback := true } : TaskBase).start_kept h.start).param
    show (startNew _ _).task.param.deleteTorrentFile = _
    rw [show (startNew { t with parseCallback := true } h.start).task.param = t.param from hstart]
  · show (m.execNoneBt _ _).task.param.deleteTorrentFile = _
    rw [hnone, show (startNew (m.admitTorrent t) h.start).task.param = (m.admitTorrent t).param from
      ((m.admitTorrent t).start_kept h.start).param, hadmit]
  · rw [hnone]

/-- A round of a create request lists no task that has the file, and does not remove it. -/
theorem execCreate_clear {c : Creation} (hm : Listed (fun _ => TaskParam.Clear p) c.mgr)
    (hdb : param.isFromDbResume = false) (hs : SparesSource p param h) :
    Listed (fun _ => TaskParam.Clear p) (execCreate c param h).mgr ∧
      ∀ r ∈ execCreateRemovals c param h, ¬ r.Removes p := by
  unfold execCreate execCreateRemovals
  rcases hc : c.mgr.createTask param h with ⟨_ | t, err, same⟩
  · exact ⟨hm, nofun⟩
  · have ht : t.param.Clear p := hs.clear hdb hc
    dsimp only
    by_cases herr : err = .kNormal
    · have hst := execStart_deleteTorrentFile { c.mgr with made := t.param :: c.mgr.made } t h
      generalize execStart { c.mgr with made := t.param :: c.mgr.made } t h = s at hst
      have hclear : s.task.param.Clear p := by
        rw [TaskParam.Clear, hst]
        exact ht
      rw [if_neg (not_not.mpr herr), if_neg (not_not.mpr herr)]
      by_cases hserr : s.err = .kNormal
      · rw [if_neg (not_not.mpr hserr), if_neg (not_not.mpr hserr), addTask_of_none (createTask_fresh hc).1]
        exact ⟨hm.setTask hclear, nofun⟩
      · rw [if_pos hserr, if_pos hserr]
        exact ⟨hm, fun r hr => hclear r (mem_refusedRemovals hr)⟩
    · rw [if_pos herr, if_pos herr]
      exact ⟨hm, fun r hr => ht r (mem_refusedRemovals hr)⟩

theorem createAll_clear (hm : Listed (fun _ => TaskParam.Clear p) m) {params : List TaskParam} {host : Nat → Host}
    (hs : ∀ k param, params[k]? = some param → param.isFromDbResume = false ∧ SparesSource p param (host k))
    (ω : Nat → Answer) :
    Listed (fun _ => TaskParam.Clear p) (m.createAll params host ω).1 ∧
      ∀ r ∈ m.createAllRemovals params host, ¬ r.Removes p := by
  have hround (c : Creation) (k : Nat) (param : TaskParam) (hk : params[k]? = some param)
      (hc : Listed (fun _ => TaskParam.Clear p) c.mgr) := execCreate_clear hc (hs k param hk).1 (hs k param hk).2
  constructor
  · have hc : Listed (fun _ => TaskParam.Clear p) (forEach execCreate { mgr := m } params host).mgr :=
      forEach_keep_get (I := fun c : Creation => Listed (fun _ => TaskParam.Clear p) c.mgr)
        (fun c k param hk hc => (hround c k param hk hc).1) hm
    exact forEach_keep (fun m j a _ hm => Listed.pieces hm (parseTask_pieces m j a)) hc ω
  · exact forEachLog_keep_get (I := fun c : Creation => Listed (fun _ => TaskParam.Clear p) c.mgr) hround hm

/-! ## Deletion -/

def UserSelfMgr.SparesLocal (p : Normal) (m : UserSelfMgr) (ids : List String) (ω : Nat → Answer) : Prop :=
  ∀ k id t, ids[k]? = some id → m.findTask id = some t → ∀ r ∈ t.deleteLocalFileRemovals (ω k), ¬ r.Removes p

theorem deletes_clear {body : UserSelfMgr × Reply → String → Answer → UserSelfMgr × Reply}
    {log : UserSelfMgr × Reply → String → Answer → List Removal} {isDeleteLocalFile : Bool}
    (hbody : ∀ s id a, Deleted id a s.1 (body s id a).1)
    (hlog : ∀ s id a r, r ∈ log s id a → RoundRemoves isDeleteLocalFile s.1 id a r)
    (hm : Listed (fun _ => TaskParam.Clear p) m) {ids : List String} {ω : Nat → Answer}
    (hlocal : isDeleteLocalFile = true → m.SparesLocal p ids ω) :
    ∀ r ∈ forEachLog body log (m, {}) ids ω, ¬ r.Removes p := by
  -- what is still listed has the parameter it had before the request
  refine forEachLog_keep_get (I := fun s : UserSelfMgr × Reply => Listed (fun id q => q.Clear p ∧
    ∃ t, m.findTask id = some t ∧ t.param = q) s.1) (fun s k id hk hs => ⟨hs.deleted (hbody s id _), fun r hr => ?_⟩)
    fun id t ht => ⟨hm id t ht, t, ht, rfl⟩
  obtain ⟨t, ht, hr | ⟨hdel, hr⟩⟩ := hlog s id _ r hr
  · exact (hs id t ht).1 r hr
  · obtain ⟨-, t₀, ht₀, hparam⟩ := hs id t ht
    refine hlocal hdel k id t₀ hk ht₀ r ?_
    rw [TaskBase.deleteLocalFileRemovals, hparam]
    exact hr

theorem reset_clear (hm : Listed (fun _ => TaskParam.Clear p) m) {torrentDir : Normal} (hdir : ¬ p.Within torrentDir)
    (ω : Nat → Answer) : ∀ r ∈ m.resetRemovals torrentDir ω, ¬ r.Removes p := by
  rw [resetRemovals, List.forall_mem_append]
  refine ⟨forEachLog_keep_get (I := Listed fun _ => TaskParam.Clear p)
    (fun m k id _ hm => ⟨hm.resetTask id _, fun r hr => ?_⟩) hm, ?_⟩
  · obtain ⟨t, ht, hr⟩ := mem_resetTaskRemovals hr
    exact hm id t ht r hr
  · intro r hr
    rw [List.mem_singleton.mp hr]
    exact hdir

def UserSelfMgr.Event.Spares (p torrentDir : Normal) (m : UserSelfMgr) : Event → Prop
  | .createLink sourceList host _ => ∀ k d, sourceList[k]? = some d → SparesSource p d.param (host k)
  | .createTorrent request host _ => SparesSource p request.param (host 0)
  | .delete ids isDeleteLocalFile ω => isDeleteLocalFile = true → m.SparesLocal p ids ω
  | .deleteCategory _ isDeleteLocalFile ω => isDeleteLocalFile = true → m.SparesLocal p m.taskIds ω
  | .reset _ => ¬ p.Within torrentDir
  | _ => True

theorem step_clear (hm : Listed (fun _ => TaskParam.Clear p) m) {torrentDir : Normal} {e : Event}
    (hs : e.Spares p torrentDir m) (he : e.ends = false ∨ ∃ ω, e = .reset ω) :
    Listed (fun _ => TaskParam.Clear p) (m.step e) ∧ ∀ r ∈ m.removals torrentDir e, ¬ r.Removes p := by
  have hdel (hd : e.deletes = true) : Listed (fun _ => TaskParam.Clear p) (m.step e) :=
    step_keep_of_deletes (fun _ _ _ _ hm hd => hm.deleted hd) hd hm
  cases e with
  | createLink sourceList host ω =>
    refine createAll_clear hm (fun k param hk => ?_) ω
    rw [List.getElem?_map, Option.map_eq_some_iff] at hk
    obtain ⟨d, hd, rfl⟩ := hk
    exact ⟨rfl, hs k d hd⟩
  | createTorrent request host ω =>
    refine createAll_clear hm (fun k param hk => ?_) ω
    cases k with
    | zero =>
      obtain rfl := Option.some.inj hk
      exact ⟨rfl, hs⟩
    | succ k => cases hk
  | delete ids b ω =>
    exact ⟨hdel rfl, deletes_clear (execDeleteOperate_deleted b false) (fun _ _ _ _ => mem_execDeleteRemovals) hm hs⟩
  | clean ids ω =>
    exact ⟨hdel rfl, deletes_clear (execDeleteOperate_deleted false true) (fun _ _ _ _ => mem_execDeleteRemovals) hm
      nofun⟩
  | deleteCategory c b ω =>
    exact ⟨hdel rfl, deletes_clear (execDeleteCategoryOperate_deleted c b)
      (fun _ _ _ _ => mem_execDeleteCategoryRemovals) hm hs⟩
  | cleanCategory c ω =>
    exact ⟨hdel rfl, deletes_clear (execCleanCategoryOperate_deleted c)
      (fun _ _ _ _ => mem_execCleanCategoryRemovals) hm nofun⟩
  | reset ω => exact ⟨.of_empty rfl, reset_clear hm hs ω⟩
  | restart => rcases he with he | ⟨ω, he⟩ <;> cases he
  | _ => exact ⟨hm.pieces (step_pieces rfl rfl), nofun⟩

/-! ## Rows -/

theorem addTaskInfo_notMem_of_change {known removes : Bool} {id : String} {ps : List Post} {o : Option TaskBase}
    (hc : Change known removes id (some t) ps o) (w : TaskBase) : .addTaskInfo w ∉ ps := by
  intro hmem
  cases hc with
  | kept hl => exact hl.posts _ hmem
  | removed _ hposts =>
    rcases List.mem_append.mp hmem with hmem | hmem
    · exact hposts _ hmem
    · simp at hmem

/-- A request that takes tasks off the list inserts none into the table. -/
theorem addTaskInfo_notMem_of_removes {e : Event} (he : e.removes = true) (w : TaskBase) :
    .addTaskInfo w ∉ m.posts e := by
  have hrounds {body : UserSelfMgr × Reply → String → Answer → UserSelfMgr × Reply}
      {log : UserSelfMgr × Reply → String → Answer → List Post}
      (hwrote : ∀ s id a, Wrote true id s.1 (log s id a) (body s id a).1)
      (hnone : ∀ s id a, s.1.findTask id = none → log s id a = []) (ids : List String) (ω : Nat → Answer) :
      .addTaskInfo w ∉ forEachLog body log (m, {}) ids ω := by
    intro hmem
    obtain ⟨s, id, a, hmem⟩ := mem_forEachLog hmem
    have hchange := (hwrote s id a).change
    rcases ht : s.1.findTask id with _ | t
    · rw [hnone s id a ht] at hmem
      cases hmem
    · rw [ht] at hchange
      exact addTaskInfo_notMem_of_change hchange w hmem
  cases e with
  | delete ids b ω =>
    exact hrounds (execDeleteOperate_wrote b false) (fun s id a ht => by simp [execDeletePosts, ht]) ids ω
  | clean ids ω =>
    exact hrounds (execDeleteOperate_wrote false true) (fun s id a ht => by simp [execDeletePosts, ht]) ids ω
  | deleteCategory c b ω =>
    exact hrounds (execDeleteCategoryOperate_wrote c b) (fun s id a ht => by simp [execDeleteCategoryPosts, ht]) _ ω
  | cleanCategory c ω =>
    exact hrounds (execCleanCategoryOperate_wrote c) (fun s id a ht => by simp [execCleanCategoryPosts, ht]) _ ω
  | reset ω =>
    intro hmem
    rcases List.mem_append.mp hmem with hmem | hmem
    · obtain ⟨m', id, a, hmem⟩ := mem_forEachLog hmem
      unfold resetTaskPosts at hmem
      split at hmem
      · cases hmem
      · rename_i t ht
        rcases List.mem_append.mp hmem with hmem | hmem
        · exact (t.pause_logged a).posts _ hmem
        · exact (m'.releaseTask_posts (t.pause a).1 a).1 _ hmem
    · simp at hmem
  | restart => exact nofun
  | _ => cases he

theorem clear_of_addTaskInfo {e : Event} (hm : Listed (fun _ => TaskParam.Clear p) (m.step e))
    (hmem : .addTaskInfo t ∈ m.posts e) : t.param.Clear p := by
  have hre : e.removes = false := by
    by_contra hre
    exact addTaskInfo_notMem_of_removes (Bool.not_eq_false _ ▸ hre) t hmem
  obtain ⟨t', ht', hparam⟩ := Option.map_eq_some_iff.mp ((step_tracks hre).listed t hmem)
  rw [← hparam]
  exact hm _ t' ht'

/-! ## Runs -/

namespace Service

def removals (torrentDir : Normal) (s : Service) : Work → List Removal
  | .request e => s.mgr.removals torrentDir e
  | .background | .others .. | .restart _ => []

def Spares (p torrentDir : Normal) (s : Service) : Work → Prop
  | .request e => e.Spares p torrentDir s.mgr
  | .background | .others .. | .restart _ => True

structure Clear (p : Normal) (s : Service) : Prop where
  listed : Listed (fun _ => TaskParam.Clear p) s.mgr
  queue : ∀ t, .addTaskInfo t ∈ s.queue → t.param.Clear p
  rows : ∀ r ∈ s.rows, ¬ Names p r.source

theorem Clear.background {s : Service} (hs : s.Clear p) : (s.step .background).Clear p := by
  rcases s with ⟨mgr, _ | ⟨q, qs⟩, rows⟩
  · exact hs
  · refine ⟨hs.listed, fun t ht => hs.queue t (List.mem_cons_of_mem _ ht), fun r hr => ?_⟩
    cases q with
    | addTaskInfo t =>
      rcases Keyed.mem_add hr with hr | rfl
      · exact hs.rows r hr
      · exact (TaskParam.clear_iff.mp (hs.queue t List.mem_cons_self)).1
    | updateTaskInfo t =>
      obtain ⟨x, hx, rfl | ⟨-, rfl⟩⟩ := Keyed.mem_modify hr
      · exact hs.rows r hx
      · exact hs.rows x hx
    | deleteTaskInfo taskId => exact hs.rows r (Keyed.mem_delete.mp hr).1
    | clearTableData => cases hr
    | reStart taskId => exact hs.rows r hr

/-- A row is reloaded with its source, and with nothing else to remove. -/
theorem Clear.restart {s : Service} (hs : s.Clear p) (host : Nat → Host) : (s.step (.restart host)).Clear p := by
  refine ⟨?_, fun _ ht => (List.not_mem_nil ht).elim, hs.rows⟩
  refine restart_listed (P := fun _ t => t.param.Clear p) (fun r hr h => ?_) s.mgr host
  rw [(resumeDataFromDb_status ..).1, TaskFactory.construct_row]
  refine TaskParam.clear_iff.mpr ⟨hs.rows r hr, fun part hpart _ => ?_⟩
  have hfront : part.frontTransUrl = "" := by
    simp only [TaskBase.Row.param] at hpart
    split at hpart
    · rw [← Option.some.inj hpart]
    · cases hpart
  rw [hfront]
  exact not_names_empty

theorem Clear.request {s : Service} (hs : s.Clear p) {torrentDir : Normal} {e : Event}
    (he : e.Spares p torrentDir s.mgr) (hends : e.ends = false ∨ ∃ ω, e = .reset ω) :
    (s.step (.request e)).Clear p := by
  have hstep : s.step (.request e) = { s with mgr := s.mgr.step e, queue := s.queue ++ s.mgr.posts e } := by
    cases e with
    | restart => rcases hends with hends | ⟨ω, hends⟩ <;> cases hends
    | _ => rfl
  have hlisted := (step_clear hs.listed he hends).1
  rw [hstep]
  refine ⟨hlisted, fun t ht => ?_, hs.rows⟩
  rcases List.mem_append.mp ht with ht | ht
  · exact hs.queue t ht
  · exact clear_of_addTaskInfo hlisted ht

theorem step_spares {s : Service} (hs : s.Clear p) {torrentDir : Normal} {w : Work} (hw : s.Spares p torrentDir w) :
    (s.step w).Clear p ∧ ∀ r ∈ s.removals torrentDir w, ¬ r.Removes p := by
  cases w with
  | request e =>
    by_cases hends : e.ends = false ∨ ∃ ω, e = .reset ω
    · exact ⟨hs.request hw hends, (step_clear hs.listed hw hends).2⟩
    · cases e with
      | restart => exact ⟨hs, nofun⟩
      | reset ω => exact absurd (.inr ⟨ω, rfl⟩) hends
      | _ => exact absurd (.inl rfl) hends
  | background => exact ⟨hs.background, nofun⟩
  | others refs engine => exact ⟨⟨hs.listed, hs.queue, hs.rows⟩, nofun⟩
  | restart host => exact ⟨hs.restart host, nofun⟩

end Service

/-- In every run of a user's service whose steps spare the file `p`, no step removes it: not when a
task is refused, cancelled or deleted, and not after a restart. -/
theorem run_spares {torrentDir : Normal} (hm : m.taskList = ∅) {ws : List Service.Work}
    (hws : Along Service.step (Service.Spares p torrentDir) { mgr := m } ws) :
    Along Service.step (fun s w => ∀ r ∈ s.removals torrentDir w, ¬ r.Removes p) { mgr := m } ws :=
  hws.imp (I := Service.Clear p) (fun _ _ hs hw => (Service.step_spares hs hw).1)
    (fun _ _ hs hw => (Service.step_spares hs hw).2)
    ⟨.of_empty hm, fun _ ht => (List.not_mem_nil ht).elim, fun _ hr => (List.not_mem_nil hr).elim⟩

def privateTorrent (copyFile : Option String) (hasImpl : Bool) : Service.Work :=
  .request (.createTorrent
    { taskId := "1", source := "/home/a.torrent", savePath := "/data", isPrivateCloudSource := true }
    (fun _ => { pathExists := (· == "/home/a.torrent"), pathExistsLater := fun _ => true, hasImpl, copyFile,
                taskHash := "h" })
    fun _ => {})

def deleteTwice (fileName : String) : List Service.Work :=
  List.replicate 2 (.request (.delete ["1"] true fun _ => { fileName }))

def ownTorrent : Normal := normal "/home/a.torrent".toList

def torrentFiles : Normal := normal "/nas/torrent".toList

/-- The file is copied; the service is restarted, and the task is deleted afterwards. -/
def copiedAndDeleted : List Service.Work :=
  privateTorrent (some "/nas/torrent/g.torrent") true :: .background :: .background ::
    .restart (fun _ => { pathExists := (· == "/nas/torrent/g.torrent"), taskHash := "h" }) :: deleteTwice "film"

theorem sparesSource_privateTorrent : SparesSource ownTorrent
    { id := "1", url := "/home/a.torrent", savePath := "/data",
      torrent := some { isPrivateCloudSource := true, frontTransUrl := "/home/a.torrent" } }
    { pathExists := (· == "/home/a.torrent"), pathExistsLater := fun _ => true, hasImpl := true,
      copyFile := some "/nas/torrent/g.torrent", taskHash := "h" } where
  front := by
    rintro part hpart
    obtain rfl := Option.some.inj hpart
    exact nofun
  copied _ := .inr (by decide +kernel)
  copy := by
    rintro dest hdest
    obtain rfl := Option.some.inj hdest
    decide +kernel
  link hno := absurd (by decide +kernel) hno

theorem sparesLocal_film (hm : (m.findTask "1").map (·.param.savePath) = some "/data") :
    m.SparesLocal ownTorrent ["1"] fun _ => { fileName := "film" } := by
  intro k id t hk ht r hr
  obtain rfl := List.mem_singleton.mp (List.mem_of_getElem? hk)
  rw [ht, Option.map_some, Option.some.injEq] at hm
  have hfilm : t.deleteLocalFileRemovals { fileName := "film" } = [.tree (normal "/data/film".toList)] := by
    rw [TaskBase.deleteLocalFileRemovals, hm]
    decide +kernel
  rw [hfilm] at hr
  rw [List.mem_singleton.mp hr]
  decide +kernel

theorem run_spares_copiedAndDeleted :
    .file (normal "/nas/torrent/g.torrent".toList) ∈
      (run Service.step { mgr := { userId := "u" } } (copiedAndDeleted.take 5)).removals torrentFiles
        (.request (.delete ["1"] true fun _ => { fileName := "film" })) ∧
    Along Service.step (fun s w => ∀ r ∈ s.removals torrentFiles w, ¬ r.Removes ownTorrent)
      { mgr := { userId := "u" } } copiedAndDeleted := by
  refine ⟨by decide +kernel, run_spares rfl ⟨?_, trivial, trivial, trivial, ?_, ?_, trivial⟩⟩
  · exact sparesSource_privateTorrent
  · exact fun _ => sparesLocal_film (by decide +kernel)
  · exact fun _ => sparesLocal_film (by decide +kernel)

/-- The copy fails and the task is deleted; or there is no adapter and the request is refused. Each
time the user's file is removed. -/
theorem failedCopy_removed :
    .file ownTorrent ∈ (run Service.step { mgr := { userId := "u" } }
        (privateTorrent none true :: (deleteTwice "film").take 1)).removals torrentFiles
      (.request (.delete ["1"] true fun _ => { fileName := "film" })) ∧
    .file ownTorrent ∈ ({ mgr := { userId := "u" } } : Service).removals torrentFiles
      (privateTorrent (some "/nas/torrent/g.torrent") false) := by
  decide +kernel

end Nas.Download
