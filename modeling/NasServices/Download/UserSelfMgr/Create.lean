import NasServices.Download.UserSelfMgr.Operate

/-!
# Creating and reloading tasks

`CreateLinkTask` and `CreateTorrentTask` make the parameter object, create and
start a task for it, list it, and parse all new tasks once every source has been
handled. A link source always gets a plain `TaskParam`; only the torrent
request makes a `TorrentTaskParam`. `ResumeFromDb` makes the tasks of the
stored rows.
-/

namespace Nas.Download

def isValidFilename (fileName : String) : Bool :=
  fileName.toList.all fun c => !("/\x00 \t\n".toList.contains c)

def unifiedSlash (path : String) : String :=
  String.ofList (path.toList.map fun c => if c = '\\' then '/' else c)

def baseFilePathFromU8 (path : String) : List Char := (unifiedSlash path).toList.takeWhile (· ≠ '\x00')

/-- `CheckCondition`; a link's url is stored as `utils::IsValid` leaves it. -/
def TaskBase.checkCondition (t : TaskBase) (h : Host) : TaskBase × DownloadErrorCode :=
  if t.param.type.isBt || t.param.type == .kEd2k then
    (t, if t.hasImpl then h.checkCondition else .kCreateTaskFailed)
  else match h.isValidUrl t.param.url with
    | none => (t, .kCurlUrlInvalid)
    | some url => ({ t with param := { t.param with url } }, .kNormal)

theorem TaskBase.checkCondition_eq (t : TaskBase) (h : Host) :
    ∃ url, (t.checkCondition h).1 = { t with param := { t.param with url } } := by
  unfold checkCondition
  split
  · exact ⟨t.param.url, rfl⟩
  · split
    · exact ⟨t.param.url, rfl⟩
    · rename_i url _
      exact ⟨url, rfl⟩

structure CreateFailedData where
  taskId : String
  sameTaskId : String
  errCode : DownloadErrorCode
  deriving DecidableEq, Repr

structure CreateReply where
  successList : List String := []
  failedList : List CreateFailedData := []
  deriving DecidableEq, Repr

structure SourceData where
  taskId : String
  source : String
  savePath : String := ""
  fileName : String := ""
  fileSize : Int := 0

structure TorrentRequest where
  taskId : String
  source : String
  savePath : String := ""
  taskName : String := ""
  isPrivateCloudSource : Bool := false
  torrentItemSelectList : List TorrenFileItemSelect := []

def SourceData.param (d : SourceData) : TaskParam :=
  { id := d.taskId, url := d.source, savePath := unifiedSlash d.savePath, fileName := d.fileName,
    fileSize := d.fileSize }

def TorrentRequest.param (q : TorrentRequest) : TaskParam :=
  { id := q.taskId, url := q.source, savePath := unifiedSlash q.savePath, fileName := q.taskName,
    torrent := some
      { torrentItemSelectList := q.torrentItemSelectList,
        selectedCount := q.torrentItemSelectList.countP (·.isSelected),
        isPrivateCloudSource := q.isPrivateCloudSource, frontTransUrl := q.source } }

namespace UserSelfMgr

def isTaskExisted (m : UserSelfMgr) (param : TaskParam) : String :=
  let same := (m.taskIds.filterMap m.findTask).find? fun t =>
    t.param.url == param.url ||
      (param.hash != "" && t.param.hash != "" && param.hash == t.param.hash)
  (same.map (·.param.id)).getD ""

def createTask (m : UserSelfMgr) (param : TaskParam) (h : Host) :
    Option TaskBase × DownloadErrorCode × String :=
  if !isValidFilename param.fileName then (none, .kInvalidFileName, "")
  else if !h.createSavePath then (none, .kCreateDirFailed, "")
  else if h.isProtectedPath then (none, .kProtectedPath, "")
  else if !h.hasWriteAccess then (none, .kCreateFileFailed, "")
  else if (m.findTask param.id).isSome then (none, .kTaskIdExisted, "")
  else match TaskFactory.createTask param h with
    | none => (none, .kCreateTaskFailed, "")
    | some t =>
      let sameTaskId := m.isTaskExisted t.param
      if sameTaskId ≠ "" then (some t, .kExistSameTask, sameTaskId)
      else
        let (t, err) := t.checkCondition h
        if err ≠ .kNormal then (some t, err, "")
        else if (TaskFactory.getDownloadType h.pathExistsLater t.param.url).isBt ∧
            t.param.fileName ≠ "" ∧
            h.pathExistsLater (t.param.savePath ++ "/" ++ t.param.fileName) then
          (some t, .kFileNameExisted, "")
        else (some t, .kNormal, "")

/-- The task object that `TaskFactory` makes of `param`, up to the url that `CheckCondition`
stores: nothing else has happened to it yet. -/
def Fresh (param : TaskParam) (h : Host) (t : TaskBase) : Prop :=
  ∃ url hasImpl createTime,
    t = { param := { TaskFactory.construct param h with url }, hasImpl, createTime }

theorem fresh_of_taskFactory {param : TaskParam} {h : Host} {t : TaskBase}
    (ht : TaskFactory.createTask param h = some t) : Fresh param h t := by
  simp only [TaskFactory.createTask] at ht
  split at ht
  · exact ⟨_, _, _, (Option.some.inj ht).symm⟩
  · cases ht

theorem Fresh.checkCondition {param : TaskParam} {h : Host} {t : TaskBase} (ht : Fresh param h t) :
    Fresh param h (t.checkCondition h).1 := by
  obtain ⟨_, hasImpl, createTime, rfl⟩ := ht
  obtain ⟨url, hurl⟩ := TaskBase.checkCondition_eq { param := _, hasImpl, createTime } h
  exact ⟨url, hasImpl, createTime, hurl⟩

theorem hasImpl_of_checkCondition {t : TaskBase} {h : Host} (hc : (t.checkCondition h).2 = .kNormal)
    (hbt : (t.checkCondition h).1.param.type.isBt = true) : (t.checkCondition h).1.hasImpl = true := by
  obtain ⟨url, hurl⟩ := t.checkCondition_eq h
  rw [hurl] at hbt ⊢
  unfold TaskBase.checkCondition at hc
  rw [if_pos (by rw [show t.param.type.isBt = true from hbt]; rfl)] at hc
  cases himpl : t.hasImpl with
  | true => rfl
  | false => simp [himpl, DownloadErrorCode.kCreateTaskFailed, DownloadErrorCode.kNormal] at hc

structure PassesChecks (m : UserSelfMgr) (param : TaskParam) (h : Host) : Prop where
  fileName : isValidFilename param.fileName = true
  savePath : h.createSavePath = true
  unprotected : h.isProtectedPath = false
  access : h.hasWriteAccess = true
  free : m.findTask param.id = none

/-- What `CreateTask` can return: an error alone, the object of a download that the user has
already, or the object after `CheckCondition`. -/
inductive CreateTaskResult (m : UserSelfMgr) (param : TaskParam) (h : Host) :
    Option TaskBase × DownloadErrorCode × String → Prop
  | refused {err : DownloadErrorCode} : err ≠ .kNormal → CreateTaskResult m param h (none, err, "")
  | existed {t : TaskBase} : PassesChecks m param h → TaskFactory.createTask param h = some t →
      CreateTaskResult m param h (some t, .kExistSameTask, m.isTaskExisted t.param)
  | tested {t : TaskBase} {err : DownloadErrorCode} : PassesChecks m param h →
      TaskFactory.createTask param h = some t → m.isTaskExisted t.param = "" →
      (err = .kNormal → (t.checkCondition h).2 = .kNormal) →
      CreateTaskResult m param h (some (t.checkCondition h).1, err, "")

theorem createTask_result (m : UserSelfMgr) (param : TaskParam) (h : Host) :
    CreateTaskResult m param h (m.createTask param h) := by
  unfold createTask
  by_cases hname : isValidFilename param.fileName = true
  swap
  · rw [if_pos (by simpa using hname)]
    exact .refused (by decide)
  rw [if_neg (by simpa using hname)]
  by_cases hsave : h.createSavePath = true
  swap
  · rw [if_pos (by simpa using hsave)]
    exact .refused (by decide)
  rw [if_neg (by simpa using hsave)]
  by_cases hprotected : h.isProtectedPath = true
  · rw [if_pos hprotected]
    exact .refused (by decide)
  rw [if_neg hprotected]
  by_cases haccess : h.hasWriteAccess = true
  swap
  · rw [if_pos (by simpa using haccess)]
    exact .refused (by decide)
  rw [if_neg (by simpa using haccess)]
  by_cases hid : (m.findTask param.id).isSome = true
  · rw [if_pos hid]
    exact .refused (by decide)
  have hpasses : PassesChecks m param h :=
    ⟨hname, hsave, Bool.eq_false_iff.mpr hprotected, haccess, by simpa using hid⟩
  rw [if_neg hid]
  cases ht : TaskFactory.createTask param h with
  | none => exact .refused (by decide)
  | some t =>
    dsimp only
    by_cases hsame : m.isTaskExisted t.param = ""
    swap
    · rw [if_pos hsame]
      exact .existed hpasses ht
    rw [if_neg (not_not.mpr hsame)]
    by_cases herr : (t.checkCondition h).2 = .kNormal
    · rw [if_neg (not_not.mpr herr)]
      split <;> exact .tested hpasses ht hsame fun _ => herr
    · rw [if_pos herr]
      exact .tested hpasses ht hsame fun he => absurd he herr

/-- A task object that `CreateTask` returns: the id is not listed, and `TaskFactory` made the
object. It has been through `CheckCondition` unless the user has the same download already. -/
theorem createTask_some {m : UserSelfMgr} {param : TaskParam} {h : Host} {t : TaskBase}
    {err : DownloadErrorCode} {same : String} (hc : m.createTask param h = (some t, err, same)) :
    m.findTask param.id = none ∧ ∃ t₀, TaskFactory.createTask param h = some t₀ ∧
      (t = t₀ ∧ err ≠ .kNormal ∨
        t = (t₀.checkCondition h).1 ∧ (err = .kNormal → (t₀.checkCondition h).2 = .kNormal)) := by
  have hresult := createTask_result m param h
  rw [hc] at hresult
  cases hresult with
  | existed hpasses ht => exact ⟨hpasses.free, t, ht, .inl ⟨rfl, by decide⟩⟩
  | tested hpasses ht _ herr => exact ⟨hpasses.free, _, ht, .inr ⟨rfl, herr⟩⟩

/-- A task object that `CreateTask` returns is fresh and its id is not listed. If there is no
error and it is a BitTorrent task, it has its adapter object. -/
theorem createTask_fresh {m : UserSelfMgr} {param : TaskParam} {h : Host} {t : TaskBase}
    {err : DownloadErrorCode} {same : String} (hc : m.createTask param h = (some t, err, same)) :
    m.findTask param.id = none ∧ Fresh param h t ∧
      (err = .kNormal → t.param.type.isBt = true → t.hasImpl = true) := by
  obtain ⟨hid, t₀, ht₀, ⟨rfl, hne⟩ | ⟨rfl, hok⟩⟩ := createTask_some hc
  · exact ⟨hid, fresh_of_taskFactory ht₀, fun he => absurd he hne⟩
  · exact ⟨hid, (fresh_of_taskFactory ht₀).checkCondition, fun he => hasImpl_of_checkCondition (hok he)⟩

structure Started where
  task : TaskBase
  err : DownloadErrorCode
  calls : List EngineCall

def startNew (t : TaskBase) (ret : DownloadErrorCode) : Started :=
  ⟨(t.start ret).1, (t.start ret).2, startCalls t ret⟩

def execMagnet (t : TaskBase) (h : Host) : Started := startNew { t with parseCallback := true } h.start

def admitTorrent (m : UserSelfMgr) (t : TaskBase) : TaskBase :=
  let downloadNow (b : Bool) : TaskBase :=
    { t with param := { t.param with
        torrent := t.param.torrent.map fun p => { p with isDownloadNow := b } } }
  if m.isCanStart then
    if !m.isBtAutoDownload then (downloadNow false).setTaskStatus .kPaused
    else (downloadNow true).setTaskStatus .kDownloading
  else t.setTaskStatus .kWaitting

def execNoneBt (m : UserSelfMgr) (t : TaskBase) (ret : DownloadErrorCode) : Started :=
  if m.isCanStart then startNew t ret else ⟨t, .kNormal, []⟩

/-- The switch of `ExecCreate`. The torrent case has no `break`: `ExecNoneBt` runs after
`ExecTorrent` and its result is the one that counts. -/
def execStart (m : UserSelfMgr) (t : TaskBase) (h : Host) : Started :=
  match t.param.type with
  | .kMagnet => execMagnet t h
  | .kTorrent =>
    let first := startNew (m.admitTorrent t) h.start
    let second := m.execNoneBt first.task h.startAgain
    { second with calls := second.calls ++ first.calls }
  | _ => m.execNoneBt t h.start

structure Creation where
  mgr : UserSelfMgr
  needParse : List String := []
  reply : CreateReply := {}

def Creation.refuse (c : Creation) (mgr : UserSelfMgr) (id sameTaskId : String)
    (err : DownloadErrorCode) : Creation :=
  { c with mgr, reply := { c.reply with
      failedList := c.reply.failedList ++ [{ taskId := id, sameTaskId, errCode := err }] } }

def execCreate (c : Creation) (param : TaskParam) (h : Host) : Creation :=
  match c.mgr.createTask param h with
  | (none, err, same) => c.refuse c.mgr param.id same err
  | (some t, err, same) =>
    let m := { c.mgr with made := t.param :: c.mgr.made }
    if err ≠ .kNormal then c.refuse m param.id same err
    else
      let s := m.execStart t h
      let m := { m with engine := s.calls ++ m.engine }
      if s.err ≠ .kNormal then c.refuse m param.id "" s.err
      else match m.addTask param.id s.task with
        | (m, false) => c.refuse (m.releaseTask s.task h.toAnswer).1 param.id "" .kAddTaskFailed
        | (m, true) =>
          { mgr := m, needParse := c.needParse ++ [param.id],
            reply := { c.reply with successList := c.reply.successList ++ [param.id] } }

/-- One round of `ParseTasks`. The callback of a magnet task whose metadata is known runs
`OnParseComplete` at once, since it is called on the manager's own thread. -/
def parseTask (m : UserSelfMgr) (id : String) (a : Answer) : UserSelfMgr :=
  match m.findTask id with
  | none => m
  | some t =>
    match t.parse m.userId a with
    | (t, none) => m.setTask id t
    | (t, some msg) => (m.setTask id t).onParseComplete msg a

def createAll (m : UserSelfMgr) (params : List TaskParam) (host : Nat → Host) (ω : Nat → Answer) :
    UserSelfMgr × CreateReply :=
  let c := Lib.forEach execCreate { mgr := m } params host
  (Lib.forEach parseTask c.mgr c.needParse ω, c.reply)

def createLinkTask (m : UserSelfMgr) (sourceList : List SourceData) (host : Nat → Host)
    (ω : Nat → Answer) : UserSelfMgr × CreateReply :=
  m.createAll (sourceList.map (·.param)) host ω

def createTorrentTask (m : UserSelfMgr) (request : TorrentRequest) (host : Nat → Host)
    (ω : Nat → Answer) : UserSelfMgr × CreateReply :=
  m.createAll [request.param] host ω

/-- One round of `ResumeFromDb`. A row that was started has its download in the engine. -/
def resumeRow (m : UserSelfMgr) (r : TaskBase.Row) (h : Host) : UserSelfMgr :=
  match TaskFactory.createTask r.param h with
  | none => m
  | some t =>
    let m := { m with made := t.param :: m.made }
    let t := TaskBase.resumeDataFromDb r t.param h.toAnswer
    match m.addTask r.id t with
    | (m, false) => m
    | (m, true) => if t.isStarted then { m with engine := .start t.param.hash :: m.engine } else m

def resumeFromDb (m : UserSelfMgr) (rows : List TaskBase.Row) (host : Nat → Host) : UserSelfMgr :=
  Lib.forEach resumeRow m rows host

end UserSelfMgr

end Nas.Download
