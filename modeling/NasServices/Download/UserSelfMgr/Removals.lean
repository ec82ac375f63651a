import NasServices.Download.UserSelfMgr.Request
import NasServices.Lib.LexicalPath

/-!
# What the operations remove from the disk

The service removes files itself in four places: a torrent task that is cancelled
or could not be created removes its torrent file (`DeleteTorrentFile`,
`ExecCreate`), a deletion may remove what was downloaded (`DeleteLocalFile`), and
a reset empties the directory of the torrent files. A definition here lists what
the operation of the same name tries to remove; `UserSelfMgr.removals` does so for
every event. Paths are compared in their normal form.
-/

namespace Nas.Download

open Lib.LexicalPath

inductive Removal
  | file (path : Normal)
  | tree (path : Normal)
  deriving DecidableEq

def Removal.Removes (p : Normal) : Removal → Prop
  | .file path => path = p
  | .tree path => p.Within path

instance (p : Normal) : (r : Removal) → Decidable (r.Removes p)
  | .file path => inferInstanceAs (Decidable (path = p))
  | .tree path => inferInstanceAs (Decidable (p.Within path))

def Names (p : Normal) (path : String) : Prop :=
  baseFilePathFromU8 path ≠ [] ∧ normal (baseFilePathFromU8 path) = p

instance (p : Normal) (path : String) : Decidable (Names p path) := inferInstanceAs (Decidable (_ ∧ _))

theorem not_names_empty {p : Normal} : ¬ Names p "" := fun h => h.1 (by decide)

def deleteFile (path : String) : List Removal :=
  if baseFilePathFromU8 path = [] then [] else [.file (normal (baseFilePathFromU8 path))]

theorem removes_deleteFile_iff {p : Normal} {path : String} :
    (∃ r ∈ deleteFile path, r.Removes p) ↔ Names p path := by
  unfold deleteFile Names
  split
  · rename_i hnil
    simp [hnil]
  · rename_i hnil
    simp [hnil, Removal.Removes]

/-! ## Tasks -/

/-- `BtTorrentTask::DeleteTorrentFile`. The flag and the second path lie outside of a plain
`TaskParam`. -/
def TaskParam.deleteTorrentFile (param : TaskParam) : List Removal :=
  deleteFile param.url ++
    match param.torrent with
    | none => []
    | some part => if part.isPrivateCloudSource then [] else deleteFile part.frontTransUrl

namespace TaskBase

def deleteLocalFileRemovals (t : TaskBase) (a : Answer) : List Removal :=
  let dir := baseFilePathFromU8 t.param.savePath
  let name := baseFilePathFromU8 a.fileName
  if a.fileName = "" then []
  else [.tree (normal (if dir = [] then name else dir ++ '/' :: name))]

def exceCancelRemovals (t : TaskBase) (a : Answer) (realDelete : Bool) : List Removal :=
  if t.param.type = .kTorrent ∧ realDelete = true ∧ a.cancel = true then t.param.deleteTorrentFile else []

end TaskBase

/-! ## Deletion -/

namespace UserSelfMgr

def cancelRemovals (m : UserSelfMgr) (t : TaskBase) (a : Answer) : List Removal :=
  (m.refs.release t.param.hash fun realDelete =>
    (t.exceCancelRemovals a realDelete, (t.exceCancel a realDelete).2)).2.1

/-- The permanent deletion of a task in the recycle bin: what was downloaded goes first, and if
it could not be removed the task is not cancelled. -/
def removeTaskRemovals (m : UserSelfMgr) (t : TaskBase) (isDeleteLocalFile : Bool) (a : Answer) :
    List Removal :=
  (if isDeleteLocalFile && t.isDownloadFinished then t.deleteLocalFileRemovals a else []) ++
    if isDeleteLocalFile && t.isDownloadFinished && !a.deleteLocalFile then [] else m.cancelRemovals t a

def execDeleteRemovals (isDeleteLocalFile isJudgeTaskValid : Bool) (s : UserSelfMgr × Reply)
    (id : String) (a : Answer) : List Removal :=
  match s.1.findTask id with
  | none => []
  | some t =>
    if isJudgeTaskValid && t.isValid then []
    else if t.taskCategory = .kRecyclebinTask then s.1.removeTaskRemovals t isDeleteLocalFile a
    else []

def execDeleteCategoryRemovals (taskCategory : TaskCategory) (isDeleteLocalFile : Bool)
    (s : UserSelfMgr × Reply) (id : String) (a : Answer) : List Removal :=
  match s.1.findTask id with
  | none => []
  | some t =>
    if taskCategory = .kAll then s.1.cancelRemovals t a
    else if t.taskCategory ≠ taskCategory then []
    else if taskCategory = .kRecyclebinTask then s.1.removeTaskRemovals t isDeleteLocalFile a
    else []

def execCleanCategoryRemovals (taskCategory : TaskCategory) (s : UserSelfMgr × Reply) (id : String)
    (a : Answer) : List Removal :=
  match s.1.findTask id with
  | none => []
  | some t =>
    if t.taskCategory ≠ taskCategory ∨ t.isValid then []
    else if taskCategory = .kRecyclebinTask then s.1.cancelRemovals t a
    else []

def resetTaskRemovals (m : UserSelfMgr) (id : String) (a : Answer) : List Removal :=
  match m.findTask id with
  | none => []
  | some t => m.cancelRemovals (t.pause a).1 a

/-- `DownloadManager::Reset` then removes the directory of the torrent files. -/
def resetRemovals (m : UserSelfMgr) (torrentDir : Normal) (ω : Nat → Answer) : List Removal :=
  Lib.forEachLog resetTask resetTaskRemovals m m.taskIds ω ++ [.tree torrentDir]

/-! ## Creation -/

def refusedRemovals (param : TaskParam) (err : DownloadErrorCode) (h : Host) : List Removal :=
  if TaskFactory.getDownloadType h.pathExistsLater param.url = .kTorrent then
    if err = .kFileNameExisted then deleteFile param.url else param.deleteTorrentFile
  else []

def execCreateRemovals (c : Creation) (param : TaskParam) (h : Host) : List Removal :=
  match c.mgr.createTask param h with
  | (none, _, _) => []
  | (some t, err, _) =>
    let m := { c.mgr with made := t.param :: c.mgr.made }
    if err ≠ .kNormal then refusedRemovals t.param err h
    else
      let s := m.execStart t h
      let m := { m with engine := s.calls ++ m.engine }
      if s.err ≠ .kNormal then refusedRemovals s.task.param s.err h
      else match m.addTask param.id s.task with
        | (m, false) => m.cancelRemovals s.task h.toAnswer ++ refusedRemovals s.task.param .kAddTaskFailed h
        | (_, true) => []

def createAllRemovals (m : UserSelfMgr) (params : List TaskParam) (host : Nat → Host) : List Removal :=
  Lib.forEachLog execCreate execCreateRemovals { mgr := m } params host

def removals (torrentDir : Normal) (m : UserSelfMgr) : Event → List Removal
  | .createLink sourceList host _ => m.createAllRemovals (sourceList.map (·.param)) host
  | .createTorrent request host _ => m.createAllRemovals [request.param] host
  | .delete ids isDeleteLocalFile ω =>
    Lib.forEachLog (execDeleteOperate isDeleteLocalFile false)
      (execDeleteRemovals isDeleteLocalFile false) (m, {}) ids ω
  | .clean ids ω =>
    Lib.forEachLog (execDeleteOperate false true) (execDeleteRemovals false true) (m, {}) ids ω
  | .deleteCategory c isDeleteLocalFile ω =>
    Lib.forEachLog (execDeleteCategoryOperate c isDeleteLocalFile)
      (execDeleteCategoryRemovals c isDeleteLocalFile) (m, {}) m.taskIds ω
  | .cleanCategory c ω =>
    Lib.forEachLog (execCleanCategoryOperate c) (execCleanCategoryRemovals c) (m, {}) m.taskIds ω
  | .reset ω => m.resetRemovals torrentDir ω
  | _ => []

/-! ## Whose files they are -/

variable {m : UserSelfMgr} {t : TaskBase} {a : Answer} {r : Removal}

theorem mem_cancelRemovals (h : r ∈ m.cancelRemovals t a) : r ∈ t.param.deleteTorrentFile := by
  obtain ⟨realDelete, hcb⟩ := TaskRefCount.release_snd
    (fun realDelete => (t.exceCancelRemovals a realDelete, (t.exceCancel a realDelete).2)) m.refs t.param.hash
  rw [cancelRemovals, hcb] at h
  dsimp only [TaskBase.exceCancelRemovals] at h
  split at h
  · exact h
  · cases h

theorem mem_removeTaskRemovals {isDeleteLocalFile : Bool} (h : r ∈ m.removeTaskRemovals t isDeleteLocalFile a) :
    r ∈ t.param.deleteTorrentFile ∨ isDeleteLocalFile = true ∧ r ∈ t.deleteLocalFileRemovals a := by
  rcases List.mem_append.mp h with h | h
  · split at h
    · rename_i hdel
      exact .inr ⟨(Bool.and_eq_true_iff.mp hdel).1, h⟩
    · cases h
  · split at h
    · cases h
    · exact .inl (mem_cancelRemovals h)

/-- A round of a deletion removes the torrent file of its task, and what was downloaded if it is
asked to. -/
def RoundRemoves (isDeleteLocalFile : Bool) (m : UserSelfMgr) (id : String) (a : Answer) (r : Removal) : Prop :=
  ∃ t, m.findTask id = some t ∧
    (r ∈ t.param.deleteTorrentFile ∨ isDeleteLocalFile = true ∧ r ∈ t.deleteLocalFileRemovals a)

variable {s : UserSelfMgr × Reply} {id : String} {isDeleteLocalFile : Bool} {c : TaskCategory}

theorem mem_execDeleteRemovals {isJudgeTaskValid : Bool}
    (h : r ∈ execDeleteRemovals isDeleteLocalFile isJudgeTaskValid s id a) :
    RoundRemoves isDeleteLocalFile s.1 id a r := by
  unfold execDeleteRemovals at h
  rcases ht : s.1.findTask id with _ | t <;> rw [ht] at h
  · cases h
  · refine ⟨t, ht, ?_⟩
    dsimp only at h
    split at h
    · cases h
    · split at h
      · exact mem_removeTaskRemovals h
      · cases h

theorem mem_execDeleteCategoryRemovals (h : r ∈ execDeleteCategoryRemovals c isDeleteLocalFile s id a) :
    RoundRemoves isDeleteLocalFile s.1 id a r := by
  unfold execDeleteCategoryRemovals at h
  rcases ht : s.1.findTask id with _ | t <;> rw [ht] at h
  · cases h
  · refine ⟨t, ht, ?_⟩
    dsimp only at h
    split at h
    · exact .inl (mem_cancelRemovals h)
    · split at h
      · cases h
      · split at h
        · exact mem_removeTaskRemovals h
        · cases h

theorem mem_execCleanCategoryRemovals (h : r ∈ execCleanCategoryRemovals c s id a) :
    RoundRemoves false s.1 id a r := by
  unfold execCleanCategoryRemovals at h
  rcases ht : s.1.findTask id with _ | t <;> rw [ht] at h
  · cases h
  · refine ⟨t, ht, ?_⟩
    dsimp only at h
    split at h
    · cases h
    · split at h
      · exact .inl (mem_cancelRemovals h)
      · cases h

theorem mem_resetTaskRemovals (h : r ∈ m.resetTaskRemovals id a) :
    ∃ t, m.findTask id = some t ∧ r ∈ t.param.deleteTorrentFile := by
  unfold resetTaskRemovals at h
  rcases ht : m.findTask id with _ | t <;> rw [ht] at h
  · cases h
  · refine ⟨t, rfl, ?_⟩
    have hp : (t.pause a).1.param = t.param := by
      unfold TaskBase.pause
      split <;> rfl
    rw [← hp]
    exact mem_cancelRemovals h

theorem mem_refusedRemovals {param : TaskParam} {err : DownloadErrorCode} {h : Host}
    (hr : r ∈ refusedRemovals param err h) : r ∈ param.deleteTorrentFile := by
  unfold refusedRemovals at hr
  split at hr
  · split at hr
    · exact List.mem_append_left _ hr
    · exact hr
  · cases hr

end UserSelfMgr

end Nas.Download
