import NasServices.Download.DownloadManager
import NasServices.Download.FilePaths
import NasServices.Download.UserSelfMgr.Listing
import NasServices.Download.UserSelfMgr.Posts
import NasServices.Download.UserSelfMgr.Removals

/-!
# The files of a deleted task

A curl task has a temporary and a final file, and a torrent task has its copy of
the torrent file. A permanent deletion leaves them to `ExceCancel`, which removes
them for the last reference of a hash only, although each of them belongs to one
task. `ownFiles_gone_iff` says when they are gone after a deletion that was
reported as successful; `shared_left` is a run with two users of one link, and of one
torrent.

The disk is the set of files that exist. Whether a file can be removed, and what
the transfer thread does while it is waited for, is `Surroundings`.
-/

namespace Nas.Download

open Lib.LexicalPath UserSelfMgr

/-! ## The disk -/

abbrev Disk := Normal → Bool

namespace Disk

variable (disk : Disk) (removable : Normal → Bool)

def remove (r : Removal) : Disk := fun q => disk q && !(decide (r.Removes q) && removable q)

def removeFile (q : Normal) : Disk × Bool := (disk.remove removable (.file q), !disk q || removable q)

def rename (source target : Normal) : Disk :=
  if disk source && !disk target then fun q => q == target || disk q && q != source else disk

end Disk

/-! ## A permanent deletion -/

structure Surroundings where
  disk : Disk
  removable : Normal → Bool := fun _ => true
  answer : Answer := {}
  hasHttpTask : Bool := true
  /-- What follows the arrays of `DownloadParam`. -/
  rest : Text := []
  /-- How many names were taken when the file was moved to its final name. -/
  taken : Nat := 0
  /-- The transfer is completed while `Cancel` waits for its thread, and finds that many names taken. -/
  finishes : Option Nat := none

inductive Deletion
  | delete
  | deleteCategory (taskCategory : TaskCategory)

def Deletion.exec : Deletion → UserSelfMgr × Reply → String → Answer → UserSelfMgr × Reply
  | .delete => execDeleteOperate true false
  | .deleteCategory c => execDeleteCategoryOperate c true

def Deletion.looks : Deletion → Bool
  | .delete => true
  | .deleteCategory c => c != .kAll

namespace Surroundings

variable (x : Surroundings) (d : Deletion) (t : TaskBase)

def tempFile : Normal := normal (CurlDownloadTaskImpl.getTempFilePath (assembleDownloadParam t.param x.rest))

def finalFile (taken : Nat) : Normal :=
  normal (CurlDownloadTaskImpl.finalFilePath (assembleDownloadParam t.param x.rest) taken)

def afterLocal : Disk :=
  if d.looks && t.isDownloadFinished then
    (t.deleteLocalFileRemovals x.answer).foldl (fun disk r => disk.remove (fun _ => true) r) x.disk
  else x.disk

def waitThreadQuit (disk : Disk) : Disk :=
  match x.finishes with
  | none => disk
  | some taken => disk.rename (x.tempFile t) (x.finalFile t taken)

def curlCancel (disk : Disk) : Disk × Bool :=
  if !x.hasHttpTask then (disk, false)
  else
    let (disk, ok) := disk.removeFile x.removable (x.finalFile t x.taken)
    if !ok then (disk, false) else (x.waitThreadQuit t disk).removeFile x.removable (x.tempFile t)

/-- The answers of the engine: the one of a curl engine to `Cancel` depends on the disk. -/
def answers : Answer :=
  { x.answer with
    cancel := if t.param.type.isCurl then (x.curlCancel t (x.afterLocal d t)).2 else x.answer.cancel }

def exceCancel (realDelete : Bool) : Disk :=
  if t.param.type.isCurl then
    if t.asksCancel realDelete then (x.curlCancel t (x.afterLocal d t)).1 else x.afterLocal d t
  else (t.exceCancelRemovals (x.answers d t) realDelete).foldl (·.remove x.removable ·) (x.afterLocal d t)

def after (m : UserSelfMgr) : Disk :=
  (m.refs.release t.param.hash fun realDelete =>
    (x.exceCancel d t realDelete, (t.exceCancel (x.answers d t) realDelete).2)).2.1

def moved : Option Normal :=
  let disk := ((x.afterLocal d t).removeFile x.removable (x.finalFile t x.taken)).1
  x.finishes.bind fun taken =>
    if disk (x.tempFile t) && !disk (x.finalFile t taken) then some (x.finalFile t taken) else none

def files (torrentDir : Normal) : List Normal :=
  if t.param.type.isCurl then [x.tempFile t, x.finalFile t x.taken]
  else if t.param.type = .kTorrent ∧ torrentDir.IsChild (normal (baseFilePathFromU8 t.param.url)) then
    [normal (baseFilePathFromU8 t.param.url)]
  else []

/-- No file of the task is left, nor one that its thread has moved into place meanwhile. -/
def Gone (torrentDir : Normal) (m : UserSelfMgr) : Prop :=
  (∀ q ∈ x.files t torrentDir, x.after d t m q = false) ∧
    (t.param.type.isCurl = true → ∀ q ∈ x.moved d t, x.after d t m q = false)

/-- The engine is asked for every file that there is, and the transfer is not completed meanwhile; a
torrent file can be removed. -/
structure Reached (torrentDir : Normal) (m : UserSelfMgr) : Prop where
  asked : ∀ q ∈ x.files t torrentDir, x.afterLocal d t q = true →
    t.asksCancel (m.refs.isLast t.param.hash) = true ∧ (t.param.type = .kTorrent → x.removable q = true)
  still : t.param.type.isCurl = true → t.asksCancel (m.refs.isLast t.param.hash) = true → x.moved d t = none

end Surroundings

/-! ## Reported deletions -/

structure Deletion.Reported (id : String) (s s' : UserSelfMgr × Reply) : Prop where
  off : s'.1.findTask id = none
  success : ∃ data, s'.2.successList = s.2.successList ++ [data]
  failed : s'.2.failedList = s.2.failedList

variable {m : UserSelfMgr} {s : UserSelfMgr × Reply} {id : String} {t : TaskBase} {a : Answer}
  {x : Surroundings} {d : Deletion}

theorem removeTask_off {report : UserSelfMgr → Bool → Reply} (h : (m.removeTask id t a report).1.findTask id = none) :
    (t.exceCancel a (m.refs.isLast t.param.hash)).2 = true := by
  rw [← releaseTask_snd]
  unfold removeTask cancel at h
  rcases hr : m.releaseTask t a with ⟨m', t', _ | _⟩
  · simp only [hr, findTask_setTask] at h
    cases h
  · rfl

/-- A task that is off the list has been cancelled. -/
theorem exec_off (ht : s.1.findTask id = some t) (h : (d.exec s id a).1.findTask id = none) :
    (t.exceCancel a (s.1.refs.isLast t.param.hash)).2 = true := by
  obtain ⟨m, r⟩ := s
  have hsame (h : m.findTask id = none) : False := by
    rw [show m.findTask id = some t from ht] at h
    cases h
  have hset {t' : TaskBase} (h : (m.setTask id t').findTask id = none) : False := by
    rw [findTask_setTask] at h
    cases h
  cases d with
  | delete =>
    simp only [Deletion.exec, execDeleteOperate, show m.findTask id = some t from ht, Bool.false_and,
      Bool.false_eq_true, if_false] at h
    split at h
    · split at h
      · exact (hsame h).elim
      · exact removeTask_off h
    · split at h
      · exact (hsame h).elim
      · exact (hset h).elim
  | deleteCategory c =>
    simp only [Deletion.exec, execDeleteCategoryOperate, show m.findTask id = some t from ht] at h
    split at h
    · exact removeTask_off h
    · split at h
      · exact (hsame h).elim
      · split at h
        · split at h
          · exact (hsame h).elim
          · exact removeTask_off h
        · exact (hset h).elim

theorem after_eq (x : Surroundings) (d : Deletion) (t : TaskBase) (m : UserSelfMgr) :
    x.after d t m = x.exceCancel d t (m.refs.isLast t.param.hash) := by
  unfold Surroundings.after
  rw [TaskRefCount.release_snd_eq]

/-- An engine that was asked has agreed. -/
theorem cancel_of_asks {realDelete : Bool} (hok : (t.exceCancel a realDelete).2 = true)
    (hasks : t.asksCancel realDelete = true) : a.cancel = true := by
  unfold TaskBase.exceCancel at hok
  rw [if_pos hasks] at hok
  by_contra hno
  rw [if_neg hno] at hok
  cases hok

/-! ## Curl tasks -/

namespace Surroundings

variable {q : Normal}

/-- A file whose removal has succeeded does not exist. -/
theorem removeFile_self {disk : Disk} (h : (disk.removeFile x.removable q).2 = true) :
    (disk.removeFile x.removable q).1 q = false := by
  simp only [Disk.removeFile, Bool.or_eq_true, Bool.not_eq_true'] at h
  simp only [Disk.removeFile, Disk.remove, Removal.Removes, decide_true, Bool.true_and]
  rcases h with h | h <;> simp [h]

theorem removeFile_ne {disk : Disk} {p : Normal} (h : p ≠ q) : (disk.removeFile x.removable p).1 q = disk q := by
  simp [Disk.removeFile, Disk.remove, Removal.Removes, h]

theorem removeFile_of_false {disk : Disk} {p : Normal} (h : disk q = false) :
    (disk.removeFile x.removable p).1 q = false := by
  simp [Disk.removeFile, Disk.remove, h]

theorem curlCancel_of_true {disk : Disk} (h : (x.curlCancel t disk).2 = true) :
    (disk.removeFile x.removable (x.finalFile t x.taken)).2 = true ∧
      x.curlCancel t disk = (x.waitThreadQuit t (disk.removeFile x.removable (x.finalFile t x.taken)).1).removeFile
        x.removable (x.tempFile t) := by
  unfold curlCancel at h ⊢
  split at h
  · cases h
  · rename_i hhttp
    rw [if_neg hhttp]
    dsimp only at h ⊢
    split at h
    · cases h
    · rename_i hfinal
      rw [if_neg hfinal]
      exact ⟨by simpa using hfinal, rfl⟩

theorem waitThreadQuit_cases (x : Surroundings) (d : Deletion) (t : TaskBase) :
    x.moved d t = none ∧
        x.waitThreadQuit t ((x.afterLocal d t).removeFile x.removable (x.finalFile t x.taken)).1 =
          ((x.afterLocal d t).removeFile x.removable (x.finalFile t x.taken)).1 ∨
      ∃ q, x.moved d t = some q ∧ q ≠ x.tempFile t ∧
        x.waitThreadQuit t ((x.afterLocal d t).removeFile x.removable (x.finalFile t x.taken)).1 q = true := by
  unfold moved waitThreadQuit
  dsimp only
  generalize ((x.afterLocal d t).removeFile x.removable (x.finalFile t x.taken)).1 = disk
  cases x.finishes with
  | none => exact .inl ⟨rfl, rfl⟩
  | some taken =>
    simp only [Option.bind_some, Disk.rename]
    split
    · rename_i hmove
      simp only [Bool.and_eq_true, Bool.not_eq_true'] at hmove
      refine .inr ⟨_, rfl, fun heq => ?_, by simp⟩
      rw [heq, hmove.1] at hmove
      cases hmove.2
    · exact .inl ⟨rfl, rfl⟩

/-- A file that is moved into place was not there before, unless it took the place of the old one. -/
theorem afterLocal_of_moved (hq : x.moved d t = some q) (hne : q ≠ x.finalFile t x.taken) :
    x.afterLocal d t q = false := by
  unfold moved at hq
  obtain ⟨taken, -, hif⟩ := Option.bind_eq_some_iff.mp hq
  split at hif
  · rename_i hmove
    obtain rfl := Option.some.inj hif
    simp only [Bool.and_eq_true, Bool.not_eq_true'] at hmove
    rw [removeFile_ne (Ne.symm hne)] at hmove
    exact hmove.2
  · cases hif

theorem files_of_isCurl (hcurl : t.param.type.isCurl = true) (torrentDir : Normal) :
    x.files t torrentDir = [x.tempFile t, x.finalFile t x.taken] := if_pos hcurl

/-- The engine is asked: both files go, and the only one that can be left is one moved meanwhile. -/
theorem gone_iff_of_asked (hcurl : t.param.type.isCurl = true) (torrentDir : Normal)
    (hasks : t.asksCancel (m.refs.isLast t.param.hash) = true)
    (hcancel : (x.curlCancel t (x.afterLocal d t)).2 = true) :
    x.Gone d t torrentDir m ↔ x.Reached d t torrentDir m := by
  have htorrent : t.param.type ≠ .kTorrent := fun h => by rw [h] at hcurl; cases hcurl
  have hafter := after_eq x d t m
  obtain ⟨hfinal, heq⟩ := curlCancel_of_true hcancel
  rw [exceCancel, if_pos hcurl, if_pos hasks, heq] at hafter
  rw [heq] at hcancel
  constructor
  · rintro ⟨-, hmoved⟩
    refine ⟨fun _ _ _ => ⟨hasks, fun h => absurd h htorrent⟩, fun _ _ => ?_⟩
    rcases x.waitThreadQuit_cases d t with ⟨hnone, -⟩ | ⟨q, hq, hne, htrue⟩
    · exact hnone
    · have := hmoved hcurl q hq
      rw [hafter, removeFile_ne (Ne.symm hne), htrue] at this
      cases this
  · rintro ⟨-, hstill⟩
    have hnone := hstill hcurl hasks
    refine ⟨fun q hq => ?_, fun _ q hq => by rw [hnone] at hq; cases hq⟩
    rw [files_of_isCurl hcurl] at hq
    obtain ⟨-, hsame⟩ | ⟨q, hq, -⟩ := x.waitThreadQuit_cases d t
    · rw [hsame] at hafter hcancel
      rw [hafter]
      simp only [List.mem_cons, List.not_mem_nil, or_false] at hq
      rcases hq with hq | hq
      · rw [hq]
        exact removeFile_self hcancel
      · rw [hq]
        exact removeFile_of_false (removeFile_self hfinal)
    · rw [hnone] at hq
      cases hq

/-- The engine is not asked: the disk stays as it is. -/
theorem gone_iff_of_not_asked (hcurl : t.param.type.isCurl = true) (torrentDir : Normal)
    (hasks : ¬ t.asksCancel (m.refs.isLast t.param.hash) = true) :
    x.Gone d t torrentDir m ↔ x.Reached d t torrentDir m := by
  have hafter := after_eq x d t m
  rw [exceCancel, if_pos hcurl, if_neg hasks] at hafter
  constructor
  · rintro ⟨hgone, -⟩
    refine ⟨fun q hq htrue => ?_, fun _ h => absurd h hasks⟩
    have := hgone q hq
    rw [hafter, htrue] at this
    cases this
  · rintro ⟨hasked, -⟩
    have hfalse (q : Normal) (hq : q ∈ x.files t torrentDir) : x.afterLocal d t q = false := by
      by_contra htrue
      exact hasks (hasked q hq (Bool.not_eq_false _ ▸ htrue)).1
    refine ⟨fun q hq => hafter ▸ hfalse q hq, fun _ q hq => ?_⟩
    rw [hafter]
    by_cases hne : q = x.finalFile t x.taken
    · rw [hne]
      exact hfalse _ (by simp [files_of_isCurl hcurl])
    · exact afterLocal_of_moved hq hne

theorem gone_iff_of_isCurl (hcurl : t.param.type.isCurl = true) (torrentDir : Normal)
    (hok : (t.exceCancel (x.answers d t) (m.refs.isLast t.param.hash)).2 = true) :
    x.Gone d t torrentDir m ↔ x.Reached d t torrentDir m := by
  by_cases hasks : t.asksCancel (m.refs.isLast t.param.hash) = true
  · refine gone_iff_of_asked hcurl torrentDir hasks ?_
    have hcancel := cancel_of_asks hok hasks
    simp only [answers, hcurl, if_true] at hcancel
    exact hcancel
  · exact gone_iff_of_not_asked hcurl torrentDir hasks

/-! ## Torrent tasks -/

theorem foldl_remove (rs : List Removal) (disk : Disk) (q : Normal) :
    rs.foldl (·.remove x.removable ·) disk q = true ↔
      disk q = true ∧ ((∃ r ∈ rs, r.Removes q) → x.removable q = false) := by
  induction rs generalizing disk with
  | nil => simp
  | cons r rs ih =>
    rw [List.foldl_cons, ih]
    cases hrem : x.removable q <;> by_cases hr : r.Removes q <;> simp [Disk.remove, hr, hrem]

/-- The one file of a torrent task is its copy of the torrent file, which `DeleteTorrentFile` removes. -/
theorem removes_of_mem_files (hcurl : ¬ t.param.type.isCurl = true) {torrentDir : Normal}
    (hq : q ∈ x.files t torrentDir) : ∃ r ∈ t.param.deleteTorrentFile, r.Removes q := by
  unfold files at hq
  rw [if_neg hcurl] at hq
  split at hq
  · rename_i hchild
    have hne : baseFilePathFromU8 t.param.url ≠ [] := fun hnil => by
      obtain ⟨y, -, hy⟩ := hchild.2
      rw [hnil] at hy
      have := congrArg Normal.names hy
      simp [Normal.child, normal, parts] at this
    obtain ⟨r, hr, hrem⟩ := removes_deleteFile_iff.mpr ⟨hne, (List.mem_singleton.mp hq).symm⟩
    exact ⟨r, List.mem_append_left _ hr, hrem⟩
  · cases hq

theorem after_eq_false_iff (htype : t.param.type = .kTorrent) {torrentDir : Normal}
    (hok : (t.exceCancel (x.answers d t) (m.refs.isLast t.param.hash)).2 = true)
    (hq : q ∈ x.files t torrentDir) : x.after d t m q = false ↔
      (x.afterLocal d t q = true → m.refs.isLast t.param.hash = true ∧ x.removable q = true) := by
  have hcurl : ¬ t.param.type.isCurl = true := by
    rw [htype]
    decide
  have hnames := removes_of_mem_files hcurl hq
  rw [after_eq, exceCancel, if_neg hcurl, ← Bool.not_eq_true, foldl_remove]
  cases hlast : m.refs.isLast t.param.hash with
  | false => simp [TaskBase.exceCancelRemovals]
  | true =>
    rw [hlast] at hok
    have hcancel : (x.answers d t).cancel = true := cancel_of_asks hok (by simp [TaskBase.asksCancel, htype])
    simp [TaskBase.exceCancelRemovals, htype, hcancel, hnames]

theorem gone_iff_of_kTorrent (htype : t.param.type = .kTorrent) (torrentDir : Normal)
    (hok : (t.exceCancel (x.answers d t) (m.refs.isLast t.param.hash)).2 = true) :
    x.Gone d t torrentDir m ↔ x.Reached d t torrentDir m := by
  have hcurl : ¬ t.param.type.isCurl = true := by
    rw [htype]
    decide
  have hasks : t.asksCancel (m.refs.isLast t.param.hash) = m.refs.isLast t.param.hash := by
    simp [TaskBase.asksCancel, htype]
  constructor
  · rintro ⟨hgone, -⟩
    refine ⟨fun q hq htrue => ?_, fun h => absurd h hcurl⟩
    obtain ⟨hlast, hrem⟩ := (after_eq_false_iff htype hok hq).mp (hgone q hq) htrue
    exact ⟨by rw [hasks, hlast], fun _ => hrem⟩
  · rintro ⟨hasked, -⟩
    refine ⟨fun q hq => (after_eq_false_iff htype hok hq).mpr fun htrue => ?_, fun h => absurd h hcurl⟩
    obtain ⟨hlast, hrem⟩ := hasked q hq htrue
    exact ⟨by rw [← hasks, hlast], hrem htype⟩

end Surroundings

/-- For every permanent deletion with `is_delete_local_file` that is reported as successful, whatever
references other users hold: the files of the task are gone exactly if the engine was asked to cancel
wherever there was one, a torrent file could be removed, and no transfer was completed meanwhile. -/
theorem ownFiles_gone_iff (d : Deletion) (x : Surroundings) (torrentDir : Normal) (ht : s.1.findTask id = some t)
    (hok : Deletion.Reported id s (d.exec s id (x.answers d t))) :
    x.Gone d t torrentDir s.1 ↔ x.Reached d t torrentDir s.1 := by
  have hret := exec_off ht hok.off
  by_cases hcurl : t.param.type.isCurl = true
  · exact Surroundings.gone_iff_of_isCurl hcurl torrentDir hret
  · by_cases htype : t.param.type = .kTorrent
    · exact Surroundings.gone_iff_of_kTorrent htype torrentDir hret
    · -- neither magnet nor ed2k tasks have files of their own here
      have hfiles : x.files t torrentDir = [] := by
        rw [Surroundings.files, if_neg hcurl, if_neg fun h => htype h.1]
      refine iff_of_true ⟨?_, fun h => absurd h hcurl⟩ ⟨?_, fun h => absurd h hcurl⟩ <;>
      · rw [hfiles]
        exact nofun

/-! ## Shared downloads -/

def linkOf (id : String) : UserSelfMgr.Event :=
  .createLink [{ taskId := id, source := "http://h/f", savePath := "/" ++ id, fileName := "f" }]
    (fun _ => { taskHash := "http://h/f" }) fun _ => {}

def torrentOf (id : String) : UserSelfMgr.Event :=
  .createTorrent { taskId := id, source := "/" ++ id ++ "/f.torrent", savePath := "/" ++ id }
    (fun _ => { pathExists := fun _ => true, copyFile := some ("/nas/" ++ id ++ ".torrent"), taskHash := "h" })
    fun _ => {}

def binnedAfter (create : UserSelfMgr.Event) (others : List DownloadManager.Event) : UserSelfMgr :=
  let s := Lib.run DownloadManager.step {}
    (.user "u" create :: others ++ [.user "u" (.delete ["a"] true fun _ => {})])
  s.enter ((s.findUser "u").getD { userId := "u" })

def ownedFiles : Surroundings where
  disk q := q == normal "/a/f.a.nas.tmp".toList || q == normal "/nas/a.torrent".toList

def taskOf (m : UserSelfMgr) : TaskBase := (m.findTask "a").getD { param := { id := "a", url := "" } }

def singleLinkMgr : UserSelfMgr := binnedAfter (linkOf "a") []

def sharedLinkMgr : UserSelfMgr := binnedAfter (linkOf "a") [.user "v" (linkOf "b")]

def sharedTorrentMgr : UserSelfMgr := binnedAfter (torrentOf "a") [.user "v" (torrentOf "b")]

theorem ownFiles_gone_singleLink :
    ownedFiles.Gone .delete (taskOf singleLinkMgr) (normal "/nas".toList) singleLinkMgr := by
  have hlisted : singleLinkMgr.findTask "a" = some (taskOf singleLinkMgr) := by decide +kernel
  refine (ownFiles_gone_iff (s := (singleLinkMgr, {})) .delete ownedFiles _ hlisted
    ⟨by decide +kernel, ⟨?_, ?_⟩, by decide +kernel⟩).mpr ⟨fun q _ _ => ⟨?_, ?_⟩, fun _ _ => ?_⟩
  · exact ((taskOf singleLinkMgr).setTaskStatus .kCompletedDeleted).buildMessageData true
  · decide +kernel
  · decide +kernel
  · exact fun htype => absurd htype (by decide +kernel)
  · decide +kernel

/-- Another user has the same link, or a torrent with the same infohash: the deletion is reported as
successful, and the temporary file and the copy of the torrent file are left. -/
theorem shared_left :
    (Deletion.Reported "a" (sharedLinkMgr, {}) (Deletion.delete.exec (sharedLinkMgr, {}) "a"
        (ownedFiles.answers .delete (taskOf sharedLinkMgr))) ∧
      ¬ ownedFiles.Gone .delete (taskOf sharedLinkMgr) (normal "/nas".toList) sharedLinkMgr) ∧
    Deletion.Reported "a" (sharedTorrentMgr, {}) (Deletion.delete.exec (sharedTorrentMgr, {}) "a"
        (ownedFiles.answers .delete (taskOf sharedTorrentMgr))) ∧
      ¬ ownedFiles.Gone .delete (taskOf sharedTorrentMgr) (normal "/nas".toList) sharedTorrentMgr := by
  refine ⟨⟨⟨by decide +kernel, ⟨(taskOf sharedLinkMgr).buildMessageData true, by decide +kernel⟩,
    by decide +kernel⟩, fun h => ?_⟩, ⟨by decide +kernel, ⟨(taskOf sharedTorrentMgr).buildMessageData true,
    by decide +kernel⟩, by decide +kernel⟩, fun h => ?_⟩
  · exact absurd (h.1 (normal "/a/f.a.nas.tmp".toList) (by decide +kernel)) (by decide +kernel)
  · exact absurd (h.1 (normal "/nas/a.torrent".toList) (by decide +kernel)) (by decide +kernel)

end Nas.Download
