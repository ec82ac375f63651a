import NasServices.Mule.MuleDownloadTaskImpl
import Mathlib.Tactic.NormNum

/-!
# A finished ed2k download and its file

`GetProgressInfo` moves a completed file to the save path of the task, and reports that the download
is finished whether the move has succeeded or not: `getProgressInfo_inPlace_iff` says exactly when
the file is there, and nothing has been lost for it. The move names the file as the part file is
named; an object that is made anew looks for the requested name (`rebuilt_recognises_iff`).
-/

namespace Nas.Mule

open Lib Lib.LexicalPath

variable {Key : Type} [DecidableEq Key]

def Report.Finished (r : Report Key) : Prop :=
  r.answer = true ∧ r.info.totalProgress = 100 ∧ r.info.errCode = .kNormal

instance (r : Report Key) : Decidable r.Finished := inferInstanceAs (Decidable (_ ∧ _ ∧ _))

namespace MuleDownloadTaskImpl

variable {t : MuleDownloadTaskImpl Key} {c : Call} {w : World Key} {f : PartFile}

/-- A part file is found and nothing has changed, or none is found and the most that has changed is
what is shared. -/
theorem getPartFile_cases (t : MuleDownloadTaskImpl Key) (w : World Key) :
    (∃ f, t.getPartFile w = (some f, w)) ∨
      ∃ shared, t.getPartFile w = (none, { w with sharedFiles := shared }) := by
  unfold getPartFile
  cases t.fileLink with
  | none => exact .inr ⟨w.sharedFiles, rfl⟩
  | some link =>
    have hexisting : w.isFileExisting link.hashKey = (true, w) ∨
        ∃ shared, w.isFileExisting link.hashKey = (false, { w with sharedFiles := shared }) := by
      unfold World.isFileExisting
      split
      · split_ifs
        · exact .inl rfl
        · exact .inl rfl
        · exact .inr ⟨_, rfl⟩
      · cases (w.getFileByID link.hashKey).isSome with
        | true => exact .inl rfl
        | false => exact .inr ⟨w.sharedFiles, rfl⟩
    obtain h | ⟨shared, h⟩ := hexisting
    · simp only [h]
      cases w.getFileByID link.hashKey with
      | none => exact .inr ⟨w.sharedFiles, rfl⟩
      | some f => exact .inl ⟨f, rfl⟩
    · simp only [h]
      exact .inr ⟨shared, rfl⟩

theorem getPartFile_of_some (h : (t.getPartFile w).1 = some f) : t.getPartFile w = (some f, w) := by
  obtain ⟨g, hg⟩ | ⟨shared, hnone⟩ := t.getPartFile_cases w
  · rw [hg] at h ⊢
    rw [show some g = some f from h]
  · rw [hnone] at h
    cases h

/-! ## The move -/

def Moves (c : Call) (w : World Key) (f : PartFile) : Prop :=
  c.mayRename = true ∧ (w.files (sourcePath f)).isSome = true

instance (c : Call) (w : World Key) (f : PartFile) : Decidable (Moves c w f) :=
  inferInstanceAs (Decidable (_ ∧ _))

theorem renameTempFile_files_of_moves (h : (t.getPartFile w).1 = some f) (hmoves : Moves c w f) :
    (t.renameTempFile c w).2.files =
      ((w.files.rename true (sourcePath f) (t.saveFilePath f)).1.remove
        (c.mayRemove t.tmpFilePath) t.tmpFilePath).1 := by
  obtain ⟨hmay, hsome⟩ := hmoves
  obtain ⟨n, hn⟩ := Option.isSome_iff_exists.mp hsome
  unfold renameTempFile
  rw [getPartFile_of_some h]
  dsimp only
  rw [hmay, NumberedFiles.rename_of_some hn]
  dsimp only
  split <;> rename_i hremove <;> rw [hremove]

theorem renameTempFile_files_of_not (h : (t.getPartFile w).1 = some f) (hmoves : ¬ Moves c w f) :
    (t.renameTempFile c w).2.files = w.files := by
  unfold renameTempFile
  rw [getPartFile_of_some h]
  dsimp only
  rw [NumberedFiles.rename_of_not hmoves]

theorem renameTempFile_target (h : (t.getPartFile w).1 = some f) (hmoves : Moves c w f) :
    (t.renameTempFile c w).2.files (t.saveFilePath f) =
      if t.tmpFilePath = t.saveFilePath f ∧ c.mayRemove t.tmpFilePath = true then none
      else w.files (sourcePath f) := by
  rw [renameTempFile_files_of_moves h hmoves]
  obtain ⟨n, hn⟩ := Option.isSome_iff_exists.mp hmoves.2
  rw [NumberedFiles.rename_of_some hn, hn]
  by_cases htmp : t.tmpFilePath = t.saveFilePath f
  · rw [htmp]
    cases c.mayRemove (t.saveFilePath f) with
    | true => simp [NumberedFiles.remove_self]
    | false => simp [NumberedFiles.remove]
  · rw [NumberedFiles.remove_of_ne (Ne.symm htmp), if_neg fun h => htmp h.1]
    exact Function.update_self _ _ _

/-- The completed file has come to `path`, so this is the path that the task saves to. -/
theorem eq_saveFilePath_of_renameTempFile {path : Text} (h : (t.getPartFile w).1 = some f)
    (hpath : (t.renameTempFile c w).2.files path = some f.content) (hnew : w.files path ≠ some f.content) :
    path = t.saveFilePath f := by
  by_cases hmoves : Moves c w f
  · rw [renameTempFile_files_of_moves h hmoves] at hpath
    exact NumberedFiles.eq_of_rename (NumberedFiles.of_remove hpath) hnew
  · rw [renameTempFile_files_of_not h hmoves] at hpath
    exact absurd hpath hnew

/-! ## One call of `GetProgressInfo` -/

def FindsCompleted (t : MuleDownloadTaskImpl Key) (c : Call) (f : PartFile) : Prop :=
  t.cancelled = false ∧ f.fileSize ≤ c.free ∧ f.isCompleted = true

instance (t : MuleDownloadTaskImpl Key) (c : Call) (f : PartFile) : Decidable (FindsCompleted t c f) :=
  inferInstanceAs (Decidable (_ ∧ _ ∧ _))

@[simp] theorem modifyFile_files (w : World Key) (key : Key) (g : PartFile → PartFile) :
    (w.modifyFile key g).files = w.files := by
  unfold World.modifyFile
  split <;> rfl

@[simp] theorem pause_files (t : MuleDownloadTaskImpl Key) (w : World Key) : (t.pause w).files = w.files := by
  unfold pause
  obtain ⟨f, h⟩ | ⟨shared, h⟩ := t.getPartFile_cases w <;> rw [h] <;> cases t.fileLink
  case inl.some link => exact modifyFile_files w link.hashKey PartFile.pauseFile
  all_goals rfl

/-- A call that finds a completed file reports the end of the download, however the move has gone. -/
theorem getProgressInfo_of_completed (h : (t.getPartFile w).1 = some f) (hf : FindsCompleted t c f)
    {info : DownloadProgressInfo} (hinfo : info.errCode = .kNormal) :
    (t.getProgressInfo c w info).Finished ∧
      (t.getProgressInfo c w info).world = (t.renameTempFile c w).2 := by
  obtain ⟨hcancel, hroom, hcompleted⟩ := hf
  have hstatus : f.status = .complete := by simpa [PartFile.isCompleted] using hcompleted
  unfold getProgressInfo
  rw [getPartFile_of_some h]
  simp [hcancel, Nat.not_lt.mpr hroom, hcompleted, hstatus, hinfo, Report.Finished]

/-- What is reported of a file that is not completed stays below a hundred. -/
theorem cutOff_ne_hundred (f : PartFile) : (if percent f > 999 / 10 then 999 / 10 else percent f) ≠ 100 := by
  intro h
  split at h
  · norm_num at h
  · rename_i hle
    rw [h] at hle
    norm_num at hle

/-- Any other call moves nothing, and does not report the end. -/
theorem getProgressInfo_of_not (h : ∀ f, (t.getPartFile w).1 = some f → ¬ FindsCompleted t c f)
    (info : DownloadProgressInfo) :
    ¬ (t.getProgressInfo c w info).Finished ∧ (t.getProgressInfo c w info).world.files = w.files := by
  unfold getProgressInfo
  obtain ⟨f, hpart⟩ | ⟨shared, hpart⟩ := t.getPartFile_cases w
  · have hf : ¬ FindsCompleted t c f := h f (by rw [hpart])
    rw [hpart]
    dsimp only
    by_cases hcancel : t.cancelled = true
    · simp [hcancel, Report.Finished]
    by_cases hroom : c.free < f.fileSize
    · simp [hcancel, hroom, Report.Finished]
    have hcompleted : f.isCompleted = false := by
      rw [Bool.eq_false_iff]
      exact fun hc => hf ⟨by simpa using hcancel, Nat.not_lt.mp hroom, hc⟩
    rw [if_neg hcancel, if_neg hroom]
    simp only [hcompleted, Bool.false_eq_true, if_false]
    exact ⟨fun h => cutOff_ne_hundred f h.2.1, trivial⟩
  · rw [hpart]
    simp [Report.Finished]

/-- The end of the download is reported only with the completed file at its place in the save path,
and the file that was there before is there still. -/
def InPlace (t : MuleDownloadTaskImpl Key) (c : Call) (w : World Key) (total : ℚ) : Prop :=
  let r := t.getProgressInfo c w { totalProgress := total }
  (r.Finished → ∃ f, (t.getPartFile w).1 = some f ∧ r.world.files (t.saveFilePath f) = some f.content) ∧
  ∀ f, (t.getPartFile w).1 = some f → ∀ n, w.files (t.saveFilePath f) = some n →
    r.world.files (t.saveFilePath f) = some n

/-- The completed file can be moved to a place that is free, and is not taken for the temporary file there;
or it cannot be moved, and is at its place already. -/
def FindsItsPlace (t : MuleDownloadTaskImpl Key) (c : Call) (w : World Key) (f : PartFile) : Prop :=
  if Moves c w f then
    w.files (sourcePath f) = some f.content ∧
    (w.files (t.saveFilePath f) = none ∨ w.files (t.saveFilePath f) = some f.content) ∧
    ¬ (t.tmpFilePath = t.saveFilePath f ∧ c.mayRemove t.tmpFilePath = true)
  else w.files (t.saveFilePath f) = some f.content

theorem target_iff_findsItsPlace (h : (t.getPartFile w).1 = some f) :
    ((t.renameTempFile c w).2.files (t.saveFilePath f) = some f.content ∧
      ∀ n, w.files (t.saveFilePath f) = some n →
        (t.renameTempFile c w).2.files (t.saveFilePath f) = some n) ↔ FindsItsPlace t c w f := by
  unfold FindsItsPlace
  by_cases hmoves : Moves c w f
  · rw [if_pos hmoves, renameTempFile_target h hmoves]
    by_cases htmp : t.tmpFilePath = t.saveFilePath f ∧ c.mayRemove t.tmpFilePath = true
    · rw [if_pos htmp]
      exact ⟨fun h => (Option.some_ne_none _ h.1.symm).elim, fun h => absurd htmp h.2.2⟩
    · rw [if_neg htmp]
      constructor
      · rintro ⟨hsrc, hkept⟩
        refine ⟨hsrc, ?_, htmp⟩
        cases htarget : w.files (t.saveFilePath f) with
        | none => exact .inl rfl
        | some n => exact .inr ((hkept n htarget).symm.trans hsrc)
      · rintro ⟨hsrc, hfree | hsame, -⟩
        · exact ⟨hsrc, fun n hn => by rw [hfree] at hn; cases hn⟩
        · exact ⟨hsrc, fun n hn => hsrc.trans (hsame.symm.trans hn)⟩
  · rw [if_neg hmoves, renameTempFile_files_of_not h hmoves]
    exact ⟨fun h => h.1, fun h => ⟨h, fun n hn => hn⟩⟩

/-- In every state of the engine and of the file system, and whatever the calls of the file system do. -/
theorem getProgressInfo_inPlace_iff (t : MuleDownloadTaskImpl Key) (c : Call) (w : World Key) (total : ℚ) :
    InPlace t c w total ↔
      ∀ f, (t.getPartFile w).1 = some f → FindsCompleted t c f → FindsItsPlace t c w f := by
  by_cases hfinds : ∃ f, (t.getPartFile w).1 = some f ∧ FindsCompleted t c f
  · obtain ⟨f, hpart, hcompleted⟩ := hfinds
    have honly : ∀ {g}, (t.getPartFile w).1 = some g → g = f := by
      intro g hg
      exact Option.some.inj (hg.symm.trans hpart)
    have hinfo : ({ totalProgress := total } : DownloadProgressInfo).errCode = .kNormal := rfl
    obtain ⟨hfinished, hworld⟩ := getProgressInfo_of_completed hpart hcompleted hinfo
    have hplace : InPlace t c w total ↔ FindsItsPlace t c w f := by
      rw [← target_iff_findsItsPlace hpart]
      unfold InPlace
      dsimp only
      rw [hworld]
      constructor
      · rintro ⟨hthere, hkept⟩
        obtain ⟨g, hg, hcontent⟩ := hthere hfinished
        obtain rfl := honly hg
        exact ⟨hcontent, hkept g hg⟩
      · rintro ⟨hthere, hkept⟩
        refine ⟨fun _ => ⟨f, hpart, hthere⟩, fun g hg => ?_⟩
        obtain rfl := honly hg
        exact hkept
    rw [hplace]
    refine ⟨fun h g hg _ => ?_, fun h => h f hpart hcompleted⟩
    obtain rfl := honly hg
    exact h
  · have hnot : ∀ f, (t.getPartFile w).1 = some f → ¬ FindsCompleted t c f :=
      fun f hpart hcompleted => hfinds ⟨f, hpart, hcompleted⟩
    obtain ⟨hunfinished, hfiles⟩ := getProgressInfo_of_not hnot { totalProgress := total }
    refine ⟨fun _ f hpart hcompleted => absurd hcompleted (hnot f hpart), fun _ => ?_⟩
    refine ⟨fun h => absurd h hunfinished, fun f _ n hn => ?_⟩
    rw [hfiles]
    exact hn

def film : PartFile where
  filePath := "/incoming".toList
  fileName := "film.avi".toList
  fileSize := 700
  status := .complete
  content := 1

/-- The completed film in the directory of the engine, for tasks with the key 7. -/
def filmWorld (more : List (String × Nat)) : World Nat where
  files p := ((("/incoming/film.avi", 1) :: more).find? fun x : String × Nat => x.1.toList = p).map (·.2)
  sharedFiles key := if key = 7 then some ⟨false, film.filePath, film.fileName⟩ else none
  fileList _ := none
  completedDownloads key := if key = 7 then some film else none

def filmTask (id savePath fileName : String) : MuleDownloadTaskImpl Nat :=
  setParam ⟨id.toList, savePath.toList, fileName.toList⟩ (some ⟨7, film.fileName⟩)

/-- The renaming fails and the download is finished; another file is replaced; and of two tasks for the same
film the second one finishes without a file, at its second look. -/
theorem finished_without_file :
    let failed := (filmTask "1" "/nas/a" "film.avi").getProgressInfo ⟨1000, false, fun _ => true⟩
      (filmWorld []) {}
    let replaced := (filmTask "1" "/nas/a" "film.avi").getProgressInfo ⟨1000, true, fun _ => true⟩
      (filmWorld [("/nas/a/film.avi", 5), ("/nas/a/film.avi.1.nas.tmp", 2)]) {}
    let first := (filmTask "1" "/nas/a" "film.avi").getProgressInfo ⟨1000, true, fun _ => true⟩
      (filmWorld [("/nas/a/film.avi.1.nas.tmp", 2), ("/nas/b/film.avi.2.nas.tmp", 3)]) {}
    let look := (filmTask "2" "/nas/b" "film.avi").getProgressInfo ⟨1000, true, fun _ => true⟩ first.world {}
    let second := (filmTask "2" "/nas/b" "film.avi").getProgressInfo ⟨1000, true, fun _ => true⟩ look.world {}
    (failed.Finished ∧ failed.world.files "/nas/a/film.avi".toList = none) ∧
    replaced.world.files "/nas/a/film.avi".toList = some 1 ∧
    first.Finished ∧ look.answer = false ∧
    second.Finished ∧ second.world.files "/nas/b/film.avi".toList = none := by
  decide +kernel

/-! ## The object that is made after a restart -/

omit [DecidableEq Key] in
theorem removeIfExists_permitted (w : World Key) {path : Text} (hmay : c.mayRemove path = true) :
    (removeIfExists c w path).2 = true ∧ (removeIfExists c w path).1.files path = none ∧
      ∀ p, w.files p = none → (removeIfExists c w path).1.files p = none := by
  unfold removeIfExists
  rw [hmay]
  split
  · rename_i hsome
    exact ⟨NumberedFiles.remove_true_of_isSome hsome, NumberedFiles.remove_self _ _,
      fun p hp => NumberedFiles.remove_eq_none hp⟩
  · rename_i hnone
    exact ⟨rfl, by simpa using hnone, fun p hp => hp⟩

theorem foldl_remove_eq_none {files : NumberedFiles Text} {p : Text} (h : files p = none) (paths : List Text) :
    paths.foldl (fun fs path => (fs.remove (c.mayRemove path) path).1) files p = none := by
  induction paths generalizing files with
  | nil => exact h
  | cons path paths ih => exact ih (NumberedFiles.remove_eq_none h)

theorem deletePartFile_eq_none {p : Text} (h : w.files p = none) : (t.deletePartFile c w).files p = none := by
  unfold deletePartFile
  obtain ⟨f, hpart⟩ | ⟨shared, hpart⟩ := t.getPartFile_cases w <;> rw [hpart] <;> cases t.fileLink
  case inl.some link => exact foldl_remove_eq_none h f.ownFiles
  all_goals exact h

theorem cancel_removes (hmay : ∀ p, c.mayRemove p = true) :
    (t.cancel c w true).2.1.files t.finalFilePath = none := by
  obtain ⟨htmp, -, -⟩ := removeIfExists_permitted w (hmay t.tmpFilePath)
  obtain ⟨hfinal, hgone, -⟩ :=
    removeIfExists_permitted (removeIfExists c w t.tmpFilePath).1 (hmay t.finalFilePath)
  unfold cancel
  dsimp only
  rw [if_pos rfl, show removeIfExists c w t.tmpFilePath = (_, true) from Prod.ext rfl htmp]
  dsimp only
  rw [show removeIfExists c _ t.finalFilePath = (_, true) from Prod.ext rfl hfinal]
  exact deletePartFile_eq_none hgone

def restarted (files : NumberedFiles Text) : World Key := ⟨files, fun _ => none, fun _ => none, fun _ => none⟩

theorem cancel_restarted {files : NumberedFiles Text} (htmp : files t.tmpFilePath = none)
    (hfinal : files t.finalFilePath = none) :
    (t.cancel c (restarted files) true).2.1.files = files := by
  have hdelete : ({ t with cancelled := true }.deletePartFile c (restarted files)).files = files := by
    unfold deletePartFile
    cases t.fileLink <;> simp [getPartFile, World.isFileExisting, World.getFileByID, restarted]
  have habsent : ∀ {p}, files p = none →
      removeIfExists c (restarted files : World Key) p = (restarted files, true) := by
    intro p hp
    simp [removeIfExists, restarted, hp]
  unfold cancel
  dsimp only
  rw [if_pos rfl, habsent htmp]
  dsimp only
  rw [habsent hfinal]
  exact hdelete

/-- The new object says whether the moved file is still there, and removes it when it is deleted. `asked` says
whether `Valid(true)` has been called on the object before. -/
def Recognises (param : Param) (fileLink : Option (FileLink Key)) (moved : Text) (asked : Bool) : Prop :=
  ∀ w : World Key,
    ((setParam param fileLink).valid w true).2 = (w.files moved).isSome ∧
    ∀ c : Call, (∀ p, c.mayRemove p = true) →
      let rebuilt := if asked then ((setParam param fileLink).valid w true).1 else setParam param fileLink
      (rebuilt.cancel c w true).2.1.files moved = none

omit [DecidableEq Key] in
theorem getTempFilePath_ne (param : Param) (fileLink : Option (FileLink Key)) :
    getTempFilePath param fileLink ≠ param.savePath ++ '/' :: param.fileName := by
  intro h
  have hlength := congrArg List.length h
  unfold getTempFilePath at hlength
  split at hlength
  · rename_i hempty
    split at hlength <;> simp [hempty] at hlength
  · simp at hlength

omit [DecidableEq Key] in
theorem valid_setParam (param : Param) (fileLink : Option (FileLink Key)) (w : World Key) :
    (setParam param fileLink).valid w true =
      ({ setParam param fileLink with finalFilePath := param.savePath ++ '/' :: param.fileName },
        (w.files (param.savePath ++ '/' :: param.fileName)).isSome) := rfl

theorem rebuilt_recognises_iff {path : Text} (h : (t.getPartFile w).1 = some f)
    (hmoved : (t.renameTempFile c w).2.files path = some f.content) (hnew : w.files path ≠ some f.content)
    (asked : Bool) :
    Recognises t.param t.fileLink path asked ↔ t.param.fileName = f.fileName ∧ asked = true := by
  obtain rfl := eq_saveFilePath_of_renameTempFile h hmoved hnew
  -- The world after the restart that has the moved file and nothing else.
  let files : NumberedFiles Text := Function.update (fun _ => none) (t.saveFilePath f) (some 0)
  have hother : ∀ p, p ≠ t.saveFilePath f → files p = none := fun p hp => Function.update_of_ne hp _ _
  have hthere : files (t.saveFilePath f) = some 0 := Function.update_self _ _ _
  constructor
  · intro hrec
    obtain ⟨hvalid, hcancel⟩ := hrec (restarted files)
    have hname : t.param.savePath ++ '/' :: t.param.fileName = t.saveFilePath f := by
      by_contra hne
      rw [valid_setParam] at hvalid
      simp [restarted, hother _ hne, hthere] at hvalid
    refine ⟨by simpa [saveFilePath] using hname, ?_⟩
    -- An object that was not asked does not know the path.
    by_contra hasked
    have hkept := hcancel ⟨0, true, fun _ => true⟩ fun _ => rfl
    simp only [hasked] at hkept
    have htmp : files (setParam t.param t.fileLink).tmpFilePath = none :=
      hother _ fun htmp => getTempFilePath_ne t.param t.fileLink (htmp.trans hname.symm)
    have hfinal : files (setParam t.param t.fileLink).finalFilePath = none :=
      hother _ fun hfinal => by simp [setParam, saveFilePath] at hfinal
    rw [if_neg (by decide), cancel_restarted htmp hfinal, hthere] at hkept
    cases hkept
  · rintro ⟨hname, rfl⟩ w'
    rw [valid_setParam]
    have hpath : t.param.savePath ++ '/' :: t.param.fileName = t.saveFilePath f := by rw [hname]; rfl
    refine ⟨by rw [hpath], fun c' hmay => ?_⟩
    rw [if_pos rfl, ← hpath]
    exact cancel_removes hmay

theorem rebuilt_recognises_film :
    Recognises (filmTask "1" "/nas/a" "film.avi").param (filmTask "1" "/nas/a" "film.avi").fileLink
      "/nas/a/film.avi".toList true :=
  (rebuilt_recognises_iff (t := filmTask "1" "/nas/a" "film.avi") (c := ⟨1000, true, fun _ => true⟩)
    (w := filmWorld [("/nas/a/film.avi.1.nas.tmp", 2)]) (f := film) (by decide +kernel) (by decide +kernel)
    (by decide +kernel) true).mpr (by decide)

/-- The film was requested under another name: it is moved, the new object says that it is missing,
and leaves it behind when it is deleted. -/
theorem renamed_film_not_recognised :
    let task := filmTask "1" "/nas/a" "my film.avi"
    let call : Call := ⟨1000, true, fun _ => true⟩
    let moved := (task.renameTempFile call (filmWorld [("/nas/a/my film.avi.1.nas.tmp", 2)])).2.files
    let asked := (setParam task.param task.fileLink).valid (restarted moved) true
    moved "/nas/a/film.avi".toList = some 1 ∧ asked.2 = false ∧
      (asked.1.cancel call (restarted moved) true).2.1.files "/nas/a/film.avi".toList = some 1 := by
  decide +kernel

end MuleDownloadTaskImpl

end Nas.Mule
