import NasServices.Download.Runner

/-!
# The outcome of one round

A round of a request is about one task. It adds at most one entry to the reply, for
that task (`Entry`), and a round that deletes leaves the task alone, puts it into the
recycle bin or takes it off the list; of these it reports the last two as successes
(`Outcome`). Which tasks a request puts into the bin is a predicate on the task
(`recyclesById`, `recyclesCategory`, `recyclesInvalid`).
-/

namespace Nas.Download

theorem TaskBase.deleteToRecycleBin_snd (t : TaskBase) (a : Answer) : (t.deleteToRecycleBin a).2 = t.hasImpl := by
  unfold deleteToRecycleBin
  cases t.hasImpl
  · rfl
  · dsimp only [Bool.not_true]
    split
    · contradiction
    · split <;> rfl

theorem TaskBase.deleteToRecycleBin_isValid (t : TaskBase) (a : Answer) :
    (t.deleteToRecycleBin a).1.isValid = t.isValid := by
  unfold deleteToRecycleBin
  split
  · rfl
  · split <;> rfl

namespace UserSelfMgr

variable {m : UserSelfMgr} {id : String} {t : TaskBase} {r r' : Reply} {a : Answer}

theorem ListedById.param_id (hm : m.ListedById) (ht : m.findTask id = some t) : t.param.id = id :=
  hm id t.param (by rw [paramOf, ht, Option.map_some])

/-! ## Entries -/

inductive Entry (id : String) (r : Reply) : Option Bool → Reply → Prop
  | nothing : Entry id r none r
  | success {d : SuccessData} (hd : d.taskId = id) :
    Entry id r (some true) { r with successList := r.successList ++ [d] }
  | failed {d : FailedData} (hd : d.taskId = id) :
    Entry id r (some false) { r with failedList := r.failedList ++ [d] }

theorem buildMessageData_entry (m : UserSelfMgr) (id : String)
    (hid : ∀ t, m.findTask id = some t → t.param.id = id) (err : DownloadErrorCode) (isDelete : Bool) (r : Reply) :
    Entry id r ((m.findTask id).map fun _ => decide (err = .kNormal)) (m.buildMessageData id err isDelete r) := by
  unfold buildMessageData
  rcases ht : m.findTask id with _ | t
  · exact .nothing
  · rw [Option.map_some]
    dsimp only
    split
    · rename_i herr
      rw [decide_eq_false herr]
      exact .failed rfl
    · rename_i herr
      rw [decide_eq_true (not_not.mp herr)]
      exact .success (hid t ht)

theorem buildMessageData_entry_of_findTask (ht : m.findTask id = some t) (hid : t.param.id = id)
    (err : DownloadErrorCode) (isDelete : Bool) (r : Reply) :
    Entry id r (some (decide (err = .kNormal))) (m.buildMessageData id err isDelete r) := by
  have hentry := buildMessageData_entry m id (fun t' ht' => ?_) err isDelete r
  · rwa [ht, Option.map_some] at hentry
  · rw [ht] at ht'
    rw [← Option.some.inj ht', hid]

/-! ## Deletion -/

theorem removeTask_eq (m : UserSelfMgr) (id : String) (t : TaskBase) (a : Answer)
    (report : UserSelfMgr → Bool → Reply) :
    m.removeTask id t a report =
      (if (m.cancel id t a).2 then (m.cancel id t a).1.erase id else (m.cancel id t a).1,
        report (m.cancel id t a).1 (m.cancel id t a).2) := by
  unfold removeTask
  rcases m.cancel id t a with ⟨m', _ | _⟩ <;> rfl

theorem findTask_cancel (m : UserSelfMgr) (id : String) (t : TaskBase) (a : Answer) :
    (m.cancel id t a).1.findTask id = some (m.releaseTask t a).2.1 := findTask_setTask ..

theorem findTask_cancel_of_false (h : (m.cancel id t a).2 = false) : (m.cancel id t a).1.findTask id = some t := by
  have hr : m.releaseTask t a = ((m.releaseTask t a).1, (m.releaseTask t a).2.1, false) := by
    rw [← h]
    rfl
  rw [findTask_cancel, releaseTask_of_false hr]

inductive Outcome (recycles : TaskBase → Bool) (a : Answer) :
    Option TaskBase → Option TaskBase → Option Bool → Prop
  | absent {e : Option Bool} (he : e ≠ some true) : Outcome recycles a none none e
  | kept {t : TaskBase} {e : Option Bool} (h : recycles t = false) (he : e ≠ some true) :
    Outcome recycles a (some t) (some t) e
  | binned {t : TaskBase} (h : recycles t = true) :
    Outcome recycles a (some t) (some (t.deleteToRecycleBin a).1) (some true)
  | removed {t : TaskBase} (h : recycles t = false) : Outcome recycles a (some t) none (some true)

theorem binned_entry (hid : t.param.id = id) (a : Answer) (isDelete : Bool) (r : Reply) : Entry id r (some true)
    ((m.setTask id (t.deleteToRecycleBin a).1).buildMessageData id .kNormal isDelete r) :=
  buildMessageData_entry_of_findTask (findTask_setTask ..)
    (by rw [(t.deleteToRecycleBin_logged a).param, hid]) .kNormal isDelete r

abbrev Ran (recycles : TaskBase → Bool) (a : Answer) (id : String) (s s' : UserSelfMgr × Reply)
    (e : Option Bool) : Prop :=
  Entry id s.2 e s'.2 ∧ Outcome recycles a (s.1.findTask id) (s'.1.findTask id) e

section

variable {recycles : TaskBase → Bool}

theorem ran_absent (ht : m.findTask id = none) {e : Option Bool} (he : e ≠ some true) (hentry : Entry id r e r') :
    Ran recycles a id (m, r) (m, r') e :=
  ⟨hentry, by rw [ht]; exact .absent he⟩

theorem ran_kept (ht : m.findTask id = some t) (hrec : recycles t = false) {e : Option Bool} (he : e ≠ some true)
    (hentry : Entry id r e r') : Ran recycles a id (m, r) (m, r') e :=
  ⟨hentry, by rw [ht]; exact .kept hrec he⟩

theorem ran_binned (ht : m.findTask id = some t) (hid : t.param.id = id) (hrec : recycles t = true) (isDelete : Bool)
    (r : Reply) : Ran recycles a id (m, r) (m.setTask id (t.deleteToRecycleBin a).1,
      (m.setTask id (t.deleteToRecycleBin a).1).buildMessageData id .kNormal isDelete r) (some true) := by
  refine ⟨binned_entry hid a isDelete r, ?_⟩
  rw [ht, findTask_setTask]
  exact .binned hrec

theorem ran_removeTask (ht : m.findTask id = some t) (hrec : recycles t = false)
    (report : UserSelfMgr → Bool → Reply) (hreport : ∀ ok, Entry id r (some ok) (report (m.cancel id t a).1 ok)) :
    ∃ ok, Ran recycles a id (m, r) (m.removeTask id t a report) (some ok) := by
  refine ⟨(m.cancel id t a).2, ?_, ?_⟩
  · rw [removeTask_eq]
    exact hreport _
  · rw [ht, removeTask_eq]
    cases hok : (m.cancel id t a).2
    · rw [if_neg Bool.false_ne_true, findTask_cancel_of_false hok]
      exact .kept hrec (by simp)
    · rw [if_pos rfl, findTask_erase]
      exact .removed hrec

end

theorem cancel_entry (hid : t.param.id = id) (err : DownloadErrorCode) (isDelete : Bool) (r : Reply) :
    Entry id r (some (decide (err = .kNormal))) ((m.cancel id t a).1.buildMessageData id err isDelete r) :=
  buildMessageData_entry_of_findTask (findTask_cancel m id t a) (by rw [releaseTask_param, hid]) err isDelete r

theorem removeError_entry (hid : t.param.id = id) (ok isDelete : Bool) (r : Reply) :
    Entry id r (some ok) ((m.cancel id t a).1.buildMessageData id (removeError ok) isDelete r) := by
  cases ok
  · exact cancel_entry hid .kDeleteTaskFailed isDelete r
  · exact cancel_entry hid .kNormal isDelete r

theorem ran_removeError {recycles : TaskBase → Bool} (ht : m.findTask id = some t) (hrec : recycles t = false)
    (hid : t.param.id = id) (isDelete : Bool) (r : Reply) :
    ∃ e, Ran recycles a id (m, r)
      (m.removeTask id t a fun m ok => m.buildMessageData id (removeError ok) isDelete r) e := by
  obtain ⟨ok, hok⟩ := ran_removeTask ht hrec (fun m ok => m.buildMessageData id (removeError ok) isDelete r)
    fun ok => removeError_entry hid ok isDelete r
  exact ⟨some ok, hok⟩

def recyclesById (isJudgeTaskValid : Bool) (t : TaskBase) : Bool :=
  decide (t.taskCategory ≠ .kRecyclebinTask) && !(isJudgeTaskValid && t.isValid) && t.hasImpl

/-- A round of `ExecDeleteOperate` adds one entry, whatever it finds. -/
theorem execDeleteOperate_outcome (isDeleteLocalFile isJudgeTaskValid : Bool) {s : UserSelfMgr × Reply}
    (hs : s.1.ListedById) (id : String) (a : Answer) :
    ∃ ok, Ran (recyclesById isJudgeTaskValid) a id s (execDeleteOperate isDeleteLocalFile isJudgeTaskValid s id a)
      (some ok) := by
  obtain ⟨m, r⟩ := s
  rcases ht : m.findTask id with _ | t <;> simp only [execDeleteOperate, ht]
  · exact ⟨false, ran_absent ht (by simp) (.failed rfl)⟩
  · have hid : t.param.id = id := hs.param_id ht
    have hfails {err : DownloadErrorCode} (hrec : recyclesById isJudgeTaskValid t = false) :
        ∃ ok, Ran (recyclesById isJudgeTaskValid) a id (m, r)
          (m, { r with failedList := r.failedList ++ [{ taskId := id, errCode := err }] }) (some ok) :=
      ⟨false, ran_kept ht hrec (by simp) (.failed rfl)⟩
    split
    · rename_i hjudge
      exact hfails (by simp [recyclesById, hjudge])
    · rename_i hjudge
      split
      · rename_i hbin
        have hrec : recyclesById isJudgeTaskValid t = false := by simp [recyclesById, hbin]
        split
        · exact hfails hrec
        · refine ran_removeTask ht hrec _ fun ok => ?_
          cases ok
          · exact .failed rfl
          · exact cancel_entry hid .kNormal true r
      · rename_i hbin
        have hsnd := t.deleteToRecycleBin_snd a
        have hbinned (h : recyclesById isJudgeTaskValid t = true) := ran_binned (a := a) ht hid h true r
        rcases hdel : t.deleteToRecycleBin a with ⟨t', _ | _⟩ <;> rw [hdel] at hsnd hbinned
        · exact hfails (by simp [recyclesById, ← hsnd])
        · exact ⟨true, hbinned (by simp [recyclesById, ← hsnd, hbin, hjudge])⟩

def recyclesCategory (taskCategory : TaskCategory) (t : TaskBase) : Bool :=
  decide (taskCategory ≠ .kAll) && decide (taskCategory ≠ .kRecyclebinTask) && decide (t.taskCategory = taskCategory)

theorem execDeleteCategoryOperate_outcome (taskCategory : TaskCategory) (isDeleteLocalFile : Bool)
    {s : UserSelfMgr × Reply} (hs : s.1.ListedById) (id : String) (a : Answer) :
    ∃ e, Ran (recyclesCategory taskCategory) a id s
      (execDeleteCategoryOperate taskCategory isDeleteLocalFile s id a) e := by
  obtain ⟨m, r⟩ := s
  rcases ht : m.findTask id with _ | t <;> simp only [execDeleteCategoryOperate, ht]
  · exact ⟨none, ran_absent ht (by simp) .nothing⟩
  · have hid : t.param.id = id := hs.param_id ht
    split
    · rename_i hall
      exact ran_removeError ht (by simp [recyclesCategory, hall]) hid true r
    · rename_i hall
      split
      · rename_i hne
        exact ⟨none, ran_kept ht (by simp [recyclesCategory, hne]) (by simp) .nothing⟩
      · rename_i hne
        split
        · rename_i hbin
          have hrec : recyclesCategory taskCategory t = false := by simp [recyclesCategory, hbin]
          split
          · exact ⟨some false, ran_kept ht hrec (by simp)
              (buildMessageData_entry_of_findTask ht hid .kDeleteLocalFileFailed true r)⟩
          · exact ran_removeError ht hrec hid true r
        · rename_i hbin
          exact ⟨some true, ran_binned ht hid (by simp [recyclesCategory, hall, hbin, not_not.mp hne]) true r⟩

def recyclesInvalid (taskCategory : TaskCategory) (t : TaskBase) : Bool :=
  decide (taskCategory ≠ .kRecyclebinTask) && decide (t.taskCategory = taskCategory) && !t.isValid

theorem execCleanCategoryOperate_outcome (taskCategory : TaskCategory) {s : UserSelfMgr × Reply}
    (hs : s.1.ListedById) (id : String) (a : Answer) :
    ∃ e, Ran (recyclesInvalid taskCategory) a id s (execCleanCategoryOperate taskCategory s id a) e := by
  obtain ⟨m, r⟩ := s
  rcases ht : m.findTask id with _ | t <;> simp only [execCleanCategoryOperate, ht]
  · exact ⟨none, ran_absent ht (by simp) .nothing⟩
  · have hid : t.param.id = id := hs.param_id ht
    split
    · rename_i hskip
      refine ⟨none, ran_kept ht ?_ (by simp) .nothing⟩
      rcases hskip with hne | hvalid
      · simp [recyclesInvalid, hne]
      · simp [recyclesInvalid, hvalid]
    · rename_i hskip
      rw [not_or, not_not] at hskip
      split
      · rename_i hbin
        exact ran_removeError ht (by simp [recyclesInvalid, hbin]) hid false r
      · rename_i hbin
        exact ⟨some true, ran_binned ht hid (by simp [recyclesInvalid, hbin, hskip.1, hskip.2]) false r⟩

end UserSelfMgr

end Nas.Download
