import NasServices.Download.UserSelfMgr.Outcomes
import NasServices.Download.UserSelfMgr.Removals
import NasServices.Lib.Rounds

/-!
# Tasks that are recycled

A request that deletes puts a task that is not in the recycle bin there, and takes one
that is there off the list for good. Two things go wrong on the way:

* `DeleteToRecycleBin` changes the status only if the engine has paused the task, but
  reports success also if it has not. A task that is reported as deleted has been
  deleted if its pause succeeds, or none is needed (`reported_iff`).
* A delete request looks at the category of a task in every round. One that names a
  task twice first recycles it and then removes it for good (`recycled_iff`).
-/

namespace Nas.Download

open Lib (Steps answersTo answersTo_ne_nil_iff exists_mem_answersTo_iff forEach_steps forEach_view forEach_once
  forEach_keep)

def Reply.succeeded (r : Reply) (id : String) : Bool := r.successList.any (·.taskId == id)

namespace UserSelfMgr

variable {m : UserSelfMgr} {id : String} {t : TaskBase} {a : Answer} {as : List Answer}

theorem Entry.succeeded {r r' : Reply} {e : Option Bool} (h : Entry id r e r') (j : String) :
    r'.succeeded j = (r.succeeded j || (decide (e = some true) && decide (id = j))) := by
  cases h with
  | nothing => simp
  | failed hd => simp [Reply.succeeded]
  | success hd => simp [Reply.succeeded, hd, beq_eq_decide]

/-! ## Recycling one task -/

/-- The task goes into the bin if its pause succeeds, or it has failed and needs none. -/
theorem deleteToRecycleBin_moved (himpl : t.hasImpl = true) (h : t.taskStatus = .kFailed ∨ a.pause = true) :
    (t.deleteToRecycleBin a).1.taskStatus = .kDeleted ∧
      (t.deleteToRecycleBin a).1.taskCategory = .kRecyclebinTask := by
  have hmoves : (t.taskStatus == .kFailed || a.pause) = true := by
    rcases h with h | h <;> simp [h]
  simp only [TaskBase.deleteToRecycleBin, himpl, hmoves]
  exact ⟨rfl, rfl⟩

theorem deleteToRecycleBin_unmoved (h : ¬(t.hasImpl = true ∧ (t.taskStatus = .kFailed ∨ a.pause = true))) :
    (t.deleteToRecycleBin a).1 = t := by
  unfold TaskBase.deleteToRecycleBin
  split
  · rfl
  · rename_i himpl
    split
    · rename_i hmoves
      exact absurd ⟨by simpa using himpl, by simpa using hmoves⟩ h
    · rfl

def Recycled (recycles : TaskBase → Bool) (v : Option TaskBase × Bool) (a : Answer) (v' : Option TaskBase × Bool) :
    Prop :=
  ∃ e, Outcome recycles a v.1 v'.1 e ∧ v'.2 = (v.2 || decide (e = some true))

variable {recycles : TaskBase → Bool} {v : Option TaskBase × Bool} {reported : Bool}

/-- A task that the request does not recycle is left alone or removed, and reported only if
removed. -/
theorem steps_of_not_recycles (hrec : recycles t = false) (h : Steps (Recycled recycles) (some t, reported) as v) :
    v = (some t, reported) ∨ v.1 = none := by
  refine h.keep (P := fun v => v = (some t, reported) ∨ v.1 = none) ?_ (.inl rfl)
  rintro ⟨o, r⟩ a ⟨o', r'⟩ hv ⟨e, hout, hrep⟩
  dsimp only at hout hrep hv
  cases hout with
  | absent he => exact .inr rfl
  | removed h => exact .inr rfl
  | kept h he =>
    rcases hv with hv | hv
    · rw [hrep, decide_eq_false he, Bool.or_false]
      exact .inl hv
    · cases hv
  | binned h =>
    rcases hv with hv | hv
    · rw [← Option.some.inj (Prod.mk.inj hv).1, h] at hrec
      cases hrec
    · cases hv

theorem recycled_some_iff (hrec : recycles t = true) :
    Recycled recycles (some t, reported) a v ↔ v = (some (t.deleteToRecycleBin a).1, true) := by
  constructor
  · rintro ⟨e, hout, hrep⟩
    obtain ⟨o', r'⟩ := v
    dsimp only at hout hrep
    cases hout with
    | kept h | removed h =>
      rw [hrec] at h
      cases h
    | binned h => simp [hrep]
  · rintro rfl
    exact ⟨some true, .binned hrec, by simp⟩

theorem steps_moved (hbin : ∀ t : TaskBase, t.taskCategory = .kRecyclebinTask → recycles t = false)
    (hrec : recycles t = true) (himpl : t.hasImpl = true)
    (hpause : as ≠ [] ∧ t.taskStatus = .kFailed ∨ ∃ a ∈ as, a.pause = true)
    (h : Steps (Recycled recycles) (some t, reported) as v) : ∀ t', v.1 = some t' → t'.taskStatus = .kDeleted := by
  induction as generalizing reported with
  | nil =>
    rcases hpause with ⟨hne, -⟩ | ⟨a, ha, -⟩
    · exact absurd rfl hne
    · cases ha
  | cons a as ih =>
    cases h with
    | cons hstep hrest =>
      rw [recycled_some_iff hrec] at hstep
      subst hstep
      by_cases hmoves : t.taskStatus = .kFailed ∨ a.pause = true
      · obtain ⟨hstatus, hcategory⟩ := deleteToRecycleBin_moved himpl hmoves
        intro t' ht'
        rcases steps_of_not_recycles (hbin _ hcategory) hrest with hv | hv
        · rw [hv] at ht'
          rw [← Option.some.inj ht', hstatus]
        · rw [hv] at ht'
          cases ht'
      · rw [deleteToRecycleBin_unmoved fun h => hmoves h.2] at hrest
        rw [not_or] at hmoves
        refine ih (.inr ?_) hrest
        obtain ⟨a', ha', hpause'⟩ := hpause.resolve_left fun h => hmoves.1 h.2
        rcases List.mem_cons.mp ha' with rfl | ha'
        · exact absurd hpause' hmoves.2
        · exact ⟨a', ha', hpause'⟩

theorem steps_not_moved (hrec : recycles t = true)
    (hpause : ¬(t.hasImpl = true ∧ (t.taskStatus = .kFailed ∨ ∃ a ∈ as, a.pause = true)))
    (h : Steps (Recycled recycles) (some t, reported) as v) (hne : as ≠ [] ∨ reported = true) :
    v = (some t, true) := by
  induction as generalizing reported with
  | nil =>
    rcases hne with hne | rfl
    · exact absurd rfl hne
    · cases h
      rfl
  | cons a as ih =>
    cases h with
    | cons hstep hrest =>
      rw [recycled_some_iff hrec] at hstep
      subst hstep
      have hsame : (t.deleteToRecycleBin a).1 = t := by
        apply deleteToRecycleBin_unmoved
        rintro ⟨himpl, h⟩
        exact hpause ⟨himpl, h.imp_right fun ha => ⟨a, List.mem_cons_self, ha⟩⟩
      rw [hsame] at hrest
      refine ih ?_ hrest (.inr rfl)
      rintro ⟨himpl, h⟩
      exact hpause ⟨himpl, h.imp_right fun ⟨a', ha', hp⟩ => ⟨a', List.mem_cons_of_mem _ ha', hp⟩⟩

theorem steps_reported_iff (hbin : ∀ t : TaskBase, t.taskCategory = .kRecyclebinTask → recycles t = false)
    (h : Steps (Recycled recycles) (some t, false) as v) :
    (v.2 = true → ∀ t', v.1 = some t' → t'.taskStatus = .kDeleted) ↔
      (recycles t = true → as ≠ [] → t.taskStatus = .kDeleted ∨
        (t.hasImpl = true ∧ (t.taskStatus = .kFailed ∨ ∃ a ∈ as, a.pause = true))) := by
  constructor
  · intro hdone hrec hne
    by_cases hpause : t.hasImpl = true ∧ (t.taskStatus = .kFailed ∨ ∃ a ∈ as, a.pause = true)
    · exact .inr hpause
    · have hv := steps_not_moved hrec hpause h (.inl hne)
      rw [hv] at hdone
      exact .inl (hdone rfl t rfl)
  · intro hcond hrep t' ht'
    cases hrec : recycles t
    · rcases steps_of_not_recycles hrec h with hv | hv
      · rw [hv] at hrep
        cases hrep
      · rw [hv] at ht'
        cases ht'
    · have hne : as ≠ [] := by
        rintro rfl
        cases h
        cases hrep
      by_cases hpause : t.hasImpl = true ∧ (t.taskStatus = .kFailed ∨ ∃ a ∈ as, a.pause = true)
      · exact steps_moved hbin hrec hpause.1 (hpause.2.imp_left fun hfailed => ⟨hne, hfailed⟩) h t' ht'
      · rw [steps_not_moved hrec hpause h (.inl hne)] at ht'
        rw [← Option.some.inj ht']
        exact (hcond hrec hne).resolve_right hpause

theorem Deleted.findTask_none {m' : UserSelfMgr} (hd : Deleted id a m m') (h : m.findTask id = none) :
    m'.findTask id = none := by
  rcases ht' : m'.findTask id with _ | t'
  · rfl
  · obtain ⟨t, ht, -⟩ := hd.quiet ht'
    rw [h] at ht
    cases ht

end UserSelfMgr

/-! ## Requests -/

inductive DeleteRequest
  | delete (ids : List String) (isDeleteLocalFile : Bool)
  | clean (ids : List String)
  | deleteCategory (taskCategory : TaskCategory) (isDeleteLocalFile : Bool)
  | cleanCategory (taskCategory : TaskCategory)

open UserSelfMgr

namespace DeleteRequest

def run (m : UserSelfMgr) (ω : Nat → Answer) : DeleteRequest → UserSelfMgr × Reply
  | .delete ids isDeleteLocalFile => m.delete ids isDeleteLocalFile ω
  | .clean ids => m.clean ids ω
  | .deleteCategory taskCategory isDeleteLocalFile => m.deleteCategory taskCategory isDeleteLocalFile ω
  | .cleanCategory taskCategory => m.cleanCategory taskCategory ω

def rounds (m : UserSelfMgr) : DeleteRequest → List String
  | .delete ids _ | .clean ids => ids
  | .deleteCategory .. | .cleanCategory _ => m.taskIds

def exec : DeleteRequest → UserSelfMgr × Reply → String → Answer → UserSelfMgr × Reply
  | .delete _ isDeleteLocalFile => execDeleteOperate isDeleteLocalFile false
  | .clean _ => execDeleteOperate false true
  | .deleteCategory taskCategory isDeleteLocalFile => execDeleteCategoryOperate taskCategory isDeleteLocalFile
  | .cleanCategory taskCategory => execCleanCategoryOperate taskCategory

def recycles : DeleteRequest → TaskBase → Bool
  | .delete .. => recyclesById false
  | .clean _ => recyclesById true
  | .deleteCategory taskCategory _ => recyclesCategory taskCategory
  | .cleanCategory taskCategory => recyclesInvalid taskCategory

variable {m : UserSelfMgr} {id : String} {t : TaskBase} {s : UserSelfMgr × Reply} {a : Answer}

theorem run_eq (req : DeleteRequest) (m : UserSelfMgr) (ω : Nat → Answer) :
    req.run m ω = Lib.forEach req.exec (m, {}) (req.rounds m) ω := by
  cases req <;> rfl

theorem exec_deleted (req : DeleteRequest) (s : UserSelfMgr × Reply) (id : String) (a : Answer) :
    Deleted id a s.1 (req.exec s id a).1 := by
  cases req with
  | delete => exact execDeleteOperate_deleted ..
  | clean => exact execDeleteOperate_deleted ..
  | deleteCategory => exact execDeleteCategoryOperate_deleted ..
  | cleanCategory => exact execCleanCategoryOperate_deleted ..

theorem exec_outcome (req : DeleteRequest) (hs : s.1.ListedById) (id : String) (a : Answer) :
    ∃ e, Ran req.recycles a id s (req.exec s id a) e := by
  cases req with
  | delete _ isDeleteLocalFile =>
    obtain ⟨ok, hok⟩ := execDeleteOperate_outcome isDeleteLocalFile false hs id a
    exact ⟨some ok, hok⟩
  | clean =>
    obtain ⟨ok, hok⟩ := execDeleteOperate_outcome false true hs id a
    exact ⟨some ok, hok⟩
  | deleteCategory taskCategory isDeleteLocalFile =>
    exact execDeleteCategoryOperate_outcome taskCategory isDeleteLocalFile hs id a
  | cleanCategory taskCategory => exact execCleanCategoryOperate_outcome taskCategory hs id a

theorem recycles_of_bin (req : DeleteRequest) (t : TaskBase) (hbin : t.taskCategory = .kRecyclebinTask) :
    req.recycles t = false := by
  cases req with
  | delete | clean => simp [recycles, recyclesById, hbin]
  | deleteCategory c | cleanCategory c =>
    simp only [recycles, recyclesCategory, recyclesInvalid, hbin]
    cases c <;> simp

theorem steps_run (req : DeleteRequest) (hm : m.ListedById) (id : String) (ω : Nat → Answer) :
    Steps (Recycled req.recycles) (m.findTask id, false) (answersTo id (req.rounds m) ω)
      ((req.run m ω).1.findTask id, (req.run m ω).2.succeeded id) := by
  rw [run_eq]
  refine forEach_steps (I := fun s : UserSelfMgr × Reply => s.1.ListedById)
    (f := fun s : UserSelfMgr × Reply => (s.1.findTask id, s.2.succeeded id)) ?_ ?_ ?_ (s := (m, {})) hm
    (req.rounds m) ω
  · intro s y a hs
    exact (req.exec_deleted s y a).listedById hs
  · intro s a hs
    obtain ⟨e, hentry, hout⟩ := req.exec_outcome hs id a
    refine ⟨e, hout, ?_⟩
    rw [hentry.succeeded, decide_eq_true (rfl : id = id), Bool.and_true]
  · intro s y a hs hne
    obtain ⟨e, hentry, -⟩ := req.exec_outcome hs y a
    rw [(req.exec_deleted s y a).findTask_ne hne.symm, hentry.succeeded, decide_eq_false hne, Bool.and_false,
      Bool.or_false]

theorem run_absent (req : DeleteRequest) (h : m.findTask id = none) (ω : Nat → Answer) :
    (req.run m ω).1.findTask id = none := by
  rw [run_eq]
  refine forEach_keep (I := fun s : UserSelfMgr × Reply => s.1.findTask id = none) (fun s y a _ hs => ?_) h ω
  by_cases hy : id = y
  · subst hy
    exact (req.exec_deleted s id a).findTask_none hs
  · rw [(req.exec_deleted s y a).findTask_ne hy, hs]

theorem forall_successList_iff {r : Reply} {P : String → Prop} :
    (∀ d ∈ r.successList, P d.taskId) ↔ ∀ id, r.succeeded id = true → P id := by
  simp only [Reply.succeeded, List.any_eq_true, beq_iff_eq]
  constructor
  · rintro h id ⟨d, hd, rfl⟩
    exact h d hd
  · intro h d hd
    exact h d.taskId ⟨d, hd, rfl⟩

/-- What is reported as deleted is in the recycle bin or off the list, in any state of a run and
whatever the engine answers, if and only if every task that the request is to recycle is there
already, or has its adapter and either has failed or is paused by the engine in one of the rounds
on it. -/
theorem reported_iff {m₀ : UserSelfMgr} (hm₀ : m₀.taskList = ∅) (es : List Event) (req : DeleteRequest)
    (ω : Nat → Answer) :
    (∀ d ∈ (req.run (Lib.run step m₀ es) ω).2.successList,
        ∀ t, (req.run (Lib.run step m₀ es) ω).1.findTask d.taskId = some t → t.taskStatus = .kDeleted) ↔
      ∀ id ∈ req.rounds (Lib.run step m₀ es), ∀ t, (Lib.run step m₀ es).findTask id = some t →
        req.recycles t = true → t.taskStatus = .kDeleted ∨ (t.hasImpl = true ∧ (t.taskStatus = .kFailed ∨
          ∃ k, (req.rounds (Lib.run step m₀ es))[k]? = some id ∧ (ω k).pause = true)) := by
  have hm := run_listedById hm₀ es
  generalize Lib.run step m₀ es = m at hm ⊢
  have htask : ∀ id t, m.findTask id = some t →
      (((req.run m ω).2.succeeded id = true →
          ∀ t', (req.run m ω).1.findTask id = some t' → t'.taskStatus = .kDeleted) ↔
        (id ∈ req.rounds m → req.recycles t = true → t.taskStatus = .kDeleted ∨ (t.hasImpl = true ∧
          (t.taskStatus = .kFailed ∨ ∃ k, (req.rounds m)[k]? = some id ∧ (ω k).pause = true)))) := by
    intro id t ht
    have hsteps := req.steps_run hm id ω
    rw [ht] at hsteps
    have hiff := steps_reported_iff req.recycles_of_bin hsteps
    rw [answersTo_ne_nil_iff, exists_mem_answersTo_iff (P := fun a : Answer => a.pause = true)] at hiff
    rw [hiff]
    exact ⟨fun h hid hrec => h hrec hid, fun h hrec hid => h hid hrec⟩
  rw [forall_successList_iff (P := fun id => ∀ t, (req.run m ω).1.findTask id = some t → t.taskStatus = .kDeleted)]
  constructor
  · intro hdone id hid t ht
    exact (htask id t ht).mp (hdone id) hid
  · intro hcond id
    rcases ht : m.findTask id with _ | t
    · intro _ t' ht'
      rw [req.run_absent ht ω] at ht'
      cases ht'
    · exact (htask id t ht).mpr fun hid => hcond id hid t ht

/-- A task that the engine pauses. -/
theorem reported_iff_paused :
    let m := Lib.run step { userId := "u" } [linkTask "a" "http://a"]
    let s := (delete ["a"] false).run m fun _ => {}
    ∀ d ∈ s.2.successList, ∀ t, s.1.findTask d.taskId = some t → t.taskStatus = .kDeleted := by
  refine (reported_iff rfl [linkTask "a" "http://a"] (.delete ["a"] false) fun _ => {}).2 fun id hid t ht _ => ?_
  obtain rfl : id = "a" := List.mem_singleton.mp hid
  have himpl : ((Lib.run step { userId := "u" } [linkTask "a" "http://a"]).findTask "a").all (·.hasImpl) = true := by
    decide +kernel
  rw [ht] at himpl
  exact .inr ⟨himpl, .inr ⟨0, rfl, rfl⟩⟩

/-- The engine does not pause the task: it is reported as deleted and goes on downloading. -/
theorem unpaused_reported :
    let s := (delete ["a"] false).run (Lib.run step { userId := "u" } [linkTask "a" "http://a"])
      fun _ => { pause := false }
    s.2.successList.map (·.taskId) = ["a"] ∧ (s.1.findTask "a").map (·.taskStatus) = some .kDownloading := by
  decide +kernel

/-! ## Named twice -/

def removals : DeleteRequest → UserSelfMgr × Reply → String → Answer → List Removal
  | .delete _ isDeleteLocalFile => execDeleteRemovals isDeleteLocalFile false
  | .clean _ => execDeleteRemovals false true
  | .deleteCategory taskCategory isDeleteLocalFile => execDeleteCategoryRemovals taskCategory isDeleteLocalFile
  | .cleanCategory taskCategory => execCleanCategoryRemovals taskCategory

/-- No task that was outside of the recycle bin is removed for good: it is listed afterwards, and no
round on it calls the engine or removes a file. -/
def OnlyRecycles (req : DeleteRequest) (m : UserSelfMgr) (ω : Nat → Answer) : Prop :=
  ∀ id t, m.findTask id = some t → t.taskCategory ≠ .kRecyclebinTask →
    ((req.run m ω).1.findTask id).isSome = true ∧ ∀ k, (req.rounds m)[k]? = some id →
      let s := Lib.forEach req.exec (m, {}) ((req.rounds m).take k) ω
      (req.exec s id (ω k)).1.engine = s.1.engine ∧ req.removals s id (ω k) = []

theorem execDeleteOperate_outside (isDeleteLocalFile isJudgeTaskValid : Bool) (ht : s.1.findTask id = some t)
    (hout : t.taskCategory ≠ .kRecyclebinTask) (a : Answer) :
    execDeleteRemovals isDeleteLocalFile isJudgeTaskValid s id a = [] ∧
      ((execDeleteOperate isDeleteLocalFile isJudgeTaskValid s id a).1 = s.1 ∨
        recyclesById isJudgeTaskValid t = true ∧
          ∃ t', (execDeleteOperate isDeleteLocalFile isJudgeTaskValid s id a).1 = s.1.setTask id t') := by
  simp only [execDeleteOperate, execDeleteRemovals, ht, if_neg hout]
  split
  · exact ⟨rfl, .inl rfl⟩
  · rename_i hjudge
    refine ⟨rfl, ?_⟩
    have hsnd := t.deleteToRecycleBin_snd a
    rcases hdel : t.deleteToRecycleBin a with ⟨t', _ | _⟩ <;> rw [hdel] at hsnd
    · exact .inl rfl
    · exact .inr ⟨by simp [recyclesById, ← hsnd, hout, hjudge], t', rfl⟩

/-- A round on a task outside of the recycle bin removes no file, and changes nothing but the task,
which it recycles, unless all tasks are to be deleted. -/
theorem exec_outside {req : DeleteRequest} (hall : ∀ b, req ≠ .deleteCategory .kAll b)
    (ht : s.1.findTask id = some t) (hout : t.taskCategory ≠ .kRecyclebinTask) (a : Answer) :
    req.removals s id a = [] ∧
      ((req.exec s id a).1 = s.1 ∨ req.recycles t = true ∧ ∃ t', (req.exec s id a).1 = s.1.setTask id t') := by
  cases req with
  | delete ids isDeleteLocalFile => exact execDeleteOperate_outside isDeleteLocalFile false ht hout a
  | clean ids => exact execDeleteOperate_outside false true ht hout a
  | deleteCategory c b =>
    have hc : c ≠ .kAll := fun h => hall b (by rw [h])
    simp only [exec, removals, recycles, execDeleteCategoryOperate, execDeleteCategoryRemovals, ht, if_neg hc]
    split
    · exact ⟨rfl, .inl rfl⟩
    · rename_i hne
      have hbin : c ≠ .kRecyclebinTask := fun h => hout ((not_not.mp hne).trans h)
      rw [if_neg hbin, if_neg hbin]
      exact ⟨rfl, .inr ⟨by simp [recyclesCategory, hc, hbin, not_not.mp hne], _, rfl⟩⟩
  | cleanCategory c =>
    simp only [exec, removals, recycles, execCleanCategoryOperate, execCleanCategoryRemovals, ht]
    split
    · exact ⟨rfl, .inl rfl⟩
    · rename_i hskip
      rw [not_or, not_not] at hskip
      have hbin : c ≠ .kRecyclebinTask := fun h => hout (hskip.1.trans h)
      rw [if_neg hbin, if_neg hbin]
      exact ⟨rfl, .inr ⟨by simp [recyclesInvalid, hbin, hskip.1, hskip.2], _, rfl⟩⟩

theorem engine_exec_outside {req : DeleteRequest} (hall : ∀ b, req ≠ .deleteCategory .kAll b)
    (ht : s.1.findTask id = some t) (hout : t.taskCategory ≠ .kRecyclebinTask) (a : Answer) :
    (req.exec s id a).1.engine = s.1.engine := by
  rcases (exec_outside hall ht hout a).2 with hsame | ⟨-, t', hset⟩
  · rw [hsame]
  · rw [hset]
    rfl

theorem isSome_exec_outside {req : DeleteRequest} (hall : ∀ b, req ≠ .deleteCategory .kAll b)
    (ht : s.1.findTask id = some t) (hout : t.taskCategory ≠ .kRecyclebinTask) (a : Answer) :
    ((req.exec s id a).1.findTask id).isSome = true := by
  rcases (exec_outside hall ht hout a).2 with hsame | ⟨-, t', hset⟩
  · rw [hsame, ht, Option.isSome_some]
  · rw [hset, findTask_setTask, Option.isSome_some]

theorem forEach_exec_same {req : DeleteRequest} (hall : ∀ b, req ≠ .deleteCategory .kAll b)
    (ht : s.1.findTask id = some t) (hout : t.taskCategory ≠ .kRecyclebinTask) (hrec : req.recycles t = false)
    (ids : List String) (ω : Nat → Answer) : (Lib.forEach req.exec s ids ω).1.findTask id = some t := by
  refine forEach_keep (I := fun s : UserSelfMgr × Reply => s.1.findTask id = some t) (fun s y a _ hs => ?_) ht ω
  by_cases hy : id = y
  · subst hy
    rcases (exec_outside hall hs hout a).2 with hsame | ⟨hrec', -⟩
    · rw [hsame, hs]
    · rw [hrec] at hrec'
      cases hrec'
  · rw [(req.exec_deleted s y a).findTask_ne hy, hs]

theorem forEach_exec_other (req : DeleteRequest) (m : UserSelfMgr) {ids : List String} (hid : id ∉ ids)
    (ω : Nat → Answer) : (Lib.forEach req.exec (m, {}) ids ω).1.findTask id = m.findTask id :=
  forEach_view (I := fun _ => True) (f := fun s : UserSelfMgr × Reply => s.1.findTask id)
    (fun _ _ _ _ => trivial) (fun s y a _ hne => (req.exec_deleted s y a).findTask_ne hne.symm) trivial hid ω

theorem forEach_exec_once (req : DeleteRequest) (m : UserSelfMgr) {ids : List String} (hcount : ids.count id ≤ 1)
    {k : Nat} (hk : ids[k]? = some id) (ω : Nat → Answer) :
    (Lib.forEach req.exec (m, {}) (ids.take k) ω).1.findTask id = m.findTask id ∧
      (Lib.forEach req.exec (m, {}) ids ω).1.findTask id =
        (req.exec (Lib.forEach req.exec (m, {}) (ids.take k) ω) id (ω k)).1.findTask id :=
  forEach_once (I := fun _ => True) (f := fun s : UserSelfMgr × Reply => s.1.findTask id)
    (fun _ _ _ _ => trivial) (fun s y a _ hne => (req.exec_deleted s y a).findTask_ne hne.symm) trivial hcount hk ω

section Outside

variable {req : DeleteRequest} (hall : ∀ b, req ≠ .deleteCategory .kAll b) (ht : m.findTask id = some t)
  (hout : t.taskCategory ≠ .kRecyclebinTask) {ids : List String}
  (hcount : req.recycles t = true → ids.count id ≤ 1)

include hall ht hout hcount

/-- A task outside of the bin is as it was when a round comes to it, if it is not to be recycled or
not named twice. -/
theorem findTask_before {k : Nat} (hk : ids[k]? = some id) (ω : Nat → Answer) :
    (Lib.forEach req.exec (m, {}) (ids.take k) ω).1.findTask id = some t := by
  cases hrec : req.recycles t
  · exact forEach_exec_same hall (s := (m, {})) ht hout hrec _ ω
  · rw [(req.forEach_exec_once m (hcount hrec) hk ω).1, ht]

theorem isSome_forEach_exec (ω : Nat → Answer) :
    ((Lib.forEach req.exec (m, {}) ids ω).1.findTask id).isSome = true := by
  cases hrec : req.recycles t
  · rw [forEach_exec_same hall (s := (m, {})) ht hout hrec ids ω, Option.isSome_some]
  · by_cases hid : id ∈ ids
    · obtain ⟨k, hk⟩ := List.mem_iff_getElem?.mp hid
      rw [(req.forEach_exec_once m (hcount hrec) hk ω).2]
      exact isSome_exec_outside hall (findTask_before hall ht hout hcount hk ω) hout (ω k)
    · rw [req.forEach_exec_other m hid ω, ht, Option.isSome_some]

end Outside

/-! ### With nothing in the way -/

def deletedOnce (isJudgeTaskValid : Bool) (t : TaskBase) : Option TaskBase :=
  if isJudgeTaskValid && t.isValid then some t
  else if t.taskCategory = .kRecyclebinTask then none
  else some (t.deleteToRecycleBin {}).1

theorem deletedOnce_bind {isJudgeTaskValid : Bool} (hrec : recyclesById isJudgeTaskValid t = true) :
    (deletedOnce isJudgeTaskValid t).bind (deletedOnce isJudgeTaskValid) = none := by
  simp only [recyclesById, Bool.and_eq_true, decide_eq_true_eq, Bool.not_eq_true'] at hrec
  obtain ⟨⟨hout, hjudge⟩, himpl⟩ := hrec
  have hbin := (deleteToRecycleBin_moved (a := {}) himpl (.inr rfl)).2
  rw [deletedOnce, hjudge, if_neg Bool.false_ne_true, if_neg hout, Option.bind_some, deletedOnce,
    TaskBase.deleteToRecycleBin_isValid, hjudge, if_neg Bool.false_ne_true, if_pos hbin]

theorem cancel_of_answer (m : UserSelfMgr) (id : String) (t : TaskBase) : (m.cancel id t {}).2 = true := by
  show (m.releaseTask t {}).2.2 = true
  rw [releaseTask_snd]
  unfold TaskBase.exceCancel
  split
  · rfl
  · split <;> rfl

theorem execDeleteOperate_findTask (isDeleteLocalFile isJudgeTaskValid : Bool) (s : UserSelfMgr × Reply)
    (id : String) :
    (execDeleteOperate isDeleteLocalFile isJudgeTaskValid s id {}).1.findTask id =
      (s.1.findTask id).bind (deletedOnce isJudgeTaskValid) := by
  rcases ht : s.1.findTask id with _ | t
  · simp only [execDeleteOperate, ht]
    rfl
  · simp only [execDeleteOperate, ht, Option.bind_some, deletedOnce, Bool.not_true, Bool.and_false]
    split
    · exact ht
    · split
      · rw [if_neg Bool.false_ne_true, removeTask_eq, cancel_of_answer, if_pos rfl, findTask_erase]
      · have hsnd := t.deleteToRecycleBin_snd {}
        rcases hdel : t.deleteToRecycleBin {} with ⟨t', _ | _⟩ <;> rw [hdel] at hsnd
        · have hsame : (t.deleteToRecycleBin {}).1 = t :=
            deleteToRecycleBin_unmoved fun h => by rw [← hsnd] at h; cases h.1
          rw [hdel] at hsame
          rw [ht, ← hsame]
        · exact findTask_setTask ..

/-- The ids are gone through one by one, and every time a task is named it is deleted. -/
theorem forEach_findTask (isDeleteLocalFile isJudgeTaskValid : Bool) (s : UserSelfMgr × Reply) (id : String)
    (ids : List String) :
    (Lib.forEach (execDeleteOperate isDeleteLocalFile isJudgeTaskValid) s ids fun _ => {}).1.findTask id =
      (·.bind (deletedOnce isJudgeTaskValid))^[ids.count id] (s.1.findTask id) := by
  induction ids generalizing s with
  | nil => rfl
  | cons y ys ih =>
    rw [Lib.forEach_cons, ih]
    by_cases hy : y = id
    · subst hy
      rw [List.count_cons_self, Function.iterate_succ_apply, execDeleteOperate_findTask]
    · rw [List.count_cons_of_ne hy, (execDeleteOperate_deleted ..).findTask_ne (Ne.symm hy)]

theorem forEach_removed (isDeleteLocalFile : Bool) {isJudgeTaskValid : Bool} {ids : List String}
    (ht : m.findTask id = some t) (hrec : recyclesById isJudgeTaskValid t = true) (hcount : 1 < ids.count id) :
    (Lib.forEach (execDeleteOperate isDeleteLocalFile isJudgeTaskValid) (m, {}) ids fun _ => {}).1.findTask id =
      none := by
  obtain ⟨n, hn⟩ : ∃ n, ids.count id = n + 2 := ⟨ids.count id - 2, by omega⟩
  rw [forEach_findTask, hn, Function.iterate_succ_apply, Function.iterate_succ_apply, ht, Option.bind_some,
    deletedOnce_bind hrec]
  exact Function.iterate_fixed rfl n

theorem run_removed {req : DeleteRequest} (ht : m.findTask id = some t) (hrec : req.recycles t = true)
    (hcount : 1 < (req.rounds m).count id) : (req.run m fun _ => {}).1.findTask id = none := by
  cases req with
  | delete ids isDeleteLocalFile => exact forEach_removed isDeleteLocalFile ht hrec hcount
  | clean ids => exact forEach_removed false ht hrec hcount
  | deleteCategory | cleanCategory =>
    exact absurd hcount (not_lt.mpr (List.nodup_iff_count_le_one.mp m.nodup_taskIds id))

/-- A request removes nothing for good that was not in the recycle bin, whatever the engine
answers, if and only if it names no task twice that it is to recycle; the request to delete all
tasks apart. A request by category has one round for each task. -/
theorem recycled_iff {req : DeleteRequest} (hall : ∀ b, req ≠ .deleteCategory .kAll b) (m : UserSelfMgr) :
    (∀ ω, req.OnlyRecycles m ω) ↔
      ∀ id t, m.findTask id = some t → req.recycles t = true → (req.rounds m).count id ≤ 1 := by
  constructor
  · intro honly id t ht hrec
    by_contra hcount
    have hout : t.taskCategory ≠ .kRecyclebinTask := fun hbin => by
      rw [req.recycles_of_bin t hbin] at hrec
      cases hrec
    have hlisted := (honly (fun _ => {}) id t ht hout).1
    rw [run_removed ht hrec (not_le.mp hcount)] at hlisted
    cases hlisted
  · intro hcount ω id t ht hout
    rw [run_eq]
    refine ⟨isSome_forEach_exec hall ht hout (hcount id t ht) ω, fun k hk => ?_⟩
    have hbefore := findTask_before hall ht hout (hcount id t ht) hk ω
    exact ⟨engine_exec_outside hall hbefore hout (ω k), (exec_outside hall hbefore hout (ω k)).1⟩

/-- Two tasks, each named once. -/
theorem recycled_iff_once :
    (delete ["a", "b"] true).OnlyRecycles
      (Lib.run step { userId := "u" } [linkTask "a" "http://a", linkTask "b" "http://b"]) fun _ => {} := by
  refine (recycled_iff (fun b h => by cases h) _).2 (fun id t _ _ => ?_) fun _ => {}
  exact List.nodup_iff_count_le_one.mp (by decide : ["a", "b"].Nodup) id

/-- A running download that is named twice is off the list, and its download is cancelled. -/
theorem named_twice_removed :
    let m := Lib.run step { userId := "u" } [linkTask "a" "http://a"]
    let s := (delete ["a", "a"] false).run m fun _ => {}
    (m.findTask "a").map (·.taskCategory) = some .kDownloadingTask ∧ (s.1.findTask "a").isSome = false ∧
      s.1.engine = .cancel "http://a" true :: m.engine := by
  decide +kernel

end DeleteRequest

end Nas.Download
