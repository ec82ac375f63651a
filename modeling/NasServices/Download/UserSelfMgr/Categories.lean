import Mathlib.Data.String.Basic
import NasServices.Download.UserSelfMgr.Recycling
import NasServices.Download.UserSelfMgr.Replies

/-!
# Operations on a category

`ExecDeleteCategoryOperate` and `ExecCleanCategoryOperate` go through the task list
with an iterator, erase from the list as they go, and change the categories that they
test. `loop` is that loop. It ends, and does what a loop over the ids that were listed
at first does (`loop_eq`), because a round lists and erases no task but its own.

So there is one round for each task, which decides what becomes of it and of its
entries (`run_once`, `category_exact`).
-/

namespace Nas.Download

open Lib (forEach_view forEach_once forEach_keep)

open UserSelfMgr

theorem UserSelfMgr.sorted_taskIds (m : UserSelfMgr) : m.taskIds.Pairwise (· < ·) := by
  have hle : m.taskIds.Pairwise (· ≤ ·) := List.pairwise_insertionSort (· ≤ ·) m.taskList.keys
  exact (hle.and m.nodup_taskIds).imp fun h => lt_of_le_of_ne h.1 h.2

inductive CategoryOperate
  | delete (isDeleteLocalFile : Bool)
  | clean

namespace CategoryOperate

def request (taskCategory : TaskCategory) : CategoryOperate → DeleteRequest
  | .delete isDeleteLocalFile => .deleteCategory taskCategory isDeleteLocalFile
  | .clean => .cleanCategory taskCategory

/-- The loop as it is written: the iterator goes to the next key of the list as the round has left
it. -/
def loop (op : CategoryOperate) (taskCategory : TaskCategory) (fuel : Nat) (m : UserSelfMgr) (ω : Nat → Answer) :
    Option (UserSelfMgr × Reply) :=
  Lib.iterate (fun s : UserSelfMgr × Reply => s.1.taskIds) (op.request taskCategory).exec fuel (m, {})
    m.taskIds.head? ω

def actsOn (taskCategory : TaskCategory) (t : TaskBase) : CategoryOperate → Bool
  | .delete _ => decide (t.taskCategory = taskCategory)
  | .clean => decide (t.taskCategory = taskCategory) && !t.isValid

def localFileFails (t : TaskBase) (a : Answer) : CategoryOperate → Bool
  | .delete isDeleteLocalFile => isDeleteLocalFile && t.isDownloadFinished && !a.deleteLocalFile
  | .clean => false

def isDelete : CategoryOperate → Bool
  | .delete _ => true
  | .clean => false

variable {op : CategoryOperate} {c : TaskCategory} {m : UserSelfMgr} {s : UserSelfMgr × Reply} {id : String}
  {t : TaskBase} {a : Answer}

theorem rounds_request (op : CategoryOperate) (c : TaskCategory) (m : UserSelfMgr) :
    (op.request c).rounds m = m.taskIds := by
  cases op <;> rfl

theorem loop_eq (op : CategoryOperate) (c : TaskCategory) (m : UserSelfMgr) (ω : Nat → Answer) {fuel : Nat}
    (hfuel : m.taskIds.length ≤ fuel) : op.loop c fuel m ω = some ((op.request c).run m ω) := by
  rw [DeleteRequest.run_eq, rounds_request]
  unfold loop
  refine Lib.iterate_eq_forEach (I := fun _ => True) ?_ ?_ ?_ trivial ?_ ω
  · intro s _
    exact s.1.sorted_taskIds
  · intro s x a _
    trivial
  · intro s x a _ y hne
    rw [mem_taskIds_iff, mem_taskIds_iff, ((op.request c).exec_deleted s x a).findTask_ne hne]
  · exact hfuel

/-! ## One round -/

theorem exec_of_not_actsOn (hc : c ≠ .kAll) (ht : s.1.findTask id = some t) (hacts : op.actsOn c t = false)
    (a : Answer) : (op.request c).exec s id a = s := by
  cases op with
  | delete isDeleteLocalFile =>
    have hne : t.taskCategory ≠ c := by simpa [actsOn] using hacts
    simp only [request, DeleteRequest.exec, execDeleteCategoryOperate, ht, if_neg hc]
    rw [if_pos hne]
  | clean =>
    have hskip : t.taskCategory ≠ c ∨ t.isValid = true := by
      simpa [actsOn, Classical.or_iff_not_imp_left] using hacts
    simp only [request, DeleteRequest.exec, execCleanCategoryOperate, ht]
    rw [if_pos hskip]

/-- A round on a task of the category, for both operations. -/
theorem exec_eq (hc : c ≠ .kAll) (ht : s.1.findTask id = some t) (hacts : op.actsOn c t = true) (a : Answer) :
    (op.request c).exec s id a =
      if c = .kRecyclebinTask then
        if op.localFileFails t a then (s.1, s.1.buildMessageData id .kDeleteLocalFileFailed op.isDelete s.2)
        else s.1.removeTask id t a fun m ok => m.buildMessageData id (removeError ok) op.isDelete s.2
      else (s.1.setTask id (t.deleteToRecycleBin a).1,
        (s.1.setTask id (t.deleteToRecycleBin a).1).buildMessageData id .kNormal op.isDelete s.2) := by
  cases op with
  | delete isDeleteLocalFile =>
    have heq : t.taskCategory = c := by simpa [actsOn] using hacts
    simp only [request, DeleteRequest.exec, execDeleteCategoryOperate, ht, if_neg hc]
    rw [if_neg (not_not.mpr heq)]
    rfl
  | clean =>
    have hdone : ¬(t.taskCategory ≠ c ∨ t.isValid = true) := by
      simpa [actsOn] using hacts
    simp only [request, DeleteRequest.exec, execCleanCategoryOperate, ht]
    rw [if_neg hdone]
    rfl

theorem exec_entry (hc : c ≠ .kAll) (hs : s.1.ListedById) (ht : s.1.findTask id = some t)
    (hacts : op.actsOn c t = true) (a : Answer) : Adds id 1 s.2 ((op.request c).exec s id a).2 := by
  have hid : t.param.id = id := hs.param_id ht
  rw [exec_eq hc ht hacts a]
  split
  · split
    · exact (buildMessageData_entry_of_findTask ht hid .kDeleteLocalFileFailed op.isDelete s.2).adds
    · rw [removeTask_eq]
      exact (removeError_entry hid _ op.isDelete s.2).adds
  · exact (binned_entry hid a op.isDelete s.2).adds

/-- It erases the task if it is in the recycle bin, what was downloaded is removed as far as
required, and the task can be cancelled. -/
theorem exec_erased_iff (hc : c ≠ .kAll) (ht : s.1.findTask id = some t) (hacts : op.actsOn c t = true) (a : Answer) :
    ((op.request c).exec s id a).1.findTask id = none ↔
      c = .kRecyclebinTask ∧ op.localFileFails t a = false ∧ (s.1.cancel id t a).2 = true := by
  rw [exec_eq hc ht hacts a]
  by_cases hbin : c = .kRecyclebinTask
  · rw [if_pos hbin]
    cases op.localFileFails t a
    · rw [if_neg Bool.false_ne_true, removeTask_eq]
      cases hcancel : (s.1.cancel id t a).2
      · simp [findTask_cancel]
      · simp [findTask_erase, hbin]
    · simp [ht]
  · simp [hbin]

/-! ## The request -/

theorem exec_listedById (op : CategoryOperate) (c : TaskCategory) (s : UserSelfMgr × Reply) (y : String) (a : Answer)
    (hs : s.1.ListedById) : ((op.request c).exec s y a).1.ListedById :=
  ((op.request c).exec_deleted s y a).listedById hs

theorem exec_other (op : CategoryOperate) (c : TaskCategory) (s : UserSelfMgr × Reply) (y : String) (a : Answer)
    (hs : s.1.ListedById) (hne : y ≠ id) :
    (((op.request c).exec s y a).1.findTask id, ((op.request c).exec s y a).2.ids.count id) =
      (s.1.findTask id, s.2.ids.count id) := by
  obtain ⟨e, hentry, -⟩ := (op.request c).exec_outcome hs y a
  rw [((op.request c).exec_deleted s y a).findTask_ne hne.symm, hentry.adds.other hne]

theorem run_none (op : CategoryOperate) (c : TaskCategory) (hm : m.ListedById) (h : m.findTask id = none)
    (ω : Nat → Answer) : ((op.request c).run m ω).2.ids.count id = 0 := by
  have hid : id ∉ m.taskIds := by simp [mem_taskIds_iff, h]
  have hview := forEach_view (I := fun s : UserSelfMgr × Reply => s.1.ListedById)
    (f := fun s : UserSelfMgr × Reply => (s.1.findTask id, s.2.ids.count id)) (op.exec_listedById c)
    (op.exec_other c) (s := (m, {})) hm hid ω
  rw [DeleteRequest.run_eq, rounds_request]
  exact (Prod.mk.inj hview).2

/-- The round on a task finds it as it was, without an entry, and leaves it and its entries as they
are in the end. -/
theorem run_once (op : CategoryOperate) (c : TaskCategory) (hm : m.ListedById) {k : Nat}
    (hk : m.taskIds[k]? = some id) (ω : Nat → Answer) :
    let s := Lib.forEach (op.request c).exec (m, {}) (m.taskIds.take k) ω
    s.1.ListedById ∧ s.1.findTask id = m.findTask id ∧ s.2.ids.count id = 0 ∧
      ((op.request c).run m ω).1.findTask id = ((op.request c).exec s id (ω k)).1.findTask id ∧
      ((op.request c).run m ω).2.ids.count id = ((op.request c).exec s id (ω k)).2.ids.count id := by
  have hcount : m.taskIds.count id ≤ 1 := List.nodup_iff_count_le_one.mp m.nodup_taskIds id
  obtain ⟨hbefore, hafter⟩ := forEach_once (I := fun s : UserSelfMgr × Reply => s.1.ListedById)
    (f := fun s : UserSelfMgr × Reply => (s.1.findTask id, s.2.ids.count id)) (op.exec_listedById c)
    (op.exec_other c) (s := (m, {})) hm hcount hk ω
  rw [Prod.mk.injEq] at hbefore hafter
  rw [DeleteRequest.run_eq, rounds_request]
  refine ⟨?_, hbefore.1, hbefore.2, hafter.1, hafter.2⟩
  exact forEach_keep (I := fun s : UserSelfMgr × Reply => s.1.ListedById)
    (fun s y a _ => op.exec_listedById c s y a) hm ω

theorem exists_round (ht : m.findTask id = some t) : ∃ k : Nat, m.taskIds[k]? = some id := by
  rw [← List.mem_iff_getElem?, mem_taskIds_iff, ht, Option.isSome_some]

theorem run_of_not_actsOn (hc : c ≠ .kAll) (hm : m.ListedById) (ht : m.findTask id = some t)
    (hacts : op.actsOn c t = false) (ω : Nat → Answer) :
    ((op.request c).run m ω).1.findTask id = some t ∧ ((op.request c).run m ω).2.ids.count id = 0 := by
  obtain ⟨k, hk⟩ := exists_round ht
  obtain ⟨-, hbefore, hnone, hafter, hcount⟩ := op.run_once c hm hk ω
  rw [ht] at hbefore
  rw [exec_of_not_actsOn hc hbefore hacts] at hafter hcount
  exact ⟨hafter.trans hbefore, hcount.trans hnone⟩

theorem count_run (op : CategoryOperate) (hc : c ≠ .kAll) (hm : m.ListedById) (id : String) (ω : Nat → Answer) :
    ((op.request c).run m ω).2.ids.count id = if (m.findTask id).any (op.actsOn c) then 1 else 0 := by
  rcases ht : m.findTask id with _ | t
  · exact op.run_none c hm ht ω
  · rw [Option.any_some]
    cases hacts : op.actsOn c t
    · exact (run_of_not_actsOn hc hm ht hacts ω).2
    · obtain ⟨k, hk⟩ := exists_round ht
      obtain ⟨hlisted, hbefore, hnone, -, hcount⟩ := op.run_once c hm hk ω
      rw [ht] at hbefore
      rw [hcount, (exec_entry hc hlisted hbefore hacts (ω k)).own, hnone]
      rfl

theorem run_erased_iff (op : CategoryOperate) (hc : c ≠ .kAll) (hm : m.ListedById) (ht : m.findTask id = some t)
    (ω : Nat → Answer) :
    ((op.request c).run m ω).1.findTask id = none ↔
      op.actsOn c t = true ∧ c = .kRecyclebinTask ∧ ∃ k : Nat, m.taskIds[k]? = some id ∧
        op.localFileFails t (ω k) = false ∧
        ((Lib.forEach (op.request c).exec (m, {}) (m.taskIds.take k) ω).1.cancel id t (ω k)).2 = true := by
  have hround {k : Nat} (hk : m.taskIds[k]? = some id) (hacts : op.actsOn c t = true) :
      ((op.request c).run m ω).1.findTask id = none ↔ c = .kRecyclebinTask ∧ op.localFileFails t (ω k) = false ∧
        ((Lib.forEach (op.request c).exec (m, {}) (m.taskIds.take k) ω).1.cancel id t (ω k)).2 = true := by
    obtain ⟨-, hbefore, -, hafter, -⟩ := op.run_once c hm hk ω
    rw [ht] at hbefore
    rw [hafter, exec_erased_iff hc hbefore hacts]
  constructor
  · intro hnone
    cases hacts : op.actsOn c t
    · rw [(run_of_not_actsOn hc hm ht hacts ω).1] at hnone
      cases hnone
    · obtain ⟨k, hk⟩ := exists_round ht
      obtain ⟨hbin, hfile, hcancel⟩ := (hround hk hacts).mp hnone
      exact ⟨rfl, hbin, k, hk, hfile, hcancel⟩
  · rintro ⟨hacts, hbin, k, hk, hfile, hcancel⟩
    exact (hround hk hacts).mpr ⟨hbin, hfile, hcancel⟩

theorem run_frame (op : CategoryOperate) (hc : c ≠ .kAll) (hm : m.ListedById)
    (hacts : (m.findTask id).any (op.actsOn c) = false) (ω : Nat → Answer) :
    ((op.request c).run m ω).1.findTask id = m.findTask id := by
  rcases ht : m.findTask id with _ | t
  · exact (op.request c).run_absent ht ω
  · rw [ht, Option.any_some] at hacts
    exact (run_of_not_actsOn hc hm ht hacts ω).1

/-- An operation on a category ends. Every task that it acts on has one entry in the reply, and
nothing else has any. Of these tasks it erases those in the recycle bin that can be cancelled, after
what was downloaded has been removed if it is to be. Every other task is as it was. -/
theorem category_exact (op : CategoryOperate) (hc : c ≠ .kAll) (hm : m.ListedById) (ω : Nat → Answer) :
    (∀ fuel, m.taskIds.length ≤ fuel → op.loop c fuel m ω = some ((op.request c).run m ω)) ∧
    (∀ id, ((op.request c).run m ω).2.ids.count id = if (m.findTask id).any (op.actsOn c) then 1 else 0) ∧
    (∀ id t, m.findTask id = some t → (((op.request c).run m ω).1.findTask id = none ↔
      op.actsOn c t = true ∧ c = .kRecyclebinTask ∧ ∃ k : Nat, m.taskIds[k]? = some id ∧
        op.localFileFails t (ω k) = false ∧
        ((Lib.forEach (op.request c).exec (m, {}) (m.taskIds.take k) ω).1.cancel id t (ω k)).2 = true)) ∧
    (∀ id, (m.findTask id).any (op.actsOn c) = false →
      ((op.request c).run m ω).1.findTask id = m.findTask id) := by
  refine ⟨fun fuel hfuel => op.loop_eq c m ω hfuel, fun id => op.count_run hc hm id ω, ?_, ?_⟩
  · intro id t ht
    exact op.run_erased_iff hc hm ht ω
  · intro id hacts
    exact op.run_frame hc hm hacts ω

/-- One of two tasks is in the recycle bin. -/
theorem category_exact_twoTasks :
    let m := Lib.run step { userId := "u" }
      [linkTask "a" "http://a", linkTask "b" "http://b", .delete ["b"] false fun _ => {}]
    ((request .kRecyclebinTask (.delete true)).run m fun _ => {}).2.ids.count "b" = 1 ∧
      ((request .kRecyclebinTask (.delete true)).run m fun _ => {}).1.findTask "a" = m.findTask "a" := by
  intro m
  obtain ⟨-, hentries, -, hsame⟩ := category_exact (c := .kRecyclebinTask) (.delete true) (by decide)
    (run_listedById (m := { userId := "u" }) rfl
      [linkTask "a" "http://a", linkTask "b" "http://b", .delete ["b"] false fun _ => {}]) fun _ => {}
  refine ⟨(hentries "b").trans ?_, hsame "a" ?_⟩ <;> decide +kernel

end CategoryOperate

end Nas.Download
