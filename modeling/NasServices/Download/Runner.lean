import NasServices.Download.UserSelfMgr.Writes

/-!
# Posted restarts and the tasks they are bound to

All work of a user goes through one single-threaded runner, in the order in
which it is posted. `CurlTask::Resume` posts `ReStart` with a bare pointer to
the task, so the closure waits behind what has been queued before it, and a
request that is among this may destroy the task.

`Runner` is the queue with the manager it works on. A closure is bound to an
object: an id and how many objects that were listed under it before have been
destroyed. If no request is taken up while a closure for a task that it may
destroy is waiting (`Runner.Settled`), every closure that is run finds its task
alive (`run_alive_reStart`).
-/

namespace Nas.Download

open Lib (Along run forEach_keep forEach_scan_all mem_forEachLog)

namespace UserSelfMgr

variable {m m' : UserSelfMgr} {id : String} {e : Event} {a : Answer}

/-! ## What a request may destroy -/

def inBin (m : UserSelfMgr) (id : String) : Bool := (m.findTask id).any (·.taskCategory = .kRecyclebinTask)

/-- The event may destroy the task that is listed under the id. A request that names a task twice
first puts it into the recycle bin and then deletes it. -/
def Event.mayErase (m : UserSelfMgr) (id : String) : Event → Bool
  | .delete ids .. | .clean ids .. => id ∈ ids && (m.inBin id || 2 ≤ ids.count id)
  | .deleteCategory c .. => c = .kAll || (c = .kRecyclebinTask && m.inBin id)
  | .cleanCategory c .. => c = .kRecyclebinTask && m.inBin id
  | .reset .. | .restart .. => true
  | _ => false

theorem inBin_eq_false_iff {t : TaskBase} (ht : m.findTask id = some t) :
    m.inBin id = false ↔ t.taskCategory ≠ .kRecyclebinTask := by
  simp [inBin, ht]

theorem inBin_congr (heq : m'.findTask id = m.findTask id) : m'.inBin id = m.inBin id := by
  rw [inBin, heq, inBin]

/-- A task outside of the recycle bin survives one round of a delete or clean request. -/
theorem execDeleteOperate_isSome (isDeleteLocalFile isJudgeTaskValid : Bool) {s : UserSelfMgr × Reply}
    (hs : (s.1.findTask id).isSome) (hbin : s.1.inBin id = false) (a : Answer) :
    ((execDeleteOperate isDeleteLocalFile isJudgeTaskValid s id a).1.findTask id).isSome := by
  obtain ⟨t, ht⟩ := Option.isSome_iff_exists.mp hs
  have hcat := (inBin_eq_false_iff ht).mp hbin
  simp only [execDeleteOperate, ht, if_neg hcat]
  split
  · exact hs
  · split
    · exact hs
    · rw [findTask_setTask, Option.isSome_some]

/-- So does a task that a request of this kind names at most once. -/
theorem forEach_execDeleteOperate_isSome (isDeleteLocalFile isJudgeTaskValid : Bool) {ids : List String}
    (hm : (m.findTask id).isSome) (hid : id ∈ ids → m.inBin id = false ∧ ids.count id < 2) (ω : Nat → Answer) :
    ((Lib.forEach (execDeleteOperate isDeleteLocalFile isJudgeTaskValid) (m, {}) ids ω).1.findTask id).isSome := by
  refine (forEach_scan_all (I := fun (s : UserSelfMgr × Reply) rest => (s.1.findTask id).isSome ∧
    (id ∈ rest → s.1.inBin id = false ∧ rest.count id < 2)) (fun s x rest k hI => ?_) ⟨hm, hid⟩).1
  have hdel := execDeleteOperate_deleted isDeleteLocalFile isJudgeTaskValid s x (ω k)
  by_cases hx : id = x
  · subst hx
    obtain ⟨hbin, hcount⟩ := hI.2 List.mem_cons_self
    refine ⟨execDeleteOperate_isSome _ _ hI.1 hbin _, fun hmem => ?_⟩
    have hpos := List.count_pos_iff.mpr hmem
    rw [List.count_cons_self] at hcount
    omega
  · have heq := hdel.findTask_ne hx
    refine ⟨by rw [heq]; exact hI.1, fun hmem => ?_⟩
    obtain ⟨hbin, hcount⟩ := hI.2 (List.mem_cons_of_mem _ hmem)
    rw [List.count_cons_of_ne (Ne.symm hx)] at hcount
    exact ⟨by rw [inBin_congr heq]; exact hbin, hcount⟩

/-- A request for a category other than that of all tasks takes off the list only what is in the
recycle bin. -/
theorem forEach_category_isSome (taskCategory : TaskCategory)
    {body : UserSelfMgr × Reply → String → Answer → UserSelfMgr × Reply} (hdel : ∀ s x a, Deleted x a s.1 (body s x a).1)
    (hother : ∀ s t a, s.1.findTask id = some t → t.taskCategory ≠ taskCategory → (body s id a).1 = s.1)
    (hbin : taskCategory ≠ .kRecyclebinTask → ∀ s a, (s.1.findTask id).isSome →
      ((body s id a).1.findTask id).isSome)
    (hm : (m.findTask id).isSome) (hid : taskCategory = .kRecyclebinTask → m.inBin id = false)
    (ids : List String) (ω : Nat → Answer) : ((Lib.forEach body (m, {}) ids ω).1.findTask id).isSome := by
  refine (forEach_keep (I := fun s : UserSelfMgr × Reply => (s.1.findTask id).isSome ∧
    (taskCategory = .kRecyclebinTask → s.1.inBin id = false)) (fun s x a _ hI => ?_) ⟨hm, hid⟩ ω).1
  by_cases hx : id = x
  · subst hx
    by_cases hc : taskCategory = .kRecyclebinTask
    · obtain ⟨t, ht⟩ := Option.isSome_iff_exists.mp hI.1
      rw [hother s t a ht (hc ▸ (inBin_eq_false_iff ht).mp (hI.2 hc))]
      exact hI
    · exact ⟨hbin hc s a hI.1, fun h => absurd h hc⟩
  · have heq := (hdel s x a).findTask_ne hx
    exact ⟨by rw [heq]; exact hI.1, fun hc => by rw [inBin_congr heq]; exact hI.2 hc⟩

theorem execDeleteCategoryOperate_isSome {taskCategory : TaskCategory} (hall : taskCategory ≠ .kAll)
    (hc : taskCategory ≠ .kRecyclebinTask) (isDeleteLocalFile : Bool) {s : UserSelfMgr × Reply} (a : Answer)
    (hs : (s.1.findTask id).isSome) :
    ((execDeleteCategoryOperate taskCategory isDeleteLocalFile s id a).1.findTask id).isSome := by
  obtain ⟨t, ht⟩ := Option.isSome_iff_exists.mp hs
  simp only [execDeleteCategoryOperate, ht, if_neg hall, if_neg hc]
  split
  · exact hs
  · rw [findTask_setTask, Option.isSome_some]

theorem execCleanCategoryOperate_isSome {taskCategory : TaskCategory} (hc : taskCategory ≠ .kRecyclebinTask)
    {s : UserSelfMgr × Reply} (a : Answer) (hs : (s.1.findTask id).isSome) :
    ((execCleanCategoryOperate taskCategory s id a).1.findTask id).isSome := by
  obtain ⟨t, ht⟩ := Option.isSome_iff_exists.mp hs
  simp only [execCleanCategoryOperate, ht, if_neg hc]
  split
  · exact hs
  · rw [findTask_setTask, Option.isSome_some]

/-- What an event cannot destroy it leaves on the list. -/
theorem step_isSome (he : e.mayErase m id = false) (hm : (m.findTask id).isSome) :
    ((m.step e).findTask id).isSome := by
  by_cases hr : e.removes = false
  · obtain ⟨t, ht⟩ := Option.isSome_iff_exists.mp hm
    have hp := (step_tracks (m := m) hr).kept id t.param (by rw [paramOf, ht, Option.map_some])
    obtain ⟨t', ht', -⟩ := Option.map_eq_some_iff.mp hp
    rw [ht', Option.isSome_some]
  · cases e with
    | delete ids b ω | clean ids ω =>
      refine forEach_execDeleteOperate_isSome _ _ hm (fun hid => ?_) ω
      simpa [Event.mayErase, hid] using he
    | deleteCategory c b ω =>
      simp only [Event.mayErase, Bool.or_eq_false_iff, decide_eq_false_iff_not, Bool.and_eq_false_imp,
        decide_eq_true_eq] at he
      refine forEach_category_isSome c (execDeleteCategoryOperate_deleted c b)
        (fun s t a ht hne => ?_) (fun hc s a hs => execDeleteCategoryOperate_isSome he.1 hc b a hs) hm he.2 _ ω
      simp [execDeleteCategoryOperate, ht, he.1, hne]
    | cleanCategory c ω =>
      simp only [Event.mayErase, Bool.and_eq_false_imp, decide_eq_true_eq] at he
      refine forEach_category_isSome c (execCleanCategoryOperate_deleted c)
        (fun s t a ht hne => ?_) (fun hc s a hs => execCleanCategoryOperate_isSome hc a hs) hm he _ ω
      simp [execCleanCategoryOperate, ht, hne]
    | reset | restart => cases he
    | _ => exact absurd rfl hr

theorem Deleted.listedById (hdel : Deleted id a m m') (hm : m.ListedById) : m'.ListedById := by
  intro j p hp
  by_cases hj : j = id
  · subst hj
    cases hdel with
    | same => exact hm j p hp
    | @binned t ht =>
      rw [paramOf, findTask_setTask, Option.map_some, (t.deleteToRecycleBin_logged a).param] at hp
      exact hm j p (by rw [paramOf, ht]; exact hp)
    | removed => rw [paramOf, findTask_erase] at hp; cases hp
    | refused ht =>
      rw [paramOf, findTask_setTask] at hp
      exact hm j p (by rw [paramOf, ht]; exact hp)
  · exact hm j p (by rwa [paramOf, hdel.findTask_ne hj] at hp)

theorem step_listedById (hm : m.ListedById) (e : Event) : (m.step e).ListedById := by
  by_cases hr : e.removes = false
  · exact (step_tracks hr).byId hm
  · by_cases hd : e.deletes = true
    · exact step_keep_of_deletes (fun _ _ _ _ hm hdel => hdel.listedById hm) hd hm
    · cases e with
      | reset => exact fun id p hp => (nomatch hp)
      | restart rows host =>
        intro id p hp
        obtain ⟨t, ht, rfl⟩ := Option.map_eq_some_iff.mp hp
        exact restart_listed (P := fun id t => t.param.id = id) (fun r _ h => resumeDataFromDb_id r h _)
          m host id t ht
      | delete | clean | deleteCategory | cleanCategory => exact absurd rfl hd
      | _ => exact absurd rfl hr

theorem run_listedById (hm : m.taskList = ∅) (es : List Event) : (run step m es).ListedById := by
  refine Lib.run_keep (I := ListedById) (fun _ e h => step_listedById h e) (fun id p hp => ?_) es
  rw [paramOf, findTask, hm] at hp
  cases hp

/-! ## Which requests post restarts -/

@[simp] theorem reStart_notMem_cancelPosts (m : UserSelfMgr) (t : TaskBase) (a : Answer) (j : String) :
    .reStart j ∉ m.cancelPosts t a := by
  obtain ⟨realDelete, hposts, -⟩ := m.cancelPosts_eq t a
  rw [hposts]
  unfold TaskBase.exceCancelPosts
  split_ifs <;> simp [TaskBase.setTaskStatusPosts]

@[simp] theorem reStart_notMem_removeTaskPosts (m : UserSelfMgr) (id : String) (t : TaskBase) (a : Answer)
    (j : String) : .reStart j ∉ m.removeTaskPosts id t a := by
  unfold removeTaskPosts
  split_ifs <;> simp

@[simp] theorem reStart_notMem_deleteToRecycleBinPosts (t : TaskBase) (a : Answer) (j : String) :
    .reStart j ∉ t.deleteToRecycleBinPosts a := by
  unfold TaskBase.deleteToRecycleBinPosts
  split_ifs <;> simp [TaskBase.setTaskStatusPosts]

theorem reStart_notMem_posts (he : e.removes = true) (j : String) : .reStart j ∉ m.posts e := by
  intro hmem
  cases e with
  | delete | clean =>
    obtain ⟨s, id, a, hmem⟩ := mem_forEachLog hmem
    unfold execDeletePosts at hmem
    split at hmem
    · cases hmem
    · split_ifs at hmem <;> simp at hmem
  | deleteCategory =>
    obtain ⟨s, id, a, hmem⟩ := mem_forEachLog hmem
    unfold execDeleteCategoryPosts at hmem
    split at hmem
    · cases hmem
    · split_ifs at hmem <;> simp at hmem
  | cleanCategory =>
    obtain ⟨s, id, a, hmem⟩ := mem_forEachLog hmem
    unfold execCleanCategoryPosts at hmem
    split at hmem
    · cases hmem
    · split_ifs at hmem <;> simp at hmem
  | reset =>
    rcases List.mem_append.mp hmem with hmem | hmem
    · obtain ⟨m', id, a, hmem⟩ := mem_forEachLog hmem
      unfold resetTaskPosts TaskBase.pausePosts at hmem
      split at hmem
      · cases hmem
      · split_ifs at hmem <;> simp [TaskBase.setTaskStatusPosts] at hmem
    · simp at hmem
  | restart => cases hmem
  | _ => cases he

end UserSelfMgr

/-! ## The runner -/

inductive Job
  | work (e : UserSelfMgr.Event)
  /-- `CurlTask::ReStart` on a task object: an id, and how many objects that were listed under it
  had been destroyed when the closure was bound. -/
  | reStart (taskId : String) (object : Nat)

def Job.restarts : Job → Option String
  | .reStart taskId _ => some taskId
  | .work _ => none

structure Runner where
  mgr : UserSelfMgr
  /-- How many of the task objects that were listed under an id have been destroyed. -/
  destroyed : String → Nat := fun _ => 0
  queue : List Job := []

namespace Runner

open UserSelfMgr (Event)

inductive Turn
  /-- A request, a tick or a signal of an engine is put into the queue. -/
  | post (e : Event)
  | next
  /-- The process ends, and the queue with it, and starts again. -/
  | restart (rows : List TaskBase.Row) (host : Nat → Host)

def isAlive (s : Runner) (taskId : String) (object : Nat) : Bool :=
  (s.mgr.findTask taskId).isSome && s.destroyed taskId == object

def bind (s : Runner) : Post → Option Job
  | .reStart taskId => some (.reStart taskId (s.destroyed taskId))
  | _ => none

/-- An event is worked off. What it posts to its own runner is queued behind the `rest`; a task that
has left the list is destroyed with its last pointer. -/
def work (s : Runner) (e : Event) (rest : List Job) : Runner where
  mgr := s.mgr.step e
  destroyed id :=
    if (s.mgr.findTask id).isSome && ((s.mgr.step e).findTask id).isNone then s.destroyed id + 1
    else s.destroyed id
  queue := rest ++ (s.mgr.posts e).filterMap s.bind

/-- One turn. `ReStart` only acts on the engine of its task (`TryReStart`). -/
def step (s : Runner) : Turn → Runner
  | .post (.restart ..) => s
  | .post e => { s with queue := s.queue ++ [.work e] }
  | .next =>
    match s.queue with
    | [] => s
    | .work e :: rest => s.work e rest
    | .reStart .. :: rest => { s with queue := rest }
  | .restart rows host => { mgr := s.mgr.step (.restart rows host) }

def RunsAlive (s : Runner) (turn : Turn) : Prop :=
  match turn, s.queue with
  | .next, .reStart taskId object :: _ => s.isAlive taskId object = true
  | _, _ => True

/-- If the turn takes up an event, no `ReStart` is waiting for a task that the event may destroy. -/
def Settled (s : Runner) (turn : Turn) : Prop :=
  match turn, s.queue with
  | .next, .work e :: rest => ∀ j ∈ rest, ∀ taskId ∈ j.restarts, e.mayErase s.mgr taskId = false
  | _, _ => True

instance : DecidableRel RunsAlive
  | ⟨_, _, .reStart _ _ :: _⟩, .next => inferInstanceAs (Decidable (_ = true))
  | ⟨_, _, []⟩, .next | ⟨_, _, .work _ :: _⟩, .next | _, .post _ | _, .restart .. => isTrue trivial

instance : DecidableRel Settled
  | ⟨_, _, .work _ :: rest⟩, .next => inferInstanceAs (Decidable (∀ j ∈ rest, ∀ taskId ∈ j.restarts, _ = false))
  | ⟨_, _, []⟩, .next | ⟨_, _, .reStart _ _ :: _⟩, .next | _, .post _ | _, .restart .. => isTrue trivial

structure Bound (s : Runner) : Prop where
  byId : s.mgr.ListedById
  alive : ∀ taskId object, .reStart taskId object ∈ s.queue → s.isAlive taskId object

variable {s : Runner}

theorem isAlive_work {e : Event} {id : String} (hid : ((s.mgr.step e).findTask id).isSome) (rest : List Job)
    (object : Nat) : (s.work e rest).isAlive id object = (s.destroyed id == object) := by
  simp [isAlive, work, hid, Option.isSome_iff_ne_none.mp hid]

theorem Bound.work {e : Event} {rest : List Job} (hs : s.Bound) (hq : s.queue = .work e :: rest)
    (he : ∀ j ∈ rest, ∀ taskId ∈ j.restarts, e.mayErase s.mgr taskId = false) : (s.work e rest).Bound := by
  refine ⟨UserSelfMgr.step_listedById hs.byId e, fun id object hmem => ?_⟩
  rcases List.mem_append.mp hmem with hmem | hmem
  · -- it was waiting before
    have hal := hs.alive id object (hq ▸ List.mem_cons_of_mem _ hmem)
    simp only [isAlive, Bool.and_eq_true] at hal
    rw [isAlive_work (UserSelfMgr.step_isSome (he _ hmem id rfl) hal.1)]
    exact hal.2
  · -- it has just been posted
    obtain ⟨p, hp, hbind⟩ := List.mem_filterMap.mp hmem
    cases p with
    | reStart j =>
      obtain ⟨rfl, rfl⟩ := Job.reStart.inj (Option.some.inj hbind)
      by_cases hr : e.removes = true
      · exact absurd hp (UserSelfMgr.reStart_notMem_posts hr j)
      · have hj := (UserSelfMgr.step_tracks (by simpa using hr)).restarted hs.byId j hp
        rw [UserSelfMgr.paramOf, Option.isSome_map] at hj
        rw [isAlive_work hj]
        exact beq_self_eq_true _
    | _ => cases hbind

theorem step_bound (hs : s.Bound) {turn : Turn} (h : s.Settled turn) : (s.step turn).Bound := by
  cases turn with
  | post e =>
    have hpost : ({ s with queue := s.queue ++ [.work e] } : Runner).Bound := by
      refine ⟨hs.byId, fun id object hmem => hs.alive id object ?_⟩
      simpa using hmem
    cases e with
    | restart => exact hs
    | _ => exact hpost
  | next =>
    have hnext : ∀ q, s.queue = q → (s.step .next).Bound := by
      intro q hq
      cases q with
      | nil => rwa [step, hq]
      | cons j rest =>
        cases j with
        | work e =>
          simp only [Settled, hq] at h
          simp only [step, hq]
          exact hs.work hq h
        | reStart id object =>
          simp only [step, hq]
          exact ⟨hs.byId, fun i o hmem => hs.alive i o (hq ▸ List.mem_cons_of_mem _ hmem)⟩
    exact hnext _ rfl
  | restart rows host => exact ⟨UserSelfMgr.step_listedById hs.byId _, fun _ _ hmem => (nomatch hmem)⟩

theorem Bound.runsAlive (hs : s.Bound) (turn : Turn) : s.RunsAlive turn := by
  unfold RunsAlive
  split
  · rename_i hq
    exact hs.alive _ _ (hq ▸ List.mem_cons_self)
  · trivial

end Runner

/-- If no event is taken up while a `ReStart` is waiting for a task that the event may destroy, every
`ReStart` that is run has its task. -/
theorem run_alive_reStart {m : UserSelfMgr} (hm : m.taskList = ∅) {turns : List Runner.Turn}
    (h : Along Runner.step Runner.Settled { mgr := m } turns) :
    Along Runner.step Runner.RunsAlive { mgr := m } turns := by
  have hinit : Runner.Bound { mgr := m } := by
    refine ⟨fun id p hp => ?_, fun _ _ hmem => (nomatch hmem)⟩
    rw [UserSelfMgr.paramOf, UserSelfMgr.findTask, hm] at hp
    cases hp
  exact h.imp (fun s turn hs ht => Runner.step_bound hs ht) (fun s turn hs _ => hs.runsAlive turn) hinit

/-- A task is paused and resumed, and the recycle bin is emptied while its `ReStart` is waiting. -/
def resumedThenEmptied : List Runner.Turn :=
  [.post (UserSelfMgr.linkTask "1" "http://a/f"), .next, .post (.pause ["1"] fun _ => {}), .next,
    .post (.resume ["1"] ["1"] fun _ => {}), .post (.deleteCategory .kRecyclebinTask false fun _ => {}),
    .next, .next, .next]

theorem run_alive_resumedThenEmptied : Along Runner.step Runner.RunsAlive { mgr := { userId := "u" } } resumedThenEmptied :=
  run_alive_reStart rfl (by decide +kernel)

/-- All tasks are deleted while the `ReStart` of a resumed one is waiting. -/
def resumedThenDeleted : List Runner.Turn :=
  [.post (UserSelfMgr.linkTask "1" "http://a/f"), .next, .post (.pause ["1"] fun _ => {}), .next,
    .post (.resume ["1"] ["1"] fun _ => {}), .post (.deleteCategory .kAll false fun _ => {}),
    .next, .next, .next]

/-- The last turn runs `ReStart` on a task that the turn before has destroyed. -/
theorem resumedThenDeleted_not_alive :
    ¬ Along Runner.step Runner.RunsAlive { mgr := { userId := "u" } } resumedThenDeleted := by
  decide +kernel

end Nas.Download
