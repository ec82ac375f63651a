import NasServices.Download.UserSelfMgr.Pieces
import NasServices.Download.UserThreads

/-!
# A reset waits for every user

`Settled` says how far the reset of a manager is: it is in the queue of the manager's
thread with nothing behind it that lists a task, it has cleared the list and has not
returned, or it has finished. A thread is not told to quit before all resets have been
posted, so it does not end before the resets of its users have finished; and when the
store is reset no thread is left (`run_waits`).
-/

namespace Nas.Download

namespace UserSelfMgr

variable {m : UserSelfMgr} {e : Event} {Q : String → TaskParam → Prop}

theorem Listed.step (h : Listed Q m) (hl : e.lists = false) : Listed Q (m.step e) := by
  cases e with
  | createLink | createTorrent | restart => cases hl
  | delete | clean | deleteCategory | cleanCategory =>
    exact step_keep_of_deletes (fun _ _ _ _ hm hd => hm.deleted hd) rfl h
  | reset ω => exact .of_empty rfl
  | _ => exact h.pieces (step_pieces rfl rfl)

def NoTasks (m : UserSelfMgr) : Prop := Listed (fun _ _ => False) m

theorem NoTasks.taskList (h : m.NoTasks) : m.taskList = ∅ := by
  refine AList.ext (List.eq_nil_iff_forall_not_mem.mpr fun ⟨id, t⟩ hmem => h id t ?_)
  exact AList.mem_lookup_iff.mpr hmem

end UserSelfMgr

namespace Task

def lists (o : Nat) : Task → Bool
  | .run o' e => o' = o && e.lists
  | .resumeFromDb o' .. => o' = o
  | _ => false

def event? : Task → Option Nat
  | .reset _ event | .signal event | .leave _ event => some event
  | _ => none

theorem lists_of_mem_rest {task task' : Task} (h : task' ∈ task.rest) (o : Nat) : task'.lists o = false := by
  cases task <;> simp [rest] at h
  rcases h with rfl | rfl <;> rfl

theorem quit_not_mem_rest (task : Task) : .quit ∉ task.rest := by
  cases task <;> simp [rest]

theorem event?_of_mem_rest {task task' : Task} (h : task' ∈ task.rest) : task'.event? = task.event? := by
  cases task <;> simp [rest] at h
  rcases h with rfl | rfl <;> rfl

end Task

namespace UserThreads

open UserSelfMgr (NoTasks)

def NoLists (o : Nat) (queue : List Task) : Prop := ∀ task ∈ queue, task.lists o = false

inductive Settled (o : Nat) (u : UserThread) (m : UserSelfMgr) (finished : Prop) : Prop
  | queued {before behind : List Task} {event : Nat} (hended : u.ended = false) (hquit : u.quitting = false)
      (hqueue : u.queue = before ++ .reset o event :: behind) (hbefore : .quit ∉ before)
      (hbehind : NoLists o behind)
  | leaving {before behind : List Task} {event : Nat} (hended : u.ended = false) (hquit : u.quitting = false)
      (hqueue : u.queue = before ++ .leave o event :: behind) (hbefore : .quit ∉ before)
      (hempty : m.NoTasks) (hlists : NoLists o u.queue)
  | done (hfinished : finished) (hempty : m.NoTasks) (hlists : NoLists o u.queue)

variable {o t : Nat} {u : UserThread} {m m' : UserSelfMgr} {task : Task} {queue : List Task} {F F' : Prop}

theorem Settled.mono (h : Settled o u m F) (hm : m.NoTasks → m'.NoTasks) (hF : F → F') : Settled o u m' F' := by
  cases h with
  | queued hended hquit hqueue hbefore hbehind => exact .queued hended hquit hqueue hbefore hbehind
  | leaving hended hquit hqueue hbefore hempty hlists =>
    exact .leaving hended hquit hqueue hbefore (hm hempty) hlists
  | done hfin hempty hlists => exact .done (hF hfin) (hm hempty) hlists

theorem NoLists.append {queue' : List Task} (h : NoLists o queue) (h' : NoLists o queue') :
    NoLists o (queue ++ queue') := by
  intro task hmem
  rcases List.mem_append.mp hmem with hmem | hmem
  · exact h task hmem
  · exact h' task hmem

theorem NoLists.rest (h : NoLists o (task :: queue)) : NoLists o (task.rest ++ queue) :=
  .append (fun _ hmem => Task.lists_of_mem_rest hmem o) fun task hmem => h task (List.mem_cons_of_mem _ hmem)

theorem Settled.post (h : Settled o u m F) (htask : task.lists o = false) :
    Settled o { u with queue := u.queue ++ [task] } m F := by
  have hone : NoLists o [task] := by
    intro task' hmem
    rwa [List.mem_singleton.mp hmem]
  cases h with
  | @queued before behind event hended hquit hqueue hbefore hbehind =>
    have hqueue' : u.queue ++ [task] = before ++ .reset o event :: (behind ++ [task]) := by
      rw [hqueue, List.append_assoc, List.cons_append]
    exact .queued hended hquit hqueue' hbefore (hbehind.append hone)
  | @leaving before behind event hended hquit hqueue hbefore hempty hlists =>
    have hqueue' : u.queue ++ [task] = before ++ .leave o event :: (behind ++ [task]) := by
      rw [hqueue, List.append_assoc, List.cons_append]
    exact .leaving hended hquit hqueue' hbefore hempty (hlists.append hone)
  | done hfin hempty hlists => exact .done hfin hempty (hlists.append hone)

theorem Settled.of_post (hended : u.ended = false) (hquit : u.quitting = false) (hqueue : .quit ∉ u.queue)
    (event : Nat) : Settled o { u with queue := u.queue ++ [.reset o event] } m F :=
  have hlast : u.queue ++ [.reset o event] = u.queue ++ .reset o event :: [] := rfl
  .queued hended hquit hlast hqueue fun _ hmem => absurd hmem List.not_mem_nil

/-- The thread of the manager takes its next task, which leaves the manager as `m'`. -/
theorem Settled.run (h : Settled o u m F) (hqueue : u.queue = task :: queue) (hquit : task ≠ .quit)
    (hm : task.lists o = false → m.NoTasks → m'.NoTasks) (hreset : ∀ event, task = .reset o event → m'.NoTasks)
    (hF : F → F') (hleave : ∀ event, task = .leave o event → F') :
    Settled o { u with queue := task.rest ++ queue } m' F' := by
  have hrest : ∀ {before : List Task}, .quit ∉ before → .quit ∉ task.rest ++ before := by
    intro before hbefore hmem
    exact (List.mem_append.mp hmem).elim task.quit_not_mem_rest hbefore
  cases h with
  | @queued _ _ event hended hnot hq hbefore hbehind =>
    obtain ⟨rfl, hfirst⟩ | ⟨before, rfl, rfl⟩ := List.cons_eq_append_iff.mp (hqueue.symm.trans hq)
    · -- the reset itself: its list is empty, and it comes to its `Signal`
      obtain ⟨rfl, rfl⟩ := List.cons.inj hfirst
      have hbefore' : .quit ∉ [Task.signal event] := by simp
      refine .leaving hended hnot rfl hbefore' (hreset event rfl) ?_
      exact .append (fun _ hmem => Task.lists_of_mem_rest hmem o) hbehind
    · exact .queued hended hnot (List.append_assoc ..).symm
        (hrest fun hmem => hbefore (List.mem_cons_of_mem _ hmem)) hbehind
  | leaving hended hnot hq hbefore hempty hlists =>
    rw [hqueue] at hlists
    have hempty' := hm (hlists task List.mem_cons_self) hempty
    obtain ⟨rfl, hfirst⟩ | ⟨before, rfl, rfl⟩ := List.cons_eq_append_iff.mp (hqueue.symm.trans hq)
    · obtain ⟨rfl, rfl⟩ := List.cons.inj hfirst
      exact .done (hleave _ rfl) hempty' hlists.rest
    · exact .leaving hended hnot (List.append_assoc ..).symm
        (hrest fun hmem => hbefore (List.mem_cons_of_mem _ hmem)) hempty' hlists.rest
  | done hfin hempty hlists =>
    rw [hqueue] at hlists
    exact .done (hF hfin) (hm (hlists task List.mem_cons_self) hempty) hlists.rest

theorem eq_quit_of_first {before behind : List Task} (hq : .quit :: queue = before ++ task :: behind)
    (hbefore : .quit ∉ before) : task = .quit := by
  obtain ⟨-, hfirst⟩ | ⟨before', rfl, -⟩ := List.cons_eq_append_iff.mp hq
  · exact (List.cons.inj hfirst).1
  · exact absurd List.mem_cons_self hbefore

/-- A thread that comes to its `quit` has finished the resets of its managers. -/
theorem Settled.quit (h : Settled o u m F) (hqueue : u.queue = .quit :: queue) :
    F ∧ m.NoTasks ∧ NoLists o queue := by
  cases h with
  | queued _ _ hq hbefore | leaving _ _ hq hbefore => cases eq_quit_of_first (hqueue.symm.trans hq) hbefore
  | done hfin hempty hlists =>
    rw [hqueue] at hlists
    exact ⟨hfin, hempty, fun task hmem => hlists task (List.mem_cons_of_mem _ hmem)⟩

theorem Settled.ended (h : Settled o u m F) (hu : u.ended = true ∨ u.quitting = true) :
    F ∧ m.NoTasks ∧ NoLists o u.queue := by
  cases h with
  | queued hended hquit | leaving hended hquit =>
    rw [hended, hquit] at hu
    exact hu.elim nofun nofun
  | done hfin hempty hlists => exact ⟨hfin, hempty, hlists⟩

/-! ## The invariant -/

def owned (s : UserThreads) : List Nat :=
  match s.work with
  | .joining threads => threads
  | .stopping t threads => t :: threads
  | .returning => []
  | _ => s.userThreadList

def Stops (s : UserThreads) (t : Nat) : Prop := ∃ threads, s.work = .stopping t threads

def Dropped (s : UserThreads) : Prop :=
  match s.work with
  | .joining _ | .stopping .. | .returning => True
  | _ => False

theorem Stops.dropped {s : UserThreads} {t : Nat} (h : s.Stops t) : s.Dropped := by
  obtain ⟨threads, hwork⟩ := h
  rw [Dropped, hwork]
  trivial

def Awaits (s : UserThreads) (o : Nat) : Prop :=
  match s.work with
  | .idle => ∃ userId, s.userSelfMgrList.lookup userId = some o
  | .posting users => o ∈ users
  | _ => False

def SettledAt (s : UserThreads) (o : Nat) : Prop :=
  Settled o (s.threads (s.objects o).thread) (s.objects o).mgr (∃ event, .finished o event ∈ s.log)

structure ThreadOk (s : UserThreads) (t : Nat) (u : UserThread) : Prop where
  owned : u.ended = false → t ∈ s.owned
  quits : u.ended = false → u.quitting = true ∨ .quit ∈ u.queue → s.Stops t
  home : ∀ task ∈ u.queue, ∀ o, task.lists o = true → o < s.nextObject ∧ (s.objects o).thread = t
  event : u.ended = false → ∀ task ∈ u.queue, ∀ event, task.event? = some event →
    event = s.resets ∧ s.work ≠ .idle

structure Inv (s : UserThreads) : Prop where
  threads : ∀ t, s.ThreadOk t (s.threads t)
  fresh : ∀ t, s.nextThread ≤ t → (s.threads t).ended = true
  thread_lt : ∀ o < s.nextObject, (s.objects o).thread < s.nextThread
  users : ∀ userId o, s.userSelfMgrList.lookup userId = some o →
    o < s.nextObject ∧ (s.threads (s.objects o).thread).ended = false
  posting : ∀ users, s.work = .posting users → ∀ o ∈ users, ∃ userId, s.userSelfMgrList.lookup userId = some o
  dropped : s.Dropped → s.userSelfMgrList = ∅
  settled : ∀ o < s.nextObject, ¬ s.Awaits o → s.SettledAt o
  touched : ∀ event alive, .touched event alive ∈ s.log → alive = true

structure Frame (s s' : UserThreads) (t : Nat) (u : UserThread) : Prop where
  threads : s'.threads = Function.update s.threads t u
  thread : ∀ o, (s'.objects o).thread = (s.objects o).thread
  nextObject : s'.nextObject = s.nextObject
  nextThread : s'.nextThread = s.nextThread
  users : s'.userSelfMgrList = s.userSelfMgrList
  userThreadList : s'.userThreadList = s.userThreadList
  work : s'.work = s.work
  resets : s'.resets = s.resets

variable {s s' : UserThreads}

theorem Frame.owned (h : Frame s s' t u) : s'.owned = s.owned := by
  rw [UserThreads.owned, UserThreads.owned, h.work, h.userThreadList]

theorem Frame.stops (h : Frame s s' t u) (t' : Nat) : s'.Stops t' ↔ s.Stops t' := by
  rw [Stops, Stops, h.work]

theorem Frame.dropped (h : Frame s s' t u) : s'.Dropped ↔ s.Dropped := by
  rw [Dropped, Dropped, h.work]

theorem Frame.awaits (h : Frame s s' t u) (o : Nat) : s'.Awaits o ↔ s.Awaits o := by
  rw [Awaits, Awaits, h.work, h.users]

theorem Frame.threadOk (h : Frame s s' t u) {t' : Nat} {u' : UserThread} (hok : s.ThreadOk t' u') :
    s'.ThreadOk t' u' where
  owned := by
    rw [h.owned]
    exact hok.owned
  quits := by
    rw [h.stops]
    exact hok.quits
  home := by
    simp only [h.nextObject, h.thread]
    exact hok.home
  event := by
    rw [h.resets, h.work]
    exact hok.event

/-- A step of a user thread keeps the invariant if it does so for that thread and settles
what was settled. -/
theorem Inv.frame (h : Inv s) (hframe : Frame s s' t u) (hu : s.ThreadOk t u)
    (hended : (s.threads t).ended = true → u.ended = true)
    (husers : ∀ userId o, s.userSelfMgrList.lookup userId = some o → (s.objects o).thread = t → u.ended = false)
    (hsettled : ∀ o < s.nextObject, ¬ s.Awaits o → s.SettledAt o → s'.SettledAt o)
    (htouched : ∀ event alive, .touched event alive ∈ s'.log → alive = true) : Inv s' where
  threads t' := by
    rw [hframe.threads]
    exact hframe.threadOk ((Function.forall_update_iff _ s.ThreadOk).mpr ⟨hu, fun t' _ => h.threads t'⟩ t')
  fresh := by
    rw [hframe.nextThread, hframe.threads]
    exact (Function.forall_update_iff _ fun t' (u : UserThread) => s.nextThread ≤ t' → u.ended = true).mpr
      ⟨fun hle => hended (h.fresh t hle), fun t' _ => h.fresh t'⟩
  thread_lt o ho := by
    rw [hframe.thread, hframe.nextThread]
    exact h.thread_lt o (hframe.nextObject ▸ ho)
  users userId o ho := by
    rw [hframe.users] at ho
    rw [hframe.nextObject, hframe.thread, hframe.threads]
    refine ⟨(h.users userId o ho).1, ?_⟩
    by_cases ht : (s.objects o).thread = t
    · rw [ht, Function.update_self]
      exact husers userId o ho ht
    · rw [Function.update_of_ne ht]
      exact (h.users userId o ho).2
  posting := by
    rw [hframe.work, hframe.users]
    exact h.posting
  dropped := by
    rw [hframe.dropped, hframe.users]
    exact h.dropped
  settled o ho hno := by
    rw [hframe.awaits] at hno
    have hlt : o < s.nextObject := hframe.nextObject ▸ ho
    exact hsettled o hlt hno (h.settled o hlt hno)
  touched := htouched

theorem frame_setThread (s : UserThreads) (t : Nat) (u : UserThread) : Frame s (s.setThread t u) t u :=
  ⟨rfl, fun _ => rfl, rfl, rfl, rfl, rfl, rfl, rfl⟩

/-- A manager is settled after a step if it is so with what the step made of its thread. -/
theorem SettledAt.setThread (h : s.SettledAt o)
    (hu : (s.objects o).thread = t → Settled o u (s.objects o).mgr (∃ event, .finished o event ∈ s.log)) :
    (s.setThread t u).SettledAt o := by
  show Settled o (Function.update s.threads t u (s.objects o).thread) (s.objects o).mgr _
  by_cases ht : (s.objects o).thread = t
  · rw [ht, Function.update_self]
    exact hu ht
  · rw [Function.update_of_ne ht]
    exact h

theorem ThreadOk.post (h : s.ThreadOk t u) (hquit : task = .quit → s.Stops t)
    (hlists : ∀ o, task.lists o = true → o < s.nextObject ∧ (s.objects o).thread = t)
    (hevent : ∀ event, task.event? = some event → event = s.resets ∧ s.work ≠ .idle) :
    s.ThreadOk t { u with queue := u.queue ++ [task] } where
  owned := h.owned
  quits hended := by
    rintro (hq | hmem)
    · exact h.quits hended (.inl hq)
    · rcases List.mem_append.mp hmem with hmem | hmem
      · exact h.quits hended (.inr hmem)
      · exact hquit (List.mem_singleton.mp hmem).symm
  home task' hmem := by
    rcases List.mem_append.mp hmem with hmem | hmem
    · exact h.home task' hmem
    · rw [List.mem_singleton.mp hmem]
      exact hlists
  event hended task' hmem := by
    rcases List.mem_append.mp hmem with hmem | hmem
    · exact h.event hended task' hmem
    · rw [List.mem_singleton.mp hmem]
      exact hevent

theorem Inv.post (h : Inv s) (hquit : task = .quit → s.Stops t)
    (hlists : ∀ o, task.lists o = true → o < s.nextObject ∧ (s.objects o).thread = t ∧ s.Awaits o)
    (hevent : ∀ event, task.event? = some event → event = s.resets ∧ s.work ≠ .idle) :
    Inv (s.post t task) := by
  unfold UserThreads.post
  dsimp only
  split
  case isTrue => exact h
  case isFalse hended =>
    refine h.frame (frame_setThread ..) ((h.threads t).post hquit (fun o ho => ?_) hevent) (absurd · hended)
      (fun _ _ _ _ => Bool.eq_false_iff.mpr hended) (fun o _ hno hset => hset.setThread fun ht => ?_) h.touched
    · exact ⟨(hlists o ho).1, (hlists o ho).2.1⟩
    · rw [SettledAt, ht] at hset
      exact hset.post (Bool.eq_false_iff.mpr fun ho => hno (hlists o ho).2.2)

/-! ### The user threads -/

theorem frame_refl (s : UserThreads) (t : Nat) : Frame s s t (s.threads t) :=
  ⟨(Function.update_eq_self ..).symm, fun _ => rfl, rfl, rfl, rfl, rfl, rfl, rfl⟩

theorem Frame.onMgr (h : Frame s s' t u) (o : Nat) (f : UserSelfMgr → UserSelfMgr) :
    Frame s (s'.onMgr o f) t u := by
  refine ⟨h.threads, fun o' => ?_, h.nextObject, h.nextThread, h.users, h.userThreadList, h.work, h.resets⟩
  rw [← h.thread o']
  show (Function.update s'.objects o _ o').thread = _
  by_cases ho : o' = o
  · subst ho
    rw [Function.update_self]
  · rw [Function.update_of_ne ho]

theorem Frame.runTask (h : Frame s s' t u) (ω : Nat → Answer) (task : Task) :
    Frame s (s'.runTask ω task) t u := by
  cases task with
  | run o e => exact h.onMgr o (·.step e)
  | resumeFromDb o rows host => exact h.onMgr o (·.resumeFromDb rows host)
  | reset o event => exact h.onMgr o (·.reset ω)
  | signal | leave =>
    exact ⟨h.threads, h.thread, h.nextObject, h.nextThread, h.users, h.userThreadList, h.work, h.resets⟩
  | quit => exact h

theorem SettledAt.of_frame (hframe : Frame s s' t u)
    (h : Settled o (Function.update s.threads t u (s.objects o).thread) (s'.objects o).mgr
      (∃ event, .finished o event ∈ s'.log)) : s'.SettledAt o := by
  rwa [SettledAt, hframe.threads, hframe.thread]

theorem noTasks_onMgr {o' : Nat} {f : UserSelfMgr → UserSelfMgr} (h : (s.objects o).mgr.NoTasks)
    (hf : ∀ m, o' = o → m.NoTasks → (f m).NoTasks) : ((s.onMgr o' f).objects o).mgr.NoTasks := by
  show (Function.update s.objects o' _ o).mgr.NoTasks
  by_cases ho : o = o'
  · subst ho
    rw [Function.update_self]
    exact hf _ rfl h
  · rwa [Function.update_of_ne ho]

/-- A task that lists nothing for a manager leaves its empty list empty. -/
theorem noTasks_runTask (s : UserThreads) (ω : Nat → Answer) (hl : task.lists o = false) (h : (s.objects o).mgr.NoTasks) :
    ((s.runTask ω task).objects o).mgr.NoTasks := by
  cases task with
  | run o' e =>
    refine noTasks_onMgr (f := (·.step e)) h fun m ho hm => hm.step ?_
    simpa [Task.lists, ho] using hl
  | resumeFromDb o' rows host =>
    refine noTasks_onMgr (f := (·.resumeFromDb rows host)) h fun m ho hm => ?_
    simp [Task.lists, ho] at hl
  | reset o' event => exact noTasks_onMgr (f := (·.reset ω)) h fun m _ _ => UserSelfMgr.Listed.of_empty rfl
  | signal | leave | quit => exact h

theorem noTasks_runTask_reset (s : UserThreads) (ω : Nat → Answer) (event : Nat) :
    ((s.runTask ω (.reset o event)).objects o).mgr.NoTasks := by
  show (Function.update s.objects o _ o).mgr.NoTasks
  rw [Function.update_self]
  exact UserSelfMgr.Listed.of_empty rfl

theorem mem_log_runTask (s : UserThreads) (ω : Nat → Answer) (task : Task) {entry : ResetEntry}
    (h : entry ∈ s.log) : entry ∈ (s.runTask ω task).log := by
  cases task with
  | run | resumeFromDb | reset | quit => exact h
  | signal event => exact List.mem_cons_of_mem _ h
  | leave o event => exact List.mem_cons_of_mem _ (List.mem_cons_of_mem _ h)

/-- A step that is of no user thread. -/
theorem Inv.idleFrame (h : Inv s) (hframe : Frame s s' 0 (s.threads 0))
    (hsettled : ∀ o, s.SettledAt o → s'.SettledAt o)
    (htouched : ∀ event alive, .touched event alive ∈ s'.log → alive = true) : Inv s' :=
  h.frame hframe (h.threads 0) id (fun userId o ho ht => ht ▸ (h.users userId o ho).2) (fun o _ _ => hsettled o) htouched

theorem Inv.engine (h : Inv s) {e : UserSelfMgr.Event} (hl : e.lists = false) (o : Nat) :
    Inv (s.onMgr o (·.step e)) := by
  refine h.idleFrame ((frame_refl s 0).onMgr o _) (fun o' hset => .of_frame ((frame_refl s 0).onMgr o _) ?_) h.touched
  rw [Function.update_eq_self]
  exact hset.mono (fun hm => noTasks_onMgr hm fun _ _ hm => hm.step hl) id

/-- A thread ends after the resets of its managers. -/
theorem Inv.exit (h : Inv s) (t : Nat) : Inv (s.exit t) := by
  unfold UserThreads.exit
  dsimp only
  split
  case isFalse => exact h
  case isTrue hquit =>
    refine h.frame (frame_setThread ..) ⟨nofun, nofun, (h.threads t).home, nofun⟩ (fun _ => rfl)
      (fun userId o ho ht => ?_) (fun o _ _ hset => hset.setThread fun ht => ?_) h.touched
    · have hended := ht ▸ (h.users userId o ho).2
      have hnone := h.dropped ((h.threads t).quits hended (.inl hquit)).dropped
      rw [hnone] at ho
      cases ho
    · rw [SettledAt, ht] at hset
      obtain ⟨hfin, hempty, hlists⟩ := hset.ended (.inr hquit)
      exact .done hfin hempty hlists

theorem ThreadOk.rest (h : s.ThreadOk t u) (hqueue : u.queue = task :: queue) :
    s.ThreadOk t { u with queue := task.rest ++ queue } where
  owned := h.owned
  quits hended hq := by
    refine h.quits hended (hq.imp_right fun hmem => ?_)
    rcases List.mem_append.mp hmem with hmem | hmem
    · exact absurd hmem task.quit_not_mem_rest
    · exact hqueue ▸ List.mem_cons_of_mem _ hmem
  home task' hmem o ho := by
    rcases List.mem_append.mp hmem with hmem | hmem
    · rw [Task.lists_of_mem_rest hmem] at ho
      cases ho
    · exact h.home task' (hqueue ▸ List.mem_cons_of_mem _ hmem) o ho
  event hended task' hmem event he := by
    rcases List.mem_append.mp hmem with hmem | hmem
    · rw [Task.event?_of_mem_rest hmem] at he
      exact h.event hended task (hqueue ▸ List.mem_cons_self) event he
    · exact h.event hended task' (hqueue ▸ List.mem_cons_of_mem _ hmem) event he

/-- What the first step of a task makes of a manager. -/
theorem SettledAt.runTask {ω : Nat → Answer} (h : s.SettledAt o)
    (hhome : task.lists o = true → (s.objects o).thread = t)
    (hqueue : (s.threads t).queue = task :: queue) (hquit : task ≠ .quit) :
    ((s.setThread t { s.threads t with queue := task.rest ++ queue }).runTask ω task).SettledAt o := by
  refine .of_frame ((frame_setThread ..).runTask ω task) ?_
  have hfin : (∃ event, .finished o event ∈ s.log) → ∃ event, .finished o event ∈
      ((s.setThread t { s.threads t with queue := task.rest ++ queue }).runTask ω task).log :=
    fun ⟨event, hmem⟩ => ⟨event, mem_log_runTask _ ω task hmem⟩
  by_cases ht : (s.objects o).thread = t
  · rw [SettledAt, ht] at h
    rw [ht, Function.update_self]
    refine h.run hqueue hquit (noTasks_runTask (s.setThread t _) ω) ?_ hfin ?_
    · rintro event rfl
      exact noTasks_runTask_reset _ ω event
    · rintro event rfl
      exact ⟨event, List.mem_cons_self⟩
  · rw [Function.update_of_ne ht]
    have hl : task.lists o = false := Bool.eq_false_iff.mpr fun hl => ht (hhome hl)
    exact h.mono (noTasks_runTask (s.setThread t _) ω hl) hfin

/-- A thread touches only the event of the reset that is going on. -/
theorem touched_runTask {ω : Nat → Answer} (h : ∀ event alive, .touched event alive ∈ s.log → alive = true)
    (hevent : ∀ event, task.event? = some event → event = s.resets ∧ s.work ≠ .idle) :
    ∀ event alive, .touched event alive ∈ (s.runTask ω task).log → alive = true := by
  have htouch : ∀ event', task.event? = some event' →
      ∀ event alive, .touched event alive ∈ (s.touch event').log → alive = true := by
    intro event' he event alive hmem
    obtain ⟨heq, hwork⟩ := hevent event' he
    rcases List.mem_cons.mp hmem with hnew | hmem
    · obtain ⟨-, rfl⟩ := ResetEntry.touched.inj hnew
      simp [alive, heq, hwork]
    · exact h event alive hmem
  cases task with
  | run | resumeFromDb | reset | quit => exact h
  | signal event' => exact htouch event' rfl
  | leave o event' =>
    intro event alive hmem
    have hne : ResetEntry.touched event alive ≠ .finished o event' := nofun
    exact htouch event' rfl event alive (List.mem_of_ne_of_mem hne hmem)

theorem Inv.userThread (h : Inv s) (t : Nat) (ω : Nat → Answer) : Inv (s.userThread t ω) := by
  unfold UserThreads.userThread
  dsimp only
  have hok := h.threads t
  split
  case h_1 => exact h
  case h_2 => exact h
  case h_3 queue hended hqueue =>
    have hstop := hok.quits hended (.inr (hqueue ▸ List.mem_cons_self))
    refine h.frame (frame_setThread ..) ⟨hok.owned, fun _ _ => hstop, fun task hmem => ?_, fun _ task hmem => ?_⟩ id
      (fun _ _ _ _ => hended) (fun o _ _ hset => hset.setThread fun ht => ?_) h.touched
    · exact hok.home task (hqueue ▸ List.mem_cons_of_mem _ hmem)
    · exact hok.event hended task (hqueue ▸ List.mem_cons_of_mem _ hmem)
    · rw [SettledAt, ht] at hset
      obtain ⟨hfin, hempty, hlists⟩ := hset.quit hqueue
      exact .done hfin hempty hlists
  case h_4 task queue hquit hended hqueue =>
    have hmem : task ∈ (s.threads t).queue := hqueue ▸ List.mem_cons_self
    refine h.frame ((frame_setThread ..).runTask ω task) (hok.rest hqueue) id (fun _ _ _ _ => hended)
      (fun o _ _ hset => hset.runTask (fun hl => (hok.home task hmem o hl).2) hqueue fun hq => ?_)
      (touched_runTask h.touched (hok.event hended task hmem))
    exact hquit hq

/-! ### The work thread -/

/-- The work thread goes on. What it says of a thread concerns only those that have not ended. -/
theorem Inv.setWork (h : Inv s) {w : Work}
    (howned : ∀ t, (s.threads t).ended = false → t ∈ s.owned → t ∈ { s with work := w }.owned)
    (hstops : ∀ t, s.Stops t → (s.threads t).ended = false → { s with work := w }.Stops t)
    (hidle : w = .idle → ∀ t, (s.threads t).ended = true)
    (hposting : ∀ users, w = .posting users → ∀ o ∈ users, ∃ userId, s.userSelfMgrList.lookup userId = some o)
    (hdropped : { s with work := w }.Dropped → s.userSelfMgrList = ∅)
    (hsettled : ∀ o < s.nextObject, ¬ { s with work := w }.Awaits o → s.SettledAt o) :
    Inv { s with work := w } where
  threads t :=
    have hok := h.threads t
    ⟨fun hended => howned t hended (hok.owned hended), fun hended hq => hstops t (hok.quits hended hq) hended,
      hok.home, fun hended task hmem event he => ⟨(hok.event hended task hmem event he).1, fun hw => by
        rw [hidle hw t] at hended
        cases hended⟩⟩
  fresh := h.fresh
  thread_lt := h.thread_lt
  users := h.users
  posting := hposting
  dropped := hdropped
  settled := hsettled
  touched := h.touched

/-- Between resets nothing of one is left. -/
theorem Inv.reset (h : Inv s) (hidle : s.work = .idle) : Inv s.reset where
  threads t := by
    have hok := h.threads t
    refine ⟨fun hended => ?_, fun hended hq => ?_, hok.home, fun hended task hmem event he => ?_⟩
    · have howned := hok.owned hended
      rwa [UserThreads.owned, hidle] at howned
    · obtain ⟨threads, hstop⟩ := hok.quits hended hq
      cases hidle.symm.trans hstop
    · exact absurd hidle (hok.event hended task hmem event he).2
  fresh := h.fresh
  thread_lt := h.thread_lt
  users := h.users
  posting users hwork o ho := by
    obtain rfl := Work.posting.inj hwork
    obtain ⟨⟨userId, o'⟩, hmem, rfl⟩ := List.mem_map.mp ho
    exact ⟨userId, AList.mem_lookup_iff.mpr hmem⟩
  dropped := nofun
  settled o ho hno := by
    refine h.settled o ho fun hawaits => hno ?_
    rw [Awaits, hidle] at hawaits
    obtain ⟨userId, hlookup⟩ := hawaits
    exact List.mem_map.mpr ⟨⟨userId, o⟩, AList.mem_lookup_iff.mp hlookup, rfl⟩
  touched := h.touched

theorem Inv.clear (h : Inv s) (hwork : s.work = .posting [] ∨ s.work = .waiting) : Inv s.clear where
  threads t := by
    have hok := h.threads t
    refine ⟨fun hended => ?_, fun hended hq => ?_, hok.home, fun hended task hmem event he => ?_⟩
    · have howned := hok.owned hended
      rcases hwork with hwork | hwork <;> rwa [UserThreads.owned, hwork] at howned
    · obtain ⟨threads, hstop⟩ := hok.quits hended hq
      rcases hwork with hwork | hwork <;> cases hwork.symm.trans hstop
    · exact ⟨(hok.event hended task hmem event he).1, nofun⟩
  fresh := h.fresh
  thread_lt := h.thread_lt
  users _ _ ho := by cases ho
  posting _ hw := by cases hw
  dropped _ := rfl
  settled o ho _ := by
    refine h.settled o ho fun hawaits => ?_
    rcases hwork with hwork | hwork
    · rw [Awaits, hwork] at hawaits
      cases hawaits
    · rwa [Awaits, hwork] at hawaits
  touched := h.touched

theorem post_work (s : UserThreads) (t : Nat) (task : Task) (w : Work) :
    { s.post t task with work := w } = { s with work := w }.post t task := by
  unfold UserThreads.post
  dsimp only
  split <;> rfl

theorem Inv.postReset (h : Inv s) {users : List Nat} (hwork : s.work = .posting (o :: users)) :
    Inv { s.post (s.objects o).thread (.reset o s.resets) with work := .posting users } := by
  obtain ⟨userId, hlisted⟩ := h.posting _ hwork o List.mem_cons_self
  have hended := (h.users userId o hlisted).2
  have hpost : Inv (s.post (s.objects o).thread (.reset o s.resets)) :=
    h.post nofun nofun fun event he => ⟨(Option.some.inj he).symm, by rw [hwork]; nofun⟩
  have hself : s.post (s.objects o).thread (.reset o s.resets) = s.setThread (s.objects o).thread
      { s.threads (s.objects o).thread with
        queue := (s.threads (s.objects o).thread).queue ++ [.reset o s.resets] } :=
    if_neg (by rw [hended]; nofun)
  have hnot : ¬ s.Stops (s.objects o).thread := by
    rintro ⟨threads, hstop⟩
    cases hwork.symm.trans hstop
  have hok := (h.threads (s.objects o).thread)
  rw [hself] at hpost ⊢
  refine hpost.setWork (fun t _ ht => ?_) ?_ nofun ?_ ?_ ?_
  · rwa [UserThreads.owned, show (s.setThread _ _).work = _ from hwork] at ht
  · rintro t ⟨threads, hstop⟩
    cases hwork.symm.trans hstop
  · rintro users' hw o' ho'
    cases hw
    exact h.posting _ hwork o' (List.mem_cons_of_mem _ ho')
  · nofun
  · intro o' ho' hno
    by_cases heq : o' = o
    · subst heq
      refine .of_frame (frame_setThread ..) ?_
      rw [Function.update_self]
      exact .of_post hended (Bool.eq_false_iff.mpr fun hq => hnot (hok.quits hended (.inl hq)))
        (fun hmem => hnot (hok.quits hended (.inr hmem))) s.resets
    · refine hpost.settled o' ho' fun hawaits => hno ?_
      rw [Awaits, show (s.setThread _ _).work = _ from hwork] at hawaits
      exact (List.mem_cons.mp hawaits).resolve_left heq

/-- Once the lists are dropped, the work thread only goes through the threads. -/
theorem Inv.join (h : Inv s) {w : Work} (hdropped : s.Dropped) (hdropped' : { s with work := w }.Dropped)
    (howned : ∀ t, (s.threads t).ended = false → t ∈ s.owned → t ∈ { s with work := w }.owned)
    (hstops : ∀ t, s.Stops t → (s.threads t).ended = true) : Inv { s with work := w } := by
  refine h.setWork howned (fun t hstop hended => ?_) ?_ ?_ (fun _ => h.dropped hdropped) fun o ho _ => ?_
  · rw [hstops t hstop] at hended
    cases hended
  · rintro rfl
    cases hdropped'
  · rintro users rfl
    cases hdropped'
  · refine h.settled o ho fun hawaits => ?_
    unfold Awaits at hawaits
    unfold Dropped at hdropped
    split at hdropped <;> simp_all

theorem Inv.setSignaled (h : Inv s) (signaled : Bool) : Inv { s with signaled } :=
  h.idleFrame { frame_refl s 0 with } (fun _ hset => hset) h.touched

theorem Inv.storeReset (h : Inv s) : Inv { s with log := .storeReset :: s.log } := by
  refine h.idleFrame { frame_refl s 0 with } (fun o hset => ?_) ?_
  · exact hset.mono id fun ⟨event, hmem⟩ => ⟨event, List.mem_cons_of_mem _ hmem⟩
  · intro event alive hmem
    have hne : ResetEntry.touched event alive ≠ .storeReset := nofun
    exact h.touched event alive (List.mem_of_ne_of_mem hne hmem)

theorem not_stops {w : Work} (hwork : s.work = w) (hw : ∀ t threads, w ≠ .stopping t threads) (t : Nat) :
    ¬ s.Stops t := by
  rintro ⟨threads, hstop⟩
  exact hw t threads (hwork.symm.trans hstop)

theorem Inv.wait (h : Inv s) (hwork : s.work = .posting []) : Inv { s with work := .waiting } := by
  refine h.setWork (fun t _ ht => ?_) (fun t hstop => absurd hstop (not_stops hwork nofun t)) nofun nofun nofun
    fun o ho _ => h.settled o ho ?_
  · rwa [UserThreads.owned, hwork] at ht
  · rw [Awaits, hwork]
    exact List.not_mem_nil

/-- The destructor of a thread has returned, or has nothing to wait for. -/
theorem Inv.joined (h : Inv s) {t : Nat} {threads : List Nat}
    (hwork : s.work = .joining (t :: threads) ∨ s.work = .stopping t threads) (hended : (s.threads t).ended = true) :
    Inv { s with work := .joining threads } := by
  have hdropped : s.Dropped := by
    rcases hwork with hwork | hwork <;> rw [Dropped, hwork] <;> trivial
  have howned : s.owned = t :: threads := by
    rcases hwork with hwork | hwork <;> rw [UserThreads.owned, hwork]
  refine h.join hdropped trivial (fun t' hended' ht' => ?_) ?_
  · rw [howned] at ht'
    rcases List.mem_cons.mp ht' with rfl | ht'
    · rw [hended] at hended'
      cases hended'
    · exact ht'
  · rintro t' ⟨threads', hstop⟩
    rcases hwork with hwork | hwork <;> cases hwork.symm.trans hstop
    exact hended

theorem Inv.quit (h : Inv s) {t : Nat} {threads : List Nat} (hwork : s.work = .joining (t :: threads)) :
    Inv { s.post t .quit with work := .stopping t threads } := by
  have hdropped : s.Dropped := by
    rw [Dropped, hwork]
    trivial
  have hjoin : Inv { s with work := .stopping t threads } := by
    refine h.join hdropped trivial (fun t' _ ht' => ?_) fun t' hstop => absurd hstop (not_stops hwork nofun t')
    rwa [UserThreads.owned, hwork] at ht'
  rw [post_work]
  exact hjoin.post (fun _ => ⟨threads, rfl⟩) nofun nofun

theorem Inv.resetStore (h : Inv s) (hwork : s.work = .joining []) :
    Inv { s with work := .returning, log := .storeReset :: s.log } := by
  have hdropped : s.Dropped := by
    rw [Dropped, hwork]
    trivial
  refine h.storeReset.join (w := .returning) hdropped trivial (fun t' _ ht' => ?_)
    fun t' hstop => absurd hstop (not_stops hwork nofun t')
  change t' ∈ s.owned at ht'
  rwa [UserThreads.owned, hwork] at ht'

/-- `Reset` returns when no thread is left. -/
theorem Inv.return_ (h : Inv s) (hwork : s.work = .returning) : Inv { s with work := .idle } := by
  have hended : ∀ t, (s.threads t).ended = true := by
    intro t
    by_contra hnot
    have howned := (h.threads t).owned (Bool.eq_false_iff.mpr hnot)
    rw [UserThreads.owned, hwork] at howned
    cases howned
  refine h.setWork (fun t hended' => ?_) (fun t hstop => absurd hstop (not_stops hwork nofun t)) (fun _ => hended)
    nofun nofun fun o ho _ => h.settled o ho ?_
  · rw [hended t] at hended'
    cases hended'
  · rw [Awaits, hwork]
    exact id

theorem Inv.continue_ (h : Inv s) : Inv s.continue_ := by
  unfold UserThreads.continue_
  split
  case h_1 => exact h
  case h_2 o users hwork => exact h.postReset hwork
  case h_3 hwork =>
    split
    · exact h.wait hwork
    · exact h.clear (.inl hwork)
  case h_4 hwork =>
    split
    · exact (h.setSignaled false).clear (.inr hwork)
    · exact h
  case h_5 t threads hwork =>
    split
    · rename_i hended
      exact h.joined (.inl hwork) hended
    · exact h.quit hwork
  case h_6 t threads hwork =>
    split
    · rename_i hended
      exact h.joined (.inr hwork) hended
    · exact h
  case h_7 hwork => exact h.resetStore hwork
  case h_8 hwork => exact h.return_ hwork

/-! ### Requests -/

theorem Inv.addThread (h : Inv s) (hidle : s.work = .idle) (starts : Bool) :
    Inv { s.setThread s.nextThread { ended := !starts } with
      nextThread := s.nextThread + 1, userThreadList := s.userThreadList ++ [s.nextThread] } := by
  have hne : ∀ o < s.nextObject, (s.objects o).thread ≠ s.nextThread :=
    fun o ho => Nat.ne_of_lt (h.thread_lt o ho)
  have hnot : ∀ t, ¬ s.Stops t := by
    rintro t ⟨threads, hstop⟩
    cases hidle.symm.trans hstop
  refine ⟨fun t => ?_, fun t hle => ?_, fun o ho => Nat.lt_succ_of_lt (h.thread_lt o ho),
    fun userId o ho => ?_, h.posting, h.dropped, fun o ho hno => ?_, h.touched⟩
  · have howned : ∀ t', t' ∈ s.userThreadList ++ [s.nextThread] → t' ∈ UserThreads.owned
        { s.setThread s.nextThread { ended := !starts } with
          nextThread := s.nextThread + 1, userThreadList := s.userThreadList ++ [s.nextThread] } := by
      intro t' ht'
      rwa [UserThreads.owned, show (s.setThread _ _).work = _ from hidle]
    by_cases ht : t = s.nextThread
    · subst ht
      simp only [UserThreads.setThread, Function.update_self]
      refine ⟨fun _ => howned _ (by simp), fun _ hq => ?_, ?_, ?_⟩
      · simp at hq
      · simp
      · simp
    · have hok := h.threads t
      simp only [UserThreads.setThread, Function.update_of_ne ht]
      refine ⟨fun hended => howned t (List.mem_append_left _ ?_),
        fun hended hq => absurd (hok.quits hended hq) (hnot t), hok.home, hok.event⟩
      have hmem := hok.owned hended
      rwa [UserThreads.owned, hidle] at hmem
  · have ht : t ≠ s.nextThread := Nat.ne_of_gt hle
    simp only [UserThreads.setThread, Function.update_of_ne ht]
    exact h.fresh t (Nat.le_of_lt hle)
  · obtain ⟨hlt, hended⟩ := h.users userId o ho
    refine ⟨hlt, ?_⟩
    simp only [UserThreads.setThread, Function.update_of_ne (hne o hlt)]
    exact hended
  · exact (h.settled o ho hno).setThread fun ht => absurd ht (hne o ho)

theorem Inv.allocateTaskRunner (h : Inv s) (hidle : s.work = .idle) (starts : Bool) (random : Fin 20) :
    Inv (s.allocateTaskRunner starts random).1 ∧ (s.allocateTaskRunner starts random).1.work = .idle ∧
    (s.allocateTaskRunner starts random).1.userSelfMgrList = s.userSelfMgrList ∧
    ∀ t, (s.allocateTaskRunner starts random).2 = some t →
      ((s.allocateTaskRunner starts random).1.threads t).ended = false := by
  unfold UserThreads.allocateTaskRunner
  split
  · refine ⟨h, hidle, rfl, fun t ht => ?_⟩
    obtain ⟨-, hended⟩ := Option.filter_eq_some_iff.mp ht
    simpa using hended
  · refine ⟨h.addThread hidle starts, hidle, rfl, fun t ht => ?_⟩
    cases starts with
    | false => cases ht
    | true =>
      obtain rfl := Option.some.inj ht
      simp [UserThreads.setThread]

def withObject (s : UserThreads) (userId : String) (t : Nat) : UserThreads :=
  { s with
    objects := Function.update s.objects s.nextObject { mgr := { userId }, thread := t },
    nextObject := s.nextObject + 1, userSelfMgrList := s.userSelfMgrList.insert userId s.nextObject }

theorem objects_withObject {o : Nat} (ho : o < s.nextObject) (userId : String) (t : Nat) :
    (s.withObject userId t).objects o = s.objects o := Function.update_of_ne (Nat.ne_of_lt ho) ..

theorem objects_withObject_self (s : UserThreads) (userId : String) (t : Nat) :
    (s.withObject userId t).objects s.nextObject = { mgr := { userId }, thread := t } := Function.update_self ..

theorem Inv.users_withObject (h : Inv s) {userId userId' : String} {o : Nat} (hended : (s.threads t).ended = false)
    (ho : (s.withObject userId t).userSelfMgrList.lookup userId' = some o) :
    o < s.nextObject + 1 ∧ (s.threads ((s.withObject userId t).objects o).thread).ended = false := by
  by_cases hid : userId' = userId
  · subst hid
    obtain rfl := Option.some.inj ((AList.lookup_insert _).symm.trans ho)
    rw [objects_withObject_self]
    exact ⟨Nat.lt_succ_self _, hended⟩
  · obtain ⟨hlt, hended'⟩ := h.users userId' o ((AList.lookup_insert_ne hid).symm.trans ho)
    rw [objects_withObject hlt]
    exact ⟨Nat.lt_succ_of_lt hlt, hended'⟩

theorem Inv.settled_withObject (h : Inv s) (hidle : s.work = .idle) {userId : String} {o : Nat}
    (hnew : s.userSelfMgrList.lookup userId = none) (ho : o < s.nextObject + 1)
    (hno : ¬ (s.withObject userId t).Awaits o) : (s.withObject userId t).SettledAt o := by
  rw [Awaits, show (s.withObject userId t).work = _ from hidle] at hno
  rcases Nat.lt_succ_iff_lt_or_eq.mp ho with ho | rfl
  · have hset : s.SettledAt o := by
      refine h.settled o ho fun hawaits => hno ?_
      rw [Awaits, hidle] at hawaits
      obtain ⟨userId', hlookup⟩ := hawaits
      have hid : userId' ≠ userId := by
        rintro rfl
        cases hnew.symm.trans hlookup
      exact ⟨userId', (AList.lookup_insert_ne hid).trans hlookup⟩
    rw [SettledAt] at hset ⊢
    rwa [objects_withObject ho]
  · exact absurd ⟨userId, AList.lookup_insert _⟩ hno

theorem Inv.addObject (h : Inv s) (hidle : s.work = .idle) {userId : String}
    (hnew : s.userSelfMgrList.lookup userId = none) (hended : (s.threads t).ended = false) :
    Inv (s.withObject userId t) := by
  have hlt : t < s.nextThread := by
    by_contra hle
    rw [h.fresh t (Nat.le_of_not_lt hle)] at hended
    cases hended
  refine ⟨fun t' => ?_, h.fresh, fun o ho => ?_, fun userId' o ho => h.users_withObject hended ho, ?_, ?_,
    fun o ho hno => h.settled_withObject hidle hnew ho hno, h.touched⟩
  · have hok := h.threads t'
    refine ⟨hok.owned, hok.quits, fun task hmem o ho => ?_, hok.event⟩
    obtain ⟨hlt', hthread⟩ := hok.home task hmem o ho
    exact ⟨Nat.lt_succ_of_lt hlt', (congrArg _ (objects_withObject hlt' userId t)).trans hthread⟩
  · rcases Nat.lt_succ_iff_lt_or_eq.mp ho with ho | rfl
    · rw [objects_withObject ho]
      exact h.thread_lt o ho
    · rw [objects_withObject_self]
      exact hlt
  · intro users hwork
    cases hidle.symm.trans hwork
  · intro hdropped
    rw [Dropped, show (s.withObject userId t).work = _ from hidle] at hdropped
    cases hdropped

structure Posts (task : Nat → Task) : Prop where
  quit : ∀ o, task o ≠ .quit
  lists : ∀ o o', (task o).lists o' = true → o' = o
  event : ∀ o, (task o).event? = none

theorem Posts.run (e : UserSelfMgr.Event) : Posts (.run · e) where
  quit _ := nofun
  lists o o' ho' := by
    simp only [Task.lists, Bool.and_eq_true, decide_eq_true_eq] at ho'
    exact ho'.1.symm
  event _ := rfl

theorem Posts.resumeFromDb (rows : List TaskBase.Row) (host : Nat → Host) :
    Posts (.resumeFromDb · rows host) where
  quit _ := nofun
  lists o o' ho' := by
    simp only [Task.lists, decide_eq_true_eq] at ho'
    exact ho'.symm
  event _ := rfl

theorem Inv.request (h : Inv s) (hidle : s.work = .idle) {task : Nat → Task} (htask : Posts task)
    (userId : String) (creates starts : Bool) (random : Fin 20) :
    Inv (s.request userId creates task starts random) := by
  have hpost : ∀ {s : UserThreads} {o : Nat}, Inv s → s.work = .idle →
      s.userSelfMgrList.lookup userId = some o → Inv (s.post (s.objects o).thread (task o)) := by
    intro s o h hidle hlookup
    refine h.post (fun hq => absurd hq (htask.quit o)) (fun o' ho' => ?_) fun event he => ?_
    · obtain rfl := htask.lists o o' ho'
      refine ⟨(h.users userId o' hlookup).1, rfl, ?_⟩
      rw [Awaits, hidle]
      exact ⟨userId, hlookup⟩
    · rw [htask.event] at he
      cases he
  unfold UserThreads.request
  split
  case h_1 o hlookup => exact hpost h hidle hlookup
  case h_2 hnew =>
    split
    case isFalse => exact h
    case isTrue =>
      obtain ⟨hinv, hidle', hlist, hrun⟩ := h.allocateTaskRunner hidle starts random
      unfold addUser
      generalize s.allocateTaskRunner starts random = p at *
      obtain ⟨s₁, t⟩ := p
      cases t with
      | none => exact hinv
      | some t =>
        refine hpost (hinv.addObject hidle' ?_ (hrun t rfl)) hidle' (AList.lookup_insert _)
        exact (congrArg (AList.lookup userId) hlist).trans hnew

theorem Inv.step (h : Inv s) (e : Event) : Inv (s.step e) := by
  unfold UserThreads.step
  split
  case h_1 => exact h
  case h_2 userId e starts random _ =>
    split
    case isTrue hidle =>
      exact h.request hidle (.run e) userId e.lists starts random
    case isFalse => exact h
  case h_3 userId rows host starts random =>
    split
    case isTrue hidle =>
      exact h.request hidle (.resumeFromDb rows host) userId true starts random
    case isFalse => exact h
  case h_4 =>
    split
    case isTrue hidle => exact h.reset hidle
    case isFalse => exact h
  case h_5 => exact h.continue_
  case h_6 o e =>
    split
    case isTrue hcond =>
      refine h.post nofun (fun o' ho' => ?_) nofun
      simp [Task.lists, hcond.2] at ho'
    case isFalse => exact h
  case h_7 o e =>
    split
    case isTrue hcond => exact h.engine hcond.2 o
    case isFalse => exact h
  case h_8 t ω => exact h.userThread t ω
  case h_9 t => exact h.exit t

theorem Inv.empty : Inv {} := by
  refine ⟨fun t => ⟨nofun, nofun, ?_, nofun⟩, fun _ _ => rfl, nofun, ?_, nofun, nofun, nofun, ?_⟩
  · exact fun _ hmem => absurd hmem List.not_mem_nil
  · exact fun _ _ ho => by cases ho
  · exact fun _ _ hmem => absurd hmem List.not_mem_nil

/-- Whenever the work thread is about to reset the store, the reset of every manager there ever was
has returned and its list is empty; and no user thread touches the event of a reset that has
returned. -/
theorem run_waits (es : List Event) :
    let s := Lib.run step {} es
    (s.work = .joining [] → ∀ o < s.nextObject,
      (s.objects o).mgr.taskList = ∅ ∧ ∃ event, .finished o event ∈ s.log) ∧
    ∀ event alive, .touched event alive ∈ s.log → alive = true := by
  intro s
  have h : Inv s := Lib.run_keep (fun _ e hs => hs.step e) .empty es
  refine ⟨fun hwork o ho => ?_, h.touched⟩
  have hended : (s.threads (s.objects o).thread).ended = true := by
    by_contra hnot
    have howned := (h.threads (s.objects o).thread).owned (Bool.eq_false_iff.mpr hnot)
    rw [owned, hwork] at howned
    cases howned
  have hset : s.SettledAt o := by
    refine h.settled o ho ?_
    rw [Awaits, hwork]
    exact id
  obtain ⟨hfin, hempty, -⟩ := hset.ended (.inl hended)
  exact ⟨hempty.taskList, hfin⟩

/-- Users come with a link each, and then the service is reset; every thread works off its queue
once the work thread waits for it. -/
def usersAndReset (users threads : Nat) : List Event :=
  (List.range users).map (fun k : Nat =>
    Event.request (toString k) (UserSelfMgr.linkTask "a" "http://a/b") true 7) ++
  Event.reset :: List.replicate (users + 1) Event.continue_ ++
  (List.range threads).flatMap (fun t => List.replicate 8 (Event.userThread t fun _ => {})) ++
  Event.continue_ :: (List.range threads).flatMap
    (fun t => [Event.continue_, .userThread t fun _ => {}, .exit t, .continue_])

-- The twenty-first user shares a thread.
example :
    let s := Lib.run step {} (usersAndReset 21 20)
    s.work = .joining [] ∧ s.nextObject = 21 ∧ s.nextThread = 20 ∧ (s.objects 20).thread = 7 := by
  decide +kernel

end UserThreads

end Nas.Download
