import NasServices.Download.UserSelfMgr.Writes
import NasServices.Lib.Keyed

/-!
# The manager and its table

A `Service` is a user's manager together with the user's table and the posts
that the database thread has not run yet. The manager works ahead of the table:
a request appends its posts to the queue and `background` runs the next one.
The statements are taken to be exact here; `DownloadInfoStore` is where they
are SQL.

`drained` is the table once the queue has been worked off. As long as the
process runs it holds exactly the listed tasks with their statuses
(`run_agrees`).
-/

namespace Nas.Download

open Lib
open TaskBase (Row)

/-- The row that `AddTaskInfo` inserts. The name and the size of the file and the speeds are
left out: nothing that is decided from a reloaded row depends on them. -/
def TaskBase.Row.ofTask (t : TaskBase) : Row :=
  { id := t.param.id, source := t.param.url, savePath := t.param.savePath, downloadType := t.param.type,
    totalProgress := t.totalProgress, taskStatus := t.taskStatus, createTime := t.createTime,
    finishTime := t.finishTime, deleteTime := t.deleteTime, errCode := t.errCode,
    isStarted := t.isStarted }

/-- The row after `UpdateTaskInfo`; the id, the source, the path and the type stay. -/
def TaskBase.Row.update (r : Row) (t : TaskBase) : Row :=
  { r with
    totalProgress := t.totalProgress, taskStatus := t.taskStatus, createTime := t.createTime,
    finishTime := t.finishTime, deleteTime := t.deleteTime, errCode := t.errCode,
    isStarted := t.isStarted }

def Post.exec (rows : List Row) : Post → List Row
  | .addTaskInfo t => Keyed.add Row.id rows (.ofTask t)
  | .updateTaskInfo t => Keyed.modify Row.id rows t.param.id (·.update t)
  | .deleteTaskInfo taskId => Keyed.delete Row.id rows taskId
  | .clearTableData => []
  | .reStart _ => rows

structure Service where
  mgr : UserSelfMgr
  queue : List Post := []
  rows : List Row := []

namespace Service

inductive Work
  | request (e : UserSelfMgr.Event)
  | background
  /-- The work of other users changes the counts and the engine. -/
  | others (refs : TaskRefCount) (engine : List EngineCall)
  /-- The process ends, at whatever moment, and starts again: what is still queued is lost. -/
  | restart (host : Nat → Host)

def step (s : Service) : Work → Service
  | .request (.restart _ _) => s
  | .request e => { s with mgr := s.mgr.step e, queue := s.queue ++ s.mgr.posts e }
  | .background =>
    match s.queue with
    | [] => s
    | p :: ps => { s with queue := ps, rows := p.exec s.rows }
  | .others refs engine => { s with mgr := { s.mgr with refs, engine } }
  | .restart host => { mgr := s.mgr.restart s.rows host, queue := [], rows := s.rows }

def drained (s : Service) : List Row := s.queue.foldl Post.exec s.rows

theorem step_background (s : Service) :
    (s.step .background).mgr = s.mgr ∧ (s.step .background).drained = s.drained := by
  rcases s with ⟨mgr, _ | ⟨p, ps⟩, rows⟩ <;> exact ⟨rfl, rfl⟩

theorem step_request {e : UserSelfMgr.Event} (he : e.ends = false ∨ ∃ ω, e = .reset ω) (s : Service) :
    (s.step (.request e)).mgr = s.mgr.step e ∧
      (s.step (.request e)).drained = (s.mgr.posts e).foldl Post.exec s.drained := by
  have hstep : s.step (.request e) = { s with mgr := s.mgr.step e, queue := s.queue ++ s.mgr.posts e } := by
    cases e with
    | restart => rcases he with he | ⟨ω, he⟩ <;> cases he
    | _ => rfl
  rw [hstep]
  exact ⟨rfl, List.foldl_append ..⟩

end Service

/-! ## What posts about one task do to its row -/

section Rows

variable {rows : List Row} {ps : List Post} {id j : String} {t t' : TaskBase}

def rowAfter (r : Row) (ps : List Post) : Row :=
  ps.foldl (fun r p => match p with | .updateTaskInfo t => r.update t | _ => r) r

theorem rowAfter_kept (r : Row) (ps : List Post) :
    (rowAfter r ps).id = r.id ∧ (rowAfter r ps).taskStatus = rowStatus r.taskStatus ps ∧
      (rowAfter r ps).source = r.source ∧ (rowAfter r ps).downloadType = r.downloadType := by
  induction ps generalizing r with
  | nil => exact ⟨rfl, rfl, rfl, rfl⟩
  | cons p ps ih =>
    cases p with
    | updateTaskInfo t => exact ih (r.update t)
    | _ => exact ih r

theorem exec_of_isOf {p : Post} (hp : p.isOf id) (rows : List Row) :
    p.exec rows = Keyed.modify Row.id rows id (rowAfter · [p]) := by
  cases p with
  | updateTaskInfo t =>
    obtain rfl : t.param.id = id := hp
    rfl
  | reStart taskId => exact (Keyed.modify_id rows id).symm
  | _ => cases hp

theorem foldl_of_isOf (hps : ∀ p ∈ ps, p.isOf id) (rows : List Row) :
    ps.foldl Post.exec rows = Keyed.modify Row.id rows id (rowAfter · ps) := by
  induction ps generalizing rows with
  | nil => exact (Keyed.modify_id rows id).symm
  | cons p ps ih =>
    rw [List.foldl_cons, ih (fun q hq => hps q (List.mem_cons_of_mem _ hq)),
      exec_of_isOf (hps p List.mem_cons_self), Keyed.modify_modify fun r => (rowAfter_kept r [p]).1]
    rfl

theorem find_foldl_of_isOf (hps : ∀ p ∈ ps, p.isOf id) (rows : List Row) :
    Keyed.find Row.id (ps.foldl Post.exec rows) id = (Keyed.find Row.id rows id).map (rowAfter · ps) ∧
      ∀ j, j ≠ id → Keyed.find Row.id (ps.foldl Post.exec rows) j = Keyed.find Row.id rows j := by
  have hkey (r : Row) := (rowAfter_kept r ps).1
  rw [foldl_of_isOf hps]
  exact ⟨Keyed.find_modify_self hkey rows id, fun j hj => Keyed.find_modify_ne hkey rows hj⟩

theorem Post.nodup_exec {p : Post} (h : (rows.map Row.id).Nodup) : ((p.exec rows).map Row.id).Nodup := by
  cases p with
  | addTaskInfo t => exact Keyed.nodup_add h _
  | updateTaskInfo t =>
    have hkey (r : Row) : (r.update t).id = r.id := rfl
    exact Keyed.nodup_modify hkey h _
  | deleteTaskInfo taskId => exact Keyed.nodup_delete h _
  | clearTableData => exact List.nodup_nil
  | reStart => exact h

theorem nodup_foldl (h : (rows.map Row.id).Nodup) (ps : List Post) :
    ((ps.foldl Post.exec rows).map Row.id).Nodup := by
  induction ps generalizing rows with
  | nil => exact h
  | cons p ps ih => exact ih (Post.nodup_exec h)

end Rows

/-! ## Agreement -/

structure RecordOf (id : String) (t : TaskBase) (r : Row) : Prop where
  id : t.param.id = id
  taskStatus : r.taskStatus = t.taskStatus
  source : r.source = t.param.url
  downloadType : r.downloadType = t.param.type

structure Agrees (m : UserSelfMgr) (rows : List Row) : Prop where
  nodup : (rows.map Row.id).Nodup
  record : ∀ id, Option.Rel (RecordOf id) (m.findTask id) (Keyed.find Row.id rows id)
  known : m.userInfo.isSome

section Agrees

open UserSelfMgr

variable {m m' : UserSelfMgr} {rows : List Row} {ps : List Post} {id : String} {t t' : TaskBase}
  {r : Row} {removes : Bool}

theorem RecordOf.after (h : RecordOf id t r) (hl : Logged t ps t') : RecordOf id t' (rowAfter r ps) := by
  obtain ⟨-, hst, hsrc, hty⟩ := rowAfter_kept r ps
  refine ⟨by rw [hl.param]; exact h.id, ?_, by rw [hsrc, hl.param]; exact h.source,
    by rw [hty, hl.param]; exact h.downloadType⟩
  rw [hst, h.taskStatus, hl.status]

/-- What is posted about one entry brings its row along. -/
theorem record_change {o o' : Option TaskBase} (hc : Change true removes id o ps o')
    (h : Option.Rel (RecordOf id) o (Keyed.find Row.id rows id)) :
    Option.Rel (RecordOf id) o' (Keyed.find Row.id (ps.foldl Post.exec rows) id) ∧
      ∀ j, j ≠ id → Keyed.find Row.id (ps.foldl Post.exec rows) j = Keyed.find Row.id rows j := by
  cases hc with
  | @kept t t' _ hl =>
    rcases hr : Keyed.find Row.id rows id with _ | r <;> rw [hr] at h
    · cases h
    · obtain ⟨hrec⟩ | _ := h
      obtain ⟨hself, hother⟩ := find_foldl_of_isOf (fun p hp => hrec.id ▸ hl.posts p hp) rows
      rw [hself, hr]
      exact ⟨.some (hrec.after hl), hother⟩
  | @removed t ps _ hposts =>
    rcases hr : Keyed.find Row.id rows id with _ | r <;> rw [hr] at h
    · cases h
    · obtain ⟨hrec⟩ | _ := h
      obtain ⟨-, hother⟩ := find_foldl_of_isOf (fun p hp => hrec.id ▸ hposts p hp) rows
      rw [List.foldl_append]
      show Option.Rel _ none (Keyed.find _ (Keyed.delete _ (ps.foldl Post.exec rows) id) id) ∧ _
      rw [Keyed.find_delete_self]
      exact ⟨.none, fun j hj => (Keyed.find_delete_ne _ hj).trans (hother j hj)⟩
  | absent => exact ⟨h, fun _ _ => rfl⟩
  | @refused t t' _ hid hl =>
    rcases hr : Keyed.find Row.id rows id with _ | r <;> rw [hr] at h
    · obtain ⟨hself, hother⟩ := find_foldl_of_isOf (fun p hp => hid ▸ hl.posts p hp) rows
      rw [hself, hr]
      exact ⟨.none, hother⟩
    · cases h
  | @listed t t' ps hid hl =>
    rcases hr : Keyed.find Row.id rows id with _ | r <;> rw [hr] at h
    · obtain ⟨hself, hother⟩ := find_foldl_of_isOf (fun p hp => hid ▸ hl.posts p hp) rows
      have hid' : (Row.ofTask t').id = id := by
        show t'.param.id = id
        rw [hl.param, hid]
      rw [if_pos rfl, List.foldl_append]
      show Option.Rel _ _ (Keyed.find _ (Keyed.add _ (ps.foldl Post.exec rows) (.ofTask t')) id) ∧
        ∀ j, j ≠ id → Keyed.find _ (Keyed.add _ (ps.foldl Post.exec rows) (.ofTask t')) j = _
      refine ⟨?_, fun j hj => (Keyed.find_add_ne _ (by rwa [hid'])).trans (hother j hj)⟩
      have hadd : Keyed.find Row.id (Keyed.add Row.id (ps.foldl Post.exec rows) (.ofTask t'))
          (Row.ofTask t').id = _ := Keyed.find_add_self ..
      rw [hid', hself, hr] at hadd
      rw [hadd]
      exact .some ⟨hid', rfl, rfl, rfl⟩
    · cases h

theorem Agrees.wrote (h : Agrees m rows) (hw : Wrote removes id m ps m') :
    Agrees m' (ps.foldl Post.exec rows) := by
  have hchange := hw.change
  rw [h.known] at hchange
  obtain ⟨hself, hother⟩ := record_change hchange (h.record id)
  refine ⟨nodup_foldl h.nodup ps, fun j => ?_, hw.userInfo h.known⟩
  by_cases hj : j = id
  · rw [hj]
    exact hself
  · rw [hother j hj, hw.other j hj]
    exact h.record j

theorem Agrees.writes (hw : Writes removes m ps m') (h : Agrees m rows) :
    Agrees m' (ps.foldl Post.exec rows) := by
  induction hw with
  | refl => exact h
  | snoc _ hlast ih =>
    rw [List.foldl_append]
    exact ih.wrote hlast

/-- `Reset` clears the list and then the table. -/
theorem agrees_reset (hu : m.userInfo.isSome) (ω : Nat → Answer) :
    Agrees (m.reset ω) ((m.resetPosts ω).foldl Post.exec rows) := by
  have huser : (m.reset ω).userInfo.isSome := by
    refine forEach_keep (I := fun m' : UserSelfMgr => m'.userInfo.isSome = true) (fun m' j a _ hm' => ?_) hu ω
    unfold resetTask
    split <;> exact hm'
  rw [resetPosts, List.foldl_append]
  exact ⟨List.nodup_nil, fun id => .none, huser⟩

theorem step_agrees {s : Service} (h : Agrees s.mgr s.drained) {w : Service.Work}
    (hw : ∀ host, w ≠ .restart host) : Agrees (s.step w).mgr (s.step w).drained := by
  cases w with
  | request e =>
    by_cases he : e.ends = false
    · obtain ⟨hmgr, hdrained⟩ := s.step_request (.inl he)
      rw [hmgr, hdrained]
      exact h.writes (step_writes he)
    · cases e with
      | reset ω =>
        obtain ⟨hmgr, hdrained⟩ := s.step_request (.inr ⟨ω, rfl⟩)
        rw [hmgr, hdrained]
        exact agrees_reset h.known ω
      | restart => exact h
      | _ => exact absurd rfl he
  | background =>
    obtain ⟨hmgr, hdrained⟩ := s.step_background
    rw [hmgr, hdrained]
    exact h
  | others refs engine => exact ⟨h.nodup, h.record, h.known⟩
  | restart host => exact absurd rfl (hw host)

theorem Agrees.mem_keys_iff (h : Agrees m rows) (id : String) :
    id ∈ m.taskList.keys ↔ ∃ r ∈ rows, r.id = id := by
  have hrec := h.record id
  rw [← Keyed.find_isSome_iff, ← AList.mem_keys, ← AList.lookup_isSome]
  show (m.findTask id).isSome ↔ _
  generalize m.findTask id = o at hrec
  generalize Keyed.find Row.id rows id = o' at hrec
  cases hrec <;> simp

theorem Agrees.taskStatus (h : Agrees m rows) (hr : r ∈ rows) (ht : m.findTask r.id = some t) :
    r.taskStatus = t.taskStatus := by
  have hrec := h.record r.id
  rw [ht, Keyed.find_of_mem h.nodup hr] at hrec
  obtain ⟨hrec⟩ | _ := hrec
  exact hrec.taskStatus

/-- In every run in which the process is not restarted, the table holds, once the queue has
been worked off, exactly the listed tasks with their statuses. -/
theorem run_agrees {m : UserSelfMgr} (hm : m.taskList = ∅) (hu : m.userInfo.isSome)
    {ws : List Service.Work} (hws : ∀ host, Service.Work.restart host ∉ ws) :
    (∀ id, id ∈ (run Service.step { mgr := m } ws).mgr.taskList.keys ↔
      ∃ r ∈ (run Service.step { mgr := m } ws).drained, r.id = id) ∧
    ∀ r ∈ (run Service.step { mgr := m } ws).drained, ∀ t,
      (run Service.step { mgr := m } ws).mgr.findTask r.id = some t → r.taskStatus = t.taskStatus := by
  have hinit : Agrees m [] := by
    refine ⟨List.nodup_nil, fun id => ?_, hu⟩
    rw [UserSelfMgr.findTask, hm, AList.lookup_empty]
    exact .none
  have halong : Along Service.step (fun _ w => ∀ host, w ≠ .restart host) { mgr := m } ws :=
    along_of_forall (fun _ _ hw host heq => hws host (by rwa [heq] at hw)) _
  have h : Agrees _ _ := halong.run (I := fun s => Agrees s.mgr s.drained)
    (fun s w hs hw => step_agrees hs hw) hinit
  exact ⟨h.mem_keys_iff, fun r hr t ht => h.taskStatus hr ht⟩

def createAndDelete : List Service.Work :=
  [.request (linkTask "1" "http://h/a"), .request (linkTask "2" "http://h/b"), .background,
    .request (.timer ["1", "2"] (fun _ => {}) fun _ => {}), .request (.delete ["1"] false fun _ => {}),
    .background, .request (.delete ["1"] false fun _ => {})]

theorem run_agrees_createAndDelete :
    (run Service.step { mgr := { userId := "u" } } createAndDelete).mgr.taskList.keys = ["2"] ∧
    (∀ id, id ∈ (run Service.step { mgr := { userId := "u" } } createAndDelete).mgr.taskList.keys ↔
      ∃ r ∈ (run Service.step { mgr := { userId := "u" } } createAndDelete).drained, r.id = id) := by
  refine ⟨by decide +kernel, (run_agrees rfl rfl fun host hmem => ?_).1⟩
  simp [createAndDelete] at hmem

end Agrees

end Nas.Download
