import NasServices.Download.Db.Service

/-!
# Status and category across restarts

A task that is deleted for good is first recorded as `kCompletedDeleted` and its
row is removed by the next post. As long as no such row is reloaded, status and
category of every listed task stay coherent (`run_coherent`). A restart after
the queue has been worked off never finds one; a restart between the two
posts does, and the next tick makes the task a failed one in no category.
-/

namespace Nas.Download

open Lib UserSelfMgr
open TaskBase (Row)

variable {m m' : UserSelfMgr} {rows : List Row} {ps : List Post} {id : String} {t t' : TaskBase}
  {removes : Bool}

def Tidy (m : UserSelfMgr) : Prop := ∀ id t, m.findTask id = some t → t.param.id = id ∧ t.Sound

def NoneDeleted (rows : List Row) : Prop := ∀ r ∈ rows, r.taskStatus ≠ .kCompletedDeleted

theorem Tidy.wrote (h : Tidy m) (hw : Wrote removes id m ps m') : Tidy m' := by
  intro j t' ht'
  by_cases hj : j = id
  · subst hj
    have hm := h j
    have hchange := hw.change
    rw [ht'] at hchange
    generalize m.findTask j = o at hchange hm
    cases hchange with
    | kept hl =>
      obtain ⟨hid, hsound⟩ := hm _ rfl
      exact ⟨by rw [hl.param]; exact hid, hl.sound hsound⟩
    | listed hid hl _ hnew => exact ⟨by rw [hl.param]; exact hid, hnew.sound⟩
  · rw [hw.other j hj] at ht'
    exact h j t' ht'

/-! ## Rows -/

theorem rowStatus_eq_or (s s' : TaskStatus) (ps : List Post) :
    (rowStatus s ps = s ∧ rowStatus s' ps = s') ∨ rowStatus s ps = rowStatus s' ps := by
  induction ps generalizing s s' with
  | nil => exact .inl ⟨rfl, rfl⟩
  | cons p ps ih =>
    cases p with
    | updateTaskInfo t => exact .inr rfl
    | _ => exact ih s s'

theorem NoneDeleted.logged (h : NoneDeleted rows) (hl : Logged t ps t')
    (hst : t'.taskStatus ≠ .kCompletedDeleted) : NoneDeleted (ps.foldl Post.exec rows) := by
  intro r hr
  rw [foldl_of_isOf hl.posts] at hr
  obtain ⟨x, hx, rfl | ⟨-, rfl⟩⟩ := Keyed.mem_modify hr
  · exact h r hx
  · rw [(rowAfter_kept x ps).2.1]
    rcases rowStatus_eq_or x.taskStatus t.taskStatus ps with ⟨heq, -⟩ | heq
    · rw [heq]
      exact h x hx
    · rw [heq, hl.status]
      exact hst

theorem NoneDeleted.change {known : Bool} {o o' : Option TaskBase} (h : NoneDeleted rows)
    (hc : Change known removes id o ps o') (ho : ∀ t, o = some t → t.param.id = id ∧ t.Sound) :
    NoneDeleted (ps.foldl Post.exec rows) := by
  cases hc with
  | kept hl => exact h.logged hl (hl.sound (ho _ rfl).2).status
  | @removed t ps _ hposts =>
    -- the row that became `kCompletedDeleted` is the one that is deleted
    intro r hr
    have hisOf : ∀ p ∈ ps, p.isOf id := fun p hp => (ho t rfl).1 ▸ hposts p hp
    rw [List.foldl_append, foldl_of_isOf hisOf] at hr
    obtain ⟨hr, hne⟩ := List.mem_filter.mp hr
    obtain ⟨x, hx, rfl | ⟨hid, rfl⟩⟩ := Keyed.mem_modify hr
    · exact h r hx
    · rw [(rowAfter_kept x ps).1] at hne
      simp [hid] at hne
  | absent => exact h
  | refused hid hl _ hnew => exact h.logged hl hnew.sound.status
  | @listed t t' ps hid hl _ hnew =>
    have hps := h.logged hl hnew.sound.status
    rw [List.foldl_append]
    split
    · intro r hr
      show r.taskStatus ≠ .kCompletedDeleted
      simp only [List.foldl_cons, List.foldl_nil, Post.exec, Keyed.add] at hr
      split at hr
      · exact hps r hr
      · rcases List.mem_append.mp hr with hr | hr
        · exact hps r hr
        · rw [List.mem_singleton.mp hr]
          exact hnew.sound.status
    · exact hps

theorem tidy_writes (hw : Writes removes m ps m') (h : Tidy m) (hrows : NoneDeleted rows) :
    Tidy m' ∧ NoneDeleted (ps.foldl Post.exec rows) := by
  induction hw with
  | refl => exact ⟨h, hrows⟩
  | snoc _ hlast ih =>
    rw [List.foldl_append]
    exact ⟨ih.1.wrote hlast, ih.2.change hlast.change fun t ht => ih.1 _ t ht⟩

/-! ## Reload -/

theorem resumeDataFromDb_category (r : Row) (param : TaskParam) (a : Answer) :
    (TaskBase.resumeDataFromDb r param a).taskCategory =
      TaskBase.categoryOf r.taskStatus .kDownloadingTask := by
  unfold TaskBase.resumeDataFromDb
  dsimp only
  split
  · unfold TaskBase.parseTorrent
    split <;> rfl
  · split
    · split <;> rfl
    · rfl

theorem resumeDataFromDb_sound {r : Row} (hr : r.taskStatus ≠ .kCompletedDeleted) (param : TaskParam)
    (a : Answer) : (TaskBase.resumeDataFromDb r param a).Sound := by
  obtain ⟨-, hst, -⟩ := resumeDataFromDb_status r param a
  have hc := resumeDataFromDb_category r param a
  refine ⟨by rw [hst]; exact hr, fun _ => by rw [hst, hc], fun hf => .inl ?_⟩
  rw [hc, ← hst, hf]
  rfl

theorem Tidy.restart (hrows : NoneDeleted rows) (m : UserSelfMgr) (host : Nat → Host) :
    Tidy (m.restart rows host) :=
  restart_listed (P := fun id t => t.param.id = id ∧ t.Sound)
    (fun r hr h => ⟨resumeDataFromDb_id r h _, resumeDataFromDb_sound (hrows r hr) _ _⟩) m host

/-! ## Runs -/

def Service.RestartsClean (s : Service) : Service.Work → Prop
  | .restart _ => s.queue = [] ∨ NoneDeleted s.rows
  | _ => True

instance (rows : List Row) : Decidable (NoneDeleted rows) :=
  inferInstanceAs (Decidable (∀ r ∈ rows, _))

instance : DecidableRel Service.RestartsClean
  | s, .restart _ => inferInstanceAs (Decidable (s.queue = [] ∨ NoneDeleted s.rows))
  | _, .request _ | _, .background | _, .others .. => isTrue trivial

theorem step_tidy {s : Service} (h : Tidy s.mgr ∧ NoneDeleted s.drained) {w : Service.Work}
    (hw : s.RestartsClean w) : Tidy (s.step w).mgr ∧ NoneDeleted (s.step w).drained := by
  cases w with
  | request e =>
    by_cases he : e.ends = false
    · obtain ⟨hmgr, hdrained⟩ := s.step_request (.inl he)
      rw [hmgr, hdrained]
      exact tidy_writes (step_writes he) h.1 h.2
    · cases e with
      | reset ω =>
        obtain ⟨hmgr, hdrained⟩ := s.step_request (.inr ⟨ω, rfl⟩)
        rw [hmgr, hdrained]
        refine ⟨fun id t ht => (nomatch ht), ?_⟩
        rw [show s.mgr.posts (.reset ω) = s.mgr.resetPosts ω from rfl, resetPosts, List.foldl_append]
        exact fun r hr => by cases hr
      | restart => exact h
      | _ => exact absurd rfl he
  | background =>
    obtain ⟨hmgr, hdrained⟩ := s.step_background
    rw [hmgr, hdrained]
    exact h
  | others refs engine => exact h
  | restart host =>
    have hrows : NoneDeleted s.rows := by
      rcases hw with hq | hr
      · have hdrained := h.2
        rwa [Service.drained, hq] at hdrained
      · exact hr
    exact ⟨.restart hrows s.mgr host, hrows⟩

/-- In every run whose restarts find no row of a task deleted for good, status and category of
every listed task are coherent. -/
theorem run_coherent {m : UserSelfMgr} (hm : m.taskList = ∅) {ws : List Service.Work}
    (hws : Along Service.step Service.RestartsClean { mgr := m } ws) :
    ∀ id t, (run Service.step { mgr := m } ws).mgr.findTask id = some t → t.Coherent := by
  have hinit : Tidy m := fun id t ht => by
    rw [findTask, hm, AList.lookup_empty] at ht
    cases ht
  have h := hws.run (I := fun s => Tidy s.mgr ∧ NoneDeleted s.drained) (fun s w hs hw => step_tidy hs hw)
    ⟨hinit, fun r hr => by cases hr⟩
  exact fun id t ht => (h.1 id t ht).2.coherent

def refusedTick : Service.Work :=
  .request (.timer ["1"] (fun _ => { errCode := ⟨1107⟩ }) fun _ => { errCode := ⟨1107⟩ })

def failedToBin : List Service.Work :=
  [.request (linkTask "1" "http://h/a"), refusedTick, refusedTick,
    .request (.delete ["1"] false fun _ => {})] ++ List.replicate 12 .background

theorem run_coherent_failedToBin :
    ((run Service.step { mgr := { userId := "u" } } (failedToBin ++ [.restart fun _ => {}])).mgr.findTask
        "1").map (fun t => (t.taskStatus, t.taskCategory)) = some (.kDeleted, .kRecyclebinTask) ∧
    ∀ id t, (run Service.step { mgr := { userId := "u" } }
      (failedToBin ++ [.restart fun _ => {}])).mgr.findTask id = some t → t.Coherent :=
  ⟨by decide +kernel, run_coherent rfl (by decide +kernel)⟩

/-- The process is killed between the two posts of the final deletion; the timer runs after the
restart. -/
def killedWhileDeleting : List Service.Work :=
  failedToBin ++ [.request (.delete ["1"] false fun _ => {}), .background, .restart fun _ => {}, refusedTick]

theorem killedWhileDeleting_incoherent :
    ∃ t, (run Service.step { mgr := { userId := "u" } } killedWhileDeleting).mgr.findTask "1" = some t ∧
      t.taskStatus = .kFailed ∧ t.taskCategory = .kUnkownnTask ∧ ¬ t.Coherent := by
  have hrun : ((run Service.step { mgr := { userId := "u" } } killedWhileDeleting).mgr.findTask "1").map
      (fun t => (t.taskStatus, t.taskCategory)) = some (.kFailed, .kUnkownnTask) := by decide +kernel
  obtain ⟨t, ht, hpair⟩ := Option.map_eq_some_iff.mp hrun
  obtain ⟨hst, hcat⟩ := Prod.mk.inj hpair
  refine ⟨t, ht, hst, hcat, fun hc => ?_⟩
  have hdone := hc.completedDeleted.mp hcat
  rw [hst] at hdone
  cases hdone

end Nas.Download
