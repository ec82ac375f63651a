import NasServices.Download.UserSelfMgr.Limit

/-!
# Idle slots

What becomes of a waiting task that `CheckTaskCountLimit` visits while there
is room for it. A link task is always set downloading. A task that was started
before is resumed and the result of `Resume` is dropped, and `BtTaskBase::Start`
drops the engine's error: in these two cases a refusal leaves the task exactly
as it was, and the next tick does the same again (`woken_of_refused`).
-/

namespace Nas.Download.UserSelfMgr

/-- The engine refuses the waiting task, and the code drops the refusal: `Resume` of a task
that was started before, or `Start` of a BitTorrent task. A BitTorrent task that
may not download by itself is paused without asking the engine. -/
def Refused (t : TaskBase) (isBtAutoDownload : Bool) (a : Answer) : Prop :=
  (t.isStarted = true ∧ ¬ (t.param.type.isBt = true ∧ isBtAutoDownload = false) ∧ a.resume = false) ∨
  (t.isStarted = false ∧ t.param.type.isBt = true ∧ a.start ≠ .kNormal)

def MovedOn (t t' : TaskBase) : Prop :=
  t'.taskStatus ≠ .kWaitting ∨ (t.isStarted = false ∧ t'.isStarted = true) ∨ t'.errCode ≠ .kNormal

section Woken

variable {m : UserSelfMgr} {t : TaskBase} {a : Answer}

theorem woken_of_refused (hw : t.taskStatus = .kWaitting) (h : Refused t m.isBtAutoDownload a) :
    m.woken t a = t := by
  rcases h with ⟨hs, hbt, hr⟩ | ⟨hs, hbt, hr⟩
  · rw [woken, if_pos hs, TaskBase.resume, if_neg (by simpa [hw] using hbt), hr]
    rfl
  · simp only [woken, TaskBase.start, hs, hbt, hr, Bool.false_eq_true, if_false, if_true, ne_eq,
      not_true_eq_false]

theorem woken_of_not_refused (hw : t.taskStatus = .kWaitting)
    (h : ¬ Refused t m.isBtAutoDownload a) : MovedOn t (m.woken t a) := by
  cases hs : t.isStarted with
  | true =>
    left
    rw [woken, if_pos hs, TaskBase.resume]
    split
    · simp
    · rename_i hbt
      have hr : a.resume = true := by
        by_contra hr
        exact h (.inl ⟨hs, by simpa [hw] using hbt, by simpa using hr⟩)
      simp [hr]
  | false =>
    cases hbt : t.param.type.isBt with
    | true =>
      have hstart : a.start = .kNormal := by
        by_contra hne
        exact h (.inr ⟨hs, hbt, hne⟩)
      right; left
      simp [woken, TaskBase.start, hs, hbt, hstart]
    | false =>
      -- `LinkTask::Start` sets the status before it asks the engine
      left
      by_cases hstart : a.start = .kNormal <;> simp [woken, TaskBase.start, hs, hbt, hstart]

theorem movedOn_woken_iff (hw : t.taskStatus = .kWaitting) :
    MovedOn t (m.woken t a) ↔ ¬ Refused t m.isBtAutoDownload a ∨ t.errCode ≠ .kNormal := by
  by_cases h : Refused t m.isBtAutoDownload a
  · rw [woken_of_refused hw h]
    cases hs : t.isStarted <;> simp [MovedOn, hw, h, hs]
  · exact iff_of_true (woken_of_not_refused hw h) (.inl h)

end Woken

theorem Round.isBtAutoDownload {c c' : LimitCheck} {id : String} {a : Answer}
    (h : Round c id a c') : c'.mgr.isBtAutoDownload = c.mgr.isBtAutoDownload := by
  cases h with
  | skip => rfl
  | count => rfl
  | demote => rfl
  | wake =>
    dsimp only
    rw [wake_eq]
    split <;> rfl

theorem limitState_isBtAutoDownload (m : UserSelfMgr) (queue : List String) (ω : Nat → Answer)
    (k : Nat) : (limitState m queue ω k).mgr.isBtAutoDownload = m.isBtAutoDownload :=
  Lib.forEach_keep (I := fun c => c.mgr.isBtAutoDownload = m.isBtAutoDownload)
    (fun c id a _ h => (checkLimit_round c id a).isBtAutoDownload.trans h) rfl ω

theorem forEach_checkLimit_findTask {c : LimitCheck} {rest : List String} {id : String}
    (h : id ∉ rest) (ω : Nat → Answer) :
    (Lib.forEach checkLimit c rest ω).mgr.findTask id = c.mgr.findTask id :=
  Lib.forEach_keep (I := fun s => s.mgr.findTask id = c.mgr.findTask id)
    (fun s j a hj hs => ((checkLimit_round s j a).findTask_ne fun heq : id = j =>
      h (heq ▸ hj)).trans hs) rfl ω

/-- The loop as the rounds before a task, its own round and the rounds after it. -/
theorem checkTaskCountLimit_split {m : UserSelfMgr} {queue : List String} {k : Nat} {id : String}
    (hk : queue[k]? = some id) (ω : Nat → Answer) :
    ∃ ω', (m.checkTaskCountLimit queue ω).1 =
      (Lib.forEach checkLimit (checkLimit (limitState m queue ω k) id (ω k))
        (queue.drop (k + 1)) ω').mgr := by
  obtain ⟨hlt, hget⟩ := List.getElem?_eq_some_iff.mp hk
  have hlen : (queue.take k).length = k := List.length_take_of_le hlt.le
  refine ⟨fun n => ω ((queue.take k).length + (n + 1)), ?_⟩
  rw [checkTaskCountLimit_eq]
  conv_lhs => rw [← List.take_append_drop k queue, List.drop_eq_getElem_cons hlt, hget,
    Lib.forEach_append, Lib.forEach_cons]
  simp only [hlen, Nat.add_zero]
  rfl

/-- What the call leaves of a waiting task that was visited while there was room. -/
theorem checkTaskCountLimit_findTask {m : UserSelfMgr} {queue : List String}
    (hq : queue.Perm m.taskList.keys) (ω : Nat → Answer) {k : Nat} {id : String} {t : TaskBase}
    (hk : queue[k]? = some id) (ht : m.findTask id = some t) (hw : t.taskStatus = .kWaitting)
    (hc : (limitState m queue ω k).mgr.isCanStart) :
    (m.checkTaskCountLimit queue ω).1.findTask id = some (m.woken t (ω k)) := by
  obtain ⟨hlt, hget⟩ := List.getElem?_eq_some_iff.mp hk
  have hdrop : queue.drop k = id :: queue.drop (k + 1) := by
    rw [List.drop_eq_getElem_cons hlt, hget]
  have hnd : (id :: queue.drop (k + 1)).Nodup :=
    hdrop ▸ (hq.nodup_iff.mpr m.taskList.keys_nodup).sublist (List.drop_sublist ..)
  have ht' : (limitState m queue ω k).mgr.findTask id = some t :=
    (limitState_findTask hq ω (by rw [hdrop]; exact List.mem_cons_self)).trans ht
  obtain ⟨ω', h⟩ := checkTaskCountLimit_split (m := m) hk ω
  rw [h, forEach_checkLimit_findTask (List.nodup_cons.mp hnd).1]
  simp only [checkLimit, ht', hw, hc, reduceCtorEq, if_false, and_self, if_true]
  rw [wake_findTask, woken, woken, limitState_isBtAutoDownload]

/-- A waiting task that `CheckTaskCountLimit` visits while fewer than `limit` tasks are
downloading moves on if and only if the engine does not refuse it where the
code drops the refusal, or an error was recorded before. -/
theorem checkTaskCountLimit_movedOn_iff (m : UserSelfMgr) (queue : List String)
    (hq : queue.Perm m.taskList.keys) (ω : Nat → Answer) (k : Nat) (id : String) (t : TaskBase)
    (hk : queue[k]? = some id) (ht : m.findTask id = some t) (hw : t.taskStatus = .kWaitting)
    (hc : (limitState m queue ω k).mgr.isCanStart) :
    (∃ t', (m.checkTaskCountLimit queue ω).1.findTask id = some t' ∧ MovedOn t t') ↔
      ¬ Refused t m.isBtAutoDownload (ω k) ∨ t.errCode ≠ .kNormal := by
  rw [checkTaskCountLimit_findTask hq ω hk ht hw hc, ← movedOn_woken_iff hw]
  simp

def idleTask : TaskBase :=
  { param := { id := "t", url := "/data/t.torrent", type := .kTorrent, torrent := some {} } }

def idleTorrent : UserSelfMgr := ({ userId := "u" } : UserSelfMgr).setTask "t" idleTask

theorem checkTaskCountLimit_movedOn_idleTorrent :
    ∃ t', (idleTorrent.checkTaskCountLimit ["t"] fun _ => {}).1.findTask "t" = some t' ∧
      MovedOn idleTask t' :=
  (checkTaskCountLimit_movedOn_iff idleTorrent ["t"] (by decide) (fun _ => {}) 0 "t" idleTask
    rfl rfl rfl (by decide)).mpr (.inl (by simp [Refused, idleTask]))

/-- The engine refuses to start the only task, which waits with every slot free: it stays
waiting, not started and without an error. -/
theorem checkTaskCountLimit_idleTorrent_stays :
    ["t"].Perm idleTorrent.taskList.keys ∧
    idleTorrent.findTask "t" = some idleTask ∧ idleTask.taskStatus = .kWaitting ∧
    (limitState idleTorrent ["t"] (fun _ => { start := ⟨4002⟩ }) 0).mgr.isCanStart = true ∧
    ¬ ∃ t', (idleTorrent.checkTaskCountLimit ["t"] fun _ => { start := ⟨4002⟩ }).1.findTask "t" =
      some t' ∧ MovedOn idleTask t' := by
  refine ⟨by decide, rfl, rfl, by decide, ?_⟩
  rintro ⟨t', ht', hmoved⟩
  obtain rfl : idleTask = t' := Option.some.inj ht'
  simp [MovedOn, idleTask] at hmoved

end Nas.Download.UserSelfMgr
