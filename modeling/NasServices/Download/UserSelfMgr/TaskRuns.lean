import NasServices.Download.UserSelfMgr.OneTask
import NasServices.Download.UserSelfMgr.Pieces
import NasServices.Download.UserSelfMgr.Resting
import NasServices.Lib.Rounds

/-!
# One curl task through the requests of its manager

`OneTask` compares single rounds of a manager with the model of one task. Here
whole requests and timer ticks are compared: a `Turn` is a piece of the
manager's work and the events that it is for the task with this id, if the
round on this task gets the answers of the task's own engine. However many turns
there are, and whatever is asked of the other tasks in between, the task is
listed as its events leave it (`findTask_of_turns`). So what holds in all runs of
`CurlTask.act` holds of a listed task.
-/

namespace Nas.Download

/-- A tick that finds the other tasks as `CheckTaskCountLimit` does when it comes to this one. -/
def CurlTask.Tick.Sees (t : Tick) (c : UserSelfMgr.LimitCheck) : Prop :=
  t.isOverLimit = decide (c.mgr.taskLimitCount < c.downloadingCount + 1) ∧ t.isCanStart = c.mgr.isCanStart

namespace UserSelfMgr

open NetCurl (Call)

/-! ## Requests that go from task to task -/

/-- The loop of a request: `operate` with its condition and operation, and what this operation is for
a single task. -/
structure Loop where
  cond : UserSelfMgr → String → Bool
  exec : UserSelfMgr → String → Answer → UserSelfMgr × DownloadErrorCode
  event : Bool → Call → CurlTask.Event
  rounds : List String
  ω : Nat → Answer

def Event.loop (m : UserSelfMgr) : Event → Option Loop
  | .pause ids ω => some ⟨fun _ _ => true, execPauseOperate, fun _ _ => .pause, ids, ω⟩
  | .pauseAll ω =>
    some ⟨hasStatus (· ∈ [.kDownloading, .kWaitting, .kParsing]), execPauseOperate, fun _ _ => .pause, m.taskIds, ω⟩
  | .resume queue ids ω => some ⟨fun _ _ => true, execResumeOperate, .resume, matching queue ids, ω⟩
  | .resumeAll queue ω => some ⟨hasStatus (· ∈ [.kPaused, .kFailed]), execResumeOperate, .resume, queue, ω⟩
  | .retry queue ids ω => some ⟨fun _ _ => true, execRetryOperate, .retry, matching queue ids, ω⟩
  | .retryAll queue ω => some ⟨needsRetry, execRetryOperate, .retry, queue, ω⟩
  | .restore queue ids ω =>
    some ⟨hasStatus (· == .kDeleted), execRestoreOperate, .restore, matching queue ids, ω⟩
  | .restoreAll queue ω => some ⟨hasStatus (· == .kDeleted), execRestoreOperate, .restore, queue, ω⟩
  | _ => none

def Loop.upTo (l : Loop) (m : UserSelfMgr) (k : Nat) : UserSelfMgr :=
  (Lib.forEach (operate l.cond l.exec) (m, {}) (l.rounds.take k) l.ω).1

section

variable {m m' : UserSelfMgr} {id : String} {s : CurlTask} {e : Event} {l : Loop}

theorem step_of_loop (h : e.loop m = some l) :
    m.step e = (Lib.forEach (operate l.cond l.exec) (m, {}) l.rounds l.ω).1 := by
  cases e <;> cases h <;> rfl

theorem pieces_of_loop (h : e.loop m = some l) : Pieces m (m.step e) :=
  step_pieces (by cases e <;> cases h <;> rfl) (by cases e <;> cases h <;> rfl)

theorem updates_of_loop (h : e.loop m = some l) (m' : UserSelfMgr) (j : String) (a : Answer)
    (hc : l.cond m' j = true) : Updates (fun _ _ => True) j m' (l.exec m' j a).1 := by
  cases e <;> cases h
  case pause | pauseAll => exact (execPauseOperate_updates m' j a).mono fun _ _ _ => trivial
  case resume | resumeAll => exact (execResumeOperate_updates m' j a).mono fun _ _ _ => trivial
  case retry | retryAll => exact (execRetryOperate_updates m' j a).mono fun _ _ _ => trivial
  case restore | restoreAll => exact (execRestoreOperate_updates hc a).mono fun _ _ _ => trivial

theorem exec_of_loop (h : e.loop m = some l) (hbt : s.task.param.type.isBt = false)
    (ht : m'.findTask id = some s.task) (hc : l.cond m' id = true) (c : Call) :
    (l.exec m' id (s.answers (l.event m'.isCanStart c))).1.findTask id =
      some (s.act (l.event m'.isCanStart c)).task := by
  cases e <;> cases h
  case pause | pauseAll => exact execPauseOperate_findTask ht
  case resume | resumeAll => exact execResumeOperate_findTask hbt ht c
  case retry | retryAll => exact execRetryOperate_findTask hbt ht c
  case restore | restoreAll =>
    have hst : s.task.taskStatus = .kDeleted := by simpa [hasStatus, ht] using hc
    simp only [CurlTask.act, if_pos hst]
    exact execRestoreOperate_findTask hbt ht hst c

/-- What a request leaves of a task that it comes to once is what this round leaves of it. -/
theorem findTask_of_loop (h : e.loop m = some l) (hbt : s.task.param.type.isBt = false)
    (ht : m.findTask id = some s.task) (hcount : l.rounds.count id ≤ 1) {k : Nat} (hk : l.rounds[k]? = some id)
    {c : Call} (ha : l.ω k = s.answers (l.event (l.upTo m k).isCanStart c)) :
    (m.step e).findTask id = some (Lib.run CurlTask.act s
      (if l.cond (l.upTo m k) id then [l.event (l.upTo m k).isCanStart c] else [])).task := by
  have hother (p : UserSelfMgr × Reply) (y : String) (a : Answer) (_ : True) (hne : y ≠ id) :
      (operate l.cond l.exec p y a).1.findTask id = p.1.findTask id := by
    unfold operate
    split
    · rename_i hc
      exact (updates_of_loop h p.1 y a hc).other id hne.symm
    · rfl
  obtain ⟨hbefore, hstep⟩ := Lib.forEach_once (f := fun p : UserSelfMgr × Reply => p.1.findTask id)
    (fun _ _ _ _ => trivial) hother (s := (m, {})) trivial hcount hk l.ω
  unfold Loop.upTo at ha ⊢
  rw [step_of_loop h, hstep, ha]
  generalize Lib.forEach (operate l.cond l.exec) (m, {}) (l.rounds.take k) l.ω = p at hbefore ⊢
  by_cases hc : l.cond p.1 id = true
  · rw [operate, if_pos hc, if_pos hc]
    exact exec_of_loop h hbt (hbefore.trans ht) hc c
  · rw [operate, if_neg hc, if_neg hc]
    exact hbefore.trans ht

theorem timerChcek_findTask (hbt : s.task.param.type.isBt = false) (ht : m.findTask id = some s.task)
    (hu : m.userInfo.isSome) {queue : List String} (hcount : queue.count id ≤ 1) {k : Nat}
    (hk : queue[k]? = some id) {ω ω' : Nat → Answer} {t : CurlTask.Tick}
    (ht' : t.Sees (Lib.forEach checkLimit { mgr := m } (queue.take k) ω))
    (ha : ω k = s.answer t.call) (ha' : ω' k = t.answer (s.tick t).impl) :
    (m.timerChcek queue ω ω').findTask id = some (s.tick t).task := by
  -- the first loop comes to the task as it was, and the second as the first has left it
  obtain ⟨hbefore, hlimit⟩ := Lib.forEach_once (I := fun _ => True) (f := fun c : LimitCheck => c.mgr.findTask id)
    (fun _ _ _ _ => trivial) (fun c y a _ hne => (checkLimit_round c y a).findTask_ne hne.symm)
    (s := { mgr := m }) trivial hcount hk ω
  dsimp only at hbefore hlimit
  rw [ha, checkLimit_findTask hbt (hbefore.trans ht) ht'.1 ht'.2] at hlimit
  obtain ⟨hbefore', hcheck⟩ := Lib.forEach_once (I := fun _ => True) (f := fun m : UserSelfMgr => m.findTask id)
    (fun _ _ _ _ => trivial) (fun m y a _ hne => (checkTask_updates m y a).other id hne.symm)
    (s := (m.checkTaskCountLimit queue ω).1) trivial hcount hk ω'
  rw [timerChcek, if_pos hu, hcheck, ha']
  exact checkTask_findTask (hbefore'.trans hlimit) t

/-! ## Turns -/

/-- The event leaves the listed task with this id alone. A create request does so unless the id is the
user's, under which a parsed magnet task is reported. -/
def Event.Leaves (m : UserSelfMgr) (id : String) : Event → Prop
  | .createLink .. | .createTorrent .. => id ≠ m.userId
  | .delete ids _ _ | .clean ids _ => id ∉ ids
  | .metadataDownloaded j _ | .setFileList j _ => id ≠ j
  | .runParse _ => ∀ msg ∈ m.parseQueue.head?, id ≠ msg.1
  | .settings .. => True
  | _ => False

theorem Event.Leaves.findTask_step (he : e.Leaves m id) {t : TaskBase} (ht : m.findTask id = some t) :
    (m.step e).findTask id = some t := by
  cases e with
  | createLink sourceList host ω => exact findTask_createAll ht he _ host ω
  | createTorrent request host ω => exact findTask_createAll ht he _ host ω
  | delete ids b ω => exact (findTask_forEach_deleted (execDeleteOperate_deleted b false) he {} ω).trans ht
  | clean ids ω => exact (findTask_forEach_deleted (execDeleteOperate_deleted false true) he {} ω).trans ht
  | metadataDownloaded j result =>
    simp only [UserSelfMgr.step, UserSelfMgr.metadataDownloaded]
    split
    · exact ht
    · exact (findTask_setTask_ne m _ he).trans ht
  | setFileList j l =>
    simp only [UserSelfMgr.step, UserSelfMgr.setFileList]
    split
    · exact ht
    · split
      · exact (findTask_setTask_ne m _ he).trans ht
      · exact ht
  | runParse a =>
    simp only [UserSelfMgr.step, UserSelfMgr.runParse]
    split
    · exact ht
    · rename_i msg rest hq
      have hne : id ≠ msg.1 := he msg (by rw [hq]; rfl)
      exact (findTask_onParseComplete_ne hne _ a).trans ht
  | settings n b => exact ht
  | _ => exact he.elim

end

/-- A piece of the manager's work, and the events that it is for the task. -/
inductive Turn (id : String) (m : UserSelfMgr) (s : CurlTask) : List CurlTask.Event → UserSelfMgr → Prop
  | spared {e : Event} (he : e.Leaves m id) : Turn id m s [] (m.step e)
  | skipped {e : Event} {l : Loop} (h : e.loop m = some l) (hid : id ∉ l.rounds) : Turn id m s [] (m.step e)
  /-- The transfer thread, the clock, and a posted `ReStart` whose turn it is. -/
  | aside {f : CurlTask.Event} (hf : f matches .progress .. | .finish .. | .wait _ | .reStart _) : Turn id m s [f] m
  | request {e : Event} {l : Loop} (h : e.loop m = some l) (hcount : l.rounds.count id ≤ 1) {k : Nat}
    (hk : l.rounds[k]? = some id) {c : Call} (ha : l.ω k = s.answers (l.event (l.upTo m k).isCanStart c)) :
    Turn id m s (if l.cond (l.upTo m k) id then [l.event (l.upTo m k).isCanStart c] else []) (m.step e)
  | delete {ids : List String} (isDeleteLocalFile : Bool) {ω : Nat → Answer} (hcount : ids.count id ≤ 1) {k : Nat}
    (hk : ids[k]? = some id) (hbin : s.task.taskCategory ≠ .kRecyclebinTask) (ha : ω k = s.answers .delete) :
    Turn id m s [.delete] (m.step (.delete ids isDeleteLocalFile ω))
  | timer (hu : m.userInfo.isSome) {queue : List String} (hcount : queue.count id ≤ 1) {k : Nat}
    (hk : queue[k]? = some id) {ω ω' : Nat → Answer} {t : CurlTask.Tick}
    (ht : t.Sees (Lib.forEach checkLimit { mgr := m } (queue.take k) ω))
    (ha : ω k = s.answer t.call) (ha' : ω' k = t.answer (s.tick t).impl) :
    Turn id m s [.tick t] (m.step (.timer queue ω ω'))

inductive Turns (id : String) : UserSelfMgr → CurlTask → List CurlTask.Event → UserSelfMgr → Prop
  | nil (m : UserSelfMgr) (s : CurlTask) : Turns id m s [] m
  | cons {m m' m'' : UserSelfMgr} {s : CurlTask} {es fs : List CurlTask.Event} (h : Turn id m s es m')
    (h' : Turns id m' (Lib.run CurlTask.act s es) fs m'') : Turns id m s (es ++ fs) m''

variable {m m' : UserSelfMgr} {id : String} {s : CurlTask} {es : List CurlTask.Event}

theorem Turn.findTask (h : Turn id m s es m') (hbt : s.task.param.type.isBt = false)
    (ht : m.findTask id = some s.task) : m'.findTask id = some (Lib.run CurlTask.act s es).task := by
  cases h with
  | spared he => exact he.findTask_step ht
  | skipped h hid =>
    rw [step_of_loop h]
    exact (findTask_forEach_operate (updates_of_loop h) hid {} _).trans ht
  | @aside f hf =>
    cases f with
    | reStart c =>
      simp only [Lib.run_cons, Lib.run_nil, CurlTask.act]
      split <;> exact ht
    | progress | finish | wait => exact ht
    | _ => cases hf
  | request h hcount hk ha => exact findTask_of_loop h hbt ht hcount hk ha
  | @delete ids isDeleteLocalFile ω hcount k hk hbin ha =>
    obtain ⟨hbefore, hstep⟩ := Lib.forEach_once (I := fun _ => True)
      (f := fun p : UserSelfMgr × Reply => p.1.findTask id) (fun _ _ _ _ => trivial)
      (fun p y a _ hne => (execDeleteOperate_deleted isDeleteLocalFile false p y a).findTask_ne hne.symm)
      (s := (m, {})) trivial hcount hk ω
    simp only [Lib.run_cons, Lib.run_nil, CurlTask.act, if_neg hbin]
    exact hstep.trans (ha ▸ execDeleteOperate_findTask (hbefore.trans ht) hbin isDeleteLocalFile _)
  | timer hu hcount hk ht' ha ha' => exact timerChcek_findTask hbt ht hu hcount hk ht' ha ha'

/-- No turn makes a BitTorrent task of it: the parameter stays with the id. -/
theorem Turn.isBt (h : Turn id m s es m') (hbt : s.task.param.type.isBt = false)
    (ht : m.findTask id = some s.task) : (Lib.run CurlTask.act s es).task.param.type.isBt = false := by
  let Q (j : String) (p : TaskParam) : Prop := j = id → p.type.isBt = false
  have hm : Listed Q m := by
    rintro j t hj rfl
    rwa [← Option.some.inj (ht.symm.trans hj)]
  have hm' (hm' : Listed Q m') : (Lib.run CurlTask.act s es).task.param.type.isBt = false :=
    hm' id _ (h.findTask hbt ht) rfl
  cases h with
  | spared he => exact hbt
  | skipped h hid => exact hbt
  | aside hf => exact hm' hm
  | request h => exact hm' (hm.pieces (pieces_of_loop h))
  | delete => exact hm' (step_keep_of_deletes (fun _ _ _ _ h hd => h.deleted hd) rfl hm)
  | timer => exact hm' (hm.pieces (step_pieces rfl rfl))

def managedLink : UserSelfMgr := setTask { userId := "u", userInfo := some ⟨1⟩ } "1" CurlTask.startedLink.task

def tickOf (s : CurlTask) : Event :=
  .timer ["1"] (fun _ => s.answer {}) fun _ => ({} : CurlTask.Tick).answer (s.tick {}).impl

end UserSelfMgr

end Nas.Download
