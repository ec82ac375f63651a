import NasServices.Download.UserSelfMgr.Request

/-!
# The timer enforces the download limit

`CheckTaskCountLimit` mixes two counts: a running count of the downloading
tasks it has visited, and a fresh count of the whole list. While it runs, the
tasks it has not visited are as they were. So if at most `limit` tasks were
downloading, the running count never passes the limit (`Under`), and if more
were, the fresh count never falls below it, and no waiting task is started
(`Over`). Both are invariants of the loop and of the part of the queue still
to come, and the facts about the whole loop follow from them.
-/

namespace Nas.Download.UserSelfMgr

abbrev downloading (m : UserSelfMgr) (id : String) : Bool := m.hasStatus (· == .kDownloading) id

abbrev waitting (m : UserSelfMgr) (id : String) : Bool := m.hasStatus (· == .kWaitting) id

theorem hasStatus_of_findTask {m : UserSelfMgr} {id : String} {t : TaskBase}
    (h : m.findTask id = some t) (p : TaskStatus → Bool) : m.hasStatus p id = p t.taskStatus := by
  simp only [hasStatus, h]

theorem hasStatus_congr {m m' : UserSelfMgr} {id : String} (h : m'.findTask id = m.findTask id)
    (p : TaskStatus → Bool) : m'.hasStatus p id = m.hasStatus p id := by
  simp only [hasStatus, h]

theorem slot_eq_one_iff {t : TaskBase} : slot t = 1 ↔ t.taskStatus = .kDownloading := by
  unfold slot
  split <;> simp_all

theorem slot_eq_zero {t : TaskBase} (h : t.taskStatus ≠ .kDownloading) : slot t = 0 := if_neg h

theorem downloadingTaskNum_eq_countP {m : UserSelfMgr} {queue : List String}
    (hq : queue.Perm m.taskList.keys) : m.downloadingTaskNum = queue.countP m.downloading := by
  rw [downloadingTaskNum, Lib.sumBy_eq_keys, ← (hq.map _).sum_eq]
  clear hq
  induction queue with
  | nil => rfl
  | cons id queue ih =>
    rw [List.map_cons, List.sum_cons, ih, List.countP_cons, Nat.add_comm]
    congr 1
    rcases ht : m.taskList.lookup id with _ | t
    · simp [hasStatus, findTask, ht]
    · simp [hasStatus, findTask, ht, slot]

/-! ## One round -/

def woken (m : UserSelfMgr) (t : TaskBase) (a : Answer) : TaskBase :=
  if t.isStarted then (t.resume m.isBtAutoDownload a).1
  else if (t.start a.start).2 ≠ .kNormal then
    { (t.start a.start).1 with errCode := (t.start a.start).2 }
  else (t.start a.start).1

/-- A waiting task is woken by `Resume` or `Start`; a start also shows in the engine. -/
theorem wake_eq (m : UserSelfMgr) (id : String) (t : TaskBase) (a : Answer) :
    m.wake id t a =
      if t.isStarted then m.setTask id (m.woken t a)
      else { m.setTask id (m.woken t a) with engine := startCalls t a.start ++ m.engine } := by
  unfold wake woken
  split <;> rfl

theorem wake_findTask (m : UserSelfMgr) (id : String) (t : TaskBase) (a : Answer) :
    (m.wake id t a).findTask id = some (m.woken t a) := by
  rw [wake_eq]
  split <;> exact findTask_setTask ..

theorem wake_findTask_ne (m : UserSelfMgr) {id id' : String} (t : TaskBase) (a : Answer)
    (h : id' ≠ id) : (m.wake id t a).findTask id' = m.findTask id' := by
  rw [wake_eq]
  split <;> exact findTask_setTask_ne _ _ h

@[simp] theorem wake_taskLimitCount (m : UserSelfMgr) (id : String) (t : TaskBase) (a : Answer) :
    (m.wake id t a).taskLimitCount = m.taskLimitCount := by
  rw [wake_eq]
  split <;> rfl

theorem wake_downloadingTaskNum {m : UserSelfMgr} {id : String} {t : TaskBase}
    (h : m.findTask id = some t) (a : Answer) :
    (m.wake id t a).downloadingTaskNum + slot t = m.downloadingTaskNum + slot (m.woken t a) := by
  rw [wake_eq]
  split <;> exact downloadingTaskNum_setTask h _

/-- The four things a round can do: leave everything as it is, count a downloading task,
put a downloading task back to waiting, or wake a waiting task. -/
inductive Round (c : LimitCheck) (id : String) (a : Answer) : LimitCheck → Prop
  | skip (h : c.mgr.downloading id = false) (hw : c.mgr.waitting id → c.mgr.isCanStart = false) :
    Round c id a c
  | count (h : c.mgr.downloading id) (hn : c.downloadingCount + 1 ≤ c.mgr.taskLimitCount) :
    Round c id a { c with downloadingCount := c.downloadingCount + 1 }
  | demote {t : TaskBase} (ht : c.mgr.findTask id = some t) (h : t.taskStatus = .kDownloading)
    (hn : c.mgr.taskLimitCount < c.downloadingCount + 1) :
    Round c id a
      { mgr := c.mgr.setTask id ((t.pause a).1.setTaskStatus .kWaitting),
        downloadingCount := c.downloadingCount + 1, isReach := true }
  | wake {t : TaskBase} (ht : c.mgr.findTask id = some t) (h : t.taskStatus = .kWaitting)
    (hc : c.mgr.isCanStart) : Round c id a { c with mgr := c.mgr.wake id t a, isReach := true }

theorem checkLimit_round (c : LimitCheck) (id : String) (a : Answer) :
    Round c id a (checkLimit c id a) := by
  unfold checkLimit
  split
  · rename_i hnone
    exact .skip (by simp [downloading, hasStatus, hnone]) (by simp [waitting, hasStatus, hnone])
  · rename_i t ht
    have hd := hasStatus_of_findTask ht (· == .kDownloading)
    have hw := hasStatus_of_findTask ht (· == .kWaitting)
    split
    · rename_i hst
      split
      · rename_i hn
        exact .demote ht hst hn
      · rename_i hn
        exact .count (by rw [downloading, hd, hst]; rfl) (by omega)
    · rename_i hst
      split
      · rename_i h
        exact .wake ht h.1 h.2
      · rename_i h
        refine .skip (by rw [downloading, hd]; simpa using hst) fun hwait => ?_
        rw [waitting, hw, beq_iff_eq] at hwait
        simpa [hwait] using h

section Round

variable {c c' : LimitCheck} {id : String} {a : Answer}

theorem Round.findTask_ne (h : Round c id a c') {id' : String} (hne : id' ≠ id) :
    c'.mgr.findTask id' = c.mgr.findTask id' := by
  cases h with
  | skip => rfl
  | count => rfl
  | demote => exact findTask_setTask_ne _ _ hne
  | wake => exact wake_findTask_ne _ _ _ hne

theorem Round.taskLimitCount (h : Round c id a c') :
    c'.mgr.taskLimitCount = c.mgr.taskLimitCount := by
  cases h with
  | skip => rfl
  | count => rfl
  | demote => rfl
  | wake => exact wake_taskLimitCount ..

theorem Round.downloadingCount (h : Round c id a c') :
    c'.downloadingCount = c.downloadingCount + (c.mgr.downloading id).toNat := by
  cases h with
  | skip h => simp [h]
  | count h => simp [h]
  | demote ht h => simp [downloading, hasStatus_of_findTask ht, h]
  | wake ht h => simp [downloading, hasStatus_of_findTask ht, h]

end Round

/-! ## At most `limit` tasks are downloading -/

/-- The loop's invariant when the running count has room for every downloading task still to
come: nothing is demoted, and a task is woken only while there is room. -/
structure Under (m : UserSelfMgr) (c : LimitCheck) (rest : List String) : Prop where
  nodup : rest.Nodup
  limit : c.mgr.taskLimitCount = m.taskLimitCount
  same : ∀ id ∈ rest, c.mgr.findTask id = m.findTask id
  room : c.downloadingCount + rest.countP m.downloading ≤ m.taskLimitCount
  num : c.mgr.downloadingTaskNum ≤ m.taskLimitCount
  kept : ∀ id, m.downloading id → c.mgr.downloading id

/-- A round that has room for its task keeps every downloading task and wakes one at most. -/
theorem Round.under {c c' : LimitCheck} {id : String} {a : Answer} (h : Round c id a c')
    (hroom : c.mgr.downloading id → c.downloadingCount + 1 ≤ c.mgr.taskLimitCount)
    (hnum : c.mgr.downloadingTaskNum ≤ c.mgr.taskLimitCount) :
    c.mgr.downloadingTaskNum ≤ c'.mgr.downloadingTaskNum ∧
    c'.mgr.downloadingTaskNum ≤ c.mgr.taskLimitCount ∧
    ∀ j, c.mgr.downloading j → c'.mgr.downloading j := by
  cases h with
  | skip => exact ⟨le_rfl, hnum, fun _ h => h⟩
  | count => exact ⟨le_rfl, hnum, fun _ h => h⟩
  | demote ht h hn =>
    have := hroom (by rw [downloading, hasStatus_of_findTask ht, h]; rfl)
    omega
  | wake ht h hc =>
    rename_i t
    have hlt : c.mgr.downloadingTaskNum < c.mgr.taskLimitCount := by simpa [isCanStart] using hc
    have heq := wake_downloadingTaskNum ht a
    have hle := slot_le_one (c.mgr.woken t a)
    rw [slot_eq_zero (by rw [h]; decide)] at heq
    dsimp only
    refine ⟨by omega, by omega, fun j hj => ?_⟩
    -- the woken task was waiting, so the downloading ones are others
    have hne : j ≠ id := by
      rintro rfl
      rw [downloading, hasStatus_of_findTask ht, h] at hj
      cases hj
    rw [downloading, hasStatus_congr (wake_findTask_ne c.mgr t a hne)]
    exact hj

theorem Under.round {m : UserSelfMgr} {c c' : LimitCheck} {id : String} {rest : List String}
    {a : Answer} (h : Under m c (id :: rest)) (hr : Round c id a c') : Under m c' rest := by
  obtain ⟨hid, hnd⟩ := List.nodup_cons.mp h.nodup
  have hdown : c.mgr.downloading id = m.downloading id :=
    hasStatus_congr (h.same id List.mem_cons_self) _
  have hroom := h.room
  rw [List.countP_cons] at hroom
  obtain ⟨-, hnum, hkept⟩ := hr.under (fun hd => by
    rw [hdown] at hd
    rw [h.limit]
    simp only [hd, if_true] at hroom
    omega) (h.limit ▸ h.num)
  refine ⟨hnd, hr.taskLimitCount.trans h.limit, fun j hj => ?_, ?_, h.limit ▸ hnum,
    fun j hj => hkept j (h.kept j hj)⟩
  · rw [hr.findTask_ne (fun heq => hid (heq ▸ hj)), h.same j (List.mem_cons_of_mem _ hj)]
  · rw [hr.downloadingCount, hdown]
    cases hd : m.downloading id <;> simp only [hd] at hroom ⊢ <;> simp at hroom ⊢ <;> omega

/-! ## More than `limit` tasks are downloading -/

/-- The loop's invariant when more tasks are downloading than the limit allows: the tasks
visited so far keep `limit` of them at most, and the list as a whole is still
full, so no waiting task may start. -/
structure Over (m : UserSelfMgr) (c : LimitCheck) (rest : List String) : Prop where
  nodup : rest.Nodup
  limit : c.mgr.taskLimitCount = m.taskLimitCount
  same : ∀ id ∈ rest, c.mgr.findTask id = m.findTask id
  num : c.mgr.downloadingTaskNum =
    min c.downloadingCount m.taskLimitCount + rest.countP m.downloading
  excess : m.taskLimitCount < c.downloadingCount + rest.countP m.downloading

section Over

variable {m : UserSelfMgr} {c c' : LimitCheck} {id : String} {rest : List String} {a : Answer}

theorem Over.isCanStart (h : Over m c rest) : c.mgr.isCanStart = false := by
  have hnum := h.num
  have hex := h.excess
  simp only [UserSelfMgr.isCanStart, h.limit, decide_eq_false_iff_not]
  omega

theorem Over.downloading (h : Over m c (id :: rest)) : c.mgr.downloading id = m.downloading id :=
  hasStatus_congr (h.same id List.mem_cons_self) _

theorem Over.round (h : Over m c (id :: rest)) (hr : Round c id a c') : Over m c' rest := by
  obtain ⟨hid, hnd⟩ := List.nodup_cons.mp h.nodup
  have hsame : ∀ j ∈ rest, c'.mgr.findTask j = m.findTask j := fun j hj => by
    rw [hr.findTask_ne (fun heq => hid (heq ▸ hj)), h.same j (List.mem_cons_of_mem _ hj)]
  have hdown := h.downloading
  have hlimit := h.limit
  have hnum := h.num
  have hex := h.excess
  rw [List.countP_cons, ← hdown] at hnum hex
  refine ⟨hnd, hr.taskLimitCount.trans hlimit, hsame, ?_, ?_⟩
  · cases hr with
    | skip hd => simpa [hd] using hnum
    | count hd hn =>
      simp only [hd, if_true] at hnum
      dsimp only
      omega
    | demote ht hd hn =>
      rename_i t
      have heq := downloadingTaskNum_setTask ht ((t.pause a).1.setTaskStatus .kWaitting)
      rw [slot_eq_one_iff.mpr hd, slot_eq_zero (by rw [TaskBase.setTaskStatus_taskStatus]; decide)] at heq
      simp only [UserSelfMgr.downloading, hasStatus_of_findTask ht, hd, beq_self_eq_true, if_true] at hnum
      dsimp only
      omega
    | wake ht hd hc => rw [h.isCanStart] at hc; cases hc
  · rw [hr.downloadingCount]
    cases hd : c.mgr.downloading id <;> simp only [hd] at hex ⊢ <;> simp at hex ⊢ <;> omega

/-- The end of the loop from an overfull state: of the downloading tasks still to come, the
running count decides how many stay, in the order of the queue, and nothing
else changes. -/
theorem Over.forEach (h : Over m c rest) (ω : Nat → Answer) :
    (∀ j ∈ (rest.filter m.downloading).take (m.taskLimitCount - c.downloadingCount),
      (Lib.forEach checkLimit c rest ω).mgr.downloading j) ∧
    (∀ j ∈ (rest.filter m.downloading).drop (m.taskLimitCount - c.downloadingCount),
      (Lib.forEach checkLimit c rest ω).mgr.waitting j) ∧
    ∀ j, j ∉ rest.filter m.downloading →
      (Lib.forEach checkLimit c rest ω).mgr.findTask j = c.mgr.findTask j := by
  induction rest generalizing c ω with
  | nil => simp
  | cons id rest ih =>
    have hr := checkLimit_round c id (ω 0)
    rw [Lib.forEach_cons]
    generalize checkLimit c id (ω 0) = c' at hr
    obtain ⟨hstay, hwait, hsame⟩ := ih (h.round hr) fun k => ω (k + 1)
    have hid : id ∉ rest.filter m.downloading :=
      fun hmem => (List.nodup_cons.mp h.nodup).1 (List.mem_of_mem_filter hmem)
    have hfinal := hsame id hid
    rw [List.filter_cons, ← h.downloading]
    cases hr with
    | skip hd => exact ⟨by simpa [hd] using hstay, by simpa [hd] using hwait, by simpa [hd] using hsame⟩
    | count hd hn =>
      rw [h.limit] at hn
      have hsub : m.taskLimitCount - c.downloadingCount =
          m.taskLimitCount - (c.downloadingCount + 1) + 1 := by omega
      simp only [hd, if_true, hsub, List.take_succ_cons, List.drop_succ_cons, List.mem_cons, not_or]
      refine ⟨?_, hwait, fun j hj => hsame j hj.2⟩
      rintro j (rfl | hj)
      · exact (hasStatus_congr hfinal _).trans hd
      · exact hstay j hj
    | demote ht hd hn =>
      rename_i t
      have hdown : c.mgr.downloading id = true := by
        rw [UserSelfMgr.downloading, hasStatus_of_findTask ht, hd]; rfl
      rw [h.limit] at hn
      have hzero : m.taskLimitCount - c.downloadingCount = 0 := by omega
      have hzero' : m.taskLimitCount - (c.downloadingCount + 1) = 0 := by omega
      simp only [hzero', List.drop_zero] at hwait
      simp only [hdown, if_true, hzero, List.take_zero, List.drop_zero, List.mem_cons, not_or]
      refine ⟨fun j hj => absurd hj List.not_mem_nil, ?_, fun j hj => ?_⟩
      · rintro j (rfl | hj)
        · rw [waitting, hasStatus_of_findTask (hfinal.trans (findTask_setTask ..))]; rfl
        · exact hwait j hj
      · rw [hsame j hj.2, findTask_setTask_ne _ _ hj.1]
    | wake ht hd hc => rw [h.isCanStart] at hc; cases hc

end Over

/-! ## The whole loop -/

def limitState (m : UserSelfMgr) (queue : List String) (ω : Nat → Answer) (k : Nat) : LimitCheck :=
  Lib.forEach checkLimit { mgr := m } (queue.take k) ω

/-- The `k`-th round finds its task waiting and sees room for it: this is when the source
calls `Resume` or `Start`. -/
def Attempts (m : UserSelfMgr) (queue : List String) (ω : Nat → Answer) (k : Nat) : Prop :=
  ∃ id, queue[k]? = some id ∧ (limitState m queue ω k).mgr.waitting id ∧
    (limitState m queue ω k).mgr.isCanStart

section Loop

variable {m : UserSelfMgr} {queue : List String}

theorem checkTaskCountLimit_eq (m : UserSelfMgr) (queue : List String) (ω : Nat → Answer) :
    (m.checkTaskCountLimit queue ω).1 = (Lib.forEach checkLimit { mgr := m } queue ω).mgr := rfl

theorem under_init (hq : queue.Perm m.taskList.keys)
    (h : m.downloadingTaskNum ≤ m.taskLimitCount) : Under m { mgr := m } queue where
  nodup := hq.nodup_iff.mpr m.taskList.keys_nodup
  limit := rfl
  same _ _ := rfl
  room := by rw [← downloadingTaskNum_eq_countP hq]; dsimp only; omega
  num := h
  kept _ h := h

theorem over_init (hq : queue.Perm m.taskList.keys)
    (h : m.taskLimitCount < m.downloadingTaskNum) : Over m { mgr := m } queue where
  nodup := hq.nodup_iff.mpr m.taskList.keys_nodup
  limit := rfl
  same _ _ := rfl
  num := by rw [← downloadingTaskNum_eq_countP hq]; dsimp only; omega
  excess := by rw [← downloadingTaskNum_eq_countP hq]; dsimp only; omega

theorem under_limitState {c : LimitCheck} (h : Under m c queue) (ω : Nat → Answer) (k : Nat) :
    Under m (Lib.forEach checkLimit c (queue.take k) ω) (queue.drop k) :=
  Lib.forEach_scan (fun _ _ _ _ h => h.round (checkLimit_round ..))
    (by rwa [List.take_append_drop])

theorem over_limitState {c : LimitCheck} (h : Over m c queue) (ω : Nat → Answer) (k : Nat) :
    Over m (Lib.forEach checkLimit c (queue.take k) ω) (queue.drop k) :=
  Lib.forEach_scan (fun _ _ _ _ h => h.round (checkLimit_round ..))
    (by rwa [List.take_append_drop])

/-- The tasks that the loop has not come to are as they were. -/
theorem limitState_findTask (hq : queue.Perm m.taskList.keys) (ω : Nat → Answer) {k : Nat}
    {id : String} (hk : id ∈ queue.drop k) :
    (limitState m queue ω k).mgr.findTask id = m.findTask id := by
  rcases Nat.lt_or_ge m.taskLimitCount m.downloadingTaskNum with h | h
  · exact (over_limitState (over_init hq h) ω k).same id hk
  · exact (under_limitState (under_init hq h) ω k).same id hk

/-- While nothing is demoted, the number of downloading tasks only grows. -/
theorem Under.downloadingTaskNum_le {c : LimitCheck} {xs ys : List String} (h : Under m c (xs ++ ys))
    (ω : Nat → Answer) :
    c.mgr.downloadingTaskNum ≤ (Lib.forEach checkLimit c xs ω).mgr.downloadingTaskNum := by
  refine (Lib.forEach_scan (I := fun s rest => Under m s rest ∧
    c.mgr.downloadingTaskNum ≤ s.mgr.downloadingTaskNum) ?_ ⟨h, le_rfl⟩).2
  rintro s id rest k ⟨hs, hle⟩
  have hr := checkLimit_round s id (ω k)
  refine ⟨hs.round hr, hle.trans (hr.under (fun hd => ?_) (hs.limit ▸ hs.num)).1⟩
  have hroom := hs.room
  have hdown : s.mgr.downloading id = m.downloading id :=
    hasStatus_congr (hs.same id List.mem_cons_self) _
  rw [List.countP_cons, ← hdown, hd] at hroom
  rw [hs.limit]
  simp only [if_true] at hroom
  omega

theorem limitState_add (m : UserSelfMgr) (queue : List String) (ω : Nat → Answer) (i d : Nat) :
    limitState m queue ω (i + d) = Lib.forEach checkLimit (limitState m queue ω i)
      ((queue.drop i).take d) (fun k => ω ((queue.take i).length + k)) := by
  rw [limitState, List.take_add, Lib.forEach_append]
  rfl

/-- A later round that sees room means that an earlier one did. -/
theorem isCanStart_of_later (hq : queue.Perm m.taskList.keys) (ω : Nat → Answer) {i j : Nat}
    (hij : i ≤ j) (h : (limitState m queue ω j).mgr.isCanStart) :
    (limitState m queue ω i).mgr.isCanStart := by
  rcases Nat.lt_or_ge m.taskLimitCount m.downloadingTaskNum with hm | hm
  · rw [limitState, (over_limitState (over_init hq hm) ω j).isCanStart] at h
    cases h
  · obtain ⟨d, rfl⟩ := Nat.exists_eq_add_of_le hij
    have hu := under_limitState (under_init hq hm) ω i
    have hsplit := hu
    rw [← List.take_append_drop d (queue.drop i)] at hsplit
    have hle := hsplit.downloadingTaskNum_le fun k => ω ((queue.take i).length + k)
    have hlim := (under_limitState (under_init hq hm) ω (i + d)).limit
    have hlt : (limitState m queue ω (i + d)).mgr.downloadingTaskNum < m.taskLimitCount := by
      rw [limitState] at h ⊢
      simpa only [isCanStart, hlim, decide_eq_true_eq] using h
    rw [limitState_add] at hlt
    rw [limitState]
    simp only [isCanStart, hu.limit, decide_eq_true_eq]
    exact lt_of_le_of_lt hle hlt

/-- A waiting task is attempted only if every waiting task before it in the queue was. -/
theorem Attempts.earlier (hq : queue.Perm m.taskList.keys) {ω : Nat → Answer} {i j : Nat}
    (hij : i < j) {id : String} (hi : queue[i]? = some id) (hw : m.waitting id)
    (h : Attempts m queue ω j) : Attempts m queue ω i := by
  obtain ⟨-, -, -, hc⟩ := h
  refine ⟨id, hi, ?_, isCanStart_of_later hq ω hij.le hc⟩
  have hmem : id ∈ queue.drop i :=
    List.mem_of_getElem? (i := 0) (by rw [List.getElem?_drop]; exact hi)
  rw [waitting, hasStatus_congr (limitState_findTask hq ω hmem)]
  exact hw

theorem Over.not_attempts (h : Over m { mgr := m } queue) (ω : Nat → Answer) (k : Nat) :
    ¬ Attempts m queue ω k := by
  rintro ⟨-, -, -, hc⟩
  rw [limitState, (over_limitState h ω k).isCanStart] at hc
  cases hc

end Loop

def twoTasks (first second : TaskStatus) : UserSelfMgr :=
  (({ userId := "u", userInfo := some ⟨1⟩ } : UserSelfMgr).setTask "b"
    { param := { id := "b", url := "http://b" }, taskStatus := second }).setTask "a"
    { param := { id := "a", url := "http://a" }, taskStatus := first }

end Nas.Download.UserSelfMgr
