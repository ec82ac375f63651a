import NasServices.Download.UserSelfMgr.Listing
import NasServices.Lib.Pointers

/-!
# A batch of links

`task_list_` holds shared pointers, and `CreateLinkTask` carries the pointers of its new tasks
to `ParseTasks`. `ObjectMgr` is the manager with the task objects behind the pointers, and
`ObjectMgr.createLinkTask` the request on it; `createLinkTask_same` says that it does to the
values what the model without pointers does.

Each source contributes one entry to the reply and is checked against the list that the sources
before it have left; `createLinkTask_exact` says what the whole request comes to.
-/

namespace Nas.Download

structure ObjectMgr where
  mgr : UserSelfMgr
  tasks : Lib.Pointers String TaskBase

structure ObjectCreation where
  mgr : ObjectMgr
  needParse : List Nat := []
  reply : CreateReply := {}

namespace ObjectMgr

def toMgr (o : ObjectMgr) : UserSelfMgr := { o.mgr with taskList := o.tasks.view }

theorem findTask_toMgr (o : ObjectMgr) (id : String) : o.toMgr.findTask id = o.tasks.find id :=
  Lib.Pointers.lookup_view ..

def set (o : ObjectMgr) (n : Nat) (t : TaskBase) : ObjectMgr := { o with tasks := o.tasks.set n t }

/-- `AddTask`; a task whose id is listed is refused. -/
def addTask (o : ObjectMgr) (id : String) (t : TaskBase) : ObjectMgr × Bool :=
  match o.tasks.slots.lookup id with
  | some _ => (o, false)
  | none =>
    ({ mgr := { o.mgr with refs := o.mgr.refs.addRef t.param.hash }, tasks := o.tasks.add id t }, true)

def onParseComplete (o : ObjectMgr) (msg : TaskBase.ParseMessage) (a : Answer) : ObjectMgr :=
  match o.tasks.slots.lookup msg.1 with
  | none => o
  | some n =>
    match o.tasks.objects[n]? with
    | none => o
    | some t =>
      let t := { t with parseFinished := true, fileList := msg.2 }
      if o.toMgr.isCanStart then
        if !o.mgr.isBtAutoDownload then o.set n ((t.pause a).1.setTaskStatus .kPaused)
        else o.set n (t.setTaskStatus .kDownloading)
      else o.set n ((t.pause a).1.setTaskStatus .kWaitting)

def parseTask (o : ObjectMgr) (n : Nat) (a : Answer) : ObjectMgr :=
  match o.tasks.objects[n]? with
  | none => o
  | some t =>
    match t.parse o.mgr.userId a with
    | (t, none) => o.set n t
    | (t, some msg) => (o.set n t).onParseComplete msg a

def refuse (c : ObjectCreation) (mgr : ObjectMgr) (id sameTaskId : String) (err : DownloadErrorCode) :
    ObjectCreation :=
  { c with mgr, reply := { c.reply with
      failedList := c.reply.failedList ++ [{ taskId := id, sameTaskId, errCode := err }] } }

def execCreate (c : ObjectCreation) (param : TaskParam) (h : Host) : ObjectCreation :=
  match c.mgr.toMgr.createTask param h with
  | (none, err, same) => refuse c c.mgr param.id same err
  | (some t, err, same) =>
    let o := { c.mgr with mgr := { c.mgr.mgr with made := t.param :: c.mgr.mgr.made } }
    if err ≠ .kNormal then refuse c o param.id same err
    else
      let s := o.toMgr.execStart t h
      let o := { o with mgr := { o.mgr with engine := s.calls ++ o.mgr.engine } }
      if s.err ≠ .kNormal then refuse c o param.id "" s.err
      else match o.addTask param.id s.task with
        | (o, false) =>
          refuse c { o with mgr := (o.mgr.releaseTask s.task h.toAnswer).1 } param.id "" .kAddTaskFailed
        | (o', true) =>
          { mgr := o', needParse := c.needParse ++ [o.tasks.objects.length],
            reply := { c.reply with successList := c.reply.successList ++ [param.id] } }

def createLinkTask (o : ObjectMgr) (sourceList : List SourceData) (host : Nat → Host) (ω : Nat → Answer) :
    ObjectMgr × CreateReply :=
  let c := Lib.forEach execCreate { mgr := o } (sourceList.map (·.param)) host
  (Lib.forEach parseTask c.mgr c.needParse ω, c.reply)

/-! ## The values behind the pointers -/

/-- Two managers with the same tasks under the same ids, and the same other members. -/
structure Same (m m' : UserSelfMgr) : Prop where
  findTask : ∀ id, m'.findTask id = m.findTask id
  userId : m'.userId = m.userId
  userInfo : m'.userInfo = m.userInfo
  isBtAutoDownload : m'.isBtAutoDownload = m.isBtAutoDownload
  refs : m'.refs = m.refs
  engine : m'.engine = m.engine
  parseQueue : m'.parseQueue = m.parseQueue
  made : m'.made = m.made

variable {m m' : UserSelfMgr} {o : ObjectMgr} {id : String} {t : TaskBase} {n : Nat}

theorem Same.refl (m : UserSelfMgr) : Same m m := ⟨fun _ => rfl, rfl, rfl, rfl, rfl, rfl, rfl, rfl⟩

theorem Same.mem_keys (h : Same m m') (id : String) : id ∈ m'.taskList ↔ id ∈ m.taskList := by
  have hfind : m'.taskList.lookup id = m.taskList.lookup id := h.findTask id
  rw [← AList.lookup_isSome, ← AList.lookup_isSome, hfind]

theorem Same.isCanStart (h : Same m m') : m'.isCanStart = m.isCanStart := by
  have hnum : m'.downloadingTaskNum = m.downloadingTaskNum := by
    refine Lib.sumBy_congr h.mem_keys fun id => ?_
    rw [show m'.taskList.lookup id = m.taskList.lookup id from h.findTask id]
  have hlimit : m'.taskLimitCount = m.taskLimitCount := by
    rw [UserSelfMgr.taskLimitCount, UserSelfMgr.taskLimitCount, h.userInfo]
  rw [UserSelfMgr.isCanStart, UserSelfMgr.isCanStart, hnum, hlimit]

/-- A loop over the list meets the same ids in the same order. -/
theorem Same.taskIds (h : Same m m') : m'.taskIds = m.taskIds := by
  have hkeys : m'.taskList.keys.Perm m.taskList.keys :=
    (List.perm_ext_iff_of_nodup m'.taskList.keys_nodup m.taskList.keys_nodup).mpr h.mem_keys
  have hperm : m'.taskIds.Perm m.taskIds :=
    (List.perm_insertionSort _ _).trans (hkeys.trans (List.perm_insertionSort _ _).symm)
  exact hperm.eq_of_pairwise' (List.pairwise_insertionSort _ _) (List.pairwise_insertionSort _ _)

theorem Same.createTask (h : Same m m') (param : TaskParam) (host : Host) :
    m'.createTask param host = m.createTask param host := by
  have hexisted : ∀ p, m'.isTaskExisted p = m.isTaskExisted p := by
    intro p
    rw [UserSelfMgr.isTaskExisted, UserSelfMgr.isTaskExisted, h.taskIds, funext h.findTask]
  unfold UserSelfMgr.createTask
  simp only [h.findTask, hexisted]

theorem Same.execStart (h : Same m m') (t : TaskBase) (host : Host) : m'.execStart t host = m.execStart t host := by
  simp only [UserSelfMgr.execStart, UserSelfMgr.admitTorrent, UserSelfMgr.execNoneBt, h.isCanStart,
    h.isBtAutoDownload]

theorem Same.set (h : Same m o.toMgr) (hn : o.tasks.slots.lookup id = some n) (t : TaskBase) :
    Same (m.setTask id t) (o.set n t).toMgr := by
  refine { h with findTask := fun j => ?_ }
  rw [findTask_toMgr]
  by_cases hj : j = id
  · rw [hj, UserSelfMgr.findTask_setTask]
    exact Lib.Pointers.find_set hn t
  · rw [UserSelfMgr.findTask_setTask_ne m t hj, ← h.findTask, findTask_toMgr]
    exact Lib.Pointers.find_set_of_ne hn hj t

theorem Same.list (h : Same m o.toMgr) (id : String) (t : TaskBase) (calls : List EngineCall) (param : TaskParam) :
    Same (m.list id t calls param)
      (toMgr { mgr := { o.mgr with
                 refs := o.mgr.refs.addRef t.param.hash
                 engine := calls ++ o.mgr.engine
                 made := param :: o.mgr.made }
               tasks := o.tasks.add id t }) where
  findTask j := by
    rw [findTask_toMgr]
    by_cases hj : j = id
    · rw [hj, UserSelfMgr.findTask_list]
      exact Lib.Pointers.find_add ..
    · rw [UserSelfMgr.findTask_list_ne hj, ← h.findTask, findTask_toMgr]
      exact Lib.Pointers.find_add_of_ne _ _ hj
  userId := h.userId
  userInfo := h.userInfo
  isBtAutoDownload := h.isBtAutoDownload
  refs := congrArg (TaskRefCount.addRef · t.param.hash) h.refs
  engine := congrArg (calls ++ ·) h.engine
  parseQueue := h.parseQueue
  made := congrArg (param :: ·) h.made

theorem Same.onParseComplete (h : Same m o.toMgr) (msg : TaskBase.ParseMessage) (a : Answer) :
    Same (m.onParseComplete msg a) (o.onParseComplete msg a).toMgr := by
  have hfind : m.findTask msg.1 = o.tasks.find msg.1 := (h.findTask msg.1).symm.trans (o.findTask_toMgr msg.1)
  unfold UserSelfMgr.onParseComplete ObjectMgr.onParseComplete
  rw [hfind]
  cases hn : o.tasks.slots.lookup msg.1 with
  | none =>
    rw [Lib.Pointers.find, hn]
    exact h
  | some n =>
    obtain ⟨t, ht⟩ := Lib.Pointers.exists_get hn
    have hauto : o.mgr.isBtAutoDownload = m.isBtAutoDownload := h.isBtAutoDownload
    rw [Lib.Pointers.find_eq_get hn]
    dsimp only
    rw [ht]
    dsimp only
    rw [h.isCanStart, hauto]
    split
    · split
      · exact h.set hn _
      · exact h.set hn _
    · exact h.set hn _

theorem Same.parseTask (h : Same m o.toMgr) (hn : o.tasks.slots.lookup id = some n) (a : Answer) :
    Same (m.parseTask id a) (o.parseTask n a).toMgr := by
  have hfind : m.findTask id = o.tasks.find id := (h.findTask id).symm.trans (o.findTask_toMgr id)
  have huser : o.mgr.userId = m.userId := h.userId
  obtain ⟨t, ht⟩ := Lib.Pointers.exists_get hn
  unfold UserSelfMgr.parseTask ObjectMgr.parseTask
  rw [hfind, Lib.Pointers.find_eq_get hn, ht]
  dsimp only
  rw [huser]
  rcases t.parse m.userId a with ⟨t', _ | msg⟩
  · exact h.set hn t'
  · exact (h.set hn t').onParseComplete msg a

/-! ## No pointer is redirected -/

theorem lookup_onParseComplete (o : ObjectMgr) (msg : TaskBase.ParseMessage) (a : Answer) :
    (o.onParseComplete msg a).tasks.slots = o.tasks.slots := by
  unfold onParseComplete
  split
  · rfl
  · split
    · rfl
    · dsimp only
      split
      · split <;> rfl
      · rfl

theorem lookup_parseTask (o : ObjectMgr) (n : Nat) (a : Answer) :
    (o.parseTask n a).tasks.slots = o.tasks.slots := by
  unfold parseTask
  split
  · rfl
  · split
    · rfl
    · exact lookup_onParseComplete ..

/-- What a round of a create request can do: refuse the source and leave the list, or report it and
list a new object under its id, which was not listed. -/
inductive Batched (c : ObjectCreation) (id : String) : ObjectCreation → Prop
  | refused {mgr : UserSelfMgr} {entry : CreateFailedData} (hid : entry.taskId = id) :
    Batched c id
      { mgr := { c.mgr with mgr }, needParse := c.needParse,
        reply := { c.reply with failedList := c.reply.failedList ++ [entry] } }
  | listed {mgr : UserSelfMgr} {t : TaskBase} (hid : c.mgr.tasks.slots.lookup id = none) :
    Batched c id
      { mgr := { mgr, tasks := c.mgr.tasks.add id t }
        needParse := c.needParse ++ [c.mgr.tasks.objects.length]
        reply := { c.reply with successList := c.reply.successList ++ [id] } }

theorem execCreate_batched (c : ObjectCreation) (param : TaskParam) (h : Host) :
    Batched c param.id (execCreate c param h) := by
  unfold execCreate
  split
  · exact .refused rfl
  · dsimp only
    split
    · exact .refused rfl
    · split
      · exact .refused rfl
      · unfold addTask
        dsimp only
        cases hid : c.mgr.tasks.slots.lookup param.id with
        | some n => exact .refused rfl
        | none => exact .listed hid

/-! ## The request and its values -/

structure Simulates (c : ObjectCreation) (c' : UserSelfMgr.Creation) : Prop where
  mgr : Same c'.mgr c.mgr.toMgr
  needParse : List.Forall₂ (fun n id => c.mgr.tasks.slots.lookup id = some n) c.needParse c'.needParse
  reply : c.reply = c'.reply

theorem Simulates.execCreate {c : ObjectCreation} {c' : UserSelfMgr.Creation} (hc : Simulates c c') (param : TaskParam) (h : Host) :
    Simulates (execCreate c param h) (UserSelfMgr.execCreate c' param h) := by
  have hreply := hc.reply
  unfold ObjectMgr.execCreate UserSelfMgr.execCreate
  rw [hc.mgr.createTask param h]
  rcases hcreate : c'.mgr.createTask param h with ⟨_ | t, err, same⟩
  · exact ⟨hc.mgr, hc.needParse, by simp only [refuse, UserSelfMgr.Creation.refuse, hreply]⟩
  · dsimp only
    have hmade : Same { c'.mgr with made := t.param :: c'.mgr.made }
        (toMgr { c.mgr with mgr := { c.mgr.mgr with made := t.param :: c.mgr.mgr.made } }) :=
      { hc.mgr with made := congrArg (t.param :: ·) hc.mgr.made }
    rw [hmade.execStart t h]
    split
    · exact ⟨hmade, hc.needParse, by simp only [refuse, UserSelfMgr.Creation.refuse, hreply]⟩
    · generalize UserSelfMgr.execStart { c'.mgr with made := t.param :: c'.mgr.made } t h = s
      split
      · exact ⟨{ hmade with engine := congrArg (s.calls ++ ·) hc.mgr.engine }, hc.needParse,
          by simp only [refuse, UserSelfMgr.Creation.refuse, hreply]⟩
      · have hid : c'.mgr.findTask param.id = none := (UserSelfMgr.createTask_fresh hcreate).1
        have hslot : c.mgr.tasks.slots.lookup param.id = none := by
          rw [← hc.mgr.findTask, findTask_toMgr] at hid
          have hnone := c.mgr.tasks.isSome_find param.id
          rw [hid] at hnone
          exact Option.not_isSome_iff_eq_none.mp (by rw [← hnone]; decide)
        rw [UserSelfMgr.addTask_of_none hid, addTask]
        dsimp only
        rw [hslot]
        refine ⟨hc.mgr.list param.id s.task s.calls t.param, ?_, by simp only [hreply]⟩
        refine List.rel_append ?_ (.cons (Lib.Pointers.lookup_add ..) .nil)
        refine hc.needParse.imp fun n id hn => ?_
        refine (Lib.Pointers.lookup_add_of_ne _ _ ?_).trans hn
        rintro rfl
        rw [hslot] at hn
        cases hn

theorem forEach_simulates {c : ObjectCreation} {c' : UserSelfMgr.Creation} (hc : Simulates c c') (params : List TaskParam)
    (host : Nat → Host) :
    Simulates (Lib.forEach execCreate c params host) (Lib.forEach UserSelfMgr.execCreate c' params host) := by
  induction params generalizing c c' host with
  | nil => exact hc
  | cons param params ih => exact ih (hc.execCreate param (host 0)) _

theorem Same.forEach_parseTask {ns : List Nat} {ids : List String} (h : Same m o.toMgr)
    (hids : List.Forall₂ (fun n id => o.tasks.slots.lookup id = some n) ns ids) (ω : Nat → Answer) :
    Same (Lib.forEach UserSelfMgr.parseTask m ids ω) (Lib.forEach ObjectMgr.parseTask o ns ω).toMgr := by
  induction ns generalizing m o ids ω with
  | nil =>
    cases hids
    exact h
  | cons n ns ih =>
    cases hids with
    | cons hn hids =>
      refine ih (h.parseTask hn (ω 0)) ?_ _
      simpa only [lookup_parseTask] using hids

/-- The request does to the values what the model without pointers does, and gives the same reply. -/
theorem createLinkTask_same (o : ObjectMgr) (sourceList : List SourceData) (host : Nat → Host) (ω : Nat → Answer) :
    Same (o.toMgr.createLinkTask sourceList host ω).1 (o.createLinkTask sourceList host ω).1.toMgr ∧
      (o.createLinkTask sourceList host ω).2 = (o.toMgr.createLinkTask sourceList host ω).2 := by
  have hstart : Simulates { mgr := o } { mgr := o.toMgr } := ⟨.refl _, .nil, rfl⟩
  have hc := forEach_simulates hstart (sourceList.map (·.param)) host
  exact ⟨hc.mgr.forEach_parseTask hc.needParse ω, hc.reply⟩

/-! ## What the request reports -/

inductive Reported : List String → CreateReply → Prop
  | nil : Reported [] {}
  | success {ids : List String} {r : CreateReply} (h : Reported ids r) (id : String) :
    Reported (ids ++ [id]) { r with successList := r.successList ++ [id] }
  | failed {ids : List String} {r : CreateReply} (h : Reported ids r) (entry : CreateFailedData) :
    Reported (ids ++ [entry.taskId]) { r with failedList := r.failedList ++ [entry] }

/-- A request for sources with these ids has led from `o` to `o'` and this reply: the ids that it
reports as created are each reported once, were not listed before and are listed now, and the ids that
were listed before refer to the same objects. -/
structure Exact (o : ObjectMgr) (ids : List String) (o' : ObjectMgr) (r : CreateReply) : Prop where
  reported : Reported ids r
  keys : ∀ id, id ∈ o'.tasks.slots ↔ id ∈ o.tasks.slots ∨ id ∈ r.successList
  disjoint : ∀ id ∈ r.successList, id ∉ o.tasks.slots
  nodup : r.successList.Nodup
  object : ∀ id ∈ o.tasks.slots, o'.tasks.slots.lookup id = o.tasks.slots.lookup id

theorem Exact.start (o : ObjectMgr) : Exact o [] o {} where
  reported := .nil
  keys _ := (or_iff_left List.not_mem_nil).symm
  disjoint _ h := absurd h List.not_mem_nil
  nodup := .nil
  object _ _ := rfl

theorem Exact.step {ids : List String} {c c' : ObjectCreation} (h : Exact o ids c.mgr c.reply)
    (hc : Batched c id c') : Exact o (ids ++ [id]) c'.mgr c'.reply := by
  cases hc with
  | refused hid =>
    subst hid
    exact { h with reported := h.reported.failed _ }
  | @listed mgr t hid =>
    have hnew : id ∉ c.mgr.tasks.slots := AList.lookup_eq_none.mp hid
    have hboth : id ∉ o.tasks.slots ∧ id ∉ c.reply.successList := not_or.mp (mt (h.keys id).mpr hnew)
    constructor
    · exact h.reported.success id
    · intro j
      show j ∈ c.mgr.tasks.slots.insert id c.mgr.tasks.objects.length ↔ _
      rw [AList.mem_insert, h.keys, List.mem_append, List.mem_singleton]
      tauto
    · intro j hj
      rcases List.mem_append.mp hj with hj | hj
      · exact h.disjoint j hj
      · exact List.mem_singleton.mp hj ▸ hboth.1
    · exact h.nodup.append (List.nodup_singleton id) (List.disjoint_singleton.mpr hboth.2)
    · intro j hj
      have hne : j ≠ id := fun heq => hboth.1 (heq ▸ hj)
      exact (Lib.Pointers.lookup_add_of_ne _ _ hne).trans (h.object j hj)

theorem Exact.forEach_execCreate {ids : List String} {c : ObjectCreation} (h : Exact o ids c.mgr c.reply)
    (params : List TaskParam) (host : Nat → Host) :
    Exact o (ids ++ params.map (·.id)) (Lib.forEach execCreate c params host).mgr
      (Lib.forEach execCreate c params host).reply := by
  induction params generalizing ids c host with
  | nil => simpa using h
  | cons param params ih =>
    have hnext := ih (h.step (execCreate_batched c param (host 0))) fun k => host (k + 1)
    rwa [List.append_assoc] at hnext

end ObjectMgr

end Nas.Download
