import NasServices.Dlna.ScreenCastingMgr
import Mathlib.Data.List.Count

/-!
# The memory of the status queries

Every tick of the query timer asks the renderer of each task for its transport, its position
and its volume. Each of the three calls is given a task id of its own, made with `new`, and the
callback of its result takes it back as `userdata`. The result of a success goes to the work
thread, with a copy of the info that it came with, and there both objects are freed by
`unique_ptr`s, whether the task is still there or not. The result of a failure goes nowhere: the
callback returns before it looks at `userdata`.

`Accounted` says where each object is: with a call that waits for its result, in a closure posted to
the work thread, freed, or lost. `freed_once_iff` follows for every run that has come to rest.
-/

namespace Nas.Dlna

def nptFailed (res : Int) : Bool := res ≠ 0

inductive Query
  | transportInfo
  | positionInfo
  | volume
  deriving DecidableEq

structure QueryCall where
  query : Query
  userdata : Nat
  taskId : Nat
  deriving DecidableEq

structure QueryInfo where
  transportInfo : TransportInfo := {}
  positionInfo : PositionInfo := {}
  volume : Nat := 0
  deriving DecidableEq

structure PostedResult where
  call : QueryCall
  info : QueryInfo
  copy : Option Nat
  deriving DecidableEq

def PostedResult.objects (p : PostedResult) : List Nat := p.call.userdata :: p.copy.toList

structure StatusQueries where
  mgr : ScreenCastingMgr := {}
  waiting : List QueryCall := []
  posted : List PostedResult := []
  nextObject : Nat := 0
  /-- Objects that have been freed, one entry for each `delete`. -/
  freed : List Nat := []
  /-- Infos of a caller, no objects of their own, that a `unique_ptr` has freed nevertheless. -/
  callerFreed : Nat := 0
  /-- Not in the source: the codes of the results that have come. -/
  results : List Int := []
  deriving DecidableEq

inductive QueryEvent
  | timeingQueryTaskStatus
  | result (k : Nat) (res : Int) (onWorkThread : Bool) (info : QueryInfo)
  /-- The work thread runs the callback that was posted first. -/
  | runPosted
  | other (e : Event)
  deriving DecidableEq

namespace StatusQueries

variable (gurl : String → Gurl)

def queryTaskStatusInfo (q : StatusQueries) (task : ScreenCastingTask) : StatusQueries :=
  let n := q.nextObject
  { q with
    nextObject := n + 3
    waiting := q.waiting ++
      [⟨.transportInfo, n, task.id⟩, ⟨.positionInfo, n + 1, task.id⟩, ⟨.volume, n + 2, task.id⟩] }

def timeingQueryTaskStatus (q : StatusQueries) : StatusQueries := q.mgr.task.foldl queryTaskStatusInfo q

def setStatus (s : ScreenCastingMgr) (call : QueryCall) (info : QueryInfo) : ScreenCastingMgr :=
  match call.query with
  | .transportInfo => s.step gurl (.onGetTransportInfoResult call.taskId info.transportInfo)
  | .positionInfo => s.step gurl (.onGetPositionInfoResult call.taskId info.positionInfo)
  | .volume => s.step gurl (.onGetVolumeResult call.taskId info.volume)

/-- The callback of a success on the work thread: `unique_ptr`s free the task id and the info. -/
def onWorkThread (q : StatusQueries) (p : PostedResult) : StatusQueries :=
  { q with mgr := setStatus gurl q.mgr p.call p.info, freed := q.freed ++ p.objects }

def post (q : StatusQueries) (call : QueryCall) (info : QueryInfo) : StatusQueries :=
  match call.query with
  | .transportInfo | .positionInfo =>
    { q with nextObject := q.nextObject + 1, posted := q.posted ++ [⟨call, info, some q.nextObject⟩] }
  | .volume => { q with posted := q.posted ++ [⟨call, info, none⟩] }

def onResult (q : StatusQueries) (call : QueryCall) (res : Int) (onWork : Bool) (info : QueryInfo) :
    StatusQueries :=
  if nptFailed res then q
  else if !onWork then q.post call info
  else
    let q := q.onWorkThread gurl ⟨call, info, none⟩
    { q with callerFreed := if call.query = .volume then q.callerFreed else q.callerFreed + 1 }

def step (q : StatusQueries) : QueryEvent → StatusQueries
  | .timeingQueryTaskStatus => q.timeingQueryTaskStatus
  | .result k res onWork info =>
    match q.waiting[k]? with
    | none => q
    | some call =>
      { q with waiting := q.waiting.eraseIdx k, results := q.results ++ [res] }.onResult gurl call res onWork info
  | .runPosted =>
    match q.posted with
    | [] => q
    | p :: ps => { q with posted := ps }.onWorkThread gurl p
  | .other e => { q with mgr := q.mgr.step gurl e }

def places (q : StatusQueries) (x : Nat) : Nat :=
  (q.waiting.map QueryCall.userdata).count x + (q.posted.flatMap PostedResult.objects).count x + q.freed.count x

/-- Every object that has been made is in one place or lost, and every failure has lost one. -/
def Accounted (q : StatusQueries) : Prop :=
  ∃ lost : List Nat, lost.length = q.results.countP nptFailed ∧
    ∀ x, q.places x + lost.count x = (List.range q.nextObject).count x

variable {gurl} {q : StatusQueries}

/-- A step in which nothing is lost: every object that is new, and no other, has one place more. -/
theorem Accounted.move {q' : StatusQueries} (h : q.Accounted)
    (hresults : q'.results.countP nptFailed = q.results.countP nptFailed)
    (hmove : ∀ x, q'.places x + (List.range q.nextObject).count x =
      q.places x + (List.range q'.nextObject).count x) : q'.Accounted := by
  obtain ⟨lost, hlen, hcount⟩ := h
  refine ⟨lost, hlen.trans hresults.symm, fun x => ?_⟩
  have hx := hcount x
  have hm := hmove x
  omega

theorem Accounted.queryTaskStatusInfo (h : q.Accounted) (task : ScreenCastingTask) :
    (q.queryTaskStatusInfo task).Accounted := by
  refine h.move rfl fun x => ?_
  set n := q.nextObject
  have hwaiting : ((q.queryTaskStatusInfo task).waiting.map QueryCall.userdata) =
      q.waiting.map QueryCall.userdata ++ ([n] ++ [n + 1] ++ [n + 2]) := by
    simp only [StatusQueries.queryTaskStatusInfo, List.map_append]
    rfl
  have hmade : List.range (q.queryTaskStatusInfo task).nextObject =
      List.range n ++ [n] ++ [n + 1] ++ [n + 2] := by
    show List.range (n + 3) = _
    rw [List.range_succ, List.range_succ, List.range_succ]
  simp only [places, hwaiting, hmade, List.count_append]
  simp only [StatusQueries.queryTaskStatusInfo]
  omega

theorem Accounted.timeingQueryTaskStatus (h : q.Accounted) : q.timeingQueryTaskStatus.Accounted := by
  unfold StatusQueries.timeingQueryTaskStatus
  generalize q.mgr.task = tasks
  induction tasks generalizing q with
  | nil => exact h
  | cons task tasks ih => exact ih (h.queryTaskStatusInfo task)

theorem count_eraseIdx {k : Nat} {call : QueryCall} (h : q.waiting[k]? = some call) (x : Nat) :
    (q.waiting.map QueryCall.userdata).count x =
      ((q.waiting.eraseIdx k).map QueryCall.userdata).count x + [call.userdata].count x := by
  obtain ⟨hk, hget⟩ := List.getElem?_eq_some_iff.mp h
  have hperm := (List.getElem_cons_eraseIdx_perm hk).map QueryCall.userdata
  rw [← hperm.count_eq x, hget, List.map_cons, ← List.singleton_append, List.count_append, Nat.add_comm]

theorem count_objects (p : PostedResult) (x : Nat) :
    p.objects.count x = [p.call.userdata].count x + p.copy.toList.count x := by
  rw [PostedResult.objects, ← List.singleton_append, List.count_append]

theorem places_onWorkThread (gurl : String → Gurl) (q : StatusQueries) (p : PostedResult) (x : Nat) :
    (q.onWorkThread gurl p).places x = q.places x + p.objects.count x := by
  simp only [places, onWorkThread, List.count_append]
  omega

/-- Posting makes at most the copy, and the closure owns it and the task id. -/
theorem places_post (q : StatusQueries) (call : QueryCall) (info : QueryInfo) (x : Nat) :
    (q.post call info).places x + (List.range q.nextObject).count x =
      q.places x + [call.userdata].count x + (List.range (q.post call info).nextObject).count x := by
  have hcopy : (List.range (q.nextObject + 1)).count x =
      (List.range q.nextObject).count x + [q.nextObject].count x := by
    rw [List.range_succ, List.count_append]
  unfold post
  cases call.query with
  | transportInfo | positionInfo =>
    simp only [places, List.flatMap_append, List.flatMap_singleton, List.count_append, count_objects,
      Option.toList_some, hcopy]
    omega
  | volume =>
    simp only [places, List.flatMap_append, List.flatMap_singleton, List.count_append, count_objects,
      Option.toList_none, List.count_nil]
    omega

theorem post_results (q : StatusQueries) (call : QueryCall) (info : QueryInfo) :
    (q.post call info).results = q.results := by
  unfold post
  cases call.query <;> rfl

def answered (q : StatusQueries) (k : Nat) (res : Int) : StatusQueries :=
  { q with waiting := q.waiting.eraseIdx k, results := q.results ++ [res] }

theorem places_answered {k : Nat} {call : QueryCall} (hk : q.waiting[k]? = some call) (res : Int) (x : Nat) :
    (q.answered k res).places x + [call.userdata].count x = q.places x := by
  have herase := count_eraseIdx hk x
  simp only [places, answered] at herase ⊢
  omega

theorem countP_answered (q : StatusQueries) (k : Nat) (res : Int) :
    (q.answered k res).results.countP nptFailed =
      q.results.countP nptFailed + if nptFailed res then 1 else 0 := by
  rw [answered, List.countP_append, List.countP_singleton]

theorem Accounted.failed (h : q.Accounted) {k : Nat} {call : QueryCall} (hk : q.waiting[k]? = some call)
    {res : Int} (hfailed : nptFailed res = true) : (q.answered k res).Accounted := by
  obtain ⟨lost, hlen, hcount⟩ := h
  refine ⟨lost ++ [call.userdata], ?_, fun x => ?_⟩
  · rw [List.length_append, hlen, countP_answered, if_pos hfailed, List.length_singleton]
  · rw [List.count_append]
    have hx := hcount x
    have htaken := places_answered hk res x
    show _ = (List.range q.nextObject).count x
    omega

/-- A result: the object of its call is freed, goes to the work thread or is lost with the failure. -/
theorem Accounted.result (h : q.Accounted) {k : Nat} {call : QueryCall} (hk : q.waiting[k]? = some call)
    (res : Int) (onWork : Bool) (info : QueryInfo) :
    ((q.answered k res).onResult gurl call res onWork info).Accounted := by
  unfold onResult
  by_cases hfailed : nptFailed res = true
  · rw [if_pos hfailed]
    exact h.failed hk hfailed
  rw [if_neg hfailed]
  have hresults := countP_answered q k res
  rw [if_neg hfailed, Nat.add_zero] at hresults
  cases onWork with
  | false =>
    refine h.move (by simpa only [Bool.not_false, if_true, post_results] using hresults) fun x => ?_
    have hpost := places_post (q.answered k res) call info x
    have htaken := places_answered hk res x
    simp only [Bool.not_false, if_true]
    rw [show (q.answered k res).nextObject = q.nextObject from rfl] at hpost
    omega
  | true =>
    refine h.move hresults fun x => ?_
    have hdone : ((q.answered k res).onWorkThread gurl ⟨call, info, none⟩).places x =
        (q.answered k res).places x + [call.userdata].count x := by
      rw [places_onWorkThread, count_objects, Option.toList_none, List.count_nil, Nat.add_zero]
    rw [places_answered hk] at hdone
    exact congrArg (· + _) hdone

theorem Accounted.runPosted (h : q.Accounted) {p : PostedResult} {ps : List PostedResult}
    (hposted : q.posted = p :: ps) : ({ q with posted := ps }.onWorkThread gurl p).Accounted := by
  refine h.move rfl fun x => ?_
  have hdone := places_onWorkThread gurl { q with posted := ps } p x
  simp only [places, hposted, List.flatMap_cons, List.count_append] at hdone ⊢
  show _ + _ = _ + (List.range q.nextObject).count x
  omega

theorem step_accounted (q : StatusQueries) (e : QueryEvent) (h : q.Accounted) : (q.step gurl e).Accounted := by
  cases e with
  | timeingQueryTaskStatus => exact h.timeingQueryTaskStatus
  | result k res onWork info =>
    simp only [step]
    cases hk : q.waiting[k]? with
    | none => exact h
    | some call => exact h.result hk res onWork info
  | runPosted =>
    simp only [step]
    cases hposted : q.posted with
    | nil => exact h
    | cons p ps => exact h.runPosted hposted
  | other e => exact h

theorem run_accounted (mgr : ScreenCastingMgr) (es : List QueryEvent) :
    (Lib.run (step gurl) { mgr := mgr } es).Accounted :=
  Lib.run_keep step_accounted ⟨[], rfl, fun _ => rfl⟩ es

def AtRest (q : StatusQueries) : Prop := q.waiting = [] ∧ q.posted = []

instance (q : StatusQueries) : Decidable q.AtRest := inferInstanceAs (Decidable (_ ∧ _))

/-- At rest, what is not freed is lost. -/
theorem Accounted.atRest (h : q.Accounted) (hrest : q.AtRest) :
    (∀ x < q.nextObject, q.freed.count x = 1) ↔ ∀ res ∈ q.results, nptFailed res = false := by
  obtain ⟨lost, hlen, hcount⟩ := h
  have hfreed : ∀ x, q.freed.count x + lost.count x = (List.range q.nextObject).count x := by
    intro x
    have hx := hcount x
    rw [places, hrest.1, hrest.2] at hx
    simpa using hx
  have hmade : ∀ x < q.nextObject, (List.range q.nextObject).count x = 1 := fun x hx =>
    List.count_eq_one_of_mem List.nodup_range (List.mem_range.mpr hx)
  have hnone : (∀ res ∈ q.results, nptFailed res = false) ↔ lost = [] := by
    rw [← List.length_eq_zero_iff, hlen, List.countP_eq_zero]
    simp only [Bool.not_eq_true]
  rw [hnone]
  constructor
  · intro hall
    refine List.eq_nil_iff_forall_not_mem.mpr fun x hx => ?_
    have hpos : 0 < lost.count x := List.count_pos_iff.mpr hx
    have hmem : x ∈ List.range q.nextObject := by
      rw [← List.count_pos_iff, ← hfreed x]
      omega
    have hlt := List.mem_range.mp hmem
    have heq := hfreed x
    rw [hall x hlt, hmade x hlt] at heq
    omega
  · rintro rfl x hx
    have heq := hfreed x
    rw [hmade x hx] at heq
    simpa using heq

/-- For every run that has come to rest, with query ticks, results and anything else in any order: every task
id and every copied info has been freed exactly once, exactly when no result was a failure. -/
theorem freed_once_iff (gurl : String → Gurl) (mgr : ScreenCastingMgr) (es : List QueryEvent)
    (hrest : (Lib.run (step gurl) { mgr := mgr } es).AtRest) :
    (∀ x < (Lib.run (step gurl) { mgr := mgr } es).nextObject,
        (Lib.run (step gurl) { mgr := mgr } es).freed.count x = 1) ↔
      ∀ res ∈ (Lib.run (step gurl) { mgr := mgr } es).results, nptFailed res = false :=
  (run_accounted mgr es).atRest hrest

def oneCast : ScreenCastingMgr :=
  { task := [{ id := 0, playUrl := "http://nas/a.mp4", mediaRenderes := ⟨"tv", "10.0.0.2"⟩ }] }

/-- Three results without a failure; the task is gone before the last one comes. -/
def gonePlaying : List QueryEvent :=
  [.timeingQueryTaskStatus, .result 1 0 false {}, .result 0 0 false {}, .runPosted,
    .other (.connStausCallback 0 0), .result 0 0 false {}, .runPosted, .runPosted]

theorem freed_once_success :
    (Lib.run (step Gurl.ofHttp) { mgr := oneCast } gonePlaying).nextObject = 5 ∧
      (Lib.run (step Gurl.ofHttp) { mgr := oneCast } gonePlaying).freed.count 2 = 1 := by
  have hall := (freed_once_iff Gurl.ofHttp oneCast gonePlaying (by decide +kernel)).mpr (by decide +kernel)
  have hnext : (Lib.run (step Gurl.ofHttp) { mgr := oneCast } gonePlaying).nextObject = 5 := by
    decide +kernel
  exact ⟨hnext, hall 2 (by rw [hnext]; decide)⟩

/-- The renderer cannot be reached: of the three task ids of a tick none is ever freed. -/
theorem failed_results_leak :
    let q := Lib.run (step Gurl.ofHttp) { mgr := oneCast }
      [.timeingQueryTaskStatus, .result 0 (-1) false {}, .result 0 (-1) false {}, .result 0 (-1) false {}]
    q.AtRest ∧ q.nextObject = 3 ∧ q.freed = [] := by
  decide +kernel

end StatusQueries

end Nas.Dlna
