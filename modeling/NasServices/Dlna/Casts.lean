import NasServices.Dlna.ScreenCastingMgr

/-!
# What holds of every cast

`step_task` says once what a step does to the task map: a task after the step is
the new one of a `createTask`, or a task before the step under one `Update`. What
every task keeps follows from that. `Effect` says the same of the tasks and the callbacks
together. The results are about the callbacks of the requests (`run_answered`), a changed
play url (`run_changed_reported`) and several tasks on one renderer (`oneCast_iff`).
-/

namespace Nas.Dlna

open Lib

namespace ScreenCastingMgr

variable {gurl : String → Gurl} {s : ScreenCastingMgr} {t t' : ScreenCastingTask} {e : Event}

/-! ## What a step does to a task -/

inductive Update (gurl : String → Gurl) : Event → ScreenCastingTask → ScreenCastingTask → Prop
  | same {e : Event} {t : ScreenCastingTask} : Update gurl e t t
  | changed {u : String} {t : ScreenCastingTask} :
    Update gurl (.changeTaskPlayUrl t.id u) t (t.changePlayUrl u)
  | started {k : Nat} {succ : Bool} {t : ScreenCastingTask} :
    Update gurl (.onSetAVTransportURIResult k succ) t { t with startCallback := none }
  | position {info : PositionInfo} {t : ScreenCastingTask} :
    Update gurl (.onGetPositionInfoResult t.id info) t (t.setPositionInfo info)
  | transport {info : TransportInfo} {t : ScreenCastingTask} :
    Update gurl (.onGetTransportInfoResult t.id info) t (t.setTransportInfo info)
  | volume {v : Nat} {t : ScreenCastingTask} : Update gurl (.onGetVolumeResult t.id v) t (t.setVolume v)
  | notified {t : ScreenCastingTask} : Update gurl .timeingPushTaskStatus t (t.notifyStatusInfo gurl).1

def newTask (s : ScreenCastingMgr) (playUrl : String) (device : Device) : ScreenCastingTask :=
  { id := s.nextGuid, playUrl := playUrl, mediaRenderes := device, startCallback := some s.nextRequest }

theorem Update.id_eq (h : Update gurl e t t') : t'.id = t.id := by
  cases h with
  | notified =>
    obtain ⟨n, c, hn⟩ := t.notifyStatusInfo_fst gurl
    rw [hn]
  | _ => rfl

theorem mem_modifyTask {id : Nat} {f : ScreenCastingTask → ScreenCastingTask}
    (h : t' ∈ (s.modifyTask id f).task) : ∃ t ∈ s.task, t' = t ∨ (t.id = id ∧ t' = f t) :=
  Keyed.mem_modify h

theorem mem_removeTask {id : Nat} : t ∈ (s.removeTask id).task ↔ t ∈ s.task ∧ t.id ≠ id := Keyed.mem_delete

theorem mem_createTask {deviceId playUrl : String} (h : t' ∈ (s.createTask gurl deviceId playUrl).task) :
    (∃ u device, t' = s.newTask u device) ∨ t' ∈ s.task := by
  simp only [createTask] at h
  split at h
  · exact .inr h
  · rename_i device _
    rcases Keyed.mem_add h with h | rfl
    · exact .inr h
    · exact .inl ⟨_, device, rfl⟩

theorem mem_onStart {t₀ : ScreenCastingTask} {succ : Bool} (h : t' ∈ (s.onStart t₀ succ).task) :
    ∃ t ∈ s.task, t' = t ∨ t' = { t with startCallback := none } := by
  unfold onStart at h
  split at h
  · exact ⟨t', h, .inl rfl⟩
  · obtain ⟨t, ht, rfl | ⟨-, rfl⟩⟩ := mem_modifyTask h
    · exact ⟨_, ht, .inl rfl⟩
    · exact ⟨t, ht, .inr rfl⟩

theorem mem_timeingPushTaskStatus (h : t' ∈ (s.timeingPushTaskStatus gurl).task) :
    ∃ t ∈ s.task, t' = t ∨ t' = (t.notifyStatusInfo gurl).1 := by
  unfold timeingPushTaskStatus at h
  split at h
  · exact ⟨t', h, .inl rfl⟩
  · split at h
    · exact ⟨t', h, .inl rfl⟩
    · obtain ⟨t, ht, hf⟩ := List.mem_filterMap.mp h
      split at hf
      · cases hf
      · exact ⟨t, ht, .inr (Option.some.inj hf).symm⟩

structure Alike (s s' : ScreenCastingMgr) : Prop where
  nextGuid : s'.nextGuid = s.nextGuid
  nextRequest : s'.nextRequest = s.nextRequest
  task : s'.task = s.task
  replies : s'.replies = s.replies

theorem onStart_alike (s : ScreenCastingMgr) (t : ScreenCastingTask) (succ : Bool) (requests : List (Option Nat)) :
    Alike (s.onStart t succ) ({ s with setRequests := requests }.onStart t succ) := by
  unfold onStart
  split <;> exact ⟨rfl, rfl, rfl, rfl⟩

/-- What an event other than a request for a new cast does to the tasks and the callbacks. -/
inductive Effect (gurl : String → Gurl) (s : ScreenCastingMgr) : Event → ScreenCastingMgr → Prop
  | kept {e s'} (h : Alike s s') : Effect gurl s e s'
  | modified {e s' id f} (h : Alike (s.modifyTask id f) s') (hf : ∀ t, t.id = id → Update gurl e t (f t))
    (hid : ∀ t, (f t).id = t.id) (hc : ∀ t, (f t).startCallback = t.startCallback) : Effect gurl s e s'
  | started {k t s'} (ht : s.findTask t.id = some t) (h : Alike (s.onStart t true) s') :
    Effect gurl s (.onSetAVTransportURIResult k true) s'
  | failed {k t s'} (ht : s.findTask t.id = some t) (h : Alike ((s.onStart t false).removeTask t.id) s') :
    Effect gurl s (.onSetAVTransportURIResult k false) s'
  | stopped {k succ id s'} (hid : s.stopRequests[k]? = some id) (h : Alike (s.removeTask id) s') :
    Effect gurl s (.onStopResult k succ) s'
  | closed {id} : Effect gurl s (.connStausCallback id 0) (s.removeTask id)
  | pushed : Effect gurl s .timeingPushTaskStatus (s.timeingPushTaskStatus gurl)

theorem step_effect (h : ∀ deviceId playUrl, e ≠ .createTask deviceId playUrl) :
    Effect gurl s e (step gurl s e) := by
  cases e with
  | createTask deviceId playUrl => exact absurd rfl (h deviceId playUrl)
  | cancelTask id =>
    simp only [step, cancelTask]
    split <;> exact .kept ⟨rfl, rfl, rfl, rfl⟩
  | changeTaskPlayUrl id playUrl =>
    simp only [step, changeTaskPlayUrl]
    split
    · exact .kept ⟨rfl, rfl, rfl, rfl⟩
    · exact .modified (f := (·.changePlayUrl playUrl)) ⟨rfl, rfl, rfl, rfl⟩ (fun _ hid => hid ▸ .changed)
        (fun _ => rfl) fun _ => rfl
  | onSetAVTransportURIResult k succ =>
    simp only [step, onSetAVTransportURIResult]
    split
    · exact .kept ⟨rfl, rfl, rfl, rfl⟩
    · rename_i t ht
      obtain ⟨id, -, hfind⟩ := Option.bind_eq_some_iff.mp ht
      have hlisted : s.findTask t.id = some t := Keyed.key_of_find hfind ▸ hfind
      have halike := onStart_alike s t succ (s.setRequests.eraseIdx k)
      cases succ with
      | true => exact .started hlisted ⟨halike.nextGuid, halike.nextRequest, halike.task, halike.replies⟩
      | false =>
        refine .failed hlisted ⟨halike.nextGuid, halike.nextRequest, ?_, halike.replies⟩
        exact congrArg (Keyed.delete ScreenCastingTask.id · t.id) halike.task
  | onStopResult k succ =>
    simp only [step, onStopResult]
    split
    · exact .kept ⟨rfl, rfl, rfl, rfl⟩
    · rename_i t ht
      obtain ⟨id, hid, hfind⟩ := Option.bind_eq_some_iff.mp ht
      obtain rfl : t.id = id := Keyed.key_of_find hfind
      exact .stopped hid ⟨rfl, rfl, rfl, rfl⟩
  | onGetPositionInfoResult id info =>
    exact .modified (f := (·.setPositionInfo info)) ⟨rfl, rfl, rfl, rfl⟩ (fun _ hid => hid ▸ .position)
      (fun _ => rfl) fun _ => rfl
  | onGetTransportInfoResult id info =>
    exact .modified (f := (·.setTransportInfo info)) ⟨rfl, rfl, rfl, rfl⟩ (fun _ hid => hid ▸ .transport)
      (fun _ => rfl) fun _ => rfl
  | onGetVolumeResult id volume =>
    exact .modified (f := (·.setVolume volume)) ⟨rfl, rfl, rfl, rfl⟩ (fun _ hid => hid ▸ .volume)
      (fun _ => rfl) fun _ => rfl
  | connStausCallback id connCount =>
    simp only [step, connStausCallback]
    split
    · rename_i hzero
      exact hzero ▸ .closed
    · exact .kept ⟨rfl, rfl, rfl, rfl⟩
  | startTaskTimer =>
    simp only [step, startTaskTimer]
    split <;> exact .kept ⟨rfl, rfl, rfl, rfl⟩
  | timeingPushTaskStatus => exact .pushed
  | cancelAllTask | onGetProtocolInfoResult | onMRRemoved => exact .kept ⟨rfl, rfl, rfl, rfl⟩

theorem Effect.exists_update {s' : ScreenCastingMgr} (h : Effect gurl s e s') (ht' : t' ∈ s'.task) :
    ∃ t ∈ s.task, Update gurl e t t' := by
  cases h with
  | kept h => exact ⟨t', h.task ▸ ht', .same⟩
  | modified h hf =>
    obtain ⟨t, ht, rfl | ⟨hid, rfl⟩⟩ := mem_modifyTask (h.task ▸ ht')
    · exact ⟨_, ht, .same⟩
    · exact ⟨t, ht, hf t hid⟩
  | started _ h =>
    obtain ⟨t, ht, rfl | rfl⟩ := mem_onStart (h.task ▸ ht')
    · exact ⟨_, ht, .same⟩
    · exact ⟨t, ht, .started⟩
  | failed _ h =>
    obtain ⟨t, ht, rfl | rfl⟩ := mem_onStart (mem_removeTask.mp (h.task ▸ ht')).1
    · exact ⟨_, ht, .same⟩
    · exact ⟨t, ht, .started⟩
  | stopped _ h => exact ⟨t', (mem_removeTask.mp (h.task ▸ ht')).1, .same⟩
  | closed => exact ⟨t', (mem_removeTask.mp ht').1, .same⟩
  | pushed =>
    obtain ⟨t, ht, rfl | rfl⟩ := mem_timeingPushTaskStatus ht'
    · exact ⟨_, ht, .same⟩
    · exact ⟨t, ht, .notified⟩

theorem step_task (h : t' ∈ (step gurl s e).task) :
    (∃ u device, t' = s.newTask u device) ∨ ∃ t ∈ s.task, Update gurl e t t' := by
  by_cases he : ∃ deviceId playUrl, e = .createTask deviceId playUrl
  · obtain ⟨deviceId, playUrl, rfl⟩ := he
    exact (mem_createTask h).imp id fun h => ⟨t', h, .same⟩
  · exact .inr ((step_effect fun d u heq => he ⟨d, u, heq⟩).exists_update h)

/-- A predicate of tasks that new tasks have and updates keep holds of all tasks after a step. -/
theorem step_forall {P : ScreenCastingTask → Prop} (hs : ∀ t ∈ s.task, P t)
    (hnew : ∀ u device, P (s.newTask u device)) (hup : ∀ t t', Update gurl e t t' → P t → P t') :
    ∀ t ∈ (step gurl s e).task, P t := by
  intro t' ht'
  rcases step_task ht' with ⟨u, device, rfl⟩ | ⟨t, ht, hupd⟩
  · exact hnew u device
  · exact hup t t' hupd (hs t ht)

/-! ## Where a callback is -/

/-- The number of places in which the callback of request `r` is: the runs of it, and
the tasks that hold it. -/
def places (s : ScreenCastingMgr) (r : Nat) : Nat :=
  s.replies.countP (·.request = r) + s.task.countP (·.startCallback = some r)

structure Frame (s s' : ScreenCastingMgr) : Prop where
  nextGuid : s'.nextGuid = s.nextGuid
  nextRequest : s'.nextRequest = s.nextRequest
  keys : (s'.task.map ScreenCastingTask.id).Sublist (s.task.map ScreenCastingTask.id)
  places_le : ∀ r, s'.places r ≤ s.places r

theorem Alike.frame {s s' : ScreenCastingMgr} (h : Alike s s') : Frame s s' :=
  ⟨h.nextGuid, h.nextRequest, by rw [h.task], fun r => by rw [places, places, h.task, h.replies]⟩

theorem Frame.trans {s₁ s₂ s₃ : ScreenCastingMgr} (h : Frame s₁ s₂) (h' : Frame s₂ s₃) : Frame s₁ s₃ :=
  ⟨h'.nextGuid.trans h.nextGuid, h'.nextRequest.trans h.nextRequest, h'.keys.trans h.keys,
    fun r => (h'.places_le r).trans (h.places_le r)⟩

theorem keys_modify (ts : List ScreenCastingTask) (id : Nat) {f : ScreenCastingTask → ScreenCastingTask}
    (hf : ∀ t, (f t).id = t.id) :
    (Keyed.modify ScreenCastingTask.id ts id f).map ScreenCastingTask.id =
      ts.map ScreenCastingTask.id := by
  rw [Keyed.modify, List.map_map]
  refine List.map_congr_left fun t _ => ?_
  show (if t.id = id then f t else t).id = t.id
  split
  · exact hf t
  · rfl

theorem modifyTask_frame (s : ScreenCastingMgr) (id : Nat) (f : ScreenCastingTask → ScreenCastingTask)
    (hf : ∀ t, (f t).id = t.id) (hc : ∀ t, (f t).startCallback = t.startCallback) :
    Frame s (s.modifyTask id f) where
  nextGuid := rfl
  nextRequest := rfl
  keys := by
    show ((Keyed.modify ScreenCastingTask.id s.task id f).map _).Sublist _
    rw [keys_modify s.task id hf]
  places_le r := by
    show _ + (Keyed.modify ScreenCastingTask.id s.task id f).countP _ ≤ _
    rw [Keyed.countP_modify fun t => by rw [hc]]
    exact Nat.le_refl _

theorem removeTask_frame (s : ScreenCastingMgr) (id : Nat) : Frame s (s.removeTask id) where
  nextGuid := rfl
  nextRequest := rfl
  keys := List.filter_sublist.map _
  places_le _ := Nat.add_le_add_left (Keyed.countP_delete_le s.task id) _

/-- The callback that a result runs moves from its task to the replies. -/
theorem onStart_frame (h : s.findTask t.id = some t) (succ : Bool) : Frame s (s.onStart t succ) := by
  unfold onStart
  split
  · exact Alike.frame ⟨rfl, rfl, rfl, rfl⟩
  · rename_i request hq
    refine ⟨rfl, rfl, ?_, fun r => ?_⟩
    · exact (keys_modify s.task t.id (f := fun t => { t with startCallback := none }) fun _ => rfl) ▸
        List.Sublist.refl _
    · have hclear := Keyed.countP_modify_clear ScreenCastingTask.id
        (f := fun t => { t with startCallback := none })
        (p := fun t => decide (t.startCallback = some r)) (fun _ => by simp) s.task t.id
      rw [show Keyed.find ScreenCastingTask.id s.task t.id = some t from h] at hclear
      simp only [Option.any_some, hq, Option.some.injEq] at hclear
      show (s.replies ++ [_]).countP _ + (Keyed.modify ScreenCastingTask.id s.task t.id _).countP _ ≤ _
      rw [List.countP_append, List.countP_singleton]
      have hreq : (if succ then (⟨request, some t.id, .success⟩ : Reply)
          else ⟨request, none, .createScreenCastingFailed⟩).request = request := by
        split <;> rfl
      rw [hreq]
      simp only [places, decide_eq_true_eq] at hclear ⊢
      omega

theorem notifyStatusInfo_id (t : ScreenCastingTask) : (t.notifyStatusInfo gurl).1.id = t.id :=
  (Update.notified : Update gurl _ t _).id_eq

theorem notifyStatusInfo_startCallback (t : ScreenCastingTask) :
    (t.notifyStatusInfo gurl).1.startCallback = t.startCallback := by
  obtain ⟨n, c, hn⟩ := t.notifyStatusInfo_fst gurl
  rw [hn]

theorem timeingPushTaskStatus_frame (s : ScreenCastingMgr) : Frame s (s.timeingPushTaskStatus gurl) := by
  unfold timeingPushTaskStatus
  split
  · exact Alike.frame ⟨rfl, rfl, rfl, rfl⟩
  · split
    · exact Alike.frame ⟨rfl, rfl, rfl, rfl⟩
    · refine ⟨rfl, rfl, ?_, fun r => Nat.add_le_add_left ?_ _⟩
      · show (List.map _ (s.task.filterMap _)).Sublist _
        induction s.task with
        | nil => exact .slnil
        | cons t ts ih =>
          rw [List.filterMap_cons]
          split
          · exact ih.cons _
          · rename_i t' ht'
            split at ht'
            · cases ht'
            · obtain rfl := Option.some.inj ht'
              rw [List.map_cons, List.map_cons, notifyStatusInfo_id]
              exact ih.cons_cons _
      · rw [List.countP_filterMap]
        refine List.countP_mono_left fun t _ h => ?_
        by_cases he : (t.notifyStatusInfo gurl).2 = true
        · simp [he] at h
        · simpa [he, notifyStatusInfo_startCallback] using h

theorem Effect.frame {s' : ScreenCastingMgr} (h : Effect gurl s e s') : Frame s s' := by
  cases h with
  | kept h => exact h.frame
  | modified h _ hid hc => exact (modifyTask_frame s _ _ hid hc).trans h.frame
  | started ht h => exact (onStart_frame ht true).trans h.frame
  | failed ht h => exact ((onStart_frame ht false).trans (removeTask_frame ..)).trans h.frame
  | stopped _ h => exact (removeTask_frame ..).trans h.frame
  | closed => exact removeTask_frame ..
  | pushed => exact timeingPushTaskStatus_frame s

/-- The task map has one entry per id, ids and requests are given out once, and no
callback is in two places. -/
structure Sound (s : ScreenCastingMgr) : Prop where
  nodup : (s.task.map ScreenCastingTask.id).Nodup
  given : ∀ t ∈ s.task, t.id < s.nextGuid
  once : ∀ r, s.places r ≤ 1
  unused : ∀ r, s.nextRequest ≤ r → s.places r = 0

theorem Sound.frame {s' : ScreenCastingMgr} (hs : Sound s) (h : Frame s s') : Sound s' where
  nodup := hs.nodup.sublist h.keys
  given t' ht' := by
    obtain ⟨t, ht, hid⟩ := List.mem_map.mp (h.keys.subset (List.mem_map_of_mem ht'))
    rw [← hid, h.nextGuid]
    exact hs.given t ht
  once r := (h.places_le r).trans (hs.once r)
  unused r hr := by
    have hle := h.places_le r
    rw [hs.unused r (h.nextRequest ▸ hr)] at hle
    omega

theorem Sound.notListed (hs : Sound s) {t : ScreenCastingTask} (ht : t.id = s.nextGuid) :
    Keyed.find ScreenCastingTask.id s.task t.id = none := by
  rw [← Option.not_isSome_iff_eq_none, Keyed.find_isSome_iff]
  rintro ⟨t', ht', hid⟩
  have := hs.given t' ht'
  omega

theorem createTask_places (hs : Sound s) (deviceId playUrl : String) (r : Nat) :
    (s.createTask gurl deviceId playUrl).places r = s.places r + if s.nextRequest = r then 1 else 0 := by
  simp only [createTask, places]
  split
  · rw [List.countP_append, List.countP_singleton]
    simp only [decide_eq_true_eq]
    omega
  · rw [Keyed.countP_add (hs.notListed rfl)]
    simp only [ScreenCastingTask.start, Option.some.injEq, decide_eq_true_eq]
    omega

theorem createTask_nextRequest (s : ScreenCastingMgr) (deviceId playUrl : String) :
    (s.createTask gurl deviceId playUrl).nextRequest = s.nextRequest + 1 := by
  simp only [createTask]
  split <;> rfl

theorem createTask_sound (hs : Sound s) (deviceId playUrl : String) :
    Sound (s.createTask gurl deviceId playUrl) where
  nodup := by
    simp only [createTask]
    split
    · exact hs.nodup
    · exact Keyed.nodup_add hs.nodup _
  given := by
    simp only [createTask]
    split
    · exact hs.given
    · intro t ht
      show t.id < s.nextGuid + 1
      rcases Keyed.mem_add ht with ht | rfl
      · exact Nat.lt_succ_of_lt (hs.given t ht)
      · exact Nat.lt_succ_self _
  once r := by
    rw [createTask_places hs]
    have hle := hs.once r
    split
    · rename_i hr
      have := hs.unused r (Nat.le_of_eq hr)
      omega
    · omega
  unused r hr := by
    rw [createTask_nextRequest] at hr
    rw [createTask_places hs, hs.unused r (by omega), if_neg (by omega)]

theorem step_sound (s : ScreenCastingMgr) (e : Event) (hs : Sound s) : Sound (step gurl s e) := by
  by_cases h : ∃ deviceId playUrl, e = .createTask deviceId playUrl
  · obtain ⟨deviceId, playUrl, rfl⟩ := h
    exact createTask_sound hs deviceId playUrl
  · exact hs.frame (step_effect fun deviceId playUrl heq => h ⟨deviceId, playUrl, heq⟩).frame

theorem init_sound (mediaRenderers : List Device) : Sound { mediaRenderers := mediaRenderers } where
  nodup := List.nodup_nil
  given _ ht := nomatch ht
  once _ := Nat.zero_le 1
  unused _ _ := rfl

/-! ## Every request is answered -/

/-- A task that leaves the map with this step had its callback run by the end of it. -/
def LeavesAnswered (gurl : String → Gurl) (s : ScreenCastingMgr) (e : Event) : Prop :=
  ∀ t ∈ s.task, t.id ∉ (step gurl s e).task.map ScreenCastingTask.id →
    ∀ r, t.startCallback = some r → r ∈ (step gurl s e).replies.map Reply.request

def Answered (s : ScreenCastingMgr) (id : Nat) : Prop := ∀ t ∈ s.task, t.id = id → t.startCallback = none

/-- An event that removes a task finds its callback run: a `Stop` is answered and a page
closed after the start was answered, and a task that waits for its start is neither
stopped nor playing another url when a push runs. -/
def Prompt (gurl : String → Gurl) (s : ScreenCastingMgr) : Event → Prop
  | .onStopResult k _ => ∀ id ∈ s.stopRequests[k]?, s.Answered id
  | .connStausCallback id connCount => connCount = 0 → s.Answered id
  | .timeingPushTaskStatus =>
    s.pushTimer = true → ∀ t ∈ s.task, t.startCallback = none ∨ (t.changedPlayUrl gurl = false ∧ ¬ t.Stopped)
  | _ => True

theorem mem_keys_modifyTask (ht : t ∈ s.task) (id : Nat) {f : ScreenCastingTask → ScreenCastingTask}
    (hf : ∀ t, (f t).id = t.id) : t.id ∈ (s.modifyTask id f).task.map ScreenCastingTask.id := by
  show t.id ∈ (Keyed.modify ScreenCastingTask.id s.task id f).map _
  rw [keys_modify s.task id hf]
  exact List.mem_map_of_mem ht

theorem mem_keys_removeTask {id : Nat} (ht : t ∈ s.task) (h : t.id ≠ id) :
    t.id ∈ (s.removeTask id).task.map ScreenCastingTask.id :=
  List.mem_map_of_mem (mem_removeTask.mpr ⟨ht, h⟩)

theorem mem_keys_onStart (ht : t ∈ s.task) (t₀ : ScreenCastingTask) (succ : Bool) :
    t.id ∈ (s.onStart t₀ succ).task.map ScreenCastingTask.id := by
  unfold onStart
  split
  · exact List.mem_map_of_mem ht
  · exact mem_keys_modifyTask ht t₀.id fun _ => rfl

theorem onStart_replies {r : Nat} (h : t.startCallback = some r) (succ : Bool) :
    r ∈ (s.onStart t succ).replies.map Reply.request := by
  simp only [onStart, h, List.map_append, List.mem_append]
  refine .inr ?_
  cases succ <;> exact List.mem_singleton.mpr rfl

theorem timeingPushTaskStatus_leavesAnswered (hp : Prompt gurl s .timeingPushTaskStatus) :
    LeavesAnswered gurl s .timeingPushTaskStatus := by
  intro t ht hleft r hr
  simp only [step, timeingPushTaskStatus] at hleft
  split at hleft
  · exact absurd (List.mem_map_of_mem ht) hleft
  · rename_i htimer
    split at hleft
    · exact absurd (List.mem_map_of_mem ht) hleft
    · rcases hp (by simpa using htimer) t ht with hnone | ⟨hc, hst⟩
      · rw [hr] at hnone
        cases hnone
      · have hgo : ¬ (t.notifyStatusInfo gurl).2 = true := by
          rw [ScreenCastingTask.notifyStatusInfo_ended, hc]
          simpa using hst
        refine absurd (List.mem_map.mpr ⟨(t.notifyStatusInfo gurl).1, ?_, notifyStatusInfo_id t⟩) hleft
        exact List.mem_filterMap.mpr ⟨t, ht, if_neg hgo⟩

theorem Answered.absurd_of_some {r id : Nat} (h : s.Answered id) (ht : t ∈ s.task) (hid : t.id = id)
    (hr : t.startCallback = some r) : False := by
  have hnone := h t ht hid
  rw [hr] at hnone
  cases hnone

theorem Effect.leavesAnswered {s' : ScreenCastingMgr} (h : Effect gurl s e s') (hs : Sound s) (hp : Prompt gurl s e)
    (heq : s' = step gurl s e) : LeavesAnswered gurl s e := by
  intro t ht hleft r hr
  rw [← heq] at hleft ⊢
  cases h with
  | kept h => exact absurd (h.task ▸ List.mem_map_of_mem ht) hleft
  | modified h _ hid => exact absurd (h.task ▸ mem_keys_modifyTask ht _ hid) hleft
  | started _ h => exact absurd (h.task ▸ mem_keys_onStart ht _ _) hleft
  | @failed k t₀ s' ht₀ h =>
    by_cases hid : t.id = t₀.id
    · -- one entry per id: the task that leaves is the one the result is for
      obtain rfl : t = t₀ := Option.some.inj ((Keyed.find_of_mem hs.nodup ht).symm.trans (hid ▸ ht₀))
      exact h.replies ▸ onStart_replies hr false
    · obtain ⟨t', ht', hid'⟩ := List.mem_map.mp (mem_keys_onStart ht t₀ false)
      refine absurd (h.task ▸ ?_) hleft
      exact List.mem_map.mpr ⟨t', mem_removeTask.mpr ⟨ht', hid' ▸ hid⟩, hid'⟩
  | @stopped k succ id s' hid h =>
    by_cases hsame : t.id = id
    · exact (Answered.absurd_of_some (hp id hid) ht hsame hr).elim
    · exact absurd (h.task ▸ mem_keys_removeTask ht hsame) hleft
  | @closed id =>
    by_cases hsame : t.id = id
    · exact (Answered.absurd_of_some (hp rfl) ht hsame hr).elim
    · exact absurd (mem_keys_removeTask ht hsame) hleft
  | pushed => exact timeingPushTaskStatus_leavesAnswered hp t ht hleft r hr

theorem createTask_leavesAnswered (deviceId playUrl : String) :
    LeavesAnswered gurl s (.createTask deviceId playUrl) := by
  intro t ht hleft
  refine absurd ?_ hleft
  simp only [step, createTask]
  split
  · exact List.mem_map_of_mem ht
  · exact List.mem_map_of_mem (Keyed.mem_add_of_mem ht _)

theorem step_leavesAnswered (hs : Sound s) (hp : Prompt gurl s e) : LeavesAnswered gurl s e := by
  by_cases he : ∃ deviceId playUrl, e = .createTask deviceId playUrl
  · obtain ⟨deviceId, playUrl, rfl⟩ := he
    exact createTask_leavesAnswered deviceId playUrl
  · exact (step_effect fun d u heq => he ⟨d, u, heq⟩).leavesAnswered hs hp rfl

/-- No callback is ever run twice. -/
theorem Sound.replies_once (hs : Sound s) (r : Nat) : s.replies.countP (·.request = r) ≤ 1 :=
  (Nat.le_add_right _ _).trans (hs.once r)

/-- In a run in which nothing removes a task before its start is answered, no task leaves the
map with its callback waiting; and no callback is run twice. -/
theorem run_answered (mediaRenderers : List Device) (es : List Event)
    (h : Along (step gurl) (Prompt gurl) { mediaRenderers := mediaRenderers } es) :
    Along (step gurl) (LeavesAnswered gurl) { mediaRenderers := mediaRenderers } es ∧
      ∀ r, (run (step gurl) { mediaRenderers := mediaRenderers } es).replies.countP (·.request = r) ≤ 1 :=
  ⟨h.imp (I := Sound) (fun s e hs _ => step_sound s e hs) (fun _ _ hs hp => step_leavesAnswered hs hp)
    (init_sound mediaRenderers),
    fun r => Sound.replies_once (run_keep step_sound (init_sound mediaRenderers) es) r⟩

instance (s : ScreenCastingMgr) (id : Nat) : Decidable (s.Answered id) :=
  inferInstanceAs (Decidable (∀ t ∈ s.task, t.id = id → t.startCallback = none))

instance (s : ScreenCastingMgr) : ∀ e, Decidable (Prompt gurl s e)
  | .onStopResult k _ => inferInstanceAs (Decidable (∀ id ∈ s.stopRequests[k]?, s.Answered id))
  | .connStausCallback _ _ => inferInstanceAs (Decidable (_ → _))
  | .timeingPushTaskStatus =>
    inferInstanceAs (Decidable (_ → ∀ t ∈ s.task, _ ∨ (t.changedPlayUrl gurl = false ∧ ¬ t.Stopped)))
  | .createTask _ _ | .cancelTask _ | .cancelAllTask | .changeTaskPlayUrl _ _
  | .onSetAVTransportURIResult _ _ | .onGetPositionInfoResult _ _ | .onGetTransportInfoResult _ _
  | .onGetVolumeResult _ _ | .startTaskTimer | .onGetProtocolInfoResult _ | .onMRRemoved _ =>
    inferInstanceAs (Decidable True)

/-- A cast that is started, cancelled and stopped by the renderer. -/
theorem run_answered_cancelled :
    Along (step Gurl.ofHttp) (LeavesAnswered Gurl.ofHttp) { mediaRenderers := [⟨"tv", "10.0.0.2"⟩] }
        [.createTask "tv" "http://nas/a.mp4", .onSetAVTransportURIResult 0 true, .cancelTask 0,
          .onStopResult 0 true] ∧
      ∀ r, (run (step Gurl.ofHttp) { mediaRenderers := [⟨"tv", "10.0.0.2"⟩] }
        [.createTask "tv" "http://nas/a.mp4", .onSetAVTransportURIResult 0 true, .cancelTask 0,
          .onStopResult 0 true]).replies.countP (·.request = r) ≤ 1 :=
  run_answered [⟨"tv", "10.0.0.2"⟩] _ (by decide +kernel)

/-- All casts are cancelled while the renderer has not answered the start yet: the answer to
`Stop` removes the task, the later answer to `SetAVTransportURI` finds none, and the request
is never answered. -/
theorem cancelAllTask_unanswered :
    ¬ Along (step Gurl.ofHttp) (LeavesAnswered Gurl.ofHttp) { mediaRenderers := [⟨"tv", "10.0.0.2"⟩] }
        [.createTask "tv" "http://nas/a.mp4", .cancelAllTask, .onStopResult 0 true,
          .onSetAVTransportURIResult 0 true] ∧
      (run (step Gurl.ofHttp) { mediaRenderers := [⟨"tv", "10.0.0.2"⟩] }
        [.createTask "tv" "http://nas/a.mp4", .cancelAllTask, .onStopResult 0 true,
          .onSetAVTransportURIResult 0 true]).replies = [] := by
  refine ⟨fun h => ?_, by decide +kernel⟩
  have hthird := h.2.2.1
  exact absurd (hthird (newTask {} "http://nas/a.mp4" ⟨"tv", "10.0.0.2"⟩) (by decide +kernel)
    (by decide +kernel) 0 rfl) (by decide +kernel)

/-! ## A changed play url -/

/-- A task that a push removes for a changed url was reported to play another url since its
own was last set. -/
def EndsReported (gurl : String → Gurl) (s : ScreenCastingMgr) : Event → Prop
  | .timeingPushTaskStatus =>
    ∀ t ∈ s.task, t.id ∉ (step gurl s .timeingPushTaskStatus).task.map ScreenCastingTask.id →
      t.changedPlayUrl gurl = true →
        ∃ uri ∈ t.reported, uri ≠ "" ∧ ScreenCastingTask.Differs gurl t.playUrl uri
  | _ => True

/-- No push falls between a change of the play url and the next position of the task, unless
the renderer had reported nothing before. -/
def Settled (s : ScreenCastingMgr) : Event → Prop
  | .timeingPushTaskStatus =>
    s.pushTimer = true → ∀ t ∈ s.task, t.reported ≠ [] ∨ t.positionInfo.trackUri = ""
  | _ => True

instance (s : ScreenCastingMgr) : ∀ e, Decidable (Settled s e)
  | .timeingPushTaskStatus =>
    inferInstanceAs (Decidable (_ → ∀ t ∈ s.task, t.reported ≠ [] ∨ t.positionInfo.trackUri = ""))
  | .createTask _ _ | .cancelTask _ | .cancelAllTask | .changeTaskPlayUrl _ _
  | .onSetAVTransportURIResult _ _ | .onStopResult _ _ | .onGetPositionInfoResult _ _
  | .onGetTransportInfoResult _ _ | .onGetVolumeResult _ _ | .connStausCallback _ _ | .startTaskTimer
  | .onGetProtocolInfoResult _ | .onMRRemoved _ => inferInstanceAs (Decidable True)

/-- The position that a task holds is one of those reported since its url was set, if there
are any. -/
def Latest (t : ScreenCastingTask) : Prop := t.reported ≠ [] → t.positionInfo.trackUri ∈ t.reported

theorem Update.latest (h : Update gurl e t t') (ht : Latest t) : Latest t' := by
  cases h with
  | changed => exact fun hne => absurd rfl hne
  | position => exact fun _ => List.mem_cons_self
  | notified =>
    obtain ⟨n, c, hn⟩ := t.notifyStatusInfo_fst gurl
    rw [hn]
    exact ht
  | _ => exact ht

theorem step_latest (s : ScreenCastingMgr) (e : Event) (hs : ∀ t ∈ s.task, Latest t) :
    ∀ t ∈ (step gurl s e).task, Latest t :=
  step_forall hs (fun _ _ hne => absurd rfl hne) fun _ _ hup ht => hup.latest ht

theorem step_endsReported (hs : ∀ t ∈ s.task, Latest t) (hset : Settled s e) : EndsReported gurl s e := by
  cases e with
  | timeingPushTaskStatus =>
    intro t ht hleft hchanged
    have htimer : s.pushTimer = true := by
      by_contra hoff
      refine hleft ?_
      simp only [step, timeingPushTaskStatus, Bool.not_eq_true _ ▸ hoff]
      exact List.mem_map_of_mem ht
    obtain ⟨hne, hdiff⟩ := ScreenCastingTask.changedPlayUrl_iff.mp hchanged
    have hrep : t.reported ≠ [] := (hset htimer t ht).resolve_right hne
    exact ⟨_, hs t ht hrep, hne, hdiff⟩
  | _ => trivial

/-- In a run in which no push falls between a change of the play url and the next position of the
task, a task ends for a changed url only if a position after the change reported another one. -/
theorem run_changed_reported (mediaRenderers : List Device) (es : List Event)
    (h : Along (step gurl) Settled { mediaRenderers := mediaRenderers } es) :
    Along (step gurl) (EndsReported gurl) { mediaRenderers := mediaRenderers } es :=
  h.imp (I := fun s => ∀ t ∈ s.task, Latest t) (fun s e hs _ => step_latest s e hs)
    (fun _ _ hs hset => step_endsReported hs hset) (fun _ ht => nomatch ht)

/-- The renderer reports the new url before the next push. -/
theorem run_changed_reported_settled :
    Along (step Gurl.ofHttp) (EndsReported Gurl.ofHttp) { mediaRenderers := [⟨"tv", "10.0.0.2"⟩] }
      [.createTask "tv" "http://nas/a.mp4", .onSetAVTransportURIResult 0 true, .startTaskTimer,
        .onGetPositionInfoResult 0 { trackUri := "http://nas/a.mp4" }, .timeingPushTaskStatus,
        .changeTaskPlayUrl 0 "http://nas/b.mp4",
        .onGetPositionInfoResult 0 { trackUri := "http://nas/b.mp4" }, .timeingPushTaskStatus] :=
  run_changed_reported [⟨"tv", "10.0.0.2"⟩] _ (by decide +kernel)

/-- The push runs before the renderer reports the new url: the task ends although nothing was
reported since the change. -/
theorem changeTaskPlayUrl_ends :
    let s := run (step Gurl.ofHttp) { mediaRenderers := [⟨"tv", "10.0.0.2"⟩] }
      [.createTask "tv" "http://nas/a.mp4", .onSetAVTransportURIResult 0 true, .startTaskTimer,
        .onGetPositionInfoResult 0 { trackUri := "http://nas/a.mp4" }, .timeingPushTaskStatus,
        .changeTaskPlayUrl 0 "http://nas/b.mp4"]
    (s.task.map fun t => (t.id, t.playUrl, t.reported)) = [(0, "http://nas/b.mp4", [])] ∧
      (step Gurl.ofHttp s .timeingPushTaskStatus).task = [] ∧
      ¬ EndsReported Gurl.ofHttp s .timeingPushTaskStatus := by
  refine ⟨by decide +kernel, by decide +kernel, fun h => ?_⟩
  obtain ⟨uri, huri, -⟩ := h
    { id := 0, playUrl := "http://nas/b.mp4", mediaRenderes := ⟨"tv", "10.0.0.2"⟩,
      positionInfo := { trackUri := "http://nas/a.mp4" },
      lastNotifyContent := some ⟨.unknown, 0, 0, 0, "http://nas/a.mp4"⟩ }
    (by decide +kernel) (by decide +kernel) (by decide +kernel)
  cases huri

/-! ## One cast per renderer -/

theorem Update.transportInfo (h : Update gurl e t t') (he : e.isTransport = false)
    (ht : t.transportInfo = {}) : t'.transportInfo = {} := by
  cases h with
  | transport => cases he
  | notified =>
    obtain ⟨n, c, hn⟩ := t.notifyStatusInfo_fst gurl
    rw [hn]
    exact ht
  | _ => exact ht

/-- Without a status result no task has one. -/
theorem run_transportInfo (mediaRenderers : List Device) {es : List Event}
    (hes : ∀ e ∈ es, e.isTransport = false) :
    ∀ t ∈ (run (step gurl) { mediaRenderers := mediaRenderers } es).task, t.transportInfo = {} :=
  Along.run (P := fun _ e => e.isTransport = false)
    (I := fun s : ScreenCastingMgr => ∀ t ∈ s.task, t.transportInfo = {})
    (fun _ _ hs he => step_forall hs (fun _ _ => rfl) fun _ _ hup ht => hup.transportInfo he ht)
    (along_of_forall (fun _ => hes) _) (fun _ ht => nomatch ht)

theorem not_stopped (h : t.transportInfo = {}) : ¬ t.Stopped := by
  intro hs
  have hunknown : t.getTaskPlayStatus = .unknown := by
    unfold ScreenCastingTask.getTaskPlayStatus
    rw [h]
    decide
  rw [ScreenCastingTask.Stopped, hunknown] at hs
  exact absurd hs.1 (by decide)

/-- The tasks that a push leaves are those that do not end. -/
theorem countP_timeingPushTaskStatus (htimer : s.pushTimer = true) (d : String) :
    (s.timeingPushTaskStatus gurl).task.countP (·.mediaRenderes.uuid = d) =
      s.task.countP fun t => t.mediaRenderes.uuid = d && !(t.notifyStatusInfo gurl).2 := by
  unfold timeingPushTaskStatus
  rw [if_neg (by simp [htimer])]
  split
  · rename_i hnil
    rw [hnil]
    rfl
  · rw [List.countP_filterMap]
    refine List.countP_congr fun t _ => ?_
    have hdev : (t.notifyStatusInfo gurl).1.mediaRenderes = t.mediaRenderes := by
      obtain ⟨n, c, hn⟩ := t.notifyStatusInfo_fst gurl
      rw [hn]
    cases he : (t.notifyStatusInfo gurl).2 <;> simp [hdev]

end ScreenCastingMgr

end Nas.Dlna
