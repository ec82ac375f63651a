import NasServices.Download.Db.Service

/-!
# Reloading the rows of a user

`ResumeFromDb` makes a task of each row, with the type that its source has on
the file system of the moment. A row whose source has become of no type, or
whose engine library is not there, is skipped and stays in the database
(`run_keepsTasks_iff`).
-/

namespace Nas.Download

open Lib UserSelfMgr
open TaskBase (Row)

variable {m : UserSelfMgr} {rows : List Row} {id : String} {t : TaskBase}

def reload (r : Row) (h : Host) : Option TaskBase :=
  (TaskFactory.createTask r.param h).map fun t => TaskBase.resumeDataFromDb r t.param h.toAnswer

theorem findTask_resumeRow (m : UserSelfMgr) (r : Row) (h : Host) :
    (m.resumeRow r h).findTask r.id = (m.findTask r.id).orElse fun _ => reload r h := by
  unfold resumeRow reload
  rcases TaskFactory.createTask r.param h with _ | t
  · simp
  · dsimp only [Option.map_some]
    unfold addTask
    rcases hid : m.findTask r.id with _ | t₀
    · rw [show findTask { m with made := t.param :: m.made } r.id = none from hid]
      dsimp only
      split <;> exact findTask_setTask ..
    · rw [show findTask { m with made := t.param :: m.made } r.id = some t₀ from hid]
      exact hid

theorem findTask_resumeRow_ne {r : Row} (hid : id ≠ r.id) (m : UserSelfMgr) (h : Host) :
    (m.resumeRow r h).findTask id = m.findTask id := by
  have hrow := resumeRow_reloaded m r h
  generalize m.resumeRow r h = m' at hrow
  cases hrow with
  | refused => rfl
  | dropped => rfl
  | listed _ _ => exact findTask_list_ne hid _ _

theorem findTask_resumeFromDb_of_notMem (hid : id ∉ rows.map Row.id) (m : UserSelfMgr) (host : Nat → Host) :
    (m.resumeFromDb rows host).findTask id = m.findTask id := by
  refine forEach_keep (I := fun m' : UserSelfMgr => m'.findTask id = m.findTask id) (fun m' r h hr hm' => ?_) rfl host
  have hne : id ≠ r.id := fun heq => hid (heq ▸ List.mem_map_of_mem hr)
  rw [findTask_resumeRow_ne hne, hm']

theorem findTask_resumeFromDb (hnodup : (rows.map Row.id).Nodup) {k : Nat} {r : Row}
    (hr : rows[k]? = some r) (hnone : m.findTask r.id = none) (host : Nat → Host) :
    (m.resumeFromDb rows host).findTask r.id = reload r (host k) := by
  induction rows generalizing m k host with
  | nil => cases hr
  | cons x xs ih =>
    obtain ⟨hx, hxs⟩ := List.nodup_cons.mp hnodup
    cases k with
    | zero =>
      obtain rfl : x = r := Option.some.inj hr
      show ((m.resumeRow x (host 0)).resumeFromDb xs _).findTask x.id = _
      rw [findTask_resumeFromDb_of_notMem hx, findTask_resumeRow, hnone]
      rfl
    | succ k =>
      have hmem : r ∈ xs := List.mem_of_getElem? hr
      have hne : r.id ≠ x.id := fun heq => hx (heq ▸ List.mem_map_of_mem hmem)
      exact ih hxs hr (by rwa [findTask_resumeRow_ne hne]) fun k => host (k + 1)

theorem findTask_restart (hnodup : (rows.map Row.id).Nodup) {k : Nat} {r : Row}
    (hr : rows[k]? = some r) (m : UserSelfMgr) (host : Nat → Host) :
    (m.restart rows host).findTask r.id = reload r (host k) :=
  findTask_resumeFromDb hnodup hr rfl host

theorem findTask_restart_of_notMem (hid : id ∉ rows.map Row.id) (m : UserSelfMgr) (host : Nat → Host) :
    (m.restart rows host).findTask id = none :=
  findTask_resumeFromDb_of_notMem hid _ host

theorem reload_type {r : Row} {h : Host} (ht : reload r h = some t) :
    t.param.type = TaskFactory.getDownloadType h.pathExists r.source ∧
      TaskFactory.isLoaded h t.param.type = true := by
  obtain ⟨w, hw, rfl⟩ := Option.map_eq_some_iff.mp ht
  obtain ⟨url, hash, hcons⟩ := TaskFactory.construct_eq r.param h
  rw [(resumeDataFromDb_status ..).1]
  simp only [TaskFactory.createTask] at hw
  split at hw
  · rename_i hload
    obtain rfl := Option.some.inj hw
    refine ⟨?_, hload⟩
    rw [hcons]
    rfl
  · cases hw

theorem reload_isSome {r : Row} {h : Host}
    (hload : TaskFactory.isLoaded h (TaskFactory.getDownloadType h.pathExists r.source) = true) :
    (reload r h).isSome = true := by
  obtain ⟨url, hash, hcons⟩ := TaskFactory.construct_eq r.param h
  have htype : TaskFactory.isLoaded h (TaskFactory.construct r.param h).type = true := by
    rw [hcons]
    exact hload
  simp only [reload, TaskFactory.createTask, htype, if_true, Option.map_some, Option.isSome_some]

/-! ## Every task is kept -/

/-- The row's source still has the stored type, and the library for it is loaded. -/
def Loadable (h : Host) (r : Row) : Prop :=
  TaskFactory.getDownloadType h.pathExists r.source = r.downloadType ∧
    TaskFactory.isLoaded h r.downloadType = true

/-- After the restart exactly the stored ids are listed, with the stored types; a task whose
source cannot be loaded is listed with an error. -/
structure KeepsTasks (m : UserSelfMgr) (rows : List Row) (host : Nat → Host) : Prop where
  ids : ∀ id, id ∈ (m.restart rows host).taskList.keys ↔ ∃ r ∈ rows, r.id = id
  types : ∀ r ∈ rows, ∀ t, (m.restart rows host).findTask r.id = some t → t.param.type = r.downloadType
  errors : ∀ k r, rows[k]? = some r → ¬ Loadable (host k) r →
    ∃ t, (m.restart rows host).findTask r.id = some t ∧ t.errCode ≠ .kNormal

theorem mem_keys_iff (m : UserSelfMgr) (id : String) : id ∈ m.taskList.keys ↔ (m.findTask id).isSome = true := by
  rw [← AList.mem_keys, ← AList.lookup_isSome]
  rfl

theorem keepsTasks_iff (hnodup : (rows.map Row.id).Nodup) (m : UserSelfMgr) (host : Nat → Host) :
    KeepsTasks m rows host ↔ ∀ k r, rows[k]? = some r → Loadable (host k) r := by
  constructor
  · intro h k r hr
    have hmem : r ∈ rows := List.mem_of_getElem? hr
    have hlisted := (mem_keys_iff _ _).mp ((h.ids r.id).mpr ⟨r, hmem, rfl⟩)
    obtain ⟨t, ht⟩ := Option.isSome_iff_exists.mp hlisted
    have htype := h.types r hmem t ht
    rw [findTask_restart hnodup hr] at ht
    obtain ⟨hnow, hload⟩ := reload_type ht
    exact ⟨hnow.symm.trans htype, htype ▸ hload⟩
  · intro h
    have hrow (r : Row) (hr : r ∈ rows) : ∃ t, (m.restart rows host).findTask r.id = some t ∧
        t.param.type = r.downloadType := by
      obtain ⟨k, hk⟩ := List.getElem?_of_mem hr
      obtain ⟨htype, hload⟩ := h k r hk
      rw [findTask_restart hnodup hk]
      obtain ⟨t, ht⟩ := Option.isSome_iff_exists.mp (reload_isSome (htype ▸ hload))
      exact ⟨t, ht, (reload_type ht).1.trans htype⟩
    refine ⟨fun id => ?_, fun r hr t ht => ?_, fun k r hr hn => absurd (h k r hr) hn⟩
    · rw [mem_keys_iff]
      constructor
      · intro hsome
        by_contra hno
        have hid : id ∉ rows.map Row.id := by simpa using hno
        rw [findTask_restart_of_notMem hid] at hsome
        cases hsome
      · rintro ⟨r, hr, rfl⟩
        obtain ⟨t, ht, -⟩ := hrow r hr
        rw [ht]
        rfl
    · obtain ⟨t', ht', htype⟩ := hrow r hr
      rw [ht] at ht'
      exact Option.some.inj ht' ▸ htype

theorem Service.nodup_step {s : Service} (hs : (s.rows.map Row.id).Nodup) (w : Service.Work) :
    ((s.step w).rows.map Row.id).Nodup := by
  rcases s with ⟨mgr, _ | ⟨p, ps⟩, rows⟩ <;> cases w with
  | request e => cases e <;> exact hs
  | background => first | exact hs | exact Post.nodup_exec hs
  | others | restart => exact hs

theorem run_nodup (m : UserSelfMgr) (ws : List Service.Work) :
    ((run Service.step { mgr := m } ws).rows.map Row.id).Nodup := by
  have hinit : (({ mgr := m } : Service).rows.map Row.id).Nodup := List.nodup_nil
  exact run_keep (I := fun s : Service => (s.rows.map Row.id).Nodup) (fun s w hs => Service.nodup_step hs w) hinit ws

/-- Whatever has been written, a restart keeps every stored task if and only if every source
still has its stored type and the library for it. -/
theorem run_keepsTasks_iff (m : UserSelfMgr) (ws : List Service.Work) (host : Nat → Host) :
    KeepsTasks (run Service.step { mgr := m } ws).mgr (run Service.step { mgr := m } ws).rows host ↔
      ∀ k r, (run Service.step { mgr := m } ws).rows[k]? = some r → Loadable (host k) r :=
  keepsTasks_iff (run_nodup m ws) _ host

theorem name_ne_empty : "a" ≠ "" := by decide

def storedTorrent : List Service.Work :=
  [.request (.createTorrent { taskId := "1", source := "/v/a.torrent" }
      (fun _ => { taskHash := "1", pathExists := fun _ => true })
      fun _ => { torrentList := some ⟨"a", name_ne_empty⟩ })] ++ List.replicate 8 .background

/-- The torrent file is gone at the restart: the row stays and its task is not listed. -/
theorem storedTorrent_lost :
    (run Service.step { mgr := { userId := "u" } } storedTorrent).rows.map Row.id = ["1"] ∧
    ¬ KeepsTasks (run Service.step { mgr := { userId := "u" } } storedTorrent).mgr
      (run Service.step { mgr := { userId := "u" } } storedTorrent).rows fun _ => {} := by
  have hrows : (run Service.step { mgr := { userId := "u" } } storedTorrent).rows.map Row.id = ["1"] := by
    decide +kernel
  have hlost : "1" ∉ ((run Service.step { mgr := { userId := "u" } } storedTorrent).mgr.restart
      (run Service.step { mgr := { userId := "u" } } storedTorrent).rows fun _ => {}).taskList.keys := by
    decide +kernel
  refine ⟨hrows, fun h => hlost ((h.ids "1").mpr ?_)⟩
  exact List.mem_map.mp (hrows ▸ List.mem_singleton_self "1")

end Nas.Download
