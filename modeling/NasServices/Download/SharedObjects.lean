import NasServices.Download.StopOrders

/-!
# One engine object for the tasks of several users

`Downloads` puts the managers of all users and the peer-to-peer engine together: what
an event orders is obeyed before the next one comes, and between events the engine may
change by itself in any way. In every run in which no event stops an object that
another user's task is downloading from, and in which the reference counts stay exact,
no object that is running is paused, removed or replaced under such a task.
-/

namespace Nas.Download

/-! ## The engine -/

structure EngineObject where
  serial : Nat
  isPaused : Bool
  deriving DecidableEq

structure PeerEngine where
  made : Nat := 0
  objects : String → Option EngineObject := fun _ => none

namespace PeerEngine

def obey (p : PeerEngine) : Order → PeerEngine
  | .add hash isPaused ok =>
    if (p.objects hash).isSome || !ok then p
    else { made := p.made + 1, objects := Function.update p.objects hash (some { serial := p.made, isPaused }) }
  | .pause hash =>
    { p with objects := Function.update p.objects hash ((p.objects hash).map ({ · with isPaused := true })) }
  | .resume hash =>
    { p with objects := Function.update p.objects hash ((p.objects hash).map ({ · with isPaused := false })) }
  | .remove hash => { p with objects := Function.update p.objects hash none }

variable {p : PeerEngine} {hash : String} {x : EngineObject}

theorem obey_objects (hx : p.objects hash = some x) (hrun : x.isPaused = false) {o : Order}
    (ho : ¬ o.Stops hash) : (p.obey o).objects hash = some x := by
  have hne : ∀ {h} {y : Option EngineObject}, h ≠ hash → Function.update p.objects h y hash = some x :=
    fun hne => (Function.update_of_ne (Ne.symm hne) ..).trans hx
  cases o with
  | add h isPaused ok =>
    simp only [obey]
    split
    · exact hx
    · rename_i hnew
      refine hne fun he => hnew ?_
      rw [he, hx]
      rfl
  | pause h => exact hne ho
  | remove h => exact hne ho
  | resume h =>
    by_cases he : h = hash
    · subst he
      show Function.update p.objects h _ h = some x
      rw [Function.update_self, hx, Option.map_some, ← hrun]
    · exact hne he

theorem foldl_obey_objects (hx : p.objects hash = some x) (hrun : x.isPaused = false) {os : List Order}
    (hos : ∀ o ∈ os, ¬ o.Stops hash) : (os.foldl obey p).objects hash = some x := by
  induction os generalizing p with
  | nil => exact hx
  | cons o os ih =>
    obtain ⟨ho, hos⟩ := List.forall_mem_cons.mp hos
    exact ih (obey_objects hx hrun ho) hos

end PeerEngine

/-! ## All users -/

def UserSelfMgr.shownHashes (m : UserSelfMgr) : List String :=
  m.taskIds.filterMap fun id => (m.findTask id).bind fun t =>
    if t.param.type.isPeerToPeer && t.taskStatus == .kDownloading then some t.param.hash else none

theorem UserSelfMgr.mem_shownHashes {m : UserSelfMgr} {hash : String} :
    hash ∈ m.shownHashes ↔ ∃ id, ∃ t ∈ m.findTask id, t.On hash ∧ t.taskStatus = .kDownloading := by
  unfold shownHashes
  rw [List.mem_filterMap]
  constructor
  · rintro ⟨id, -, hid⟩
    obtain ⟨t, ht, hif⟩ := Option.bind_eq_some_iff.mp hid
    split at hif
    · rename_i hcond
      rw [Bool.and_eq_true, beq_iff_eq] at hcond
      exact ⟨id, t, ht, ⟨hcond.1, Option.some.inj hif⟩, hcond.2⟩
    · cases hif
  · rintro ⟨id, t, ht, ⟨hp, rfl⟩, hst⟩
    refine ⟨id, mem_taskIds_iff.mpr (Option.isSome_of_mem ht), ?_⟩
    rw [Option.bind_eq_some_iff]
    exact ⟨t, ht, by simp [hp, hst]⟩

namespace DownloadManager

def orders (s : DownloadManager) : Event → List Order
  | .user _ (.restart ..) => []
  | .user userId e =>
    match s.findUser userId with
    | some m => (s.enter m).orders e
    | none => if e.lists then (s.enter { userId }).orders e else []
  | .resumeFromDb .. | .restart => []

def shownToOthers (s : DownloadManager) (userId : String) : List String :=
  s.userSelfMgrList.keys.flatMap fun other =>
    if other = userId then [] else ((s.findUser other).map (·.shownHashes)).getD []

variable {s : DownloadManager} {userId other hash : String} {m : UserSelfMgr} {o : Order}

theorem mem_shownToOthers : hash ∈ s.shownToOthers userId ↔
    ∃ other ≠ userId, ∃ m ∈ s.findUser other, hash ∈ m.shownHashes := by
  unfold shownToOthers
  rw [List.mem_flatMap]
  constructor
  · rintro ⟨other, -, hmem⟩
    split at hmem
    · cases hmem
    · rename_i hne
      cases hm : s.findUser other with
      | none =>
        rw [hm] at hmem
        cases hmem
      | some m =>
        rw [hm] at hmem
        exact ⟨other, hne, m, hm, hmem⟩
  · rintro ⟨other, hne, m, hm, hmem⟩
    refine ⟨other, ?_, ?_⟩
    · rw [← AList.mem_keys, ← AList.lookup_isSome]
      exact Option.isSome_of_mem hm
    · rw [if_neg hne, show s.findUser other = some m from hm]
      exact hmem

theorem otherNum_pos (hmem : hash ∈ s.shownToOthers userId) : 0 < s.otherNum userId hash := by
  obtain ⟨other, hne, m, hm, hmem⟩ := mem_shownToOthers.mp hmem
  obtain ⟨id, t, ht, ⟨-, rfl⟩, -⟩ := UserSelfMgr.mem_shownHashes.mp hmem
  have hnum := UserSelfMgr.hashNum_pos ht
  have hlookup : (s.userSelfMgrList.erase userId).lookup other = some m :=
    (AList.lookup_erase_ne hne).trans hm
  have hsum : Lib.sumBy (fun _ m => m.hashNum t.param.hash) ((s.userSelfMgrList.erase userId).erase other) +
      m.hashNum t.param.hash = s.otherNum userId t.param.hash := Lib.sumBy_erase hlookup
  omega

/-- The event stops an object that another user's task is downloading from. -/
def Event.Stops (s : DownloadManager) : Event → Prop
  | .user userId e => ∃ hash ∈ s.shownToOthers userId,
      e.Stops (s.enter ((s.findUser userId).getD { userId })) hash
  | _ => False

instance (s : DownloadManager) : (e : Event) → Decidable (e.Stops s)
  | .user userId e => inferInstanceAs (Decidable (∃ hash ∈ s.shownToOthers userId,
      e.Stops (s.enter ((s.findUser userId).getD { userId })) hash))
  | .resumeFromDb .. | .restart => inferInstanceAs (Decidable False)

/-- An event of one user is run on that user's manager, which may be a new one. -/
theorem mem_orders_user {e : UserSelfMgr.Event} (ho : o ∈ s.orders (.user userId e)) :
    ∃ m, (s.findUser userId = some m ∨ s.findUser userId = none ∧ m = { userId }) ∧
      o ∈ (s.enter m).orders e := by
  have hrun : o ∈ (match s.findUser userId with
      | some m => (s.enter m).orders e
      | none => if e.lists then (s.enter { userId }).orders e else []) := by
    cases e with
    | restart => cases ho
    | _ => exact ho
  split at hrun
  · rename_i m hm
    exact ⟨m, .inl hm, hrun⟩
  · rename_i hm
    split at hrun
    · exact ⟨{ userId }, .inr ⟨hm, rfl⟩, hrun⟩
    · cases hrun

theorem Exact.not_stops (h : Exact s) {e : UserSelfMgr.Event} (hno : ¬ (Event.user userId e).Miscounts s)
    (hstop : ¬ (Event.user userId e).Stops s) (hmem : hash ∈ s.shownToOthers userId)
    (ho : o ∈ s.orders (.user userId e)) : ¬ o.Stops hash := by
  intro hs
  obtain ⟨m, hm, ho⟩ := mem_orders_user ho
  have hget : (s.findUser userId).getD { userId } = m := by
    rcases hm with hm | ⟨hm, rfl⟩ <;> rw [hm] <;> rfl
  refine hstop ⟨hash, hmem, ?_⟩
  rw [hget]
  exact (h.enter hm).stops_of_mem_orders (cancel_of_not_miscounts hno)
    (fun id hid t ht hskip hl => otherNum_pos_of_not_miscounts hno hm hid ht hskip hl)
    (otherNum_pos hmem) ho hs

theorem findUser_step_ne (s : DownloadManager) (e : UserSelfMgr.Event) (hne : other ≠ userId) :
    (s.step (.user userId e)).findUser other = s.findUser other := by
  have hleave : ∀ m, (s.leave userId m).findUser other = s.findUser other := fun _ => AList.lookup_insert_ne hne
  by_cases hr : ∃ rows host, e = .restart rows host
  · obtain ⟨rows, host, rfl⟩ := hr
    rfl
  · rw [step_user fun rows host he => hr ⟨rows, host, he⟩]
    split
    · exact hleave _
    · split
      · exact hleave _
      · rfl

end DownloadManager

structure Downloads where
  manager : DownloadManager := {}
  engine : PeerEngine := {}

namespace Downloads

inductive Work
  | manager (e : DownloadManager.Event)
  /-- The engine has come to this state by itself. -/
  | engine (engine : PeerEngine)

def step (d : Downloads) : Work → Downloads
  | .manager .restart => {}
  | .manager e => { manager := d.manager.step e, engine := (d.manager.orders e).foldl PeerEngine.obey d.engine }
  | .engine engine => { d with engine }

/-- An event of one user pauses, removes or replaces no object that is running while the task of
another user is still shown as downloading from it. -/
def Undisturbed (d : Downloads) : Work → Prop
  | .manager (.user userId e) =>
    ∀ hash ∈ (d.step (.manager (.user userId e))).manager.shownToOthers userId,
      ∀ x ∈ d.engine.objects hash, x.isPaused = false →
        (d.step (.manager (.user userId e))).engine.objects hash = some x
  | _ => True

instance (d : Downloads) : (w : Work) → Decidable (d.Undisturbed w)
  | .manager (.user userId e) => inferInstanceAs (Decidable
      (∀ hash ∈ (d.step (.manager (.user userId e))).manager.shownToOthers userId,
        ∀ x ∈ d.engine.objects hash, x.isPaused = false →
          (d.step (.manager (.user userId e))).engine.objects hash = some x))
  | .manager (.resumeFromDb ..) | .manager .restart | .engine _ => inferInstanceAs (Decidable True)

/-- The work breaks the reference counts, or stops an object that another user's task is
downloading from. -/
def Disturbs (d : Downloads) : Work → Prop
  | .manager e => e.Miscounts d.manager ∨ e.Stops d.manager
  | .engine _ => False

variable {d : Downloads} {w : Work}

theorem step_exact (h : d.manager.Exact) (hno : ¬ d.Disturbs w) : (d.step w).manager.Exact := by
  cases w with
  | manager e =>
    have hexact := (DownloadManager.step_exact h fun hmis => hno (.inl hmis)).1
    cases e with
    | restart => exact hexact
    | _ => exact hexact
  | engine p => exact h

theorem step_undisturbed (h : d.manager.Exact) (hno : ¬ d.Disturbs w) : d.Undisturbed w := by
  cases w with
  | engine p => trivial
  | manager e =>
    cases e with
    | resumeFromDb | restart => trivial
    | user userId e =>
      intro hash hmem x hx hrun
      -- the managers of the others are as they were
      have hbefore : hash ∈ d.manager.shownToOthers userId := by
        obtain ⟨other, hne, m, hm, hmem⟩ := DownloadManager.mem_shownToOthers.mp hmem
        exact DownloadManager.mem_shownToOthers.mpr
          ⟨other, hne, m, (DownloadManager.findUser_step_ne d.manager e hne).symm.trans hm, hmem⟩
      exact PeerEngine.foldl_obey_objects hx hrun fun o ho =>
        h.not_stops (fun hmis => hno (.inl hmis)) (fun hs => hno (.inr hs)) hbefore ho

/-- In every run in which the reference counts stay exact and no event stops an object that
another user's task is downloading from, users do not stop each other's downloads. -/
theorem run_undisturbed (ws : List Work) (h : Lib.Along step (fun d w => ¬ d.Disturbs w) {} ws) :
    Lib.Along step Undisturbed {} ws :=
  h.imp (I := fun d => d.manager.Exact) (fun _ _ => step_exact) (fun _ _ => step_undisturbed)
    ⟨fun _ => rfl, nofun⟩

def sharedTorrent : List Work :=
  let create (id : String) (start : DownloadErrorCode) : UserSelfMgr.Event :=
    .createTorrent { taskId := id, source := "/" ++ id ++ "/f.torrent", savePath := "/" ++ id }
      (fun _ => { pathExists := fun _ => true, copyFile := some ("/nas/" ++ id ++ ".torrent"), taskHash := "h",
                  start, startAgain := start })
      fun _ => {}
  [.manager (.user "u" (create "a" .kNormal)), .manager (.user "v" (create "b" .kAddTorrentTaskFailed))]

def sharedFile : List Work :=
  [.manager (.user "u" (UserSelfMgr.linkTask "a" "ed2k://x")),
    .manager (.user "v" (UserSelfMgr.linkTask "b" "ed2k://x"))]

def failure : List Work :=
  [.manager (.user "u" (.timer ["a"] (fun _ => {}) fun _ => { errCode := .kPerformFailed })),
    .manager (.user "u" (.timer ["a"] (fun _ => {}) fun _ => {}))]

def deletion : Work := .manager (.user "u" (.delete ["a"] false fun _ => {}))

/-- The task of one user fails and is deleted for good; the other user's download goes on. -/
theorem run_undisturbed_failure :
    Lib.Along step Undisturbed {} (sharedFile ++ failure ++ [deletion, deletion]) ∧
    (Lib.run step {} (sharedFile ++ failure ++ [deletion, deletion])).manager.taskNum "ed2k://x" = 1 ∧
    (Lib.run step {} (sharedFile ++ failure ++ [deletion, deletion])).engine.objects "ed2k://x" =
      some { serial := 0, isPaused := false } := by
  refine ⟨run_undisturbed _ ⟨?_, ?_, ?_, ?_, ?_, ?_, trivial⟩, by decide +kernel⟩
  all_goals
    refine not_or.mpr ⟨DownloadManager.not_miscounts_of_isStarted (fun _ => rfl) fun id hid => ?_,
      by decide +kernel⟩
  iterate 4 exact hid.elim
  all_goals
    obtain rfl := List.mem_singleton.mp hid
    decide +kernel

/-- One user pauses a torrent, deletes it or lowers the limit, and retries an ed2k file after a
failure: the object is paused, or removed and made anew, under the task of the other user. -/
theorem operations_disturb :
    ¬ Lib.Along step Undisturbed {} (sharedTorrent ++ [.manager (.user "u" (.pause ["a"] fun _ => {}))]) ∧
    ¬ Lib.Along step Undisturbed {} (sharedTorrent ++ [deletion]) ∧
    ¬ Lib.Along step Undisturbed {} (sharedTorrent ++ [.manager (.user "u" (.settings 0 true)),
      .manager (.user "u" (.timer ["a"] (fun _ => {}) fun _ => {}))]) ∧
    ¬ Lib.Along step Undisturbed {} (sharedFile ++ failure ++
      [.manager (.user "u" (.retry ["a"] ["a"] fun _ => {}))]) := by
  decide +kernel

end Downloads

end Nas.Download
