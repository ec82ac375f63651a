import NasServices.Download.UserSelfMgr.Pieces

/-!
# The dynamic type of a BitTorrent task's parameter

The BitTorrent classes cast their parameter to `TorrentTaskParam` without
looking. The object is made by the request handler or the database reader,
before `TaskFactory` reads the task's class off the url. They agree as long as
no link request has a source that reads as a torrent file or a magnet link,
and no row stored under another type does (`Event.Mismatches`).
-/

namespace Nas.Download.TaskFactory

def IsBtSource (pathExists : String → Bool) (url : String) : Prop :=
  let str := (url.toList.takeWhile (· ≠ '\x00')).map Char.toLower
  str.take 7 ≠ "ed2k://".toList ∧
    (pathExists url ∧ ".torrent".toList <:+: url.toList ∨
      str.take 20 = "magnet:?xt=urn:btih:".toList)

instance (pathExists : String → Bool) (url : String) : Decidable (IsBtSource pathExists url) :=
  inferInstanceAs (Decidable (_ ∧ _))

theorem getDownloadType_isBt_iff (pathExists : String → Bool) (url : String) :
    (getDownloadType pathExists url).isBt = true ↔ IsBtSource pathExists url := by
  unfold getDownloadType IsBtSource
  generalize (url.toList.takeWhile (· ≠ '\x00')).map Char.toLower = str
  dsimp only
  split
  · rename_i hed2k
    simp [hed2k, DownloadType.isBt]
  · rename_i hed2k
    split
    · rename_i htorrent
      simp only [DownloadType.isBt, true_iff]
      exact ⟨hed2k, .inl htorrent⟩
    · rename_i htorrent
      split
      · rename_i hmagnet
        simp only [DownloadType.isBt, true_iff]
        exact ⟨hed2k, .inr hmagnet⟩
      · rename_i hmagnet
        simp only [htorrent, hmagnet, or_self, and_false, iff_false]
        split_ifs <;> exact nofun

end Nas.Download.TaskFactory

namespace Nas.Download.UserSelfMgr

open TaskFactory (IsBtSource getDownloadType_isBt_iff)

def ParamOk (p : TaskParam) : Prop := p.type.isBt = true → p.torrent.isSome = true

structure ParamInv (m : UserSelfMgr) : Prop where
  made : ∀ p ∈ m.made, ParamOk p
  listed : ∀ id t, m.findTask id = some t → ParamOk t.param

section

variable {m m' : UserSelfMgr} {id : String} {t t' : TaskBase} {a : Answer}

/-- The constructors take a parameter of the right kind. -/
theorem construct_paramOk {param : TaskParam} {h : Host}
    (hp : IsBtSource h.pathExists param.url → param.torrent.isSome = true) :
    ParamOk (TaskFactory.construct param h) := by
  obtain ⟨url, hash, heq⟩ := TaskFactory.construct_eq param h
  rw [heq]
  exact fun hbt => hp ((getDownloadType_isBt_iff ..).mp hbt)

theorem ParamInv.piece (h : ParamInv m) (hp : Piece m m') : ParamInv m' := by
  refine ⟨fun p hmem => h.made p ?_, Listed.piece (Q := fun _ => ParamOk) h.listed hp⟩
  cases hp with
  | update hu => rwa [hu.made] at hmem
  | _ => exact hmem

theorem ParamInv.pieces (h : ParamInv m) (hp : Pieces m m') : ParamInv m' := by
  induction hp with
  | refl => exact h
  | tail _ hp ih => exact ih.piece hp

theorem ParamInv.deleted (h : ParamInv m) (hd : Deleted id a m m') : ParamInv m' := by
  refine ⟨fun p hp => h.made p ?_, Listed.deleted (Q := fun _ => ParamOk) h.listed hd⟩
  have hmade : m'.made = m.made := by
    cases hd with
    | same | binned _ => rfl
    | removed _ hr | refused _ hr =>
      have heq := congrArg UserSelfMgr.made (releaseTask_eq hr)
      exact heq
  rwa [hmade] at hp

theorem ParamInv.list (h : ParamInv m) {param : TaskParam} (hmade : ParamOk param)
    (hlisted : ParamOk t.param) (calls : List EngineCall) : ParamInv (m.list id t calls param) := by
  refine ⟨fun p hp => ?_, Listed.setTask (Q := fun _ => ParamOk) h.listed hlisted⟩
  rcases List.mem_cons.mp hp with rfl | hp
  · exact hmade
  · exact h.made p hp

theorem ParamInv.dropped (h : ParamInv m) {param : TaskParam} (hmade : ParamOk param) :
    ParamInv { m with made := param :: m.made } := by
  refine ⟨fun p hp => ?_, h.listed⟩
  rcases List.mem_cons.mp hp with rfl | hp
  · exact hmade
  · exact h.made p hp

theorem ParamInv.execCreate {c : Creation} (h : ParamInv c.mgr) {param : TaskParam} {host : Host}
    (hp : IsBtSource host.pathExists param.url → param.torrent.isSome = true) :
    ParamInv (execCreate c param host).mgr := by
  have hcons := construct_paramOk hp
  have hc := execCreate_created c param host
  generalize UserSelfMgr.execCreate c param host = c' at hc
  cases hc with
  | refused => exact h
  | dropped ht =>
    obtain ⟨url, hasImpl, createTime, rfl⟩ := ht
    exact h.dropped hcons
  | listed ht hid himpl hs reply =>
    obtain ⟨url, hasImpl, createTime, rfl⟩ := ht
    obtain ⟨torrent, heq, hsome⟩ := hs.param
    have hmade : ParamOk { TaskFactory.construct param host with url } := hcons
    refine h.list hmade ?_ _
    rw [heq]
    intro hbt
    exact hsome.trans (hcons hbt)

theorem ParamInv.createAll (h : ParamInv m) {params : List TaskParam} {host : Nat → Host}
    (hp : ∀ k p, params[k]? = some p → IsBtSource (host k).pathExists p.url → p.torrent.isSome = true)
    (ω : Nat → Answer) : ParamInv (m.createAll params host ω).1 := by
  have hc : ParamInv (Lib.forEach UserSelfMgr.execCreate { mgr := m } params host).mgr :=
    Lib.forEach_keep_get (I := fun c : Creation => ParamInv c.mgr)
      (fun c k param hk hc => hc.execCreate (hp k param hk)) h
  exact Lib.forEach_keep (fun m j a _ hm => ParamInv.pieces hm (parseTask_pieces m j a)) hc ω

theorem ParamInv.resumeRow (h : ParamInv m) {r : TaskBase.Row} {host : Host}
    (hr : IsBtSource host.pathExists r.source → r.downloadType.isBt = true) :
    ParamInv (m.resumeRow r host) := by
  have hcons : ParamOk (TaskFactory.construct r.param host) := by
    refine construct_paramOk fun hbt => ?_
    unfold TaskBase.Row.param
    rw [if_pos (hr hbt)]
    rfl
  have hload := resumeRow_reloaded m r host
  generalize m.resumeRow r host = m' at hload
  cases hload with
  | refused => exact h
  | dropped => exact h.dropped hcons
  | listed hid ht =>
    refine h.list hcons ?_ _
    rw [ht, (resumeDataFromDb_status ..).1]
    exact hcons

end

/-! ## Runs -/

/-- A link request has a source that `TaskFactory` takes for a torrent or a magnet link, or a
row that was not stored as one is now read as one. -/
def Event.Mismatches : Event → Prop
  | .createLink sourceList host _ => ∃ k d, sourceList[k]? = some d ∧
      IsBtSource (host k).pathExists d.source
  | .restart rows host => ∃ k r, rows[k]? = some r ∧ r.downloadType.isBt = false ∧
      IsBtSource (host k).pathExists r.source
  | _ => False

theorem step_paramInv {m : UserSelfMgr} (h : ParamInv m) {e : Event} (hno : ¬ e.Mismatches) :
    ParamInv (m.step e) := by
  cases e with
  | createLink sourceList host ω =>
    refine h.createAll (fun k p hk hbt => ?_) ω
    rw [List.getElem?_map, Option.map_eq_some_iff] at hk
    obtain ⟨d, hd, rfl⟩ := hk
    exact absurd ⟨k, d, hd, hbt⟩ hno
  | createTorrent request host ω =>
    refine h.createAll (fun k p hk _ => ?_) ω
    obtain rfl := List.mem_singleton.mp (List.mem_of_getElem? hk)
    rfl
  | delete | clean | deleteCategory | cleanCategory =>
    exact step_keep_of_deletes (fun _ _ _ _ hm hd => hm.deleted hd) rfl h
  | reset ω =>
    have hmade : (m.reset ω).made = m.made := by
      refine Lib.forEach_keep (I := fun m' : UserSelfMgr => m'.made = m.made) ?_ rfl ω
      intro m' j a _ hm'
      unfold resetTask
      split
      · exact hm'
      · exact hm'
    exact ⟨fun p hp => h.made p (hmade ▸ hp), fun id t ht => by cases ht⟩
  | restart rows host =>
    refine Lib.forEach_keep_get (I := ParamInv) (fun m k r hk hm => hm.resumeRow fun hbt => ?_)
      ⟨h.made, fun id t ht => by cases ht⟩
    by_contra hty
    exact hno ⟨k, r, hk, Bool.eq_false_iff.mpr hty, hbt⟩
  | _ => exact h.pieces (step_pieces rfl rfl)

/-- In every run in which no link source and no row of another type reads as a torrent or a
magnet link, every BitTorrent task that is made or listed has a `TorrentTaskParam`. -/
theorem run_paramInv (m : UserSelfMgr) (hm : m.taskList = ∅) (hmade : m.made = []) (es : List Event)
    (h : Lib.Along step (fun _ e => ¬ e.Mismatches) m es) : ParamInv (Lib.run step m es) := by
  refine h.run (I := ParamInv) (fun _ _ hs hno => step_paramInv hs hno) ⟨fun p hp => ?_, fun id t ht => ?_⟩
  · rw [hmade] at hp
    cases hp
  · rw [findTask, hm] at ht
    cases ht

theorem run_paramInv_linkAndMagnet :
    ParamInv (Lib.run step { userId := "u" } [linkTask "a" "http://a", magnetTask "b"]) := by
  refine run_paramInv _ rfl rfl _ ⟨?_, nofun, trivial⟩
  rintro ⟨k, d, hd, hbt⟩
  obtain rfl := List.mem_singleton.mp (List.mem_of_getElem? hd)
  have hno : ¬ IsBtSource (fun _ => false) "http://a" := by decide +kernel
  exact hno hbt

/-- A magnet link in a link request gives a magnet task with a plain `TaskParam`. -/
theorem createLink_magnet_mismatches :
    ((({ userId := "u" } : UserSelfMgr).step (linkTask "a" "magnet:?xt=urn:btih:a")).findTask "a").map
      (fun t => (t.param.type, t.param.torrent)) = some (.kMagnet, none) ∧
    ¬ ParamInv (({ userId := "u" } : UserSelfMgr).step (linkTask "a" "magnet:?xt=urn:btih:a")) := by
  have hnow : ((({ userId := "u" } : UserSelfMgr).step (linkTask "a" "magnet:?xt=urn:btih:a")).findTask
      "a").map (fun t => (t.param.type, t.param.torrent)) = some (.kMagnet, none) := by decide +kernel
  refine ⟨hnow, fun hinv => ?_⟩
  obtain ⟨t, ht, heq⟩ := Option.map_eq_some_iff.mp hnow
  obtain ⟨hty, htorrent⟩ := Prod.mk.inj heq
  have hsome := hinv.listed "a" t ht (by rw [hty]; rfl)
  rw [htorrent] at hsome
  cases hsome

end Nas.Download.UserSelfMgr
