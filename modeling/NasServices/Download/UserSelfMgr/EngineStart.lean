import NasServices.Download.UserSelfMgr.Listing

/-!
# What the engine says to a new torrent

A create request starts the download of each task before it is listed. `BtTaskBase::Start`
returns `kNormal` whatever the engine has said, so that a torrent or a magnet link is reported
as created and listed also when the engine has refused it. For a torrent, the missing `break`
in `ExecCreate` asks the engine a second time if there is a slot.
`created_known_iff` says when every source that is reported as created is known to the engine.
-/

namespace Nas.Download

def DownloadErrorCode.kAddMagnetTaskFailed : DownloadErrorCode := ⟨3002⟩

namespace UserSelfMgr

variable {c : Creation} {m : UserSelfMgr} {param : TaskParam} {h : Host} {t : TaskBase} {same : String}

/-! ## Starting a BitTorrent task -/

def EngineTakes (m : UserSelfMgr) (t : TaskBase) (h : Host) : Prop :=
  h.start = .kNormal ∨ t.param.type = .kTorrent ∧ m.isCanStart = true ∧ h.startAgain = .kNormal

theorem startNew_isBt (hbt : t.param.type.isBt = true) (hs : t.isStarted = false) (ret : DownloadErrorCode) :
    (startNew t ret).err = .kNormal ∧
      (startNew t ret).task.isStarted = decide (ret = .kNormal) ∧
      (startNew t ret).task.param = t.param ∧
      (startNew t ret).calls = if ret = .kNormal then [.start t.param.hash] else [] := by
  by_cases hret : ret = .kNormal
  · simp [startNew, TaskBase.start, startCalls, hbt, hs, hret]
  · simp [startNew, TaskBase.start, startCalls, hbt, hs, hret]

theorem startNew_of_isStarted (hs : t.isStarted = true) (ret : DownloadErrorCode) :
    (startNew t ret).err = .kNormal ∧ (startNew t ret).calls = [] := by
  simp [startNew, TaskBase.start, startCalls, hs]

theorem admitTorrent_eq (m : UserSelfMgr) (t : TaskBase) :
    (m.admitTorrent t).param.type = t.param.type ∧ (m.admitTorrent t).param.hash = t.param.hash ∧
      (m.admitTorrent t).isStarted = t.isStarted := by
  unfold admitTorrent
  dsimp only
  split
  · split <;> exact ⟨rfl, rfl, rfl⟩
  · exact ⟨rfl, rfl, rfl⟩

/-- The second start of a torrent, which `ExecNoneBt` makes. -/
theorem execNoneBt_isBt (hbt : t.param.type.isBt = true) (ret : DownloadErrorCode) :
    (m.execNoneBt t ret).err = .kNormal ∧
      (EngineCall.start t.param.hash ∈ (m.execNoneBt t ret).calls ↔
        m.isCanStart = true ∧ t.isStarted = false ∧ ret = .kNormal) := by
  unfold execNoneBt
  by_cases hcan : m.isCanStart = true
  · rw [if_pos hcan]
    cases hs : t.isStarted with
    | true =>
      obtain ⟨herr, hcalls⟩ := startNew_of_isStarted hs ret
      refine ⟨herr, ?_⟩
      rw [hcalls]
      simp
    | false =>
      obtain ⟨herr, -, -, hcalls⟩ := startNew_isBt hbt hs ret
      refine ⟨herr, ?_⟩
      rw [hcalls]
      by_cases hret : ret = .kNormal <;> simp [hret, hcan]
  · rw [if_neg hcan]
    simp [hcan]

/-- The error of the engine is dropped. -/
theorem execStart_isBt (m : UserSelfMgr) (hbt : t.param.type.isBt = true) (hs : t.isStarted = false) (h : Host) :
    (m.execStart t h).err = .kNormal ∧
      (EngineCall.start t.param.hash ∈ (m.execStart t h).calls ↔ EngineTakes m t h) := by
  unfold execStart
  split
  · rename_i htype
    have hcall : ({ t with parseCallback := true } : TaskBase).isStarted = false := hs
    obtain ⟨herr, -, -, hcalls⟩ := startNew_isBt (t := { t with parseCallback := true }) hbt hcall h.start
    refine ⟨herr, ?_⟩
    rw [execMagnet, hcalls]
    by_cases hret : h.start = .kNormal <;> simp [EngineTakes, hret, htype]
  · rename_i htype
    obtain ⟨hkind, hhash, hstarted⟩ := admitTorrent_eq m t
    obtain ⟨-, hafter, hparam, hfirst⟩ :=
      startNew_isBt (hkind ▸ hbt : (m.admitTorrent t).param.type.isBt = true) (hstarted.trans hs) h.start
    have hsecond := execNoneBt_isBt (m := m) (t := (startNew (m.admitTorrent t) h.start).task)
      (by rw [hparam, hkind]; exact hbt) h.startAgain
    rw [hparam, hhash] at hsecond
    refine ⟨hsecond.1, ?_⟩
    dsimp only
    rw [List.mem_append, hsecond.2, hfirst, hafter, hhash]
    by_cases hret : h.start = .kNormal <;> simp [EngineTakes, hret, htype]
  · rename_i hmagnet htorrent
    revert hbt
    cases htype : t.param.type <;> simp_all [DownloadType.isBt]

/-! ## One source -/

/-- `CreateTask` has made a BitTorrent task of the source, which is then started. -/
structure Started.Bt (c : Creation) (param : TaskParam) (h : Host) (t : TaskBase) : Prop where
  created : ∃ same, c.mgr.createTask param h = (some t, .kNormal, same)
  isBt : t.param.type.isBt = true

def Accepts (c c' : Creation) (hash : String) : Prop :=
  ∃ calls, c'.mgr.engine = calls ++ c.mgr.engine ∧ EngineCall.start hash ∈ calls

/-- What a source comes to should be what the engine has said to it; `held` are the hashes of the
objects that the engine has already. -/
structure KnownToEngine (c : Creation) (param : TaskParam) (h : Host) (held : String → Prop) : Prop where
  success : ∀ t, Started.Bt c param h t →
    (execCreate c param h).reply.successList = c.reply.successList ++ [param.id] →
      Accepts c (execCreate c param h) t.param.hash ∨ held t.param.hash
  failure : ∀ t, Started.Bt c param h t →
    ¬ (Accepts c (execCreate c param h) t.param.hash ∨ held t.param.hash) →
      (execCreate c param h).mgr.findTask param.id = none ∧
        ∃ err, err ≠ .kNormal ∧ (err = h.start ∨ err = h.startAgain) ∧
          (execCreate c param h).reply.failedList =
            c.reply.failedList ++ [{ taskId := param.id, sameTaskId := "", errCode := err }]

theorem execCreate_isBt (ht : Started.Bt c param h t) :
    (execCreate c param h).reply.successList = c.reply.successList ++ [param.id] ∧
      (Accepts c (execCreate c param h) t.param.hash ↔ EngineTakes c.mgr t h) := by
  obtain ⟨⟨same, hc⟩, hbt⟩ := ht
  obtain ⟨hid, hfresh, -⟩ := createTask_fresh hc
  have hs : t.isStarted = false := by
    obtain ⟨url, hasImpl, createTime, rfl⟩ := hfresh
    rfl
  obtain ⟨herr, hcalls⟩ := execStart_isBt { c.mgr with made := t.param :: c.mgr.made } hbt hs h
  have hexec : execCreate c param h =
      { mgr := c.mgr.list param.id (execStart { c.mgr with made := t.param :: c.mgr.made } t h).task
          (execStart { c.mgr with made := t.param :: c.mgr.made } t h).calls t.param
        needParse := c.needParse ++ [param.id]
        reply := { c.reply with successList := c.reply.successList ++ [param.id] } } := by
    rw [execCreate, hc]
    dsimp only
    rw [if_neg (not_not.mpr rfl), if_neg (not_not.mpr herr), addTask_of_none hid]
  rw [hexec]
  refine ⟨rfl, ?_⟩
  constructor
  · rintro ⟨calls, heq, hmem⟩
    rw [← List.append_cancel_right heq] at hmem
    exact hcalls.mp hmem
  · exact fun htakes => ⟨_, rfl, hcalls.mpr htakes⟩

/-- What is reported is right exactly when the engine accepts the torrent or has it already. -/
theorem knownToEngine_iff (c : Creation) (param : TaskParam) (h : Host) (held : String → Prop) :
    KnownToEngine c param h held ↔
      ∀ t, Started.Bt c param h t → EngineTakes c.mgr t h ∨ held t.param.hash := by
  constructor
  · intro hknown t ht
    obtain ⟨hsuccess, haccepts⟩ := execCreate_isBt ht
    exact (hknown.success t ht hsuccess).imp_left haccepts.mp
  · intro htakes
    have hheld : ∀ t, Started.Bt c param h t →
        Accepts c (execCreate c param h) t.param.hash ∨ held t.param.hash :=
      fun t ht => (htakes t ht).imp_left (execCreate_isBt ht).2.mpr
    exact ⟨fun t ht _ => hheld t ht, fun t ht hnot => absurd (hheld t ht) hnot⟩

/-! ## Requests -/

def creationAt (m : UserSelfMgr) (params : List TaskParam) (host : Nat → Host) (k : Nat) : Creation :=
  Lib.forEach execCreate { mgr := m } (params.take k) host

/-- Every source of a create request is reported as the engine has said exactly when the engine accepts
each of its torrents and magnets that is started, or has it already. -/
theorem created_known_iff (m : UserSelfMgr) (params : List TaskParam) (host : Nat → Host)
    (held : Nat → String → Prop) :
    (∀ k param, params[k]? = some param →
        KnownToEngine (creationAt m params host k) param (host k) (held k)) ↔
      ∀ k param t, params[k]? = some param → Started.Bt (creationAt m params host k) param (host k) t →
        EngineTakes (creationAt m params host k).mgr t (host k) ∨ held k t.param.hash := by
  simp only [knownToEngine_iff]
  exact ⟨fun hall k param t hk ht => hall k param hk t ht, fun hall k param hk t ht => hall k param t hk ht⟩

def refusedMagnet : TorrentRequest := { taskId := "a", source := "magnet:?xt=urn:btih:a" }

def refusingHost : Host := { taskHash := "a", start := .kAddMagnetTaskFailed }

/-- It is reported as created and listed, and the engine has not accepted it and does not have it. -/
theorem refusedMagnet_created :
    let r := ({ userId := "u" } : UserSelfMgr).createTorrentTask refusedMagnet (fun _ => refusingHost) fun _ => {}
    (r.2.successList = ["a"] ∧ r.2.failedList = [] ∧ (r.1.findTask "a").isSome = true ∧ r.1.engine = []) ∧
      ¬ KnownToEngine { mgr := { userId := "u" } } refusedMagnet.param refusingHost fun _ => False := by
  refine ⟨by decide +kernel, fun hknown => ?_⟩
  have hcreated : ((createTask { userId := "u" } refusedMagnet.param refusingHost).1.map fun t =>
      (t.param.type, t.param.hash)) = some (.kMagnet, "a") := by decide +kernel
  have herr : (createTask { userId := "u" } refusedMagnet.param refusingHost).2 = (.kNormal, "") := by
    decide +kernel
  obtain ⟨t, ht, hmagnet⟩ := Option.map_eq_some_iff.mp hcreated
  obtain ⟨htype, -⟩ := Prod.mk.inj hmagnet
  have hbt : Started.Bt { mgr := { userId := "u" } } refusedMagnet.param refusingHost t :=
    ⟨⟨"", Prod.ext ht herr⟩, by rw [htype]; rfl⟩
  rcases (knownToEngine_iff ..).mp hknown t hbt with (hstart | ⟨htorrent, -⟩) | hheld
  · exact absurd hstart (by decide)
  · rw [htype] at htorrent
    cases htorrent
  · exact hheld

end UserSelfMgr

end Nas.Download
