import NasServices.Download.UserSelfMgr.Resting

/-!
# A parsing magnet task can finish

A magnet task that is created gets its callback from `ExecMagnet` and its
subscription from `Parse`, within one request; both are used up together when
the metadata comes, which posts an `OnParseComplete`. `ParseOk` says this of
one task. Nothing else touches either, so it is enough that every operation is
a `Move`, with the one exception `Reparse`.

A task made from a stored row gets neither callback nor subscription. It must
not come to `kParsing` (`Event.LosesParse`).
-/

namespace Nas.Download.UserSelfMgr

open TaskBase (Move Op Quiet ParseMessage)

def Awaits (m : UserSelfMgr) (id : String) (t : TaskBase) : Prop :=
  (t.parseSubscribed = true ∧ t.parseCallback = true) ∨ ∃ l, (id, l) ∈ m.parseQueue

/-- The magnet tasks that parse, or would parse again, wait for a completion; reloaded ones
do not parse. -/
structure ParseOk (m : UserSelfMgr) (id : String) (t : TaskBase) : Prop where
  id_eq : t.param.id = id
  created : t.param.type = .kMagnet → t.param.isFromDbResume = false →
    t.Parsing ∨ t.isParseFinish = false → Awaits m id t
  reloaded : t.param.type = .kMagnet → t.param.isFromDbResume = true → ¬ t.Parsing

def ParseInv (m : UserSelfMgr) : Prop := ∀ id t, m.findTask id = some t → ParseOk m id t

section

variable {m m' : UserSelfMgr} {id j : String} {t t' : TaskBase} {a : Answer}
  {rel : TaskBase → TaskBase → Prop}

theorem ParseOk.mono (h : ParseOk m id t)
    (hq : ∀ l, (id, l) ∈ m.parseQueue → (id, l) ∈ m'.parseQueue) : ParseOk m' id t := by
  refine ⟨h.id_eq, fun hty hdb hp => ?_, h.reloaded⟩
  exact (h.created hty hdb hp).imp_right fun ⟨l, hl⟩ => ⟨l, hq l hl⟩

theorem ParseOk.of_eq (h : ParseOk m id t) (hq : m'.parseQueue = m.parseQueue) : ParseOk m' id t :=
  h.mono fun l hl => by rwa [hq]

theorem ParseOk.move (h : ParseOk m id t) (hm : Move t t') : ParseOk m id t' := by
  obtain ⟨hk, hparsing⟩ := hm
  refine ⟨by rw [hk.param, h.id_eq], fun hty hdb hp => ?_, fun hty hdb hp => ?_⟩
  · rw [hk.param] at hty hdb
    unfold Awaits
    rw [hk.parseSubscribed, hk.parseCallback]
    exact h.created hty hdb (hp.imp hparsing fun hf => hk.isParseFinish ▸ hf)
  · rw [hk.param] at hty hdb
    exact h.reloaded hty hdb (hparsing hp)

theorem ParseOk.reparse (h : ParseOk m id t) (hr : Reparse t t')
    (hdb : t.param.isFromDbResume = false) : ParseOk m id t' := by
  have hk := hr.kept
  refine ⟨by rw [hk.param, h.id_eq], fun hty _ _ => ?_, fun _ hdb' => ?_⟩
  · rw [hk.param] at hty
    unfold Awaits
    rw [hk.parseSubscribed, hk.parseCallback]
    exact h.created hty hdb (.inr hr.isParseFinish)
  · rw [hk.param, hdb] at hdb'
    cases hdb'

/-- A task that is no magnet, or has been parsed and is not parsing, needs no completion. -/
theorem ParseOk.of_parsed (hid : t.param.id = id)
    (hp : t.param.type = .kMagnet → ¬ t.Parsing ∧ t.isParseFinish = true) : ParseOk m id t := by
  refine ⟨hid, fun hty _ h => ?_, fun hty _ => (hp hty).1⟩
  rcases h with h | h
  · exact absurd h (hp hty).1
  · rw [(hp hty).2] at h
    cases h

theorem ParseInv.updates (h : ParseInv m) (hu : Updates rel j m m')
    (hrel : ∀ t t', m.findTask j = some t → rel t t' → ParseOk m j t → ParseOk m j t') :
    ParseInv m' := by
  intro id t' ht'
  refine ParseOk.of_eq (m := m) ?_ hu.parseQueue
  by_cases hne : id = j
  · subst hne
    rcases ht : m.findTask id with _ | t
    · rw [hu.none ht] at ht'
      cases ht'
    · obtain ⟨t₁, ht₁, hr⟩ := hu.task t ht
      obtain rfl : t₁ = t' := Option.some.inj (ht₁.symm.trans ht')
      exact hrel t t₁ ht hr (h id t ht)
  · rw [hu.other id hne] at ht'
    exact h id t' ht'

theorem ParseInv.op (h : ParseInv m) (hu : Updates Op j m m') : ParseInv m' :=
  h.updates hu fun _ _ _ hop hok => hok.move hop.toMove

theorem ParseInv.quiet (h : ParseInv m) (hu : Updates Quiet j m m') : ParseInv m' :=
  h.updates hu fun _ _ _ hq hok => hok.move hq.toMove

/-! ## Requests and the timer -/

theorem ParseInv.deleted (h : ParseInv m) (hd : Deleted j a m m') : ParseInv m' := by
  have hq : m'.parseQueue = m.parseQueue := by
    cases hd with
    | same | binned _ => rfl
    | removed _ hr | refused _ hr =>
      have heq := congrArg UserSelfMgr.parseQueue (releaseTask_eq hr)
      exact heq
  intro id t' ht'
  refine ParseOk.of_eq (m := m) ?_ hq
  by_cases hne : id = j
  · subst hne
    obtain ⟨t, ht, hquiet⟩ := hd.quiet ht'
    exact (h id t ht).move hquiet.toMove
  · rw [hd.findTask_ne hne] at ht'
    exact h id t' ht'

theorem ParseInv.timerChcek (h : ParseInv m) (queue : List String) (ω ω' : Nat → Answer) :
    ParseInv (m.timerChcek queue ω ω') := by
  unfold UserSelfMgr.timerChcek
  split
  · refine Lib.forEach_keep (fun m j a _ hm => hm.quiet (checkTask_updates m j a)) ?_ ω'
    exact Lib.forEach_keep (I := fun c : LimitCheck => ParseInv c.mgr)
      (fun c j a _ hc => hc.quiet (checkLimit_round c j a).updates) h ω
  · exact h

def ResumesReloaded (m : UserSelfMgr) (ids : List String) : Prop :=
  ∃ id t, id ∈ ids ∧ m.findTask id = some t ∧ t.param.type = .kMagnet ∧
    t.param.isFromDbResume = true ∧ t.taskStatus = .kPaused ∧ t.isParseFinish = false

/-- A round of a resume request pauses no task. -/
theorem ResumesReloaded.of_updates {ids : List String} (hu : Updates Resumed j m m')
    (h : ResumesReloaded m' ids) : ResumesReloaded m ids := by
  obtain ⟨id, t', hid, ht', hty, hdb, hp, hf⟩ := h
  by_cases hne : id = j
  · subst hne
    rcases ht : m.findTask id with _ | t
    · rw [hu.none ht] at ht'
      cases ht'
    · obtain ⟨t₁, ht₁, hr⟩ := hu.task t ht
      obtain rfl : t₁ = t' := Option.some.inj (ht₁.symm.trans ht')
      have hk := hr.kept
      exact ⟨id, t, hid, ht, hk.param ▸ hty, hk.param ▸ hdb, hr.paused hp, hk.isParseFinish ▸ hf⟩
  · rw [hu.other id hne] at ht'
    exact ⟨id, t', hid, ht', hty, hdb, hp, hf⟩

theorem ParseInv.forEach_resume (h : ParseInv m) {cond : UserSelfMgr → String → Bool}
    {rounds : List String} (hno : ¬ ResumesReloaded m rounds) (r : Reply) (ω : Nat → Answer) :
    ParseInv (Lib.forEach (operate cond execResumeOperate) (m, r) rounds ω).1 := by
  refine (forEach_operate_keep (I := fun m => ParseInv m ∧ ¬ ResumesReloaded m rounds) ?_
    ⟨h, hno⟩ r ω).1
  rintro m j a hj - ⟨hm, hno⟩
  have hu := execResumeOperate_updates m j a
  refine ⟨hm.updates hu fun t t' ht hr hok => ?_, fun hres => hno (hres.of_updates hu)⟩
  rcases hr.op with hop | hre
  · exact hok.move hop.toMove
  · refine hok.reparse hre (Bool.eq_false_iff.mpr fun hdb => hno ?_)
    exact ⟨j, t, hj, ht, hre.type, hdb, hre.paused, hre.isParseFinish⟩

/-! ## The engine's signal and the completion -/

theorem metadataDownloaded_eq (ht : m.findTask j = some t) (l : TorrentList) :
    m.metadataDownloaded j l = { m.setTask j (t.parseMangetResult l).1 with
      parseQueue := m.parseQueue ++ (t.parseMangetResult l).2.toList } := by
  unfold UserSelfMgr.metadataDownloaded
  rw [ht]

theorem parseMangetResult_eq (hs : t.parseSubscribed = true) (l : TorrentList) :
    t.parseMangetResult l = ({ t with parseSubscribed := false, parseCallback := false },
      if t.parseCallback then some (t.param.id, l.val) else none) := by
  unfold TaskBase.parseMangetResult
  rw [if_pos hs]

theorem parseMangetResult_of_false (hs : t.parseSubscribed = false) (l : TorrentList) :
    t.parseMangetResult l = (t, none) := by
  unfold TaskBase.parseMangetResult
  rw [hs]
  rfl

theorem ParseOk.metadataDownloaded (h : ParseOk m j t) (ht : m.findTask j = some t) (l : TorrentList) :
    ParseOk (m.metadataDownloaded j l) j (t.parseMangetResult l).1 := by
  rw [metadataDownloaded_eq ht]
  cases hs : t.parseSubscribed with
  | false =>
    rw [parseMangetResult_of_false hs]
    exact h.mono fun _ hl => List.mem_append_left _ hl
  | true =>
    rw [parseMangetResult_eq hs]
    refine ⟨h.id_eq, fun hty hdb hp => .inr ?_, h.reloaded⟩
    rcases h.created hty hdb hp with ⟨-, hcb⟩ | ⟨l', hl'⟩
    · refine ⟨l, List.mem_append_right _ ?_⟩
      rw [if_pos hcb, h.id_eq]
      exact List.mem_singleton.mpr rfl
    · exact ⟨l', List.mem_append_left _ hl'⟩

theorem ParseInv.metadataDownloaded (h : ParseInv m) (j : String) (l : TorrentList) :
    ParseInv (m.metadataDownloaded j l) := by
  rcases ht : m.findTask j with _ | t
  · unfold UserSelfMgr.metadataDownloaded
    rwa [ht]
  · intro id t' ht'
    by_cases hne : id = j
    · subst hne
      have hset : (m.metadataDownloaded id l).findTask id = some (t.parseMangetResult l).1 := by
        rw [metadataDownloaded_eq ht]
        exact findTask_setTask ..
      obtain rfl := Option.some.inj (hset.symm.trans ht')
      exact (h id t ht).metadataDownloaded ht l
    · rw [metadataDownloaded_eq ht] at ht' ⊢
      have ht₀ : m.findTask id = some t' := (findTask_setTask_ne m _ hne).symm.trans ht'
      exact (h id t' ht₀).mono fun _ hl => List.mem_append_left _ hl

theorem ParseInv.setFileList (h : ParseInv m) (j : String) (l : TorrentList) :
    ParseInv (m.setFileList j l) := by
  unfold UserSelfMgr.setFileList
  split
  · exact h
  · rename_i t ht
    split
    · have hu : Updates (fun t t' => t' = t.parseTorrent (some l)) j m
          (m.setTask j (t.parseTorrent (some l))) := updates_setTask ht rfl
      refine h.updates hu ?_
      rintro t t' - rfl hok
      refine ⟨hok.id_eq, fun hty hdb hp => hok.created hty hdb (.inl ?_), hok.reloaded⟩
      -- the file list is not empty, so the task can only be parsing still
      rcases hp with hp | hp
      · exact hp
      · simp [TaskBase.isParseFinish, TaskBase.parseTorrent, l.2] at hp
    · exact h

/-- A completion is one for the task it names; the others keep theirs. -/
theorem parseInv_onParseComplete {msg : ParseMessage}
    (hother : ∀ id t, id ≠ msg.1 → m.findTask id = some t → ParseOk m id t)
    (hid : ∀ t, m.findTask msg.1 = some t → t.param.id = msg.1) :
    ParseInv (m.onParseComplete msg a) := by
  intro id t' ht'
  refine ParseOk.of_eq (m := m) ?_ (onParseComplete_parseQueue m msg a)
  by_cases hne : id = msg.1
  · subst hne
    rcases ht : m.findTask msg.1 with _ | t
    · rw [onParseComplete_of_none ht, ht] at ht'
      cases ht'
    · obtain ⟨t₁, hc, heq⟩ := onParseComplete_eq ht a
      rw [heq, findTask_setTask] at ht'
      obtain rfl := Option.some.inj ht'
      refine .of_parsed (by rw [hc.param, hid t ht]) fun _ => ⟨hc.not_parsing, ?_⟩
      rw [TaskBase.isParseFinish, hc.parseFinished, Bool.true_or]
  · rw [findTask_onParseComplete_ne hne] at ht'
    exact hother id t' hne ht'

theorem ParseInv.runParse (h : ParseInv m) (a : Answer) : ParseInv (m.runParse a) := by
  unfold UserSelfMgr.runParse
  split
  · exact h
  · rename_i msg rest hq
    refine parseInv_onParseComplete (fun id t hne ht => ?_) fun t ht => (h msg.1 t ht).id_eq
    refine (h id t ht).mono fun l hl => ?_
    rw [hq] at hl
    rcases List.mem_cons.mp hl with heq | hl
    · exact absurd (congrArg Prod.fst heq) hne
    · exact hl

/-! ## Creation -/

def Pending (id : String) (t : TaskBase) : Prop :=
  t.param.id = id ∧ (t.param.type = .kMagnet → t.param.isFromDbResume = false ∧
    t.hasImpl = true ∧ t.parseCallback = true ∧ ¬ t.Parsing)

/-- Parsing a new magnet task subscribes it, or finds its file list. -/
theorem Pending.parse (h : Pending id t) (m : UserSelfMgr) (userId : String) (a : Answer) :
    ParseOk m id (t.parse userId a).1 := by
  obtain ⟨hid, hmag⟩ := h
  unfold TaskBase.parse
  split
  · rename_i hty
    obtain ⟨hdb, himpl, hcb, hnp⟩ := hmag hty
    unfold TaskBase.magnetParse
    rw [himpl]
    rcases a.torrentList with _ | l
    · refine ⟨hid, fun _ _ _ => .inl ⟨rfl, hcb⟩, fun _ hdb' => ?_⟩
      rw [show t.param.isFromDbResume = true from hdb'] at hdb
      cases hdb
    · refine .of_parsed hid fun _ => ⟨hnp, ?_⟩
      simp [TaskBase.isParseFinish, TaskBase.parseTorrent, l.2]
  · rename_i hty
    exact .of_parsed hid fun hm => by rw [hty] at hm; cases hm
  · rename_i hty _
    have hp : (t.linkParse a).param = t.param := by
      unfold TaskBase.linkParse
      split <;> rfl
    rw [← hp] at hid
    exact .of_parsed hid fun hm => absurd (hp ▸ hm) hty

/-- The invariant while the tasks in `rest` are still to be parsed. -/
structure ParseInvBut (rest : List String) (m : UserSelfMgr) : Prop where
  ok : ∀ id t, id ∉ rest → m.findTask id = some t → ParseOk m id t
  pending : ∀ id t, id ∈ rest → m.findTask id = some t → Pending id t

/-- The synchronous callback, which may find another new task, one with the user's id. -/
theorem ParseInvBut.onParseComplete {rest : List String} (h : ParseInvBut rest m) (msg : ParseMessage)
    (a : Answer) : ParseInvBut rest (m.onParseComplete msg a) := by
  rcases ht : m.findTask msg.1 with _ | t
  · rwa [onParseComplete_of_none ht]
  · have hinv : ∀ id t', id ∉ rest → (m.onParseComplete msg a).findTask id = some t' →
        id ≠ msg.1 → ParseOk (m.onParseComplete msg a) id t' := by
      intro id t' hid ht' hne
      rw [findTask_onParseComplete_ne hne] at ht'
      exact (h.ok id t' hid ht').of_eq (onParseComplete_parseQueue m msg a)
    obtain ⟨t₁, hc, heq⟩ := onParseComplete_eq ht a
    have hself : (m.onParseComplete msg a).findTask msg.1 = some t₁ := by rw [heq, findTask_setTask]
    constructor
    · intro id t' hid ht'
      by_cases hne : id = msg.1
      · subst hne
        obtain rfl := Option.some.inj (hself.symm.trans ht')
        refine .of_parsed (by rw [hc.param, (h.ok _ t hid ht).id_eq]) fun _ => ⟨hc.not_parsing, ?_⟩
        rw [TaskBase.isParseFinish, hc.parseFinished, Bool.true_or]
      · exact hinv id t' hid ht' hne
    · intro id t' hid ht'
      by_cases hne : id = msg.1
      · subst hne
        obtain rfl := Option.some.inj (hself.symm.trans ht')
        obtain ⟨hid', hmag⟩ := h.pending _ t hid ht
        refine ⟨by rw [hc.param, hid'], fun hty => ?_⟩
        obtain ⟨hdb, himpl, hcb, -⟩ := hmag (hc.param ▸ hty)
        exact ⟨hc.param ▸ hdb, hc.hasImpl.trans himpl, hc.parseCallback.trans hcb, hc.not_parsing⟩
      · rw [findTask_onParseComplete_ne hne] at ht'
        exact h.pending id t' hid ht'

theorem ParseInvBut.parseTask {rest : List String} (h : ParseInvBut (id :: rest) m)
    (hid : id ∉ rest) (a : Answer) : ParseInvBut rest (m.parseTask id a) := by
  unfold UserSelfMgr.parseTask
  split
  · rename_i hnone
    refine ⟨fun j t hj ht => ?_, fun j t hj ht => h.pending j t (List.mem_cons_of_mem _ hj) ht⟩
    have hne : j ≠ id := by
      rintro rfl
      rw [hnone] at ht
      cases ht
    exact h.ok j t (by simp [hne, hj]) ht
  · rename_i t ht
    have hset : ParseInvBut rest (m.setTask id (t.parse m.userId a).1) := by
      constructor
      · intro j t' hj ht'
        by_cases hne : j = id
        · subst hne
          obtain rfl := Option.some.inj ((findTask_setTask m j _).symm.trans ht')
          exact (h.pending j t List.mem_cons_self ht).parse _ m.userId a
        · rw [findTask_setTask_ne m _ hne] at ht'
          exact (h.ok j t' (by simp [hne, hj]) ht').of_eq rfl
      · intro j t' hj ht'
        have hne : j ≠ id := fun he => hid (he ▸ hj)
        rw [findTask_setTask_ne m _ hne] at ht'
        exact h.pending j t' (List.mem_cons_of_mem _ hj) ht'
    split
    · rename_i hp
      rwa [hp] at hset
    · rename_i hp
      rw [hp] at hset
      exact hset.onParseComplete _ a

structure Creating (c : Creation) : Prop where
  nodup : c.needParse.Nodup
  listed : ∀ id ∈ c.needParse, (c.mgr.findTask id).isSome
  inv : ParseInvBut c.needParse c.mgr

theorem Creating.execCreate {c : Creation} (h : Creating c) {param : TaskParam}
    (hdb : param.isFromDbResume = false) (host : Host) : Creating (execCreate c param host) := by
  have hc := execCreate_created c param host
  generalize UserSelfMgr.execCreate c param host = c' at hc
  cases hc with
  | refused => exact ⟨h.nodup, h.listed, h.inv⟩
  | dropped =>
    refine ⟨h.nodup, h.listed, fun id t hid ht => ?_, h.inv.pending⟩
    exact (h.inv.ok id t hid ht).of_eq rfl
  | @listed t ht hid himpl s hs reply =>
    have hnew : param.id ∉ c.needParse := by
      intro hmem
      have := h.listed _ hmem
      rw [hid] at this
      cases this
    have hpending : Pending param.id s.task := by
      have hnew := hs.newlyListed ht himpl
      refine ⟨hnew.id, fun hty => ?_⟩
      obtain ⟨himpl', hcb, hst⟩ := hnew.magnet hty
      refine ⟨hnew.isFromDbResume.trans hdb, himpl', hcb, ?_⟩
      rintro (hp | ⟨hp, -⟩) <;> rw [hst] at hp <;> cases hp
    refine ⟨?_, fun id hmem => ?_, fun id t' hmem ht' => ?_, fun id t' hmem ht' => ?_⟩
    · exact List.nodup_append.mpr ⟨h.nodup, List.nodup_singleton _, by
        rintro x hx y hy rfl
        exact hnew (List.mem_singleton.mp hy ▸ hx)⟩
    · by_cases hne : id = param.id
      · subst hne
        rw [findTask_list]
        rfl
      · rw [findTask_list_ne hne]
        exact h.listed id (by simpa [hne] using hmem)
    · have hne : id ≠ param.id := fun he => hmem (by simp [he])
      rw [findTask_list_ne hne] at ht'
      exact (h.inv.ok id t' (fun hm => hmem (List.mem_append_left _ hm)) ht').of_eq rfl
    · by_cases hne : id = param.id
      · subst hne
        rw [findTask_list] at ht'
        exact Option.some.inj ht' ▸ hpending
      · rw [findTask_list_ne hne] at ht'
        exact h.inv.pending id t' (by simpa [hne] using hmem) ht'

theorem ParseInv.createAll (h : ParseInv m) {params : List TaskParam}
    (hdb : ∀ p ∈ params, p.isFromDbResume = false) (host : Nat → Host) (ω : Nat → Answer) :
    ParseInv (m.createAll params host ω).1 := by
  have hc := Lib.forEach_keep (I := Creating)
    (fun c param a (hp : param ∈ params) hc => hc.execCreate (hdb param hp) a) (s := { mgr := m })
    ⟨List.nodup_nil, fun _ hm => absurd hm List.not_mem_nil, fun id t _ ht => h id t ht,
      fun _ _ hm => absurd hm List.not_mem_nil⟩ host
  have hparse : ParseInvBut [] (m.createAll params host ω).1 := by
    refine (Lib.forEach_scan_all (I := fun m rest => rest.Nodup ∧ ParseInvBut rest m) ?_
      ⟨hc.nodup, hc.inv⟩).2
    rintro m id rest k ⟨hnd, hm⟩
    obtain ⟨hid, hnd⟩ := List.nodup_cons.mp hnd
    exact ⟨hnd, hm.parseTask hid (ω k)⟩
  exact fun id t ht => hparse.ok id t List.not_mem_nil ht

theorem ParseInv.resumeRow (h : ParseInv m) {r : TaskBase.Row} {host : Host}
    (hr : ¬ (r.taskStatus = .kParsing ∧
      TaskFactory.getDownloadType host.pathExists r.source = .kMagnet)) :
    ParseInv (m.resumeRow r host) := by
  have hload := resumeRow_reloaded m r host
  generalize m.resumeRow r host = m' at hload
  cases hload with
  | refused => exact h
  | dropped => exact fun id t ht => (h id t ht).of_eq rfl
  | @listed t hid ht =>
    obtain ⟨hparam, hst, hpre⟩ :=
      resumeDataFromDb_status r (TaskFactory.construct r.param host) host.toAnswer
    obtain ⟨url, hash, hcons⟩ := TaskFactory.construct_eq r.param host
    rw [← ht, hcons] at hparam
    rw [← ht] at hst hpre
    intro j t' ht'
    by_cases hne : j = r.id
    · subst hne
      rw [findTask_list] at ht'
      obtain rfl := Option.some.inj ht'
      refine ⟨by rw [hparam]; rfl, fun _ hdb => ?_, fun hty _ => ?_⟩
      · rw [hparam] at hdb
        cases hdb
      · rw [hparam] at hty
        rintro (hp | ⟨-, hp⟩)
        · exact hr ⟨hst.symm.trans hp, hty⟩
        · rw [hpre] at hp
          cases hp
    · rw [findTask_list_ne hne] at ht'
      exact (h j t' ht').of_eq rfl

theorem ParseInv.restart {rows : List TaskBase.Row} {host : Nat → Host}
    (hno : ¬ ∃ k r, rows[k]? = some r ∧ r.taskStatus = .kParsing ∧
      TaskFactory.getDownloadType (host k).pathExists r.source = .kMagnet) (m : UserSelfMgr) :
    ParseInv (m.restart rows host) := by
  refine Lib.forEach_keep_get (I := ParseInv) (fun m k r hk hm => ?_) fun id t ht => by cases ht
  exact hm.resumeRow fun ⟨hp, hty⟩ => hno ⟨k, r, hk, hp, hty⟩

/-! ## Runs -/

/-- A reload brings a magnet task that is parsing, or a resume request sends a reloaded one
back to parsing: it has no subscription and no callback. -/
def Event.LosesParse (m : UserSelfMgr) : Event → Prop
  | .restart rows host => ∃ k r, rows[k]? = some r ∧ r.taskStatus = .kParsing ∧
      TaskFactory.getDownloadType (host k).pathExists r.source = .kMagnet
  | .resume queue ids _ => ResumesReloaded m (matching queue ids)
  | .resumeAll queue _ => ResumesReloaded m queue
  | _ => False

theorem step_parseInv (h : ParseInv m) {e : Event} (hno : ¬ e.LosesParse m) : ParseInv (m.step e) := by
  cases e with
  | createLink sourceList host ω =>
    refine h.createAll (fun p hp => ?_) host ω
    obtain ⟨d, -, rfl⟩ := List.mem_map.mp hp
    rfl
  | createTorrent request host ω =>
    refine h.createAll (fun p hp => ?_) host ω
    obtain rfl := List.mem_singleton.mp hp
    rfl
  | pause ids ω =>
    exact forEach_operate_keep (fun m j a _ _ hm => hm.quiet (execPauseOperate_updates m j a)) h _ ω
  | pauseAll ω =>
    exact forEach_operate_keep (fun m j a _ _ hm => hm.quiet (execPauseOperate_updates m j a)) h _ ω
  | resume queue ids ω => exact h.forEach_resume hno _ ω
  | resumeAll queue ω => exact h.forEach_resume hno _ ω
  | retry queue ids ω =>
    exact forEach_operate_keep (fun m j a _ _ hm => hm.op (execRetryOperate_updates m j a)) h _ ω
  | retryAll queue ω =>
    exact forEach_operate_keep (fun m j a _ _ hm => hm.op (execRetryOperate_updates m j a)) h _ ω
  | restore queue ids ω =>
    exact forEach_operate_keep (fun m j a _ hd hm => hm.op (execRestoreOperate_updates hd a)) h _ ω
  | restoreAll queue ω =>
    exact forEach_operate_keep (fun m j a _ hd hm => hm.op (execRestoreOperate_updates hd a)) h _ ω
  | delete | clean | deleteCategory | cleanCategory =>
    exact step_keep_of_deletes (fun _ _ _ _ hm hd => hm.deleted hd) rfl h
  | timer queue ω ω' => exact h.timerChcek queue ω ω'
  | metadataDownloaded j l => exact h.metadataDownloaded j l
  | setFileList j l => exact h.setFileList j l
  | runParse a => exact h.runParse a
  | reset ω => exact fun id t ht => by cases ht
  | restart rows host => exact .restart hno m
  | settings n b => exact fun id t ht => (h id t ht).of_eq rfl

def LeftParsing (id : String) (m : UserSelfMgr) : Prop :=
  ∃ t, m.findTask id = some t ∧ t.taskStatus ≠ .kParsing

theorem onParseComplete_leftParsing {msg : ParseMessage} (hid : msg.1 = id)
    (ht : m.findTask id = some t) (a : Answer) : LeftParsing id (m.onParseComplete msg a) := by
  subst hid
  obtain ⟨t', hc, heq⟩ := onParseComplete_eq ht a
  exact ⟨t', by rw [heq, findTask_setTask], fun hp => hc.not_parsing (.inl hp)⟩

theorem LeftParsing.runParse (h : LeftParsing id m) (a : Answer) : LeftParsing id (m.runParse a) := by
  unfold UserSelfMgr.runParse
  split
  · exact h
  · rename_i msg rest _
    obtain ⟨t, ht, hst⟩ := h
    by_cases hid : msg.1 = id
    · exact onParseComplete_leftParsing (m := { m with parseQueue := rest }) hid ht a
    · refine ⟨t, ?_, hst⟩
      rw [findTask_onParseComplete_ne (Ne.symm hid)]
      exact ht

/-- Completions set no task parsing. -/
theorem LeftParsing.run_runParse (h : LeftParsing id m) (answers : List Answer) :
    LeftParsing id (Lib.run step m (answers.map .runParse)) := by
  induction answers generalizing m with
  | nil => exact h
  | cons a answers ih => exact ih (h.runParse a)

/-- Once the runner has come to every posted completion, a task that one of them is for has
left `kParsing`. -/
theorem run_runParse_leftParsing {answers : List Answer} (ht : m.findTask id = some t)
    (hq : ∃ l, (id, l) ∈ m.parseQueue) (hlen : answers.length = m.parseQueue.length) :
    LeftParsing id (Lib.run step m (answers.map .runParse)) := by
  induction answers generalizing m with
  | nil =>
    obtain ⟨l, hl⟩ := hq
    rw [List.length_eq_zero_iff.mp hlen.symm] at hl
    cases hl
  | cons a answers ih =>
    obtain ⟨l, hl⟩ := hq
    rcases hqueue : m.parseQueue with _ | ⟨msg, rest⟩
    · rw [hqueue] at hl
      cases hl
    · have hstep : m.step (.runParse a) = ({ m with parseQueue := rest } : UserSelfMgr).onParseComplete msg a := by
        rw [step, UserSelfMgr.runParse, hqueue]
      rw [List.map_cons, Lib.run_cons]
      by_cases hid : msg.1 = id
      · apply LeftParsing.run_runParse
        rw [hstep]
        exact onParseComplete_leftParsing (m := { m with parseQueue := rest }) hid ht a
      · refine ih ?_ ⟨l, ?_⟩ ?_
        · rw [hstep, findTask_onParseComplete_ne (Ne.symm hid)]
          exact ht
        · rw [hstep, onParseComplete_parseQueue]
          rw [hqueue] at hl
          rcases List.mem_cons.mp hl with heq | hl
          · exact absurd (congrArg Prod.fst heq).symm hid
          · exact hl
        · rw [hstep, onParseComplete_parseQueue]
          simpa [hqueue] using hlen

end

/-- A parsing task has a live subscription and its callback, unless its completion is already
posted; when the metadata comes and the runner has run what is posted, it has
left `kParsing`. -/
structure CanFinish (m : UserSelfMgr) (id : String) (t : TaskBase) : Prop where
  live : (∀ l, (id, l) ∉ m.parseQueue) → t.parseSubscribed = true ∧ t.parseCallback = true
  leaves : ∀ (l : TorrentList) (answers : List Answer),
    answers.length = (m.step (.metadataDownloaded id l)).parseQueue.length →
    LeftParsing id (Lib.run step m (.metadataDownloaded id l :: answers.map .runParse))

theorem Awaits.canFinish {m : UserSelfMgr} {id : String} {t : TaskBase} (h : Awaits m id t)
    (ht : m.findTask id = some t) (hid : t.param.id = id) : CanFinish m id t := by
  refine ⟨fun hno => ?_, fun l answers hlen => ?_⟩
  · rcases h with h | ⟨l, hl⟩
    · exact h
    · exact absurd hl (hno l)
  · have heq : m.step (.metadataDownloaded id l) = _ := metadataDownloaded_eq ht l
    have ht' : (m.step (.metadataDownloaded id l)).findTask id = some (t.parseMangetResult l).1 := by
      rw [heq]
      exact findTask_setTask ..
    rw [Lib.run_cons]
    refine run_runParse_leftParsing ht' ?_ hlen
    rw [heq]
    rcases h with ⟨hs, hcb⟩ | ⟨l', hl'⟩
    · refine ⟨l, List.mem_append_right _ ?_⟩
      rw [parseMangetResult_eq hs, if_pos hcb, hid]
      exact List.mem_singleton.mpr rfl
    · exact ⟨l', List.mem_append_left _ hl'⟩

/-- In every run from an empty list in which no reload brings a parsing magnet task and no
resume request covers a reloaded one that was paused before its metadata was
known, every magnet task that is parsing can finish. -/
theorem run_canFinish (m : UserSelfMgr) (hm : m.taskList = ∅) (es : List Event)
    (h : Lib.Along step (fun m e => ¬ e.LosesParse m) m es) (id : String) (t : TaskBase)
    (ht : (Lib.run step m es).findTask id = some t) (hty : t.param.type = .kMagnet)
    (hst : t.taskStatus = .kParsing) : CanFinish (Lib.run step m es) id t := by
  have hempty : ParseInv m := by
    intro id t ht
    rw [findTask, hm] at ht
    cases ht
  have hinv : ParseInv (Lib.run step m es) :=
    h.run (I := ParseInv) (fun _ _ hs hno => step_parseInv hs hno) hempty
  have hok := hinv id t ht
  have hdb : t.param.isFromDbResume = false := by
    rw [Bool.eq_false_iff]
    exact fun hdb => hok.reloaded hty hdb (.inl hst)
  exact (hok.created hty hdb (.inl (.inl hst))).canFinish ht hok.id_eq

def pausedAndResumed : List Event :=
  [magnetTask "a", .pause ["a"] fun _ => {}, .resume ["a"] ["a"] fun _ => {}]

theorem run_canFinish_pausedAndResumed :
    ∃ t, (Lib.run step { userId := "u" } pausedAndResumed).findTask "a" = some t ∧
      t.taskStatus = .kParsing ∧ CanFinish (Lib.run step { userId := "u" } pausedAndResumed) "a" t := by
  have hnow : ((Lib.run step { userId := "u" } pausedAndResumed).findTask "a").map
      (fun t => (t.taskStatus, t.param.type)) = some (.kParsing, .kMagnet) := by decide +kernel
  obtain ⟨t, ht, hst⟩ := Option.map_eq_some_iff.mp hnow
  obtain ⟨hst, hty⟩ := Prod.mk.inj hst
  refine ⟨t, ht, hst, run_canFinish { userId := "u" } rfl pausedAndResumed ⟨nofun, nofun, ?_, trivial⟩
    "a" t ht hty hst⟩
  rintro ⟨id, t', hid, ht', -, hdb, -⟩
  obtain rfl : id = "a" := by simpa [matching] using hid
  have hbefore : ((Lib.run step { userId := "u" } [magnetTask "a", .pause ["a"] fun _ => {}]).findTask
      "a").map (·.param.isFromDbResume) = some false := by decide +kernel
  rw [show (Lib.run step { userId := "u" } [magnetTask "a", .pause ["a"] fun _ => {}]).findTask "a" =
    some t' from ht', Option.map_some, hdb] at hbefore
  cases hbefore

def parsingRow : TaskBase.Row where
  id := "a"
  source := "magnet:?xt=urn:btih:a"
  downloadType := .kMagnet
  taskStatus := .kParsing
  isStarted := true

def restartedWhileParsing : List Event :=
  [magnetTask "a", .restart [parsingRow] fun _ => { taskHash := "a" }]

/-- The reloaded task is parsing without subscription or callback, and the metadata does not
get it out of `kParsing`. -/
theorem restart_loses_parse :
    ∃ t, (Lib.run step { userId := "u" } restartedWhileParsing).findTask "a" = some t ∧
      t.param.type = .kMagnet ∧ t.taskStatus = .kParsing ∧
      (Lib.run step { userId := "u" } restartedWhileParsing).parseQueue = [] ∧
      t.parseSubscribed = false ∧ t.parseCallback = false ∧
      ¬ CanFinish (Lib.run step { userId := "u" } restartedWhileParsing) "a" t := by
  have hnow : ((Lib.run step { userId := "u" } restartedWhileParsing).findTask "a").map
      (fun t => (t.param.type, t.taskStatus, t.parseSubscribed, t.parseCallback)) =
      some (.kMagnet, .kParsing, false, false) := by decide +kernel
  obtain ⟨t, ht, heq⟩ := Option.map_eq_some_iff.mp hnow
  simp only [Prod.mk.injEq] at heq
  obtain ⟨hty, hst, hsub, hcb⟩ := heq
  refine ⟨t, ht, hty, hst, by decide +kernel, hsub, hcb, fun hfin => ?_⟩
  obtain ⟨t', ht', hst'⟩ := hfin.leaves ⟨"f", by decide⟩ [] (by decide +kernel)
  have hafter : ((Lib.run step { userId := "u" } (restartedWhileParsing ++
      [.metadataDownloaded "a" ⟨"f", by decide⟩])).findTask "a").map (·.taskStatus) =
      some .kParsing := by decide +kernel
  rw [Lib.run_append] at hafter
  obtain ⟨t₁, ht₁, hst₁⟩ := Option.map_eq_some_iff.mp hafter
  obtain rfl := Option.some.inj (ht₁.symm.trans ht')
  exact hst' hst₁

end Nas.Download.UserSelfMgr
