import NasServices.Download.UserSelfMgr.Parsing

/-!
# The two ways a magnet task is parsed

When the metadata is known, `Parse` runs the callback at once; when it is not,
the engine's signal runs it later through `ParseMangetResult`. The second way
passes the task's id and its file list to `OnParseComplete`. The first passes
the user's id and the task's id (`received_known`), so it completes the task
only where these happen to agree (`parsedBy_iff`).
-/

namespace Nas.Download.UserSelfMgr

inductive ParsePath
  | known
  | later
  deriving DecidableEq, Repr

structure NewMagnet (t : TaskBase) : Prop where
  type : t.param.type = .kMagnet
  hasImpl : t.hasImpl = true
  parseCallback : t.parseCallback = true
  taskStatus : t.taskStatus = .kWaitting

def knownAnswer (l : TorrentList) (a : Answer) : Answer := { a with torrentList := some l }

def unknownAnswer (a : Answer) : Answer := { a with torrentList := none }

def received (userId : String) (t : TaskBase) (l : TorrentList) (a : Answer) :
    ParsePath → Option TaskBase.ParseMessage
  | .known => (t.parse userId (knownAnswer l a)).2
  | .later => ((t.parse userId (unknownAnswer a)).1.parseMangetResult l).2

def initialStatus (userId : String) (t : TaskBase) (a : Answer) : ParsePath → TaskStatus
  | .known => t.taskStatus
  | .later => (t.parse userId (unknownAnswer a)).1.taskStatus

def parsing (m : UserSelfMgr) (id : String) (l : TorrentList) (a : Answer) : UserSelfMgr :=
  (m.parseTask id (unknownAnswer a)).metadataDownloaded id l

def parsed (m : UserSelfMgr) (id : String) (l : TorrentList) (a a' : Answer) : ParsePath → UserSelfMgr
  | .known => m.parseTask id (knownAnswer l a)
  | .later => (m.parsing id l a).runParse a'

/-- `OnParseComplete` was given the task's id and file list, and completed the task. -/
structure ParsedBy (path : ParsePath) (m : UserSelfMgr) (t : TaskBase) (l : TorrentList)
    (a a' : Answer) : Prop where
  message : received m.userId t l a path = some (t.param.id, l.val)
  task : ∃ t', (parsed m t.param.id l a a' path).findTask t.param.id = some t' ∧
    t'.parseFinished = true ∧ t'.fileList = l.val ∧ t'.taskStatus ≠ initialStatus m.userId t a path

section

variable {m : UserSelfMgr} {t : TaskBase} {l : TorrentList} {a a' : Answer}

theorem NewMagnet.parse_eq (h : NewMagnet t) (userId : String) (a : Answer) :
    t.parse userId a = t.magnetParse userId a := by
  unfold TaskBase.parse
  rw [h.type]

theorem NewMagnet.parse_known (h : NewMagnet t) (userId : String) (l : TorrentList) (a : Answer) :
    t.parse userId (knownAnswer l a) =
      ({ t with fileList := l.val, parseCallback := false }, some (userId, t.param.id)) := by
  rw [h.parse_eq]
  unfold TaskBase.magnetParse
  rw [if_neg (by simp [h.hasImpl])]
  show (_, if t.parseCallback then some (userId, t.param.id) else none) = _
  rw [if_pos h.parseCallback]
  rfl

theorem NewMagnet.parse_unknown (h : NewMagnet t) (userId : String) (a : Answer) :
    t.parse userId (unknownAnswer a) =
      ({ t.setTaskStatus .kParsing with parseSubscribed := true }, none) := by
  rw [h.parse_eq]
  unfold TaskBase.magnetParse
  rw [if_neg (by simp [h.hasImpl])]
  rfl

/-- The callback run by `Parse` itself is given the user's id and the task's id. -/
theorem received_known (h : NewMagnet t) (userId : String) (l : TorrentList) (a : Answer) :
    received userId t l a .known = some (userId, t.param.id) := by
  rw [received, h.parse_known]

theorem received_later (h : NewMagnet t) (userId : String) (l : TorrentList) (a : Answer) :
    received userId t l a .later = some (t.param.id, l.val) := by
  rw [received, h.parse_unknown, parseMangetResult_eq rfl]
  show (if t.parseCallback then some (t.param.id, l.val) else none) = _
  rw [if_pos h.parseCallback]

theorem onParseComplete_completes (id result : String) (ht : m.findTask id = some t) (a : Answer) :
    ∃ t', (m.onParseComplete (id, result) a).findTask id = some t' ∧ Completed m result t t' := by
  have hmsg : m.findTask (id, result).1 = some t := ht
  obtain ⟨t', hc, heq⟩ := onParseComplete_eq hmsg a
  exact ⟨t', by rw [heq, findTask_setTask], hc⟩

/-- The metadata comes later: the posted call completes the task. -/
theorem parsedBy_later (ht : m.findTask t.param.id = some t) (h : NewMagnet t)
    (hq : m.parseQueue = []) (l : TorrentList) (a a' : Answer) : ParsedBy .later m t l a a' := by
  refine ⟨received_later h m.userId l a, ?_⟩
  have hparse : m.parseTask t.param.id (unknownAnswer a) =
      m.setTask t.param.id { t.setTaskStatus .kParsing with parseSubscribed := true } := by
    unfold parseTask
    rw [ht]
    dsimp only
    rw [h.parse_unknown]
  obtain ⟨t₁, ht₁, hq₁⟩ : ∃ t₁, (m.parsing t.param.id l a).findTask t.param.id = some t₁ ∧
      (m.parsing t.param.id l a).parseQueue = [(t.param.id, l.val)] := by
    rw [parsing, hparse, metadataDownloaded_eq (findTask_setTask ..)]
    refine ⟨_, findTask_setTask .., ?_⟩
    rw [parseMangetResult_eq rfl]
    show m.parseQueue ++ (if t.parseCallback then some (t.param.id, l.val) else none).toList = _
    rw [hq, if_pos h.parseCallback]
    rfl
  have hrun : parsed m t.param.id l a a' .later =
      ({ m.parsing t.param.id l a with parseQueue := [] } : UserSelfMgr).onParseComplete
        (t.param.id, l.val) a' := by
    rw [parsed, runParse, hq₁]
  obtain ⟨t', ht', hc⟩ := onParseComplete_completes
    (m := { m.parsing t.param.id l a with parseQueue := [] }) t.param.id l.val ht₁ a'
  refine ⟨t', by rw [hrun, ht'], hc.parseFinished, hc.fileList, fun hst => hc.not_parsing (.inl ?_)⟩
  rw [hst, initialStatus, h.parse_unknown]
  rfl

/-- Whether a new task could be started does not depend on what `Parse` did to it. -/
theorem parsed_known (ht : m.findTask t.param.id = some t) (h : NewMagnet t) :
    parsed m t.param.id l a a' .known =
      (m.setTask t.param.id { t with fileList := l.val, parseCallback := false }).onParseComplete
        (m.userId, t.param.id) (knownAnswer l a) := by
  rw [parsed, parseTask, ht]
  dsimp only
  rw [h.parse_known]

/-- The metadata is known: the call names the user, so it completes the task if the user's id
is the task's id, and stores the task's id for the file list. -/
theorem parsedBy_known_iff (ht : m.findTask t.param.id = some t) (h : NewMagnet t) :
    ParsedBy .known m t l a a' ↔
      m.userId = t.param.id ∧ t.param.id = l.val ∧ m.isCanStart = true := by
  have hset := findTask_setTask m t.param.id { t with fileList := l.val, parseCallback := false }
  have hcan : (m.setTask t.param.id { t with fileList := l.val, parseCallback := false }).isCanStart = m.isCanStart :=
    isCanStart_setTask ht rfl
  constructor
  · rintro ⟨hmsg, t', ht', -, -, hst⟩
    rw [received_known h] at hmsg
    obtain ⟨hu, hl⟩ := Prod.mk.inj (Option.some.inj hmsg)
    refine ⟨hu, hl, ?_⟩
    rw [parsed_known ht h, hu] at ht'
    obtain ⟨t₁, ht₁, hc⟩ := onParseComplete_completes t.param.id t.param.id hset
      (knownAnswer l a)
    obtain rfl := Option.some.inj (ht₁.symm.trans ht')
    -- without a free slot the task is put back to waiting, which it was
    by_contra hno
    rw [hc.taskStatus, hcan, if_neg hno, initialStatus, h.taskStatus] at hst
    exact hst rfl
  · rintro ⟨hu, hl, hroom⟩
    refine ⟨by rw [received_known h, hu, ← hl], ?_⟩
    rw [parsed_known ht h, hu]
    obtain ⟨t', ht', hc⟩ := onParseComplete_completes t.param.id t.param.id hset
      (knownAnswer l a)
    refine ⟨t', ht', hc.parseFinished, hc.fileList.trans hl, ?_⟩
    rw [hc.taskStatus, hcan, if_pos hroom, initialStatus, h.taskStatus]
    split <;> decide

end

/-- A new magnet task is parsed as it should be if and only if the metadata comes later, or
the user's id, the task's id and the file list are all the same text (and a slot
is free, or else the task stays waiting). -/
theorem parsedBy_iff (path : ParsePath) (m : UserSelfMgr) (t : TaskBase) (l : TorrentList)
    (a a' : Answer) (ht : m.findTask t.param.id = some t) (h : NewMagnet t) (hq : m.parseQueue = []) :
    ParsedBy path m t l a a' ↔
      path = .later ∨ (m.userId = t.param.id ∧ t.param.id = l.val ∧ m.isCanStart = true) := by
  cases path with
  | known => simpa using parsedBy_known_iff ht h
  | later => simpa using parsedBy_later ht h hq l a a'

def newMagnet : TaskBase where
  param := { id := "a", url := "magnet:?xt=urn:btih:a", type := .kMagnet, torrent := some {} }
  isStarted := true
  parseCallback := true

def oneMagnet : UserSelfMgr where
  userId := "u"
  taskList := (∅ : AList fun _ : String => TaskBase).insert "a" newMagnet

theorem parsedBy_iff_oneMagnet : ParsedBy .later oneMagnet newMagnet ⟨"f", by decide⟩ {} {} :=
  (parsedBy_iff .later oneMagnet newMagnet ⟨"f", by decide⟩ {} {} rfl ⟨rfl, rfl, rfl, rfl⟩ rfl).mpr
    (.inl rfl)

/-- With the metadata known, the call names the user and the task is left as it was. -/
theorem parsed_known_misses_task :
    received "u" newMagnet ⟨"f", by decide⟩ {} .known = some ("u", "a") ∧
    ((parsed oneMagnet "a" ⟨"f", by decide⟩ {} {} .known).findTask "a").map
      (fun t => (t.parseFinished, t.taskStatus)) = some (false, .kWaitting) ∧
    ¬ ParsedBy .known oneMagnet newMagnet ⟨"f", by decide⟩ {} {} := by
  refine ⟨by decide +kernel, by decide +kernel, fun h => ?_⟩
  have hmsg : some ("u", "a") = some ("a", "f") := h.message
  exact absurd hmsg (by decide)

end Nas.Download.UserSelfMgr
