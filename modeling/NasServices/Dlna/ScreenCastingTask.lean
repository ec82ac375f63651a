import Mathlib.Data.List.Infix

/-!
# A screen casting task

`ScreenCastingTask` of the DLNA server: one play url on one media renderer, the
callback that answers the request it was created for, and what the renderer last
reported. `notifyStatusInfo` is what the push timer asks of a task; it says whether
the task has ended, and `notifyStatusInfo_ended` reads that off the state before the
call: the renderer has been stopped for the fourth time, or it plays another url.

Urls are parsed by a library of its own. Every definition takes the parser as an
argument; of a parsed url the service reads the path and the query only.
-/

namespace Nas.Dlna

structure Gurl where
  path : String
  query : String
  deriving DecidableEq

namespace Gurl

def ofHttp (url : String) : Gurl :=
  let rest := (url.toList.drop "http://".length).dropWhile (· ≠ '/')
  ⟨String.ofList (rest.takeWhile (· ≠ '?')), String.ofList ((rest.dropWhile (· ≠ '?')).drop 1)⟩

end Gurl

structure Device where
  uuid : String
  localIp : String
  deriving DecidableEq

structure PositionInfo where
  trackUri : String := ""
  trackDuration : Int := 0
  relTime : Int := 0
  deriving DecidableEq

structure TransportInfo where
  curTransportState : String := ""
  curTransportStatus : String := ""
  deriving DecidableEq

inductive PlayStatus
  | unknown
  | playing
  | pause
  | stoped
  deriving DecidableEq

structure NotifyContent where
  status : PlayStatus
  duration : Int
  relTime : Int
  volume : Nat
  mediaUrl : String
  deriving DecidableEq

structure ScreenCastingTask where
  id : Nat
  playUrl : String
  mediaRenderes : Device
  /-- The request that the callback answers, until the callback has been run. -/
  startCallback : Option Nat := none
  positionInfo : PositionInfo := {}
  transportInfo : TransportInfo := {}
  volume : Nat := 0
  stopedCount : Nat := 0
  lastNotifyContent : Option NotifyContent := none
  /-- Not in the source: the track uris reported since the play url was last set,
  the latest first. -/
  reported : List String := []
  deriving DecidableEq

namespace ScreenCastingTask

variable (gurl : String → Gurl)

def start (t : ScreenCastingTask) (callback : Nat) : ScreenCastingTask :=
  { t with startCallback := some callback }

def changePlayUrl (t : ScreenCastingTask) (playUrl : String) : ScreenCastingTask :=
  { t with playUrl := playUrl, reported := [] }

def setPositionInfo (t : ScreenCastingTask) (info : PositionInfo) : ScreenCastingTask :=
  { t with positionInfo := info, reported := info.trackUri :: t.reported }

def setTransportInfo (t : ScreenCastingTask) (info : TransportInfo) : ScreenCastingTask :=
  { t with transportInfo := info }

def setVolume (t : ScreenCastingTask) (volume : Nat) : ScreenCastingTask := { t with volume := volume }

def getTaskPlayStatus (t : ScreenCastingTask) : PlayStatus :=
  if t.transportInfo.curTransportStatus ≠ "OK" then .unknown
  else if t.transportInfo.curTransportState = "PLAYING" then .playing
  else if t.transportInfo.curTransportState = "PAUSED_PLAYBACK" then .pause
  else if t.transportInfo.curTransportState = "STOPPED" then .stoped
  else if t.transportInfo.curTransportState = "NO_MEDIA_PRESENT" then .stoped
  else .unknown

def Differs (u v : String) : Prop := (gurl u).path ≠ (gurl v).path ∨ (gurl u).query ≠ (gurl v).query

instance (u v : String) : Decidable (Differs gurl u v) := inferInstanceAs (Decidable (_ ∨ _))

def changedPlayUrl (t : ScreenCastingTask) : Bool :=
  t.positionInfo.trackUri ≠ "" && decide (Differs gurl t.playUrl t.positionInfo.trackUri)

/-- The status a push reports: a stop counts from the fourth time on, and a task
whose renderer plays another url is taken as stopped. -/
def notifiedStatus (t : ScreenCastingTask) : PlayStatus :=
  if t.changedPlayUrl gurl then .stoped
  else if t.getTaskPlayStatus = .stoped ∧ t.stopedCount < 3 then .unknown
  else t.getTaskPlayStatus

def notifyStatusInfo (t : ScreenCastingTask) : ScreenCastingTask × Bool :=
  let stopedCount := if t.getTaskPlayStatus = .stoped then t.stopedCount + 1 else t.stopedCount
  let status := t.notifiedStatus gurl
  let content : NotifyContent :=
    ⟨status, t.positionInfo.trackDuration, t.positionInfo.relTime, t.volume, t.positionInfo.trackUri⟩
  if t.lastNotifyContent = some content ∧ status ≠ .stoped then
    ({ t with stopedCount := stopedCount }, false)
  else
    ({ t with stopedCount := stopedCount, lastNotifyContent := some content },
      if t.changedPlayUrl gurl then true else status = .stoped)

def Stopped (t : ScreenCastingTask) : Prop := t.getTaskPlayStatus = .stoped ∧ 3 ≤ t.stopedCount

instance (t : ScreenCastingTask) : Decidable t.Stopped := inferInstanceAs (Decidable (_ ∧ _))

variable {gurl} {t : ScreenCastingTask}

theorem changedPlayUrl_iff :
    t.changedPlayUrl gurl = true ↔
      t.positionInfo.trackUri ≠ "" ∧ Differs gurl t.playUrl t.positionInfo.trackUri := by
  simp [changedPlayUrl]

theorem notifiedStatus_stoped :
    t.notifiedStatus gurl = .stoped ↔ t.changedPlayUrl gurl = true ∨ t.Stopped := by
  unfold notifiedStatus Stopped
  by_cases hc : t.changedPlayUrl gurl = true
  · simp [hc]
  · by_cases hs : t.getTaskPlayStatus = .stoped
    · by_cases hn : t.stopedCount < 3
      · simp [hc, hs, hn]
      · simp [hc, hs, hn, Nat.not_lt.mp hn]
    · simp [hc, hs]

/-- A push ends a task exactly when its renderer plays another url or has stopped. -/
theorem notifyStatusInfo_ended :
    (t.notifyStatusInfo gurl).2 = true ↔ t.changedPlayUrl gurl = true ∨ t.Stopped := by
  rw [← notifiedStatus_stoped]
  have hchanged : t.changedPlayUrl gurl = true → t.notifiedStatus gurl = .stoped :=
    fun h => notifiedStatus_stoped.mpr (.inl h)
  unfold notifyStatusInfo
  dsimp only
  split
  · rename_i hsame
    simp [hsame.2]
  · by_cases hc : t.changedPlayUrl gurl = true
    · simp [hc, hchanged hc]
    · simp [hc]

/-- A push changes what was notified and the count of stops, and nothing else. -/
theorem notifyStatusInfo_fst (t : ScreenCastingTask) (gurl : String → Gurl) :
    ∃ n c, (t.notifyStatusInfo gurl).1 =
    { t with stopedCount := n, lastNotifyContent := c } := by
  unfold notifyStatusInfo
  dsimp only
  split
  · exact ⟨_, t.lastNotifyContent, rfl⟩
  · exact ⟨_, _, rfl⟩

end ScreenCastingTask

end Nas.Dlna
