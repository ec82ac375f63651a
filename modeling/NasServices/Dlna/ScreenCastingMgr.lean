import NasServices.Dlna.ScreenCastingTask
import NasServices.Lib.Keyed
import NasServices.Lib.Run

/-!
# The screen casting manager

`ScreenCastingMgr` of the DLNA server as a machine on its work thread. An event is
a request of a client (`createTask`, `cancelTask`, `cancelAllTask`,
`changeTaskPlayUrl`), a result that a renderer sends back, a count of the open
pages of a cast, a timer, or a renderer that comes or goes. Every request is
numbered and its callback is known by that number; `replies` are the callbacks that
have been run. A request sent to a renderer is kept with its user data until the
result arrives, in any order.
-/

namespace Nas.Dlna

inductive DlnaServiceErrorNo
  | success
  | createScreenCastingFailed
  | screenCastingDeviceNotExist
  deriving DecidableEq

structure Reply where
  request : Nat
  id : Option Nat
  errCode : DlnaServiceErrorNo
  deriving DecidableEq

structure ScreenCastingMgr where
  mediaRenderers : List Device := []
  task : List ScreenCastingTask := []
  pushTimer : Bool := false
  /-- Delayed calls of `StartTaskTimer` that have been posted. -/
  timerPosts : Nat := 0
  /-- The user data of the `SetAVTransportURI` requests without a result. -/
  setRequests : List (Option Nat) := []
  /-- The user data of the `Stop` requests without a result. -/
  stopRequests : List Nat := []
  replies : List Reply := []
  nextGuid : Nat := 0
  nextRequest : Nat := 0
  deriving DecidableEq

inductive Event
  | createTask (deviceId playUrl : String)
  | cancelTask (id : Nat)
  | cancelAllTask
  | changeTaskPlayUrl (id : Nat) (playUrl : String)
  | onSetAVTransportURIResult (k : Nat) (succ : Bool)
  | onStopResult (k : Nat) (succ : Bool)
  | onGetPositionInfoResult (id : Nat) (info : PositionInfo)
  | onGetTransportInfoResult (id : Nat) (info : TransportInfo)
  | onGetVolumeResult (id : Nat) (volume : Nat)
  | connStausCallback (id : Nat) (connCount : Int)
  | startTaskTimer
  | timeingPushTaskStatus
  | onGetProtocolInfoResult (device : Device)
  | onMRRemoved (uuid : String)
  deriving DecidableEq

def Event.isTransport : Event → Bool
  | .onGetTransportInfoResult _ _ => true
  | _ => false

namespace ScreenCastingMgr

open Lib (Keyed.find Keyed.add Keyed.modify Keyed.delete)

variable (gurl : String → Gurl)

def replacePlayUrlHost (localIp playUrl : String) : String :=
  let original := gurl playUrl
  if "dynamic_res/v1/media/video/dlna/playfile".toList <:+: original.path.toList then
    "http://" ++ localIp ++ ":0" ++ original.path ++
      if original.query ≠ "" then "?" ++ original.query else ""
  else playUrl

def findTask (s : ScreenCastingMgr) (id : Nat) : Option ScreenCastingTask :=
  Keyed.find ScreenCastingTask.id s.task id

def modifyTask (s : ScreenCastingMgr) (id : Nat) (f : ScreenCastingTask → ScreenCastingTask) :
    ScreenCastingMgr :=
  { s with task := Keyed.modify ScreenCastingTask.id s.task id f }

def removeTask (s : ScreenCastingMgr) (id : Nat) : ScreenCastingMgr :=
  { s with task := Keyed.delete ScreenCastingTask.id s.task id }

def createTask (s : ScreenCastingMgr) (deviceId playUrl : String) : ScreenCastingMgr :=
  let request := s.nextRequest
  let s := { s with nextRequest := request + 1 }
  match Keyed.find Device.uuid s.mediaRenderers deviceId with
  | none => { s with replies := s.replies ++ [⟨request, none, .screenCastingDeviceNotExist⟩] }
  | some device =>
    let task : ScreenCastingTask :=
      { id := s.nextGuid, playUrl := replacePlayUrlHost gurl device.localIp playUrl,
        mediaRenderes := device }
    { s with
      nextGuid := s.nextGuid + 1
      task := Keyed.add ScreenCastingTask.id s.task (task.start request)
      setRequests := s.setRequests ++ [some task.id] }

def cancelTask (s : ScreenCastingMgr) (id : Nat) : ScreenCastingMgr :=
  match s.findTask id with
  | none => s
  | some _ => { s with stopRequests := s.stopRequests ++ [id] }

def cancelAllTask (s : ScreenCastingMgr) : ScreenCastingMgr :=
  { s with stopRequests := s.stopRequests ++ s.task.map ScreenCastingTask.id }

/-- The task is given the url as it was requested, not with the host replaced. -/
def changeTaskPlayUrl (s : ScreenCastingMgr) (id : Nat) (playUrl : String) : ScreenCastingMgr :=
  match s.findTask id with
  | none => s
  | some _ =>
    let s := s.modifyTask id fun t => t.changePlayUrl playUrl
    { s with setRequests := s.setRequests ++ [none] }

def onStart (s : ScreenCastingMgr) (t : ScreenCastingTask) (succ : Bool) : ScreenCastingMgr :=
  match t.startCallback with
  | none => s
  | some request =>
    let s := s.modifyTask t.id fun t => { t with startCallback := none }
    { s with
      replies := s.replies ++
        [if succ then ⟨request, some t.id, .success⟩ else ⟨request, none, .createScreenCastingFailed⟩] }

def onSetAVTransportURIResult (s : ScreenCastingMgr) (k : Nat) (succ : Bool) : ScreenCastingMgr :=
  let taskId := s.setRequests[k]?.join
  let s := { s with setRequests := s.setRequests.eraseIdx k }
  match taskId.bind s.findTask with
  | none => s
  | some t =>
    let s := s.onStart t succ
    if succ then { s with timerPosts := s.timerPosts + 1 } else s.removeTask t.id

def onStopResult (s : ScreenCastingMgr) (k : Nat) : ScreenCastingMgr :=
  let taskId := s.stopRequests[k]?
  let s := { s with stopRequests := s.stopRequests.eraseIdx k }
  match taskId.bind s.findTask with
  | none => s
  | some t => s.removeTask t.id

def connStausCallback (s : ScreenCastingMgr) (id : Nat) (connCount : Int) : ScreenCastingMgr :=
  if connCount = 0 then s.removeTask id else s

def startTaskTimer (s : ScreenCastingMgr) : ScreenCastingMgr :=
  if s.timerPosts = 0 then s
  else { s with timerPosts := s.timerPosts - 1, pushTimer := true }

def timeingPushTaskStatus (s : ScreenCastingMgr) : ScreenCastingMgr :=
  if s.pushTimer = false then s
  else if s.task = [] then { s with pushTimer := false }
  else
    { s with
      task := s.task.filterMap fun t =>
        if (t.notifyStatusInfo gurl).2 then none else some (t.notifyStatusInfo gurl).1 }

def step (s : ScreenCastingMgr) : Event → ScreenCastingMgr
  | .createTask deviceId playUrl => s.createTask gurl deviceId playUrl
  | .cancelTask id => s.cancelTask id
  | .cancelAllTask => s.cancelAllTask
  | .changeTaskPlayUrl id playUrl => s.changeTaskPlayUrl id playUrl
  | .onSetAVTransportURIResult k succ => s.onSetAVTransportURIResult k succ
  | .onStopResult k _ => s.onStopResult k
  | .onGetPositionInfoResult id info => s.modifyTask id fun t => t.setPositionInfo info
  | .onGetTransportInfoResult id info => s.modifyTask id fun t => t.setTransportInfo info
  | .onGetVolumeResult id volume => s.modifyTask id fun t => t.setVolume volume
  | .connStausCallback id connCount => s.connStausCallback id connCount
  | .startTaskTimer => s.startTaskTimer
  | .timeingPushTaskStatus => s.timeingPushTaskStatus gurl
  | .onGetProtocolInfoResult device =>
    { s with mediaRenderers := Keyed.add Device.uuid s.mediaRenderers device }
  | .onMRRemoved uuid => { s with mediaRenderers := Keyed.delete Device.uuid s.mediaRenderers uuid }

end ScreenCastingMgr

end Nas.Dlna
