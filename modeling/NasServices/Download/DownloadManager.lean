import NasServices.Download.UserSelfMgr.Request

/-!
# All users

`DownloadManager` holds the task manager of every user. They share the
reference counts and the download engine: an event of one user is run on that
user's manager with the shared parts put in, and these are taken back
afterwards (`enter`, `leave`). A request for a user who is not known yet
creates the manager only if it creates tasks.
-/

namespace Nas.Download

def UserSelfMgr.hashNum (m : UserSelfMgr) (hash : String) : Nat :=
  Lib.sumBy (fun _ t => if t.param.hash = hash then 1 else 0) m.taskList

structure DownloadManager where
  userSelfMgrList : AList fun _ : String => UserSelfMgr := ∅
  refs : TaskRefCount := ∅
  engine : List EngineCall := []

namespace DownloadManager

def findUser (s : DownloadManager) (userId : String) : Option UserSelfMgr :=
  s.userSelfMgrList.lookup userId

def enter (s : DownloadManager) (m : UserSelfMgr) : UserSelfMgr :=
  { m with refs := s.refs, engine := s.engine }

def leave (s : DownloadManager) (userId : String) (m : UserSelfMgr) : DownloadManager :=
  { userSelfMgrList := s.userSelfMgrList.insert userId m, refs := m.refs, engine := m.engine }

inductive Event
  | user (userId : String) (e : UserSelfMgr.Event)
  | resumeFromDb (userId : String) (rows : List TaskBase.Row) (host : Nat → Host)
  /-- The process ends; nothing in memory survives. -/
  | restart

def step (s : DownloadManager) : Event → DownloadManager
  | .user _ (.restart ..) => s
  | .user userId e =>
    match s.findUser userId with
    | some m => s.leave userId ((s.enter m).step e)
    | none => if e.lists then s.leave userId ((s.enter { userId }).step e) else s
  | .resumeFromDb userId rows host =>
    s.leave userId ((s.enter ((s.findUser userId).getD { userId })).resumeFromDb rows host)
  | .restart => {}

def taskNum (s : DownloadManager) (hash : String) : Nat :=
  Lib.sumBy (fun _ m => m.hashNum hash) s.userSelfMgrList

def live (hash : String) : List EngineCall → Bool
  | [] => false
  | .start h :: calls => h == hash || live hash calls
  | .cancel h ok :: calls => !(h == hash && ok) && live hash calls

end DownloadManager

end Nas.Download
