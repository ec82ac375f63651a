import NasServices.Download.TaskRefCount
import NasServices.Lib.Run

/-!
# BitTorrent tasks and the events of the session

A `BtTaskBase` owns an adapter, `MagnetDownloadTaskImpl` or
`TorrentlFileDownloadTaskImpl`, and the two are destroyed together. The
adapter makes a `SubscribeEvent` and never deletes it; the callbacks that the
`SubscribeEvent` holds are bound to the adapter and to the task by plain
pointers, and it recognises its events by the infohash alone.

Objects have a number that is never used again. `tasks` holds the tasks that
have not been destroyed: a task lives while the list of its user or a closure
posted to the thread pool refers to it. `calls` records every callback that was
run, and whether the task it was run on was still there.

The session emits `torrentAdded` when an infohash that it was loading has been
added, and `metadataDownloaded` for any alert of libtorrent, which may come
after the torrent was removed. Both run their slots on the thread of the
session; `UpdateAndPublishTorrentInfo` then posts itself to the thread of the
manager (`posted`).
-/

namespace Nas.NetBt

open Download (TaskRefCount)

/-! ## The session -/

structure Session where
  loadingTorrents : List String := []
  torrents : List String := []
  deriving DecidableEq, Repr

namespace Session

def addTorrent (s : Session) (hash : String) : Session × Bool :=
  if hash ∈ s.loadingTorrents then (s, false)
  else if hash ∈ s.torrents then (s, false)
  else ({ s with loadingTorrents := hash :: s.loadingTorrents }, true)

def deleteTorrent (s : Session) (hash : String) : Session :=
  { s with torrents := s.torrents.erase hash }

/-- `handleAddTorrentAlerts` for one alert; the result says whether `torrentAdded` is emitted. -/
def handleAddTorrentAlert (s : Session) (hash : String) (error : Bool) : Session × Bool :=
  if hash ∈ s.loadingTorrents then
    let s := { s with loadingTorrents := s.loadingTorrents.erase hash }
    if error then (s, false) else ({ s with torrents := hash :: s.torrents }, true)
  else (s, false)

end Session

/-! ## Tasks and their subscriptions -/

structure SubscribeEvent where
  hash : Option String := none
  metadataDownloaded : Bool := false
  torrentAdded : Bool := false
  deriving DecidableEq, Repr

structure BtTask where
  user : String
  isMagnet : Bool
  hash : String
  isStarted : Bool := false
  listed : Bool := true
  /-- The closures in the thread pool that hold the task. -/
  holds : Nat := 0
  deriving DecidableEq, Repr

inductive Callback where
  | parseMangetResult
  | torrentAdded
  | updateAndPublishTorrentInfo
  deriving DecidableEq, Repr

structure Call where
  callback : Callback
  task : Nat
  alive : Bool
  deriving DecidableEq, Repr

structure World where
  tasks : AList fun _ : Nat => BtTask := ∅
  events : AList fun _ : Nat => SubscribeEvent := ∅
  next : Nat := 0
  refs : TaskRefCount := ∅
  session : Session := {}
  /-- The tasks that a posted `UpdateAndPublishTorrentInfo` is bound to. -/
  posted : List Nat := []
  calls : List Call := []

namespace World

def subscribed (w : World) (o : Nat) : Bool :=
  match w.events.lookup o with
  | some e => e.metadataDownloaded || e.torrentAdded
  | none => false

def call (w : World) (callback : Callback) (o : Nat) : World :=
  { w with calls := ⟨callback, o, decide (o ∈ w.tasks)⟩ :: w.calls }

def setParseCallback (w : World) (o : Nat) (hash : String) : World :=
  let e := (w.events.lookup o).getD {}
  { w with events := w.events.insert o { e with hash := some hash, metadataDownloaded := true } }

def setTorrentAddedCallback (w : World) (o : Nat) (hash : String) : World :=
  let e := (w.events.lookup o).getD {}
  { w with events := w.events.insert o { e with hash := some hash, torrentAdded := true } }

def onMetaDataLoadCompleted (hash : String) (w : World) (o : Nat) : World :=
  match w.events.lookup o with
  | some e =>
    if e.metadataDownloaded ∧ e.hash = some hash then
      { w with events := w.events.insert o { e with metadataDownloaded := false } }.call
        .parseMangetResult o
    else w
  | none => w

/-- `SubscribeEvent::OnTorrentAdded`, down to `UpdateAndPublishTorrentInfo`, which is not on
the thread of the manager. -/
def onTorrentAdded (hash : String) (w : World) (o : Nat) : World :=
  match w.events.lookup o with
  | some e =>
    if e.torrentAdded ∧ e.hash = some hash then
      let w := { w with events := w.events.insert o { e with torrentAdded := false } }.call
        .torrentAdded o
      { w with posted := w.posted ++ [o] }
    else w
  | none => w

def emit (slot : World → Nat → World) (w : World) : World := Lib.run slot w w.events.keys

/-! ## The manager -/

def create (w : World) (user : String) (isMagnet : Bool) (hash : String) : World :=
  { w with
    tasks := w.tasks.insert w.next { user, isMagnet, hash }
    events := w.events.insert w.next {}
    next := w.next + 1
    refs := w.refs.addRef hash }

def parse (w : World) (o : Nat) (t : BtTask) (known : Bool) : World :=
  if t.isMagnet ∧ !known then w.setParseCallback o t.hash else w

/-- `BtTaskBase::Start`. A torrent file that can no longer be read is not `readable`. -/
def start (w : World) (o : Nat) (t : BtTask) (readable : Bool) : World :=
  if t.isStarted then w
  else
    let w := w.setTorrentAddedCallback o t.hash
    if t.isMagnet ∨ readable then
      let (session, ret) := w.session.addTorrent t.hash
      { w with session, tasks := w.tasks.insert o { t with isStarted := ret } }
    else w

/-- `ExceCancel` as the callback of `Release`. The adapters' `Cancel` always succeeds. -/
def exceCancel (s : Session) (t : BtTask) (realDelete : Bool) : Session × Bool :=
  if realDelete ∧ (!t.isMagnet ∨ t.isStarted) then (s.deleteTorrent t.hash, true) else (s, true)

def settle (w : World) (o : Nat) (t : BtTask) : World :=
  if !t.listed ∧ t.holds = 0 then { w with tasks := w.tasks.erase o }
  else { w with tasks := w.tasks.insert o t }

def delete (w : World) (o : Nat) (t : BtTask) : World :=
  let (refs, session, _) := w.refs.release t.hash (exceCancel w.session t)
  { w with refs, session }.settle o { t with listed := false }

end World

/-! ## Events -/

inductive Event where
  | create (user : String) (isMagnet : Bool) (hash : String)
  | parse (o : Nat) (known : Bool)
  | start (o : Nat) (readable : Bool)
  /-- `UpdateProgressInfo` has the file list read in the thread pool. -/
  | readFileList (o : Nat)
  /-- The reply with the file list has run. -/
  | fileListRead (o : Nat)
  | delete (o : Nat)
  | addTorrentAlert (hash : String) (error : Bool)
  | metadataReceivedAlert (hash : String)
  | runPosted (k : Nat)
  deriving DecidableEq, Repr

namespace World

def onListed (w : World) (o : Nat) (f : BtTask → World) : World :=
  match w.tasks.lookup o with
  | some t => if t.listed then f t else w
  | none => w

def step (w : World) : Event → World
  | .create user isMagnet hash => w.create user isMagnet hash
  | .parse o known => w.onListed o (w.parse o · known)
  | .start o readable => w.onListed o (w.start o · readable)
  | .readFileList o =>
    w.onListed o fun t => { w with tasks := w.tasks.insert o { t with holds := t.holds + 1 } }
  | .fileListRead o =>
    match w.tasks.lookup o with
    | some t => if t.holds = 0 then w else w.settle o { t with holds := t.holds - 1 }
    | none => w
  | .delete o => w.onListed o (w.delete o)
  | .addTorrentAlert hash error =>
    let (session, added) := w.session.handleAddTorrentAlert hash error
    let w := { w with session }
    if added then w.emit (onTorrentAdded hash) else w
  | .metadataReceivedAlert hash => w.emit (onMetaDataLoadCompleted hash)
  | .runPosted k =>
    match w.posted[k]? with
    | some o =>
      { w with posted := w.posted.eraseIdx k }.call .updateAndPublishTorrentInfo o
    | none => w

end World

end Nas.NetBt
