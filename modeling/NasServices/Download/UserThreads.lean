import Mathlib.Logic.Function.Basic
import NasServices.Download.DownloadManager

/-!
# The user threads and `DownloadManager::Reset`

`DownloadManager` works on one thread and posts to the threads of the users what they
have to do; of these there are at most twenty, and users that come later share them.
`Reset` posts a reset to the manager of every user, waits once for an event that all
of them signal, drops the managers and the threads, and then resets the store. What
makes it wait for all of them is the destructor of `NasThread`, which stops the
thread: the thread ends only after it has run what was posted to it before.

A step is what one thread does between two points where another may come in. A user's
`Reset` is three of them: the tasks are cancelled and the list is cleared, the event
is signalled, and `Signal` returns; before that it may still touch the event. Manager
objects and threads have a number that is never used again, since posted tasks keep
a manager alive that the list has dropped.
-/

namespace Nas.Download

inductive Task
  | run (o : Nat) (e : UserSelfMgr.Event)
  | resumeFromDb (o : Nat) (rows : List TaskBase.Row) (host : Nat → Host)
  | reset (o event : Nat)
  /-- The reset has cleared the list and comes to `wait_event.Signal()`. -/
  | signal (event : Nat)
  /-- `Signal` returns, and so does the reset. -/
  | leave (o event : Nat)
  /-- Posted by `Thread::Stop`. -/
  | quit

def Task.rest : Task → List Task
  | .reset o event => [.signal event, .leave o event]
  | _ => []

structure UserThread where
  queue : List Task := []
  quitting : Bool := false
  /-- The thread has ended or was never started; it has no task runner. -/
  ended : Bool := true

structure UserObject where
  mgr : UserSelfMgr := { userId := "" }
  thread : Nat := 0

inductive Work
  | idle
  | posting (users : List Nat)
  | waiting
  /-- The destructors of these threads are to be run. -/
  | joining (threads : List Nat)
  | stopping (t : Nat) (threads : List Nat)
  /-- `DownloadStoreHelper::Reset` has been called. -/
  | returning
  deriving DecidableEq, Repr

inductive ResetEntry
  | finished (o event : Nat)
  | storeReset
  /-- A user thread has touched the event, which was there or not. -/
  | touched (event : Nat) (alive : Bool)
  deriving DecidableEq, Repr

structure UserThreads where
  objects : Nat → UserObject := fun _ => {}
  nextObject : Nat := 0
  threads : Nat → UserThread := fun _ => {}
  nextThread : Nat := 0
  userSelfMgrList : AList fun _ : String => Nat := ∅
  userThreadList : List Nat := []
  refs : TaskRefCount := ∅
  engine : List EngineCall := []
  work : Work := .idle
  /-- How often `Reset` was called; each call has its own event. -/
  resets : Nat := 0
  signaled : Bool := false
  log : List ResetEntry := []

namespace UserThreads

def setThread (s : UserThreads) (t : Nat) (u : UserThread) : UserThreads :=
  { s with threads := Function.update s.threads t u }

def post (s : UserThreads) (t : Nat) (task : Task) : UserThreads :=
  let u := s.threads t
  if u.ended then s else s.setThread t { u with queue := u.queue ++ [task] }

def onMgr (s : UserThreads) (o : Nat) (f : UserSelfMgr → UserSelfMgr) : UserThreads :=
  let c := s.objects o
  let m := f { c.mgr with refs := s.refs, engine := s.engine }
  { s with objects := Function.update s.objects o { c with mgr := m }, refs := m.refs, engine := m.engine }

/-! ## The work thread -/

/-- `AllocateTaskRunner`: the thread, if it has a runner. `starts` says whether a new thread is valid. -/
def allocateTaskRunner (s : UserThreads) (starts : Bool) (random : Fin 20) : UserThreads × Option Nat :=
  if 20 ≤ s.userThreadList.length then
    (s, s.userThreadList[(random : Nat)]?.filter fun t => !(s.threads t).ended)
  else
    let t := s.nextThread
    ({ s.setThread t { ended := !starts } with
        nextThread := t + 1, userThreadList := s.userThreadList ++ [t] },
      if starts then some t else none)

def addUser (s : UserThreads) (userId : String) (starts : Bool) (random : Fin 20) : UserThreads × Option Nat :=
  match s.allocateTaskRunner starts random with
  | (s, none) => (s, none)
  | (s, some t) =>
    let o := s.nextObject
    ({ s with
        objects := Function.update s.objects o { mgr := { userId }, thread := t }, nextObject := o + 1,
        userSelfMgrList := s.userSelfMgrList.insert userId o },
      some o)

def request (s : UserThreads) (userId : String) (creates : Bool) (task : Nat → Task) (starts : Bool)
    (random : Fin 20) : UserThreads :=
  match s.userSelfMgrList.lookup userId with
  | some o => s.post (s.objects o).thread (task o)
  | none =>
    if creates then
      match s.addUser userId starts random with
      | (s, some o) => s.post (s.objects o).thread (task o)
      | (s, none) => s
    else s

def reset (s : UserThreads) : UserThreads :=
  { s with work := .posting (s.userSelfMgrList.entries.map (·.2)), resets := s.resets + 1, signaled := false }

def clear (s : UserThreads) : UserThreads :=
  { s with userSelfMgrList := ∅, userThreadList := [], work := .joining s.userThreadList }

def continue_ (s : UserThreads) : UserThreads :=
  match s.work with
  | .idle => s
  | .posting (o :: users) => { s.post (s.objects o).thread (.reset o s.resets) with work := .posting users }
  | .posting [] => if s.userSelfMgrList.entries.length > 0 then { s with work := .waiting } else s.clear
  | .waiting => if s.signaled then { s with signaled := false }.clear else s
  | .joining (t :: threads) =>
    if (s.threads t).ended then { s with work := .joining threads }
    else { s.post t .quit with work := .stopping t threads }
  | .stopping t threads => if (s.threads t).ended then { s with work := .joining threads } else s
  | .joining [] => { s with work := .returning, log := .storeReset :: s.log }
  | .returning => { s with work := .idle }

/-! ## The user threads -/

def alive (s : UserThreads) (event : Nat) : Bool := s.resets = event && s.work ≠ .idle

def touch (s : UserThreads) (event : Nat) : UserThreads :=
  { s with log := .touched event (s.alive event) :: s.log }

def runTask (s : UserThreads) (ω : Nat → Answer) : Task → UserThreads
  | .run o e => s.onMgr o (·.step e)
  | .resumeFromDb o rows host => s.onMgr o (·.resumeFromDb rows host)
  | .reset o _ => s.onMgr o (·.reset ω)
  | .signal event => { s.touch event with signaled := s.signaled || s.alive event }
  | .leave o event => { s.touch event with log := .finished o event :: (s.touch event).log }
  | .quit => s

def userThread (s : UserThreads) (t : Nat) (ω : Nat → Answer) : UserThreads :=
  let u := s.threads t
  match u.ended, u.queue with
  | true, _ | _, [] => s
  | false, .quit :: queue => s.setThread t { u with queue, quitting := true }
  | false, task :: queue => (s.setThread t { u with queue := task.rest ++ queue }).runTask ω task

def exit (s : UserThreads) (t : Nat) : UserThreads :=
  let u := s.threads t
  if u.quitting then s.setThread t { u with ended := true } else s

inductive Event
  | request (userId : String) (e : UserSelfMgr.Event) (starts : Bool) (random : Fin 20)
  | resumeFromDb (userId : String) (rows : List TaskBase.Row) (host : Nat → Host) (starts : Bool)
      (random : Fin 20)
  | reset
  | continue_
  /-- The timer, the engine or a task posts to the thread of a manager. -/
  | post (o : Nat) (e : UserSelfMgr.Event)
  /-- The engine calls a task on a thread of its own. -/
  | engine (o : Nat) (e : UserSelfMgr.Event)
  | userThread (t : Nat) (ω : Nat → Answer)
  | exit (t : Nat)

/-- Tasks are listed only by requests and at the start, which go through the work thread. -/
def step (s : UserThreads) : Event → UserThreads
  | .request _ (.restart ..) _ _ => s
  | .request userId e starts random =>
    if s.work = .idle then s.request userId e.lists (.run · e) starts random else s
  | .resumeFromDb userId rows host starts random =>
    if s.work = .idle then s.request userId true (.resumeFromDb · rows host) starts random else s
  | .reset => if s.work = .idle then s.reset else s
  | .continue_ => s.continue_
  | .post o e => if o < s.nextObject ∧ e.lists = false then s.post (s.objects o).thread (.run o e) else s
  | .engine o e => if o < s.nextObject ∧ e.lists = false then s.onMgr o (·.step e) else s
  | .userThread t ω => s.userThread t ω
  | .exit t => s.exit t

end UserThreads

end Nas.Download
