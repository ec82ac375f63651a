import NasServices.Lib.Run

/-!
# Call objects of the asynchronous gRPC servers

A call object serves one call of one method and then deletes itself. It is
driven by three threads: the one that loops over the completion queue
(`HandleRpcs`, `HandleRpcRequests`), the dispatch thread, on which `Proceed` and
`OnProcessed` do their work, and the main task thread, on which `Process` runs.
A call that comes on another thread posts itself to the dispatch thread, bound
to the object by a plain pointer.

`GrpcServerCallDataBase` and `GrpcServerCallBase` are the same but for the tag.
The first gives the completion queue its own address, the second that of
a `TagHandler` that it makes and deletes; the two loops cast a returned tag
to the one or the other.

Objects have a number that is never used again. `log` records what happened,
and each time an object or its tag was reached through a pointer, whether it was
still there. Shutdown is not modelled.
-/

namespace Nas.Grpc

inductive CallStatus
  | kCreate | kProcess | kFinish
  deriving DecidableEq, Repr

inductive CallClass
  | grpcServerCallDataBase | grpcServerCallBase
  deriving DecidableEq, Repr

inductive Tag
  | callData (o : Nat)
  | tagHandler (o : Nat)
  deriving DecidableEq, Repr

def Tag.owner : Tag → Nat
  | .callData o | .tagHandler o => o

def CallClass.tag : CallClass → Nat → Tag
  | .grpcServerCallDataBase, o => .callData o
  | .grpcServerCallBase, o => .tagHandler o

theorem CallClass.tag_inj {cls : CallClass} {o o' : Nat} : cls.tag o = cls.tag o' ↔ o = o' := by
  cases cls <;> simp [tag]

inductive Operation
  | request | finish
  deriving DecidableEq, Repr

inductive Thread
  | completionQueue | cqDispatch | taskMain | other
  deriving DecidableEq, Repr

inductive Task
  | proceed (o : Nat)
  | onProcessed (o : Nat)
  deriving DecidableEq, Repr

inductive Entry
  | returned (op : Operation) (o : Nat) (ok : Bool)
  | process (o : Nat)
  | delete (o : Nat)
  | use (tag : Tag) (alive : Bool)
  deriving DecidableEq, Repr

structure CallData (M : Type*) where
  method : M
  status : CallStatus := .kCreate
  deleted : Bool := false
  deriving DecidableEq, Repr

structure Server (M : Type*) where
  cls : CallClass
  calls : List (CallData M) := []
  cqDispatch : List Task := []
  /-- The objects whose `Process` is in the queue of the main task thread. -/
  taskMain : List Nat := []
  /-- The objects whose `Process` has begun and has not called `OnProcessed`. -/
  handlers : List Nat := []
  /-- The operations whose tag the completion queue has not returned. -/
  cq : List (Operation × Tag) := []
  log : List Entry := []

namespace Server

variable {M : Type*}

def alive (s : Server M) (o : Nat) : Bool :=
  match s.calls[o]? with
  | some c => !c.deleted
  | none => false

def use (s : Server M) (tag : Tag) : Server M :=
  { s with log := .use tag (s.alive tag.owner) :: s.log }

def post (s : Server M) (task : Task) : Server M := { s with cqDispatch := s.cqDispatch ++ [task] }

def submit (s : Server M) (op : Operation) (o : Nat) : Server M :=
  { s with cq := s.cq ++ [(op, s.cls.tag o)] }

def setStatus (s : Server M) (o : Nat) (c : CallData M) (status : CallStatus) : Server M :=
  { s with calls := s.calls.set o { c with status } }

def create (s : Server M) (o : Nat) (c : CallData M) : Server M :=
  (s.setStatus o c .kProcess).submit .request o

/-- `NewCallData`: the new object is in `kCreate`, so its first `Proceed` registers the
request, at once or as a task. -/
def newCallData (s : Server M) (t : Thread) (method : M) : Server M :=
  let o := s.calls.length
  let c : CallData M := { method }
  let s := { s with calls := s.calls ++ [c] }
  if t = .cqDispatch then s.create o c else s.post (.proceed o)

def delete (s : Server M) (o : Nat) (c : CallData M) : Server M :=
  { s with calls := s.calls.set o { c with deleted := true }, log := .delete o :: s.log }

def proceed (s : Server M) (t : Thread) (o : Nat) : Server M :=
  let s := s.use (.callData o)
  if t ≠ .cqDispatch then s.post (.proceed o)
  else
    match s.calls[o]? with
    | none => s
    | some c =>
      match c.status with
      | .kCreate => s.create o c
      | .kProcess =>
        let s := s.newCallData t c.method
        { s with taskMain := s.taskMain ++ [o] }
      | .kFinish => s.delete o c

theorem proceed_cqDispatch {s : Server M} {o : Nat} {c : CallData M} (hc : s.calls[o]? = some c) :
    s.proceed .cqDispatch o =
      match c.status with
      | .kCreate => (s.use (.callData o)).create o c
      | .kProcess =>
        let s := (s.use (.callData o)).newCallData .cqDispatch c.method
        { s with taskMain := s.taskMain ++ [o] }
      | .kFinish => (s.use (.callData o)).delete o c := by
  have hc' : (s.use (.callData o)).calls[o]? = some c := hc
  simp only [proceed, ne_eq, not_true_eq_false, if_false, hc']

def onProcessed (s : Server M) (t : Thread) (o : Nat) : Server M :=
  let s := s.use (.callData o)
  if t ≠ .cqDispatch then s.post (.onProcessed o)
  else
    match s.calls[o]? with
    | none => s
    | some c => (s.setStatus o c .kFinish).submit .finish o

theorem onProcessed_cqDispatch {s : Server M} {o : Nat} {c : CallData M} (hc : s.calls[o]? = some c) :
    s.onProcessed .cqDispatch o = ((s.use (.callData o)).setStatus o c .kFinish).submit .finish o := by
  have hc' : (s.use (.callData o)).calls[o]? = some c := hc
  simp only [onProcessed, ne_eq, not_true_eq_false, if_false, hc']

/-- A round of `HandleRpcs`, or of `HandleRpcRequests` where the tags are handlers. A tag cast
to a class it does not have is a bad use. -/
def handleRpcs (s : Server M) (tag : Tag) (ok : Bool) : Server M :=
  if ok then
    match s.cls, tag with
    | .grpcServerCallDataBase, .callData o => s.proceed .completionQueue o
    | .grpcServerCallBase, .tagHandler o => (s.use tag).proceed .completionQueue o
    | _, _ => { s with log := .use tag false :: s.log }
  else s

/-! ## Events -/

/-- A method is registered, the completion queue returns the tag of an operation of an
object, the dispatch thread or the main task thread runs its next task, a handler
calls `OnProcessed`. -/
inductive Event (M : Type*)
  | newCallData (method : M)
  | next (op : Operation) (o : Nat) (ok : Bool)
  | dispatch
  | process
  | onProcessed (o : Nat)
  deriving DecidableEq

def runTask (s : Server M) : Task → Server M
  | .proceed o => s.proceed .cqDispatch o
  | .onProcessed o => s.onProcessed .cqDispatch o

def step (s : Server M) : Event M → Server M
  | .newCallData method => s.newCallData .other method
  | .next op o ok =>
    let tag := s.cls.tag o
    if (op, tag) ∈ s.cq then
      { s with cq := s.cq.erase (op, tag), log := .returned op o ok :: s.log }.handleRpcs tag ok
    else s
  | .dispatch =>
    match s.cqDispatch with
    | [] => s
    | task :: rest => { s with cqDispatch := rest }.runTask task
  | .process =>
    match s.taskMain with
    | [] => s
    | o :: rest =>
      let s := { s with taskMain := rest, handlers := s.handlers ++ [o], log := .process o :: s.log }
      s.use (.callData o)
  | .onProcessed o =>
    if o ∈ s.handlers then { s with handlers := s.handlers.erase o }.onProcessed .other o else s

def openSlots [DecidableEq M] (s : Server M) (method : M) : Nat :=
  s.calls.zipIdx.countP fun (c, o) => c.method = method ∧ (.request, s.cls.tag o) ∈ s.cq

def Idle (s : Server M) : Prop := s.cqDispatch = []

end Server

end Nas.Grpc
