import Mathlib.Data.List.Perm.Basic
import Mathlib.Logic.Function.Basic
import NasServices.Lib.Run

/-!
# The channels of the gRPC client

`GrpcStubEnv` keeps one channel for each service, and its completion queue tells it
when the state of a channel has changed. Callers, the threads that deliver
addresses, the thread of `CompleteGrpc` and `End` run at the same time: an event is
the next step of one of them, where `RegisterOnStateChange` takes `shutdown_lock_`
in a step of its own. `run_sound` holds for every order of the steps.

The channel's state and the addresses come from outside. A caller, a channel and a
`ChannelStateCheckCall` are known by the number under which they came up.
-/

namespace Nas.Grpc

inductive ConnectivityState
  | idle
  | connecting
  | ready
  | transientFailure
  | shutdown

/-- What must be neither lost nor used twice: the callback of a caller, a call object. -/
inductive Item
  | caller (n : Nat)
  | call (n : Nat)
  deriving DecidableEq

/-- What comes after a registration: `create_callback`, which only logs when it is that of a
reconnection, or `CompleteGrpc` deletes the call whose `HandleResponse` is over. -/
inductive After
  | answer (caller : Option Nat)
  | delete (call : Nat)

/-- How far a thread is: `RegisterOnStateChange` is called, or has its call object, or is over. -/
inductive Work
  | register (service : String) (channel : Nat) (after : After)
  | notify (call : Nat) (service : String) (channel : Nat) (after : After)
  | finish (after : After)

def After.items : After → List Item
  | .answer none => []
  | .answer (some caller) => [.caller caller]
  | .delete call => [.call call]

def Work.items : Work → List Item
  | .register _ _ after | .finish after => after.items
  | .notify call _ _ after => .call call :: after.items

def Work.watches : Work → List (String × Nat)
  | .register service channel _ | .notify _ service channel _ => [(service, channel)]
  | .finish _ => []

def Work.isCompleteGrpc : Work → Bool
  | .register _ _ (.delete _) | .notify _ _ _ (.delete _) | .finish (.delete _) => true
  | _ => false

/-- A call object whose tag the completion queue has. -/
structure ChannelStateCheckCall where
  call : Nat
  service : String
  channel : Nat

structure GrpcStubEnv where
  channelMgr : String → Option Nat := fun _ => none
  isStoped : Bool := false
  isShutdown : Bool := false
  hasIpPortCallback : Bool := true
  /-- Addresses that were asked for, with the caller. -/
  asked : List (String × Option Nat) := []
  work : List Work := []
  queue : List ChannelStateCheckCall := []
  /-- Callers that were answered, and calls that were deleted. -/
  done : List Item := []
  leaked : List Item := []
  /-- Channels that were found shut down. They stay in the map and are no longer watched. -/
  closed : List Nat := []
  callers : Nat := 0
  calls : Nat := 0
  channels : Nat := 0
  /-- Something was added to the queue after its `Shutdown`. -/
  misused : Bool := false

namespace GrpcStubEnv

def answer (s : GrpcStubEnv) (caller : Option Nat) : GrpcStubEnv :=
  { s with done := (After.answer caller).items ++ s.done }

def asyncCreateChannelAndRegister (s : GrpcStubEnv) (service : String) (caller : Option Nat) : GrpcStubEnv :=
  if s.hasIpPortCallback then { s with asked := (service, caller) :: s.asked } else s.answer caller

def getUsableChannel (s : GrpcStubEnv) (service : String) : GrpcStubEnv :=
  let s' := { s with callers := s.callers + 1 }
  match s.channelMgr service with
  | none => s'.asyncCreateChannelAndRegister service s.callers
  | some _ => s'.answer s.callers

/-- The `ip_port` for an entry comes: `CreateChannel` and `AddChannel`. -/
def onIpPort (s : GrpcStubEnv) (k : Nat) : GrpcStubEnv :=
  match s.asked[k]? with
  | none => s
  | some (service, caller) =>
    { s with
      asked := s.asked.eraseIdx k, channels := s.channels + 1
      channelMgr := Function.update s.channelMgr service (some s.channels)
      work := .register service s.channels (.answer caller) :: s.work }

/-- The next step of a thread. A call object that is made while `End` sets `is_stoped_` is leaked. -/
def proceed (s : GrpcStubEnv) : Work → GrpcStubEnv
  | .register service channel after =>
    if s.isStoped then { s with work := .finish after :: s.work }
    else { s with calls := s.calls + 1, work := .notify s.calls service channel after :: s.work }
  | .notify call service channel after =>
    if s.isStoped then { s with leaked := .call call :: s.leaked, work := .finish after :: s.work }
    else
      { s with
        queue := ⟨call, service, channel⟩ :: s.queue, misused := s.misused || s.isShutdown
        work := .finish after :: s.work }
  | .finish (.answer caller) => s.answer caller
  | .finish (.delete call) => { s with done := .call call :: s.done }

def stateChange (s : GrpcStubEnv) (c : ChannelStateCheckCall) : ConnectivityState → GrpcStubEnv
  | .connecting | .ready => { s with work := .register c.service c.channel (.delete c.call) :: s.work }
  | .idle | .transientFailure =>
    let s' := { s with work := .finish (.delete c.call) :: s.work }
    if s.isStoped then s' else s'.asyncCreateChannelAndRegister c.service none
  | .shutdown => { s with closed := c.channel :: s.closed, work := .finish (.delete c.call) :: s.work }

inductive Event
  | getUsableChannel (service : String)
  | onIpPort (k : Nat)
  | proceed (k : Nat)
  /-- `CompleteGrpc` gets a tag, and the channel is in this state. -/
  | next (k : Nat) (state : ConnectivityState)
  /-- The next step of `End`. Its `Stop` waits until the queue is drained. -/
  | end_

def step (s : GrpcStubEnv) : Event → GrpcStubEnv
  | .getUsableChannel service => s.getUsableChannel service
  | .onIpPort k => s.onIpPort k
  | .proceed k =>
    match s.work[k]? with
    | none => s
    | some w => { s with work := s.work.eraseIdx k }.proceed w
  | .next k state =>
    match s.queue[k]? with
    | none => s
    | some c => if s.work.any Work.isCompleteGrpc then s else { s with queue := s.queue.eraseIdx k }.stateChange c state
  | .end_ =>
    if !s.isStoped then { s with isStoped := true }
    else if !s.isShutdown then { s with isShutdown := true }
    else if s.queue.isEmpty && !s.work.any Work.isCompleteGrpc then
      { s with channelMgr := fun _ => none, hasIpPortCallback := false }
    else s

/-! ## Every order of the steps -/

def places (s : GrpcStubEnv) : List Item :=
  s.asked.flatMap (fun a => (After.answer a.2).items) ++ s.queue.map (fun c => .call c.call) ++
    s.work.flatMap Work.items ++ s.done ++ s.leaked

/-- The queue watches the channel or is about to, or an address for another one is asked for, unless the
channel is shut down. -/
def Watched (s : GrpcStubEnv) (service : String) (channel : Nat) : Prop :=
  (service, channel) ∈ s.queue.map (fun c => (c.service, c.channel)) ++ s.work.flatMap Work.watches ∨
    service ∈ s.asked.map Prod.fst ∨ channel ∈ s.closed

attribute [grind =] places Watched After.items Work.items Work.watches

structure Sound (s : GrpcStubEnv) : Prop where
  /-- Nothing is added to the queue after its `Shutdown`. -/
  queue : s.misused = false
  stoped : s.isShutdown = true → s.isStoped = true
  ipPort : s.hasIpPortCallback = false → s.isStoped = true
  /-- Each callback and each call object is in one place: a callback is run once, a call deleted once. -/
  once : s.places.Perm ((List.range s.callers).map .caller ++ (List.range s.calls).map .call)
  leaked : s.leaked ≠ [] → s.isStoped = true
  watched : s.isStoped = false → ∀ service channel, s.channelMgr service = some channel → s.Watched service channel

variable {s : GrpcStubEnv}

theorem perm_of_getElem? {α : Type*} {l : List α} {k : Nat} {x : α} (h : l[k]? = some x) :
    l.Perm (x :: l.eraseIdx k) := by
  obtain ⟨hk, rfl⟩ := List.getElem?_eq_some_iff.mp h
  exact (List.getElem_cons_eraseIdx_perm hk).symm

/-- The order in which the threads are listed says nothing. -/
theorem Sound.of_perm (h : s.Sound) {work : List Work} (hw : s.work.Perm work) : Sound { s with work } :=
  { h with
    once := .trans ((((hw.symm.flatMap_right _).append_left _).append_right _).append_right _) h.once
    watched := fun hs service channel hc => by
      have := h.watched hs service channel hc
      simpa only [Watched, List.mem_append, (hw.flatMap_right _).mem_iff] using this }

theorem Sound.answer {caller : Option Nat} (h : Sound { s with work := .finish (.answer caller) :: s.work }) :
    (s.answer caller).Sound := by
  obtain ⟨hq, hst, hip, honce, hleak, hw⟩ := h
  unfold GrpcStubEnv.answer
  exact ⟨hq, hst, hip, by grind, hleak, by grind⟩

theorem Sound.getUsableChannel (h : s.Sound) (service : String) : (s.getUsableChannel service).Sound := by
  obtain ⟨hq, hst, hip, honce, hleak, hw⟩ := h
  have hcaller : Sound { s with callers := s.callers + 1, work := .finish (.answer s.callers) :: s.work } := by
    refine ⟨hq, hst, hip, List.perm_iff_count.mpr fun i => ?_, hleak, by grind⟩
    have hi := honce.count_eq i
    simp only [places, Work.items, After.items, List.flatMap_cons, List.count_append, List.range_succ,
      List.map_append, List.map_cons, List.map_nil] at hi ⊢
    omega
  simp only [GrpcStubEnv.getUsableChannel, asyncCreateChannelAndRegister]
  split
  · split
    · exact ⟨hq, hst, hip, by grind [List.range_succ], hleak, by grind⟩
    · exact hcaller.answer
  · exact hcaller.answer

theorem Sound.onIpPort (h : s.Sound) (k : Nat) : (s.onIpPort k).Sound := by
  obtain ⟨hq, hst, hip, honce, hleak, hw⟩ := h
  unfold GrpcStubEnv.onIpPort
  split
  · exact ⟨hq, hst, hip, honce, hleak, hw⟩
  · rename_i service caller hk
    have hp := perm_of_getElem? hk
    have hitems := hp.flatMap_right fun a => (After.answer a.2).items
    have hnames := hp.map Prod.fst
    exact ⟨hq, hst, hip, by grind, hleak, by grind [Function.update_apply]⟩

theorem Sound.proceed {w : Work} (h : Sound { s with work := w :: s.work }) : (s.proceed w).Sound := by
  obtain ⟨hq, hst, hip, honce, hleak, hw⟩ := h
  cases w with
  | register service channel after =>
    simp only [GrpcStubEnv.proceed]
    split
    · exact ⟨hq, hst, hip, honce, hleak, by grind⟩
    · exact ⟨hq, hst, hip, by grind [List.range_succ], hleak, by grind⟩
  | notify call service channel after =>
    simp only [GrpcStubEnv.proceed]
    split
    · exact ⟨hq, hst, hip, by grind, by grind, by grind⟩
    · exact ⟨by grind, hst, hip, by grind, hleak, by grind⟩
  | finish after =>
    cases after with
    | answer caller => exact Sound.answer ⟨hq, hst, hip, honce, hleak, hw⟩
    | delete call =>
      simp only [GrpcStubEnv.proceed]
      exact ⟨hq, hst, hip, by grind, hleak, by grind⟩

theorem Sound.stateChange {c : ChannelStateCheckCall}
    (h : Sound { s with work := .register c.service c.channel (.delete c.call) :: s.work }) (state : ConnectivityState) :
    (s.stateChange c state).Sound := by
  obtain ⟨hq, hst, hip, honce, hleak, hw⟩ := h
  cases state <;> simp only [GrpcStubEnv.stateChange, asyncCreateChannelAndRegister]
  case connecting | ready => exact ⟨hq, hst, hip, honce, hleak, hw⟩
  case shutdown => exact ⟨hq, hst, hip, honce, hleak, by grind⟩
  case idle | transientFailure =>
    split
    · exact ⟨hq, hst, hip, honce, hleak, by grind⟩
    · split
      · exact ⟨hq, hst, hip, by grind, hleak, by grind⟩
      · exact absurd (hip (by simp_all)) (by simp_all)

theorem Sound.step (h : s.Sound) (e : Event) : (s.step e).Sound := by
  cases e with
  | getUsableChannel service => exact h.getUsableChannel service
  | onIpPort k => exact h.onIpPort k
  | proceed k =>
    simp only [GrpcStubEnv.step]
    split
    · exact h
    · rename_i w hk
      exact (h.of_perm (perm_of_getElem? hk)).proceed
  | next k state =>
    simp only [GrpcStubEnv.step]
    split
    · exact h
    · rename_i c hk
      split
      · exact h
      · obtain ⟨hq, hst, hip, honce, hleak, hw⟩ := h
        have hp := perm_of_getElem? hk
        have hitems := hp.map fun c => Item.call c.call
        have hnames := hp.map fun c => (c.service, c.channel)
        have hpop : Sound { s with
            queue := s.queue.eraseIdx k, work := .register c.service c.channel (.delete c.call) :: s.work } :=
          ⟨hq, hst, hip, by grind, hleak, by grind⟩
        exact hpop.stateChange state
  | end_ =>
    obtain ⟨hq, hst, hip, honce, hleak, hw⟩ := h
    simp only [GrpcStubEnv.step]
    split
    · exact ⟨hq, fun _ => rfl, fun _ => rfl, honce, fun _ => rfl, nofun⟩
    · rename_i hstoped
      have hstoped : s.isStoped = true := by simpa using hstoped
      split
      · exact ⟨hq, fun _ => hstoped, hip, honce, hleak, hw⟩
      · split
        · exact ⟨hq, hst, fun _ => hstoped, honce, hleak, by simp [hstoped]⟩
        · exact ⟨hq, hst, hip, honce, hleak, hw⟩

/-- From `Start` on, in every order of the steps. -/
theorem run_sound (es : List Event) : (Lib.run step {} es).Sound :=
  Lib.run_keep (fun _ e h => h.step e) ⟨rfl, nofun, nofun, .refl _, fun h => absurd rfl h, nofun⟩ es

end GrpcStubEnv

end Nas.Grpc
