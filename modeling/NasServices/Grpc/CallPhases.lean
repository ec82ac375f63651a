import NasServices.Grpc.ServerCallData

/-!
# The life of a call object

Each call object goes through the phases of `Phase`, and in each of them one
piece of work is outstanding for it, in one of the queues. `Refines s cs` says so of
a server `s` and a list `cs` that has the method and the phase of every object;
`Refines.step` that every event of the server is a `Step` of that list. A `Step`
moves one object to its next phase, or also lists a new object.

Everything else is read off the list of phases: `oneSlot` is about a server
without shutdown whose completion queue returns every tag with `ok`, and
`deleted_iff_ok` about every server. A tag that comes without `ok` is dropped by the
loop, and the object is never deleted.
-/

namespace Nas.Grpc

open Server (Event)

/-- `refused` and `leaked` are the objects whose tag came back without `ok`. -/
inductive Phase
  | created | waiting | matched | queued | running | processed | finishing | finished | deleted
  | refused | leaked
  deriving DecidableEq, Repr

inductive Mark
  | task (isProceed : Bool)
  | process
  | handler
  | pending (op : Operation)
  | returned (op : Operation) (ok : Bool)
  | ran
  | deletion
  deriving DecidableEq

namespace Phase

def status : Phase → CallStatus
  | .created => .kCreate
  | .waiting | .matched | .queued | .running | .processed | .refused => .kProcess
  | .finishing | .finished | .deleted | .leaked => .kFinish

def marks : Phase → List Mark
  | .created => [.task true]
  | .waiting => [.pending .request]
  | .matched => [.task true, .returned .request true]
  | .queued => [.process, .returned .request true]
  | .running => [.handler, .returned .request true, .ran]
  | .processed => [.task false, .returned .request true, .ran]
  | .finishing => [.pending .finish, .returned .request true, .ran]
  | .finished => [.task true, .returned .request true, .ran, .returned .finish true]
  | .deleted => [.returned .request true, .ran, .returned .finish true, .deletion]
  | .refused => [.returned .request false]
  | .leaked => [.returned .request true, .ran, .returned .finish false]

/-- The object is a slot for the next call, or will be or has just been one. -/
def isSlot : Phase → Bool
  | .created | .waiting | .matched => true
  | _ => false

end Phase

structure Call (M : Type*) where
  method : M
  phase : Phase
  deriving DecidableEq

variable {M : Type*}

def Call.data (c : Call M) : CallData M := ⟨c.method, c.phase.status, c.phase = .deleted⟩

/-- The phase in which an event leaves the object it is about. -/
inductive Phase.Next : Event M → Phase → Phase → Prop
  | create : Next .dispatch .created .waiting
  | «match» o : Next (.next .request o true) .waiting .matched
  | refuse o : Next (.next .request o false) .waiting .refused
  | process : Next .process .queued .running
  | onProcessed o : Next (.onProcessed o) .running .processed
  | finish : Next .dispatch .processed .finishing
  | finished o : Next (.next .finish o true) .finishing .finished
  | leak o : Next (.next .finish o false) .finishing .leaked
  | delete : Next .dispatch .finished .deleted

inductive Step : Event M → List (Call M) → List (Call M) → Prop
  | none {e cs} (h : ∀ m, e ≠ .newCallData m) : Step e cs cs
  | register {cs} (m) : Step (.newCallData m) cs (cs ++ [⟨m, .created⟩])
  | advance {e cs o m q p} (hc : cs[o]? = some ⟨m, q⟩) (h : Phase.Next e q p) :
      Step e cs (cs.set o ⟨m, p⟩)
  /-- A matched call lists the object for the next one. -/
  | spawn {cs : List (Call M)} {o : Nat} {m : M} (hc : cs[o]? = some ⟨m, .matched⟩) :
      Step .dispatch cs (List.set (cs ++ [⟨m, .waiting⟩]) o ⟨m, .queued⟩)

namespace Server

def count (s : Server M) : Mark → Nat → Nat
  | .task true, o => s.cqDispatch.count (.proceed o)
  | .task false, o => s.cqDispatch.count (.onProcessed o)
  | .process, o => s.taskMain.count o
  | .handler, o => s.handlers.count o
  | .pending op, o => s.cq.count (op, s.cls.tag o)
  | .returned op ok, o => s.log.count (.returned op o ok)
  | .ran, o => s.log.count (.process o)
  | .deletion, o => s.log.count (.delete o)

def Safe (s : Server M) : Prop := ∀ tag alive, .use tag alive ∈ s.log → alive = true

theorem Safe.cons {s : Server M} (h : s.Safe) {e : Entry} (he : ∀ tag alive, e = .use tag alive → alive = true) :
    { s with log := e :: s.log }.Safe := by
  intro tag alive hmem
  rcases List.mem_cons.mp hmem with heq | hmem
  · exact he tag alive heq.symm
  · exact h tag alive hmem

theorem Safe.use {s : Server M} (h : s.Safe) {tag : Tag} (ha : s.alive tag.owner = true) : (s.use tag).Safe :=
  h.cons fun _ _ heq => by
    cases heq
    exact ha

/-- The tag itself is followed first where it is a handler. -/
def useTag (s : Server M) (o : Nat) : Server M :=
  match s.cls with
  | .grpcServerCallDataBase => s
  | .grpcServerCallBase => s.use (.tagHandler o)

/-- The loop over the completion queue, given the tag of an object with `ok`. -/
theorem handleRpcs_true (s : Server M) (o : Nat) :
    s.handleRpcs (s.cls.tag o) true = ((s.useTag o).use (.callData o)).post (.proceed o) := by
  cases hcls : s.cls <;> simp [handleRpcs, useTag, proceed, CallClass.tag, hcls]

theorem useTag_calls (s : Server M) (o : Nat) : (s.useTag o).calls = s.calls := by
  unfold useTag
  split <;> rfl

theorem Safe.useTag {s : Server M} (h : s.Safe) {o : Nat} (ha : s.alive o = true) : (s.useTag o).Safe := by
  unfold Server.useTag
  split
  · exact h
  · exact h.use ha

end Server

/-- Only the marks of `o` change: it loses `lost` and gains `gained`. -/
def Changes (s s' : Server M) (o : Nat) (lost gained : List Mark) : Prop :=
  ∀ k o', s'.count k o' + (if o = o' then lost.count k else 0) =
    s.count k o' + if o = o' then gained.count k else 0

namespace Changes

variable {s s₁ s₂ : Server M} {o : Nat}

theorem trans {l g l' g' : List Mark} (h : Changes s s₁ o l g) (h' : Changes s₁ s₂ o l' g') :
    Changes s s₂ o (l ++ l') (g ++ g') := by
  intro k o'
  have h₁ := h k o'
  have h₂ := h' k o'
  rw [List.count_append, List.count_append]
  split at h₁ <;> simp_all only [if_true, if_false]
  all_goals omega

variable (s o)

theorem calls (calls : List (CallData M)) : Changes s { s with calls } o [] [] := by
  intro k o'
  rcases k with (_ | _) | _ | _ | _ | _ | _ | _ <;> simp [Server.count]

theorem use (tag : Tag) : Changes s (s.use tag) o [] [] := by
  intro k o'
  rcases k with (_ | _) | _ | _ | _ | _ | _ | _ <;> simp [Server.count, Server.use]

theorem useTag : Changes s (s.useTag o) o [] [] := by
  unfold Server.useTag
  split
  · exact fun _ _ => rfl
  · exact use s o _

theorem postProceed : Changes s (s.post (.proceed o)) o [] [.task true] := by
  intro k o'
  rcases k with (_ | _) | _ | _ | _ | _ | _ | _ <;>
    simp [Server.count, Server.post, List.count_cons]

theorem postOnProcessed : Changes s (s.post (.onProcessed o)) o [] [.task false] := by
  intro k o'
  rcases k with (_ | _) | _ | _ | _ | _ | _ | _ <;>
    simp [Server.count, Server.post, List.count_cons]

theorem submit (op : Operation) : Changes s (s.submit op o) o [] [.pending op] := by
  intro k o'
  rcases k with (_ | _) | _ | _ | op' | _ | _ | _
  case pending => by_cases ho : o = o' <;>
    simp [Server.count, Server.submit, List.count_cons, CallClass.tag_inj, ho]
  all_goals simp [Server.count, Server.submit]

theorem delete (c : CallData M) : Changes s (s.delete o c) o [] [.deletion] := by
  intro k o'
  rcases k with (_ | _) | _ | _ | _ | _ | _ | _ <;>
    simp [Server.count, Server.delete, List.count_cons]

theorem postProcess : Changes s { s with taskMain := s.taskMain ++ [o] } o [] [.process] := by
  intro k o'
  rcases k with (_ | _) | _ | _ | _ | _ | _ | _ <;> simp [Server.count, List.count_cons]

theorem returned {op : Operation} (hop : (op, s.cls.tag o) ∈ s.cq) (ok : Bool) :
    Changes s { s with cq := s.cq.erase (op, s.cls.tag o), log := .returned op o ok :: s.log } o
      [.pending op] [.returned op ok] := by
  have hpos := List.count_pos_iff.mpr hop
  intro k o'
  rcases k with (_ | _) | _ | _ | op' | _ | _ | _
  case pending =>
    by_cases heq : (op, o) = (op', o')
    · cases heq
      simp [Server.count]
      omega
    · have hne : (op', s.cls.tag o') ≠ (op, s.cls.tag o) := fun h => heq (by
        rw [Prod.mk.injEq, CallClass.tag_inj] at h
        rw [h.1, h.2])
      have hnone : o = o' → List.count (Mark.pending op') [Mark.pending op] = 0 := by
        rintro rfl
        simpa [List.count_cons] using heq
      simp [Server.count, List.count_erase_of_ne hne]
      exact hnone
  case returned => by_cases ho : o = o' <;> simp [Server.count, List.count_cons, ho]
  all_goals simp [Server.count]

theorem takeProceed {rest : List Task} (hq : s.cqDispatch = .proceed o :: rest) :
    Changes s { s with cqDispatch := rest } o [.task true] [] := by
  intro k o'
  rcases k with (_ | _) | _ | _ | _ | _ | _ | _ <;> simp [Server.count, hq, List.count_cons]

theorem takeOnProcessed {rest : List Task} (hq : s.cqDispatch = .onProcessed o :: rest) :
    Changes s { s with cqDispatch := rest } o [.task false] [] := by
  intro k o'
  rcases k with (_ | _) | _ | _ | _ | _ | _ | _ <;> simp [Server.count, hq, List.count_cons]

theorem process {rest : List Nat} (hq : s.taskMain = o :: rest) :
    Changes s { s with taskMain := rest, handlers := s.handlers ++ [o], log := .process o :: s.log } o
      [.process] [.handler, .ran] := by
  intro k o'
  rcases k with (_ | _) | _ | _ | _ | _ | _ | _ <;> simp [Server.count, hq, List.count_cons]

theorem handler (ho : o ∈ s.handlers) :
    Changes s { s with handlers := s.handlers.erase o } o [.handler] [] := by
  have hpos := List.count_pos_iff.mpr ho
  intro k o'
  rcases k with (_ | _) | _ | _ | _ | _ | _ | _
  case handler =>
    by_cases heq : o = o'
    · subst heq
      simp [Server.count]
      omega
    · simp [Server.count, heq, List.count_erase_of_ne (Ne.symm heq)]
  all_goals simp [Server.count]

end Changes

/-! ## Refinement -/

def marksAt (cs : List (Call M)) (o : Nat) : List Mark :=
  match cs[o]? with
  | some c => c.phase.marks
  | none => []

structure Refines (s : Server M) (cs : List (Call M)) : Prop where
  calls : s.calls = cs.map Call.data
  count : ∀ k o, s.count k o = (marksAt cs o).count k
  safe : s.Safe

namespace Refines

variable {s s' : Server M} {cs : List (Call M)} {o : Nat} {m : M} {q p : Phase}
  {lost gained : List Mark}

theorem lookup (h : Refines s cs) (hc : cs[o]? = some ⟨m, q⟩) :
    s.calls[o]? = some (Call.data ⟨m, q⟩) := by
  rw [h.calls, List.getElem?_map, hc, Option.map_some]

theorem calls_set (h : Refines s cs) (hc : cs[o]? = some ⟨m, q⟩) (hstatus : p.status = q.status)
    (hp : p = .deleted ↔ q = .deleted) : s.calls.set o (Call.data ⟨m, p⟩) = s.calls := by
  have hdata : Call.data ⟨m, p⟩ = Call.data ⟨m, q⟩ := by simp [Call.data, hstatus, hp]
  obtain ⟨hlt, hget⟩ := List.getElem?_eq_some_iff.mp (h.lookup hc)
  rw [hdata, ← hget, List.set_getElem_self]

theorem length (h : Refines s cs) : s.calls.length = cs.length := by rw [h.calls, List.length_map]

/-- An object that is found somewhere is listed, in a phase with that mark. -/
theorem exists_of_count (h : Refines s cs) {k : Mark} (hk : 0 < s.count k o) :
    ∃ m q, cs[o]? = some ⟨m, q⟩ ∧ k ∈ q.marks := by
  rw [h.count k o, List.count_pos_iff, marksAt] at hk
  split at hk
  · rename_i c hc
    exact ⟨c.method, c.phase, hc, hk⟩
  · cases hk

theorem alive (h : Refines s cs) (hc : cs[o]? = some ⟨m, q⟩) (hq : q ≠ .deleted) : s.alive o = true := by
  simp [Server.alive, h.lookup hc, Call.data, hq]

/-- An object moves on to the phase that has the marks it then has. -/
theorem advance (h : Refines s cs) (hc : cs[o]? = some ⟨m, q⟩)
    (hcalls : s'.calls = s.calls.set o (Call.data ⟨m, p⟩)) (hch : Changes s s' o lost gained)
    (hmarks : (gained ++ q.marks).Perm (lost ++ p.marks)) (hsafe : s'.Safe) :
    Refines s' (cs.set o ⟨m, p⟩) where
  calls := by rw [hcalls, h.calls, List.map_set]
  count k o' := by
    obtain ⟨hlt, -⟩ := List.getElem?_eq_some_iff.mp hc
    have hk := hch k o'
    rw [h.count k o'] at hk
    by_cases ho : o = o'
    · subst ho
      have hperm := hmarks.count_eq k
      simp only [List.count_append, marksAt, hc, if_true] at hk hperm
      rw [marksAt, List.getElem?_set_self hlt]
      dsimp only
      omega
    · rw [if_neg ho, if_neg ho] at hk
      rw [marksAt, List.getElem?_set_ne ho]
      exact hk
  safe := hsafe

theorem push (h : Refines s cs) (m : M) (p : Phase)
    (hcalls : s'.calls = s.calls ++ [Call.data ⟨m, p⟩]) (hch : Changes s s' cs.length [] p.marks)
    (hsafe : s'.Safe) : Refines s' (cs ++ [⟨m, p⟩]) where
  calls := by rw [hcalls, h.calls, List.map_append, List.map_singleton]
  count k o := by
    have hk := hch k o
    rw [h.count k o] at hk
    by_cases ho : cs.length = o
    · subst ho
      have hnone : marksAt cs cs.length = [] := by simp [marksAt]
      rw [marksAt, List.getElem?_concat_length]
      simpa [hnone] using hk
    · have hget : (cs ++ [⟨m, p⟩])[o]? = cs[o]? := by
        rcases Nat.lt_or_gt_of_ne ho with hgt | hlt
        · have hlen : (cs ++ [(⟨m, p⟩ : Call M)]).length ≤ o := by
            rw [List.length_append, List.length_singleton]
            omega
          rw [List.getElem?_eq_none hlen, List.getElem?_eq_none (Nat.le_of_lt hgt)]
        · exact List.getElem?_append_left hlt
      have hmarks : marksAt (cs ++ [⟨m, p⟩]) o = marksAt cs o := by rw [marksAt, hget, marksAt]
      rw [hmarks]
      simpa [ho] using hk
  safe := hsafe

/-! ### The events -/

theorem newCallData_cqDispatch (h : Refines s cs) (m : M) :
    Refines (s.newCallData .cqDispatch m) (cs ++ [⟨m, .waiting⟩]) := by
  let c : CallData M := { method := m }
  have hch := ((Changes.calls s s.calls.length (s.calls ++ [c])).trans
    (.calls _ _ ((s.calls ++ [c]).set s.calls.length { c with status := .kProcess }))).trans
      (.submit _ s.calls.length .request)
  refine h.push m .waiting ?_ ?_ h.safe
  · show (s.calls ++ [_]).set s.calls.length _ = s.calls ++ [_]
    rw [List.set_append_right _ _ (Nat.le_refl _), Nat.sub_self]
    rfl
  · rw [← h.length]
    exact hch

theorem newCallData_other (h : Refines s cs) (m : M) :
    Refines (s.newCallData .other m) (cs ++ [⟨m, .created⟩]) := by
  refine h.push m .created rfl ?_ h.safe
  have hch := (Changes.calls s cs.length (s.calls ++ [{ method := m }])).trans (.postProceed _ _)
  rw [← h.length] at hch ⊢
  exact hch

/-- A tag comes back with `ok`, and the object posts `Proceed`. -/
theorem returned_true (h : Refines s cs) (hc : cs[o]? = some ⟨m, q⟩) {op : Operation}
    (hop : (op, s.cls.tag o) ∈ s.cq)
    (hmarks : (.returned op true :: .task true :: q.marks).Perm (.pending op :: p.marks))
    (hstatus : p.status = q.status) (hp : p ≠ .deleted) (hq : q ≠ .deleted) :
    Refines (s.step (.next op o true)) (cs.set o ⟨m, p⟩) := by
  let s₁ : Server M := { s with cq := s.cq.erase (op, s.cls.tag o), log := .returned op o true :: s.log }
  have hstep : s.step (.next op o true) = ((s₁.useTag o).use (.callData o)).post (.proceed o) := by
    rw [Server.step, if_pos hop]
    exact s₁.handleRpcs_true o
  have halive : s₁.alive o = true := h.alive hc hq
  have hcalls : (s₁.useTag o).calls = s.calls := s₁.useTag_calls o
  have halive' : (s₁.useTag o).alive o = true := by
    rw [Server.alive, hcalls]
    exact halive
  have hsafe : s₁.Safe := h.safe.cons nofun
  rw [hstep]
  refine h.advance hc ?_ ((((Changes.returned s o hop true).trans (.useTag s₁ o)).trans
    (.use _ o _)).trans (.postProceed _ o)) (by simpa using hmarks) ((hsafe.useTag halive).use halive')
  show (s₁.useTag o).calls = _
  rw [hcalls, h.calls_set hc hstatus (by simp [hp, hq])]

theorem returned_false (h : Refines s cs) (hc : cs[o]? = some ⟨m, q⟩) {op : Operation}
    (hop : (op, s.cls.tag o) ∈ s.cq)
    (hmarks : (.returned op false :: q.marks).Perm (.pending op :: p.marks))
    (hstatus : p.status = q.status) (hp : p = .deleted ↔ q = .deleted) :
    Refines (s.step (.next op o false)) (cs.set o ⟨m, p⟩) := by
  rw [Server.step, if_pos hop]
  exact h.advance hc (h.calls_set hc hstatus hp).symm (Changes.returned s o hop false) hmarks
    (h.safe.cons nofun)

theorem next (h : Refines s cs) (op : Operation) (o : Nat) (ok : Bool) :
    ∃ cs', Step (.next op o ok) cs cs' ∧ Refines (s.step (.next op o ok)) cs' := by
  by_cases hop : (op, s.cls.tag o) ∈ s.cq
  · have hpos : 0 < s.count (.pending op) o := List.count_pos_iff.mpr hop
    obtain ⟨m, q, hc, hmark⟩ := h.exists_of_count hpos
    cases q <;> simp only [Phase.marks, List.mem_cons, List.not_mem_nil, reduceCtorEq, or_false, or_self,
      Mark.pending.injEq] at hmark
    case waiting =>
      subst hmark
      cases ok with
      | true => exact ⟨_, .advance hc (.match o), h.returned_true hc hop (by decide) rfl nofun nofun⟩
      | false => exact ⟨_, .advance hc (.refuse o), h.returned_false hc hop (by decide) rfl (by decide)⟩
    case finishing =>
      subst hmark
      cases ok with
      | true => exact ⟨_, .advance hc (.finished o), h.returned_true hc hop (by decide) rfl nofun nofun⟩
      | false => exact ⟨_, .advance hc (.leak o), h.returned_false hc hop (by decide) rfl (by decide)⟩
  · refine ⟨cs, .none nofun, ?_⟩
    rwa [Server.step, if_neg hop]

theorem process (h : Refines s cs) :
    ∃ cs', Step .process cs cs' ∧ Refines (s.step .process) cs' := by
  rcases hq : s.taskMain with _ | ⟨o, rest⟩
  · refine ⟨cs, .none nofun, ?_⟩
    rwa [Server.step, hq]
  · have hpos : 0 < s.count .process o := by simp [Server.count, hq]
    obtain ⟨m, q, hc, hmark⟩ := h.exists_of_count hpos
    cases q <;> simp only [Phase.marks, List.mem_cons, List.not_mem_nil, reduceCtorEq, or_false, or_self]
      at hmark
    case queued =>
      refine ⟨_, .advance hc .process, ?_⟩
      have hsafe : Server.Safe { s with
          taskMain := rest, handlers := s.handlers ++ [o], log := .process o :: s.log } := h.safe.cons nofun
      rw [Server.step, hq]
      exact h.advance hc (h.calls_set hc rfl (by decide)).symm ((Changes.process s o hq).trans (.use _ o _))
        (by decide) (hsafe.use (h.alive hc nofun))

theorem onProcessed (h : Refines s cs) (o : Nat) :
    ∃ cs', Step (.onProcessed o) cs cs' ∧ Refines (s.step (.onProcessed o)) cs' := by
  by_cases ho : o ∈ s.handlers
  · have hpos : 0 < s.count .handler o := List.count_pos_iff.mpr ho
    obtain ⟨m, q, hc, hmark⟩ := h.exists_of_count hpos
    cases q <;> simp only [Phase.marks, List.mem_cons, List.not_mem_nil, reduceCtorEq, or_false, or_self]
      at hmark
    case running =>
      refine ⟨_, .advance hc (.onProcessed o), ?_⟩
      rw [Server.step, if_pos ho]
      exact h.advance hc (h.calls_set hc rfl (by decide)).symm
        (((Changes.handler s o ho).trans (.use _ o _)).trans (.postOnProcessed _ o)) (by decide)
        (h.safe.use (h.alive hc nofun))
  · refine ⟨cs, .none nofun, ?_⟩
    rwa [Server.step, if_neg ho]

theorem dispatchOnProcessed (h : Refines s cs) {rest : List Task} (hq : s.cqDispatch = .onProcessed o :: rest) :
    ∃ cs', Step .dispatch cs cs' ∧ Refines (s.step .dispatch) cs' := by
  have hpos : 0 < s.count (.task false) o := by simp [Server.count, hq]
  obtain ⟨m, q, hc, hmark⟩ := h.exists_of_count hpos
  cases q <;> simp only [Phase.marks, List.mem_cons, List.not_mem_nil, reduceCtorEq, or_false, or_self,
    Mark.task.injEq, Bool.false_eq_true] at hmark
  case processed =>
    refine ⟨_, .advance hc .finish, ?_⟩
    have hlook : { s with cqDispatch := rest }.calls[o]? = some (Call.data ⟨m, .processed⟩) := h.lookup hc
    rw [Server.step, hq]
    show Refines (Server.onProcessed { s with cqDispatch := rest } .cqDispatch o) _
    rw [Server.onProcessed_cqDispatch hlook]
    exact h.advance hc rfl ((((Changes.takeOnProcessed s o hq).trans (.use _ o _)).trans
      (.calls _ o _)).trans (.submit _ o .finish)) (by decide) (h.safe.use (h.alive hc nofun))

theorem dispatchDelete (h : Refines s cs) {rest : List Task} (hq : s.cqDispatch = .proceed o :: rest)
    (hc : cs[o]? = some ⟨m, .finished⟩) : Refines (s.step .dispatch) (cs.set o ⟨m, .deleted⟩) := by
  have hlook : { s with cqDispatch := rest }.calls[o]? = some (Call.data ⟨m, .finished⟩) := h.lookup hc
  have hsafe : (Server.use { s with cqDispatch := rest } (.callData o)).Safe := h.safe.use (h.alive hc nofun)
  rw [Server.step, hq]
  show Refines (Server.proceed { s with cqDispatch := rest } .cqDispatch o) _
  rw [Server.proceed_cqDispatch hlook]
  exact h.advance hc rfl (((Changes.takeProceed s o hq).trans (.use _ o _)).trans (.delete _ o _))
    (by decide) (hsafe.cons nofun)

theorem dispatchCreate (h : Refines s cs) {rest : List Task} (hq : s.cqDispatch = .proceed o :: rest)
    (hc : cs[o]? = some ⟨m, .created⟩) : Refines (s.step .dispatch) (cs.set o ⟨m, .waiting⟩) := by
  have hlook : { s with cqDispatch := rest }.calls[o]? = some (Call.data ⟨m, .created⟩) := h.lookup hc
  rw [Server.step, hq]
  show Refines (Server.proceed { s with cqDispatch := rest } .cqDispatch o) _
  rw [Server.proceed_cqDispatch hlook]
  exact h.advance hc rfl ((((Changes.takeProceed s o hq).trans (.use _ o _)).trans (.calls _ o _)).trans
    (.submit _ o .request)) (by decide) (h.safe.use (h.alive hc nofun))

/-- `Proceed` after the match: the object for the next call waits before this one is processed. -/
theorem dispatchProcess (h : Refines s cs) {rest : List Task} (hq : s.cqDispatch = .proceed o :: rest)
    (hc : cs[o]? = some ⟨m, .matched⟩) :
    Refines (s.step .dispatch) (List.set (cs ++ [⟨m, .waiting⟩]) o ⟨m, .queued⟩) := by
  have hlook : { s with cqDispatch := rest }.calls[o]? = some (Call.data ⟨m, .matched⟩) := h.lookup hc
  rw [Server.step, hq]
  show Refines (Server.proceed { s with cqDispatch := rest } .cqDispatch o) _
  rw [Server.proceed_cqDispatch hlook]
  -- the server as if the new object had been made before the task was taken
  let s₁ := s.newCallData .cqDispatch m
  have h₁ : Refines s₁ (cs ++ [⟨m, .waiting⟩]) := h.newCallData_cqDispatch m
  have hc₁ : (cs ++ [⟨m, .waiting⟩])[o]? = some ⟨m, .matched⟩ := by
    rw [List.getElem?_append_left (List.getElem?_eq_some_iff.mp hc).1, hc]
  have halive : s₁.alive o = s.alive o := by rw [h₁.alive hc₁ nofun, h.alive hc nofun]
  have hch := ((Changes.takeProceed s₁ o hq).trans (.use _ o (.callData o))).trans (.postProcess _ o)
  have heq : Server.use { s₁ with cqDispatch := rest } (.callData o) =
      (Server.use { s with cqDispatch := rest } (.callData o)).newCallData .cqDispatch m := by
    show { s₁ with cqDispatch := rest, log := .use (.callData o) (s₁.alive o) :: s.log } = _
    rw [halive]
    rfl
  rw [heq] at hch
  exact h₁.advance hc₁ (h₁.calls_set hc₁ rfl (by decide)).symm hch (by decide)
    (h.safe.use (h.alive hc nofun))

theorem dispatch (h : Refines s cs) :
    ∃ cs', Step .dispatch cs cs' ∧ Refines (s.step .dispatch) cs' := by
  rcases hq : s.cqDispatch with _ | ⟨o | o, rest⟩
  · refine ⟨cs, .none nofun, ?_⟩
    rwa [Server.step, hq]
  · have hpos : 0 < s.count (.task true) o := by simp [Server.count, hq]
    obtain ⟨m, q, hc, hmark⟩ := h.exists_of_count hpos
    cases q <;> simp only [Phase.marks, List.mem_cons, List.not_mem_nil, reduceCtorEq, or_false, or_self,
      Mark.task.injEq, Bool.true_eq_false] at hmark
    case created => exact ⟨_, .advance hc .create, h.dispatchCreate hq hc⟩
    case matched => exact ⟨_, .spawn hc, h.dispatchProcess hq hc⟩
    case finished => exact ⟨_, .advance hc .delete, h.dispatchDelete hq hc⟩
  · exact h.dispatchOnProcessed hq

theorem step (h : Refines s cs) (e : Event M) : ∃ cs', Step e cs cs' ∧ Refines (s.step e) cs' := by
  cases e with
  | newCallData m => exact ⟨_, .register m, h.newCallData_other m⟩
  | next op o ok => exact h.next op o ok
  | dispatch => exact h.dispatch
  | process => exact h.process
  | onProcessed o => exact h.onProcessed o

theorem init (cls : CallClass) : Refines ({ cls } : Server M) [] where
  calls := rfl
  count k o := by rcases k with (_ | _) | _ | _ | _ | _ | _ | _ <;> rfl
  safe := nofun

theorem run (h : Refines s cs) (es : List (Event M)) : ∃ cs', Refines (Lib.run Server.step s es) cs' := by
  refine Lib.run_keep (I := fun s => ∃ cs, Refines s cs) (fun s e hs => ?_) ⟨cs, h⟩ es
  obtain ⟨cs, h⟩ := hs
  obtain ⟨cs', -, h'⟩ := h.step e
  exact ⟨cs', h'⟩

/-- A matched call is in the queue of the main task thread or has been processed, once. -/
theorem processed_once (h : Refines s cs) (hidle : s.Idle)
    (hmatch : .returned .request o true ∈ s.log) : s.taskMain.count o + s.log.count (.process o) = 1 := by
  have hpos : 0 < s.count (.returned .request true) o := List.count_pos_iff.mpr hmatch
  obtain ⟨m, q, hc, hmark⟩ := h.exists_of_count hpos
  have hmarks : marksAt cs o = q.marks := by rw [marksAt, hc]
  have htask : q.marks.count (.task true) = 0 := by
    rw [← hmarks, ← h.count, Server.count, hidle, List.count_nil]
  have hmain : s.taskMain.count o = q.marks.count .process := by rw [← hmarks, ← h.count, Server.count]
  have hran : s.log.count (.process o) = q.marks.count .ran := by rw [← hmarks, ← h.count, Server.count]
  rw [hmain, hran]
  revert hmark htask
  cases q <;> decide

theorem process_le_one (h : Refines s cs) (o : Nat) : s.log.count (.process o) ≤ 1 := by
  have hran : s.log.count (.process o) = (marksAt cs o).count .ran := h.count .ran o
  rw [hran, marksAt]
  split
  · rename_i c _
    cases c.phase <;> decide
  · exact Nat.zero_le 1

end Refines

/-! ## Open slots -/

section Slots

variable [DecidableEq M] {s : Server M} {cs cs' : List (Call M)} {e : Event M}

def slots (cs : List (Call M)) (m : M) : Nat := cs.countP fun c => c.method = m ∧ c.phase.isSlot

def Server.Event.isOk : Event M → Bool
  | .next _ _ ok => ok
  | _ => true

theorem slots_set {o : Nat} {m : M} {q : Phase} (hc : cs[o]? = some ⟨m, q⟩) (p : Phase) (m' : M) :
    slots (cs.set o ⟨m, p⟩) m' + (if m = m' ∧ q.isSlot then 1 else 0) =
      slots cs m' + if m = m' ∧ p.isSlot then 1 else 0 := by
  obtain ⟨hlt, hget⟩ := List.getElem?_eq_some_iff.mp hc
  have hpos : (m = m' ∧ q.isSlot) → 0 < slots cs m' := fun hm =>
    List.countP_pos_iff.mpr ⟨_, List.mem_of_getElem? hc, by simpa using hm⟩
  simp only [slots, List.countP_set hlt, hget, decide_eq_true_eq] at hpos ⊢
  by_cases hm : m = m' ∧ q.isSlot
  · have hpos := hpos hm
    rw [if_pos hm]
    omega
  · rw [if_neg hm]
    omega

theorem slots_concat (cs : List (Call M)) (m : M) (p : Phase) (m' : M) :
    slots (cs ++ [⟨m, p⟩]) m' = slots cs m' + if m = m' ∧ p.isSlot then 1 else 0 := by
  simp [slots, List.countP_append, List.countP_singleton]

/-- Without `refused` an object that is no slot any more has made another. -/
theorem Step.slots (h : Step e cs cs') (hok : e.isOk = true) (m : M) :
    slots cs' m = Grpc.slots cs m + if e = .newCallData m then 1 else 0 := by
  cases h with
  | none he => rw [if_neg (he m), Nat.add_zero]
  | register m' => simp [slots_concat, Phase.isSlot]
  | @advance _ _ o m' q p hc hnext =>
    have hset := slots_set hc p m
    have hslot : p.isSlot = q.isSlot := by
      cases hnext
      case refuse => cases hok
      all_goals rfl
    have he : e ≠ .newCallData m := by cases hnext <;> nofun
    rw [hslot] at hset
    rw [if_neg he, Nat.add_zero]
    exact Nat.add_right_cancel hset
  | @spawn _ o m' hc =>
    have hc' : (cs ++ [⟨m', .waiting⟩])[o]? = some ⟨m', .matched⟩ := by
      rw [List.getElem?_append_left (List.getElem?_eq_some_iff.mp hc).1, hc]
    have hset := slots_set hc' .queued m
    rw [slots_concat] at hset
    simpa [Phase.isSlot] using hset

/-- Every run with `ok` has as many slots as registrations. -/
theorem Refines.run_slots (h : Refines s cs) {es : List (Event M)} (hok : ∀ e ∈ es, e.isOk = true) :
    ∃ cs', Refines (Lib.run Server.step s es) cs' ∧
      ∀ m, slots cs' m = slots cs m + es.count (.newCallData m) := by
  induction es generalizing s cs with
  | nil => exact ⟨cs, h, fun _ => rfl⟩
  | cons e es ih =>
    obtain ⟨cs₁, hstep, h₁⟩ := h.step e
    obtain ⟨cs₂, h₂, hslots⟩ := ih h₁ fun f hf => hok f (List.mem_cons_of_mem _ hf)
    refine ⟨cs₂, h₂, fun m => ?_⟩
    rw [hslots m, hstep.slots (hok e List.mem_cons_self) m, List.count_cons]
    simp only [beq_iff_eq]
    omega

theorem Refines.openSlots (h : Refines s cs) (hidle : s.Idle) (m : M) : s.openSlots m = slots cs m := by
  have hwait : ∀ x ∈ cs.zipIdx, (x.1.method = m ∧ (Operation.request, s.cls.tag x.2) ∈ s.cq) ↔
      (x.1.method = m ∧ x.1.phase.isSlot) := by
    intro ⟨⟨m', q⟩, o⟩ hx
    have hc : cs[o]? = some ⟨m', q⟩ := List.mem_zipIdx_iff_getElem?.mp hx
    have htask : (marksAt cs o).count (.task true) = 0 := by
      rw [← h.count, Server.count, hidle, List.count_nil]
    have hcq : (Operation.request, s.cls.tag o) ∈ s.cq ↔ 0 < (marksAt cs o).count (.pending .request) := by
      rw [← h.count, Server.count, List.count_pos_iff]
    rw [marksAt, hc] at htask hcq
    rw [hcq]
    cases q <;> simp [Phase.marks, Phase.isSlot] at htask ⊢
  have hfst : cs.zipIdx.countP (fun x => x.1.method = m ∧ x.1.phase.isSlot) = slots cs m := by
    rw [slots, ← List.zipIdx_map_fst 0 cs, List.countP_map, List.zipIdx_map_fst]
    rfl
  rw [Server.openSlots, h.calls, List.zipIdx_map, List.countP_map, ← hfst]
  refine List.countP_congr fun x hx => ?_
  simp only [Function.comp_apply, decide_eq_true_eq]
  exact hwait x hx

/-- While the completion queue returns every tag with `ok`, the dispatch thread, whenever it
is idle, leaves as many open slots of a method as it was registered times: one for each
method that was registered once. -/
theorem oneSlot (cls : CallClass) {es : List (Event M)} (hok : ∀ e ∈ es, e.isOk = true) :
    let s := Lib.run Server.step ({ cls } : Server M) es
    (s.Idle → ∀ m, s.openSlots m = es.count (.newCallData m)) ∧
    (s.Idle → ∀ o, .returned .request o true ∈ s.log → s.taskMain.count o + s.log.count (.process o) = 1) ∧
    (∀ o, s.log.count (.process o) ≤ 1) ∧ s.Safe := by
  obtain ⟨cs, h, hslots⟩ := (Refines.init cls).run_slots hok
  refine ⟨fun hidle m => ?_, fun hidle o => h.processed_once hidle, h.process_le_one, h.safe⟩
  rw [h.openSlots hidle, hslots m]
  simp [slots]

def oneCall (finishOk : Bool) : List (Event Nat) :=
  [.newCallData 0, .newCallData 1, .dispatch, .dispatch, .next .request 0 true, .dispatch, .process,
    .onProcessed 0, .dispatch, .next .finish 0 finishOk, .dispatch]

theorem oneSlot_oneCall :
    let s := Lib.run Server.step ({ cls := .grpcServerCallBase } : Server Nat) (oneCall true)
    s.Idle ∧ s.openSlots 0 = 1 ∧ s.openSlots 1 = 1 ∧ s.log.count (.process 0) = 1 ∧ s.Safe := by
  obtain ⟨hslots, honce, -, hsafe⟩ :=
    oneSlot .grpcServerCallBase (show ∀ e ∈ oneCall true, e.isOk = true by decide)
  have hidle : (Lib.run Server.step ({ cls := .grpcServerCallBase } : Server Nat) (oneCall true)).Idle := rfl
  have hone := honce hidle 0 (by decide)
  exact ⟨hidle, hslots hidle 0, hslots hidle 1, hone, hsafe⟩

end Slots

/-! ## Deletion -/

section Deletion

variable {s : Server M} {cs cs' : List (Call M)} {e : Event M} {o : Nat} {m : M}

/-- An object whose `Finish` has been returned is deleted or about to be, if the tag came with `ok`. -/
theorem Refines.deletion (h : Refines s cs) {ok : Bool} (hfin : .returned .finish o ok ∈ s.log) :
    s.log.count (.delete o) + s.cqDispatch.count (.proceed o) = if ok then 1 else 0 := by
  have hpos : 0 < s.count (.returned .finish ok) o := List.count_pos_iff.mpr hfin
  obtain ⟨m, q, hc, hmark⟩ := h.exists_of_count hpos
  have hmarks : marksAt cs o = q.marks := by rw [marksAt, hc]
  have hdel : s.log.count (.delete o) = q.marks.count .deletion := by rw [← hmarks, ← h.count, Server.count]
  have htask : s.cqDispatch.count (.proceed o) = q.marks.count (.task true) := by
    rw [← hmarks, ← h.count, Server.count]
  rw [hdel, htask]
  revert hmark
  cases q <;> cases ok <;> decide

theorem Step.leaked (h : Step e cs cs') (hc : cs[o]? = some ⟨m, .leaked⟩) : cs'[o]? = some ⟨m, .leaked⟩ := by
  have hlt := (List.getElem?_eq_some_iff.mp hc).1
  cases h with
  | none => exact hc
  | register => rwa [List.getElem?_append_left hlt]
  | @advance _ _ o' m' q p hc' hnext =>
    have hne : o' ≠ o := by
      rintro rfl
      cases hc.symm.trans hc'
      cases hnext
    rwa [List.getElem?_set_ne hne]
  | @spawn _ o' m' hc' =>
    have hne : o' ≠ o := by
      rintro rfl
      cases hc.symm.trans hc'
    rwa [List.getElem?_set_ne hne, List.getElem?_append_left hlt]

/-- An object whose tag came back from `Finish` without `ok` is not deleted, however the run goes on. -/
theorem Refines.never_deleted (h : Refines s cs) (hfin : .returned .finish o false ∈ s.log)
    (es : List (Event M)) : (Lib.run Server.step s es).log.count (.delete o) = 0 := by
  have hpos : 0 < s.count (.returned .finish false) o := List.count_pos_iff.mpr hfin
  obtain ⟨m, q, hc, hmark⟩ := h.exists_of_count hpos
  have hq : q = .leaked := by
    revert hmark
    cases q <;> decide
  subst hq
  obtain ⟨cs', h', hc'⟩ := Lib.run_keep (I := fun s => ∃ cs, Refines s cs ∧ cs[o]? = some ⟨m, .leaked⟩)
    (fun s e ⟨cs, h, hc⟩ => by
      obtain ⟨cs', hstep, h'⟩ := h.step e
      exact ⟨cs', h', hstep.leaked hc⟩) ⟨cs, h, hc⟩ es
  have hdel : (Lib.run Server.step s es).log.count (.delete o) = (marksAt cs' o).count .deletion :=
    h'.count .deletion o
  rw [hdel, marksAt, hc']
  rfl

/-- An object whose `Finish` has been returned with `ok` is deleted once, by the task that its
tag posts; one whose tag came without `ok` is not deleted at any later time. -/
theorem deleted_iff_ok (cls : CallClass) (es : List (Event M)) {o : Nat} {ok : Bool}
    (hfin : .returned .finish o ok ∈ (Lib.run Server.step ({ cls } : Server M) es).log) :
    let s := Lib.run Server.step ({ cls } : Server M) es
    s.log.count (.delete o) + s.cqDispatch.count (.proceed o) = if ok then 1 else 0 := by
  obtain ⟨cs, h⟩ := (Refines.init cls).run es
  exact h.deletion hfin

theorem deleted_iff_ok_oneCall :
    let s := Lib.run Server.step ({ cls := .grpcServerCallDataBase } : Server Nat) (oneCall true)
    s.log.count (.delete 0) + s.cqDispatch.count (.proceed 0) = 1 :=
  deleted_iff_ok .grpcServerCallDataBase (oneCall true)
    (show Entry.returned .finish 0 true ∈ _ by decide)

/-- The client has gone when the reply is sent: nothing is left to do for the call, and its
object is never deleted. -/
theorem oneCall_leaks :
    let s := Lib.run Server.step ({ cls := .grpcServerCallBase } : Server Nat) (oneCall false)
    .returned .finish 0 false ∈ s.log ∧ s.cqDispatch = [] ∧ s.taskMain = [] ∧ s.handlers = [] ∧
      ∀ es, (Lib.run Server.step s es).log.count (.delete 0) = 0 := by
  obtain ⟨cs, h⟩ := (Refines.init .grpcServerCallBase).run (oneCall false)
  exact ⟨by decide, rfl, rfl, rfl, h.never_deleted (by decide)⟩

end Deletion

end Nas.Grpc
