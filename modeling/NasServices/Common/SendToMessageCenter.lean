import Mathlib.Data.List.Perm.Basic
import NasServices.Lib.Run

/-!
# Messages to the message center

Every message is a task on the thread of `SendToMessageCenter`, which is the only one
that uses `stub_`. `Publish` and `PublishToMessageCenter` differ in the request they
make of their arguments, which is all that a task `m : M` stands for here. A message is
posted again, behind all others, when the call fails, and is dropped when there is no
address to make a stub for (`run_sent`).
-/

namespace Nas.Common

structure SendToMessageCenter (M : Type*) where
  hasStub : Bool := false
  tasks : List M := []
  published : List M := []
  dropped : List M := []
  posted : List M := []

namespace SendToMessageCenter

variable {M : Type*}

inductive Event (M : Type*)
  | asyncPublish (m : M)
  /-- The thread runs its next task: whether `QueryGrpcServices` gives an address, and the status of
  the call. -/
  | publish (address ok : Bool)

def createMessageCenterStub (s : SendToMessageCenter M) (address : Bool) : SendToMessageCenter M :=
  { s with hasStub := s.hasStub || address }

/-- `Publish` on the thread; a stub whose call has failed is not used again. -/
def publish (s : SendToMessageCenter M) (m : M) (address ok : Bool) : SendToMessageCenter M :=
  let s := if s.hasStub then s else s.createMessageCenterStub address
  if !s.hasStub then { s with dropped := s.dropped ++ [m] }
  else if ok then { s with published := s.published ++ [m] }
  else { s with hasStub := false, tasks := s.tasks ++ [m] }

def step (s : SendToMessageCenter M) : Event M → SendToMessageCenter M
  | .asyncPublish m => { s with tasks := s.tasks ++ [m], posted := s.posted ++ [m] }
  | .publish address ok =>
    match s.tasks with
    | [] => s
    | m :: tasks => { s with tasks }.publish m address ok

def Event.fails : Event M → Bool
  | .publish _ ok => !ok
  | _ => false

def Event.isUnknown : Event M → Bool
  | .publish address _ => !address
  | _ => false

/-- All that a step can do; only a message that has just been sent decides on the stub. -/
theorem step_cases (s : SendToMessageCenter M) (e : Event M) : ∃ hasStub,
    s.step e = { s with hasStub } ∨
    (∃ m, s.step e = { s with hasStub, tasks := s.tasks ++ [m], posted := s.posted ++ [m] }) ∨
    ∃ m tasks, s.tasks = m :: tasks ∧
      (e.isUnknown = true ∧ s.step e = { s with hasStub, tasks, dropped := s.dropped ++ [m] } ∨
        s.step e = { s with hasStub, tasks, published := s.published ++ [m] } ∨
        e.fails = true ∧ s.step e = { s with hasStub, tasks := tasks ++ [m] }) := by
  cases e with
  | asyncPublish m => exact ⟨s.hasStub, .inr (.inl ⟨m, rfl⟩)⟩
  | publish address ok =>
    cases ht : s.tasks with
    | nil => exact ⟨s.hasStub, .inl (by simp only [step, ht]; rw [← ht])⟩
    | cons m tasks =>
      refine ⟨(s.step (.publish address ok)).hasStub, .inr (.inr ⟨m, tasks, rfl, ?_⟩)⟩
      simp only [step, ht, publish, createMessageCenterStub, Event.isUnknown, Event.fails]
      cases s.hasStub <;> cases address <;> cases ok <;> simp

/-- Every message that was posted is published once, dropped or still to be sent. None is dropped while
the address is `known`, and they keep the order of the callers while every call is `ok`. -/
structure Sent (known ok : Prop) (s : SendToMessageCenter M) : Prop where
  perm : (s.published ++ s.dropped ++ s.tasks).Perm s.posted
  dropped : known → s.dropped = []
  order : ok → (s.published ++ s.tasks).Sublist s.posted

theorem Sent.step {known ok : Prop} {s : SendToMessageCenter M} (h : Sent known ok s) {e : Event M}
    (hknown : known → e.isUnknown = false) (hok : ok → e.fails = false) : Sent known ok (s.step e) := by
  obtain ⟨hasStub, hs | ⟨m, hs⟩ | ⟨m, tasks, ht, hs⟩⟩ := s.step_cases e
  · rw [hs]
    exact ⟨h.perm, h.dropped, h.order⟩
  · rw [hs]
    refine ⟨?_, h.dropped, fun hok => ?_⟩
    · simpa only [List.append_assoc] using h.perm.append_right [m]
    · simpa only [List.append_assoc] using (h.order hok).append_right [m]
  · obtain ⟨hperm, hdropped, horder⟩ := h
    rw [ht] at hperm horder
    rcases hs with ⟨he, hs⟩ | hs | ⟨he, hs⟩ <;> rw [hs]
    · refine ⟨?_, fun hk => absurd he (by simp [hknown hk]), fun ho => ?_⟩
      · simpa using hperm
      · exact ((List.sublist_cons_self m tasks).append_left _).trans (horder ho)
    · refine ⟨?_, hdropped, fun ho => ?_⟩
      · refine .trans ?_ hperm
        simp only [List.append_assoc, List.singleton_append]
        exact List.perm_middle.symm.append_left _
      · simpa using horder ho
    · exact ⟨((List.perm_append_singleton m tasks).append_left _).trans hperm, hdropped,
        fun ho => absurd he (by simp [hok ho])⟩

theorem run_sent (es : List (Event M)) :
    Sent (∀ e ∈ es, e.isUnknown = false) (∀ e ∈ es, e.fails = false) (Lib.run step {} es) :=
  (Lib.along_of_forall (P := fun _ e => e ∈ es) (fun _ _ he => he) _).run
    (fun _ e h he => h.step (fun hknown => hknown e he) (fun hok => hok e he))
    ⟨.refl _, fun _ => rfl, fun _ => .refl _⟩

end SendToMessageCenter

end Nas.Common
