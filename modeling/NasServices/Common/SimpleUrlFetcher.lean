import NasServices.Lib.Run
import Mathlib.Data.List.Nodup

/-!
# Url requests and their delegates

`SimpleUrlFetcher` keeps a `net::URLFetcher` and a callback for each request, in a map that only its task
runner touches. A completed request runs its callback while an iterator into the map is held, and the
callback may cancel requests. The delegate of a fetcher, made with `new`, deletes itself when the fetcher
completes; a fetcher that is destroyed before never tells its delegate.

A delegate has the number of its fetcher. `Counted` says where each of them is: with a request under way,
deleted, or orphaned. All is well exactly as long as no cancellation finds a request (`clean_iff_spares`).
-/

namespace Nas.Common

open Lib

inductive Cancel
  | fetcher (requestId : Nat)
  | all
  deriving DecidableEq

structure Request where
  id : Nat
  fetcher : Nat
  deriving DecidableEq

def Cancel.hits : Cancel → Request → Bool
  | .fetcher requestId, x => x.id = requestId
  | .all, _ => true

inductive Posted
  | createRequest (id : Nat)
  | cancel (c : Cancel)
  deriving DecidableEq

def Posted.created : Posted → Option Nat
  | .createRequest id => some id
  | .cancel _ => none

structure SimpleUrlFetcher where
  nextId : Nat := 0
  posted : List Posted := []
  /-- The map; the null pointer before the first request is as good as an empty one. -/
  fetchers : List Request := []
  nextFetcher : Nat := 0
  /-- Delegates, one entry for each `delete`. -/
  deleted : List Nat := []
  /-- Requests, one entry for each run of a callback. -/
  ran : List Nat := []
  /-- An iterator has been used after its entry was erased. -/
  usedErased : Bool := false
  /-- Not in the source, as are the following: requests whose fetcher has completed. -/
  completed : List Nat := []
  cancelled : List Nat := []
  failed : List Nat := []
  /-- Delegates that no fetcher will call any more. -/
  orphans : List Nat := []
  deriving DecidableEq

inductive FetcherEvent
  | startGet
  | startPost
  /-- `CancelFetcher` and `CancelAll`, on the task runner or on another thread. -/
  | cancel (onRunner : Bool) (c : Cancel)
  /-- The task runner runs the first posted task; `created` is whether `URLFetcher::Create` gives a fetcher. -/
  | runPosted (created : Bool)
  /-- A fetcher completes, and the callback makes these calls. -/
  | complete (source : Nat) (calls : List Cancel)
  deriving DecidableEq

namespace SimpleUrlFetcher

-- Which requests have a callback that is not null.
variable (hasCallback : Nat → Bool)

def startRequest (s : SimpleUrlFetcher) : SimpleUrlFetcher :=
  { s with nextId := s.nextId + 1, posted := s.posted ++ [.createRequest s.nextId] }

def startGet (s : SimpleUrlFetcher) : SimpleUrlFetcher := s.startRequest

def startPost (s : SimpleUrlFetcher) : SimpleUrlFetcher := s.startRequest

def createRequest (s : SimpleUrlFetcher) (id : Nat) (created : Bool) : SimpleUrlFetcher :=
  let delegate := s.nextFetcher
  let s := { s with nextFetcher := delegate + 1 }
  if created then { s with fetchers := s.fetchers ++ [⟨id, delegate⟩] }
  else { s with failed := s.failed ++ [id], orphans := s.orphans ++ [delegate] }

def cancelNow (s : SimpleUrlFetcher) (c : Cancel) : SimpleUrlFetcher :=
  let erased := s.fetchers.filter c.hits
  { s with
    fetchers := s.fetchers.filter (!c.hits ·)
    cancelled := s.cancelled ++ erased.map Request.id
    orphans := s.orphans ++ erased.map Request.fetcher }

def cancel (s : SimpleUrlFetcher) (onRunner : Bool) (c : Cancel) : SimpleUrlFetcher :=
  if onRunner then s.cancelNow c else { s with posted := s.posted ++ [.cancel c] }

def runCallback (s : SimpleUrlFetcher) (id : Nat) (calls : List Cancel) : SimpleUrlFetcher :=
  if hasCallback id then calls.foldl cancelNow { s with ran := s.ran ++ [id] } else s

def eraseIter (s : SimpleUrlFetcher) (iter : Request) : SimpleUrlFetcher :=
  if iter ∈ s.fetchers then { s with fetchers := s.fetchers.erase iter } else { s with usedErased := true }

def onRequestComplete (s : SimpleUrlFetcher) (iter : Request) (calls : List Cancel) : SimpleUrlFetcher :=
  (runCallback hasCallback { s with completed := s.completed ++ [iter.id] } iter.id calls).eraseIter iter

/-- Only a fetcher that has not been destroyed completes. Its delegate has the number of the fetcher. -/
def onURLFetchComplete (s : SimpleUrlFetcher) (source : Nat) (calls : List Cancel) : SimpleUrlFetcher :=
  match s.fetchers.find? (·.fetcher = source) with
  | none => s
  | some iter =>
    let s := onRequestComplete hasCallback s iter calls
    { s with deleted := s.deleted ++ [source] }

def runTask (s : SimpleUrlFetcher) (created : Bool) : Posted → SimpleUrlFetcher
  | .createRequest id => s.createRequest id created
  | .cancel c => s.cancelNow c

def step (s : SimpleUrlFetcher) : FetcherEvent → SimpleUrlFetcher
  | .startGet => s.startGet
  | .startPost => s.startPost
  | .cancel onRunner c => s.cancel onRunner c
  | .runPosted created =>
    match s.posted with
    | [] => s
    | task :: tasks => { s with posted := tasks }.runTask created task
  | .complete source calls => onURLFetchComplete hasCallback s source calls

/-! ## What cancellations do -/

def live (s : SimpleUrlFetcher) : List Nat := s.fetchers.map Request.fetcher

def waiting (s : SimpleUrlFetcher) : List Nat := s.posted.filterMap Posted.created ++ s.fetchers.map Request.id

def Finds (s : SimpleUrlFetcher) (c : Cancel) : Prop := ∃ x ∈ s.fetchers, c.hits x = true

variable {hasCallback} {s s' s'' : SimpleUrlFetcher}

/-- Requests that leave the map are cancelled and their delegates orphaned, and nothing else changes. -/
structure Cancels (s s' : SimpleUrlFetcher) : Prop where
  rest : s' = { s with fetchers := s'.fetchers, cancelled := s'.cancelled, orphans := s'.orphans }
  live : ∀ d, s'.live.count d + s'.orphans.count d = s.live.count d + s.orphans.count d
  requests : ∀ id, (s'.fetchers.map Request.id).count id + s'.cancelled.count id =
    (s.fetchers.map Request.id).count id + s.cancelled.count id
  orphans : s.orphans <+: s'.orphans
  lost : ∀ x ∈ s.fetchers, x ∈ s'.fetchers ∨ x.fetcher ∈ s'.orphans

theorem Cancels.refl (s : SimpleUrlFetcher) : Cancels s s :=
  ⟨rfl, fun _ => rfl, fun _ => rfl, List.prefix_refl _, fun _ hx => .inl hx⟩

theorem Cancels.trans (h : Cancels s s') (h' : Cancels s' s'') : Cancels s s'' where
  rest := by rw [h'.rest, h.rest]
  live d := (h'.live d).trans (h.live d)
  requests id := (h'.requests id).trans (h.requests id)
  orphans := h.orphans.trans h'.orphans
  lost x hx := by
    rcases h.lost x hx with hx | hx
    · exact h'.lost x hx
    · exact .inr (h'.orphans.subset hx)

theorem count_filter_add (c : Cancel) (f : Request → Nat) (l : List Request) (d : Nat) :
    ((l.filter (!c.hits ·)).map f).count d + ((l.filter c.hits).map f).count d = (l.map f).count d := by
  have hperm := ((List.filter_append_perm c.hits l).map f).count_eq d
  rw [List.map_append, List.count_append] at hperm
  omega

theorem cancels_cancelNow (s : SimpleUrlFetcher) (c : Cancel) : Cancels s (s.cancelNow c) where
  rest := rfl
  live d := by
    have := count_filter_add c Request.fetcher s.fetchers d
    simp only [SimpleUrlFetcher.live, cancelNow, List.count_append]
    omega
  requests id := by
    have := count_filter_add c Request.id s.fetchers id
    simp only [cancelNow, List.count_append]
    omega
  orphans := List.prefix_append _ _
  lost x hx := by
    cases hhit : c.hits x with
    | false => exact .inl (List.mem_filter.mpr ⟨hx, by simp [hhit]⟩)
    | true =>
      exact .inr (List.mem_append_right _ (List.mem_map_of_mem (List.mem_filter.mpr ⟨hx, hhit⟩)))

theorem cancels_foldl (calls : List Cancel) (s : SimpleUrlFetcher) : Cancels s (calls.foldl cancelNow s) := by
  induction calls generalizing s with
  | nil => exact .refl s
  | cons c calls ih => exact (cancels_cancelNow s c).trans (ih _)

theorem cancelNow_of_not_finds {c : Cancel} (h : ¬ s.Finds c) : s.cancelNow c = s := by
  have hnone : ∀ x ∈ s.fetchers, ¬ c.hits x = true := fun x hx hhit => h ⟨x, hx, hhit⟩
  have hkept : s.fetchers.filter (!c.hits ·) = s.fetchers :=
    List.filter_eq_self.mpr fun x hx => by simp [hnone x hx]
  rw [cancelNow, List.filter_eq_nil_iff.mpr hnone, hkept]
  simp

theorem cancelNow_orphans_of_finds {c : Cancel} (h : s.Finds c) : (s.cancelNow c).orphans ≠ [] := by
  obtain ⟨x, hx, hhit⟩ := h
  exact List.append_ne_nil_of_right_ne_nil _
    (List.ne_nil_of_mem (List.mem_map_of_mem (List.mem_filter.mpr ⟨hx, hhit⟩)))

/-- A callback orphans no delegate exactly when none of its calls finds a request. -/
theorem foldl_orphans_iff (calls : List Cancel) (hs : s.orphans = []) :
    (calls.foldl cancelNow s).orphans = [] ↔ ∀ c ∈ calls, ¬ s.Finds c := by
  induction calls with
  | nil => simpa using hs
  | cons c calls ih =>
    rw [List.foldl_cons, List.forall_mem_cons]
    by_cases hc : s.Finds c
    · refine iff_of_false (fun h => cancelNow_orphans_of_finds hc ?_) fun h => h.1 hc
      exact List.prefix_nil.mp (h ▸ (cancels_foldl calls (s.cancelNow c)).orphans)
    · rw [cancelNow_of_not_finds hc, ih]
      exact (and_iff_right hc).symm

/-! ## Where every delegate and every request is -/

/-- Every delegate and every request is in one place; a callback has run once for each completion. -/
structure Counted (hasCallback : Nat → Bool) (s : SimpleUrlFetcher) : Prop where
  delegates : ∀ d, s.deleted.count d + s.live.count d + s.orphans.count d = (List.range s.nextFetcher).count d
  requests : ∀ id, s.waiting.count id + s.completed.count id + s.cancelled.count id + s.failed.count id =
    (List.range s.nextId).count id
  ran : ∀ id, s.ran.count id = if hasCallback id then s.completed.count id else 0
  failed : s.orphans = [] → s.failed = []

/-- An iterator is used after its entry was erased only when a delegate has been orphaned. -/
def Inv (hasCallback : Nat → Bool) (s : SimpleUrlFetcher) : Prop :=
  (s.usedErased = true ∧ s.orphans ≠ []) ∨ (s.usedErased = false ∧ Counted hasCallback s)

theorem count_range_succ (n d : Nat) :
    (List.range (n + 1)).count d = (List.range n).count d + [n].count d := by
  rw [List.range_succ, List.count_append]

theorem Counted.cancels (h : Counted hasCallback s) (hc : Cancels s s') : Counted hasCallback s' := by
  have horphans := hc.orphans
  obtain ⟨hrest, hlive, hrequests, -, -⟩ := hc
  rw [hrest]
  refine ⟨fun d => ?_, fun id => ?_, h.ran, fun hnone => h.failed ?_⟩
  · have := h.delegates d
    have := hlive d
    simp only [SimpleUrlFetcher.live] at *
    omega
  · have := h.requests id
    have := hrequests id
    simp only [waiting, List.count_append] at *
    omega
  · exact List.prefix_nil.mp (hnone ▸ horphans)

theorem Counted.startRequest (h : Counted hasCallback s) : Counted hasCallback s.startRequest := by
  refine ⟨h.delegates, fun id => ?_, h.ran, h.failed⟩
  have := h.requests id
  have := count_range_succ s.nextId id
  simp only [SimpleUrlFetcher.startRequest, waiting, List.filterMap_append, List.filterMap_cons, Posted.created,
    List.filterMap_nil, List.count_append] at *
  omega

theorem Counted.createRequest {id : Nat} {tasks : List Posted} (h : Counted hasCallback s)
    (hposted : s.posted = .createRequest id :: tasks) (created : Bool) :
    Counted hasCallback ({ s with posted := tasks }.createRequest id created) := by
  have hdelegates := fun d => count_range_succ s.nextFetcher d
  have hwaiting : ∀ j, s.waiting.count j =
      [id].count j + (tasks.filterMap Posted.created ++ s.fetchers.map Request.id).count j := by
    intro j
    rw [waiting, hposted, ← List.count_append]
    rfl
  unfold SimpleUrlFetcher.createRequest
  cases created with
  | true =>
    refine ⟨fun d => ?_, fun j => ?_, h.ran, h.failed⟩
    · have := h.delegates d
      have := hdelegates d
      simp only [live, if_true, List.map_append, List.map_cons, List.map_nil, List.count_append] at *
      omega
    · have := h.requests j
      have := hwaiting j
      simp only [waiting, if_true, List.map_append, List.map_cons, List.map_nil, List.count_append] at *
      omega
  | false =>
    refine ⟨fun d => ?_, fun j => ?_, h.ran, fun hnone => ?_⟩
    · have := h.delegates d
      have := hdelegates d
      simp only [live, Bool.false_eq_true, if_false, List.count_append] at *
      omega
    · have := h.requests j
      have := hwaiting j
      simp only [waiting, Bool.false_eq_true, if_false, List.count_append] at *
      omega
    · simp at hnone

theorem Counted.postCancel (h : Counted hasCallback s) (c : Cancel) :
    Counted hasCallback { s with posted := s.posted ++ [.cancel c] } := by
  refine ⟨h.delegates, fun id => ?_, h.ran, h.failed⟩
  have := h.requests id
  simp only [waiting, List.filterMap_append, List.filterMap_cons, Posted.created, List.filterMap_nil,
    List.append_nil] at *
  exact this

theorem Counted.popCancel {c : Cancel} {tasks : List Posted} (h : Counted hasCallback s)
    (hposted : s.posted = .cancel c :: tasks) : Counted hasCallback { s with posted := tasks } := by
  refine ⟨h.delegates, fun id => ?_, h.ran, h.failed⟩
  have := h.requests id
  rw [waiting, hposted] at this
  exact this

theorem cancels_runCallback (hasCallback : Nat → Bool) (s : SimpleUrlFetcher) (id : Nat) (calls : List Cancel) :
    Cancels { s with ran := if hasCallback id then s.ran ++ [id] else s.ran }
      (runCallback hasCallback s id calls) := by
  unfold runCallback
  cases hasCallback id with
  | true => exact cancels_foldl calls _
  | false => exact .refl s

theorem Counted.count_ran (h : Counted hasCallback s) (i id : Nat) :
    (if hasCallback i then s.ran ++ [i] else s.ran).count id =
      if hasCallback id then (s.completed ++ [i]).count id else 0 := by
  have hran := h.ran id
  by_cases hid : id = i
  · rw [hid] at hran ⊢
    split
    · rename_i hcall
      rw [if_pos hcall] at hran
      rw [List.count_append, List.count_append, hran]
    · rename_i hcall
      rwa [if_neg hcall] at hran
  · have hzero : [i].count id = 0 := List.count_eq_zero.mpr (by simpa using hid)
    have hother : ∀ l : List Nat, (l ++ [i]).count id = l.count id := by
      intro l
      rw [List.count_append, hzero, Nat.add_zero]
    rw [hother, apply_ite (List.count id), hother, ite_self, hran]

theorem Counted.complete {iter : Request} (h : Counted hasCallback s)
    (hc : Cancels { s with completed := s.completed ++ [iter.id]
                           ran := if hasCallback iter.id then s.ran ++ [iter.id] else s.ran } s')
    (hmem : iter ∈ s'.fetchers) :
    Counted hasCallback
      { s' with fetchers := s'.fetchers.erase iter, deleted := s'.deleted ++ [iter.fetcher] } := by
  have hperm := List.perm_cons_erase hmem
  have horphans := hc.orphans
  obtain ⟨hrest, hlive, hrequests, -, -⟩ := hc
  refine ⟨fun d => ?_, fun id => ?_, fun id => ?_, fun hnone => ?_⟩
  · have := h.delegates d
    have := hlive d
    have herase := (hperm.map Request.fetcher).count_eq d
    rw [List.map_cons, ← List.singleton_append, List.count_append] at herase
    rw [hrest]
    simp only [live, List.count_append] at *
    omega
  · have := h.requests id
    have := hrequests id
    have herase := (hperm.map Request.id).count_eq id
    rw [List.map_cons, ← List.singleton_append, List.count_append] at herase
    rw [hrest]
    simp only [waiting, List.count_append] at *
    omega
  · rw [hrest]
    exact h.count_ran iter.id id
  · rw [hrest]
    exact h.failed (List.prefix_nil.mp (hnone ▸ horphans))

/-! ## Runs -/

def TaskSpares (s : SimpleUrlFetcher) (created : Bool) : Posted → Prop
  | .createRequest _ => created = true
  | .cancel c => ¬ s.Finds c

/-- No cancellation finds a request, and every request is given a fetcher. -/
def Spares (hasCallback : Nat → Bool) (s : SimpleUrlFetcher) : FetcherEvent → Prop
  | .startGet | .startPost => True
  | .cancel onRunner c => onRunner = true → ¬ s.Finds c
  | .runPosted created => ∀ task ∈ s.posted.head?, s.TaskSpares created task
  | .complete source calls =>
    ∀ iter, s.fetchers.find? (·.fetcher = source) = some iter → hasCallback iter.id = true →
      ∀ c ∈ calls, ¬ s.Finds c

@[simp] theorem eraseIter_orphans (s : SimpleUrlFetcher) (iter : Request) :
    (s.eraseIter iter).orphans = s.orphans := by
  unfold eraseIter
  split <;> rfl

theorem eraseIter_usedErased (s : SimpleUrlFetcher) (iter : Request) :
    s.usedErased = true → (s.eraseIter iter).usedErased = true := by
  intro h
  unfold eraseIter
  split
  · exact h
  · rfl

structure Worsens (s s' : SimpleUrlFetcher) : Prop where
  orphans : s.orphans <+: s'.orphans
  usedErased : s.usedErased = true → s'.usedErased = true

theorem Worsens.refl (s : SimpleUrlFetcher) : Worsens s s := ⟨List.prefix_refl _, fun h => h⟩

theorem Cancels.worsens (h : Cancels s s') : Worsens s s' where
  orphans := h.orphans
  usedErased herased := by
    rw [h.rest]
    exact herased

theorem worsens_step (hasCallback : Nat → Bool) (s : SimpleUrlFetcher) (e : FetcherEvent) :
    Worsens s (step hasCallback s e) := by
  cases e with
  | startGet => exact ⟨List.prefix_refl _, fun h => h⟩
  | startPost => exact ⟨List.prefix_refl _, fun h => h⟩
  | cancel onRunner c =>
    cases onRunner with
    | true => exact (cancels_cancelNow s c).worsens
    | false => exact ⟨List.prefix_refl _, fun h => h⟩
  | runPosted created =>
    simp only [step]
    split
    · exact .refl s
    · rename_i task tasks hposted
      cases task with
      | cancel c =>
        have h := (cancels_cancelNow { s with posted := tasks } c).worsens
        exact ⟨h.orphans, h.usedErased⟩
      | createRequest id =>
        cases created with
        | true => exact ⟨List.prefix_refl _, fun h => h⟩
        | false => exact ⟨List.prefix_append _ _, fun h => h⟩
  | complete source calls =>
    simp only [step, onURLFetchComplete]
    split
    · exact .refl s
    · rename_i iter _
      have h := (cancels_runCallback hasCallback
        { s with completed := s.completed ++ [iter.id] } iter.id calls).worsens
      refine ⟨?_, fun herased => eraseIter_usedErased _ iter (h.usedErased herased)⟩
      rw [onRequestComplete, eraseIter_orphans]
      exact h.orphans

/-- When an entry has left the map during its own callback, its delegate was orphaned. -/
theorem inv_onURLFetchComplete (herased : s.usedErased = false) (h : Counted hasCallback s) (source : Nat)
    (calls : List Cancel) : Inv hasCallback (onURLFetchComplete hasCallback s source calls) := by
  unfold onURLFetchComplete
  split
  · exact .inr ⟨herased, h⟩
  · rename_i iter hfind
    have hmem : iter ∈ s.fetchers := List.mem_of_find?_eq_some hfind
    have hsource : iter.fetcher = source := by simpa using List.find?_some hfind
    have hc := cancels_runCallback hasCallback { s with completed := s.completed ++ [iter.id] } iter.id calls
    rw [onRequestComplete, eraseIter, ← hsource]
    split
    · rename_i hstill
      refine .inr ⟨?_, h.complete hc hstill⟩
      rw [hc.rest]
      exact herased
    · rename_i hgone
      refine .inl ⟨rfl, List.ne_nil_of_mem ((hc.lost iter hmem).resolve_left hgone)⟩

theorem inv_step (h : Inv hasCallback s) (e : FetcherEvent) : Inv hasCallback (step hasCallback s e) := by
  obtain ⟨herased, horphans⟩ | ⟨herased, h⟩ := h
  · have hworse := worsens_step hasCallback s e
    refine .inl ⟨hworse.usedErased herased, fun hnone => horphans ?_⟩
    exact List.prefix_nil.mp (hnone ▸ hworse.orphans)
  · cases e with
    | startGet => exact .inr ⟨herased, h.startRequest⟩
    | startPost => exact .inr ⟨herased, h.startRequest⟩
    | cancel onRunner c =>
      cases onRunner with
      | true => exact .inr ⟨herased, h.cancels (cancels_cancelNow s c)⟩
      | false => exact .inr ⟨herased, h.postCancel c⟩
    | runPosted created =>
      simp only [step]
      split
      · exact .inr ⟨herased, h⟩
      · rename_i task tasks hposted
        cases task with
        | cancel c => exact .inr ⟨herased, (h.popCancel hposted).cancels (cancels_cancelNow _ c)⟩
        | createRequest id =>
          refine .inr ⟨?_, h.createRequest hposted created⟩
          cases created <;> exact herased
    | complete source calls => exact inv_onURLFetchComplete herased h source calls

theorem cancelNow_orphans_iff (hs : s.orphans = []) (c : Cancel) :
    (s.cancelNow c).orphans = [] ↔ ¬ s.Finds c := by
  simpa using foldl_orphans_iff [c] hs

theorem runTask_orphans_iff {tasks : List Posted} (hs : s.orphans = []) (created : Bool) (task : Posted) :
    ({ s with posted := tasks }.runTask created task).orphans = [] ↔ s.TaskSpares created task := by
  cases task with
  | cancel c =>
    have hpopped : ({ s with posted := tasks } : SimpleUrlFetcher).orphans = [] := hs
    exact cancelNow_orphans_iff hpopped c
  | createRequest id =>
    cases created with
    | true => exact iff_of_true hs rfl
    | false => exact iff_of_false (List.append_ne_nil_of_right_ne_nil _ (List.cons_ne_nil _ _)) Bool.false_ne_true

theorem runCallback_orphans_iff (hs : s.orphans = []) (id : Nat) (calls : List Cancel) :
    (runCallback hasCallback s id calls).orphans = [] ↔
      (hasCallback id = true → ∀ c ∈ calls, ¬ s.Finds c) := by
  unfold runCallback
  split
  · rename_i hcall
    have hran : ({ s with ran := s.ran ++ [id] } : SimpleUrlFetcher).orphans = [] := hs
    exact (foldl_orphans_iff calls hran).trans ⟨fun h _ => h, fun h => h hcall⟩
  · rename_i hcall
    exact iff_of_true hs fun h => absurd h hcall

/-- A step orphans no delegate exactly when it spares the requests. -/
theorem step_orphans_iff (hs : s.orphans = []) (e : FetcherEvent) :
    (step hasCallback s e).orphans = [] ↔ Spares hasCallback s e := by
  cases e with
  | startGet => exact iff_of_true hs trivial
  | startPost => exact iff_of_true hs trivial
  | cancel onRunner c =>
    cases onRunner with
    | true => exact (cancelNow_orphans_iff hs c).trans ⟨fun h _ => h, fun h => h rfl⟩
    | false => exact iff_of_true hs nofun
  | runPosted created =>
    simp only [step, Spares]
    cases hposted : s.posted with
    | nil => exact iff_of_true hs nofun
    | cons task tasks =>
      refine (runTask_orphans_iff hs created task).trans ⟨fun h x hx => ?_, fun h => h task rfl⟩
      rw [← Option.some.inj hx]
      exact h
  | complete source calls =>
    simp only [step, onURLFetchComplete, Spares]
    split
    · rename_i hfind
      exact iff_of_true hs fun iter h => by rw [hfind] at h; cases h
    · rename_i iter hfind
      have hcompleted : ({ s with completed := s.completed ++ [iter.id] } : SimpleUrlFetcher).orphans = [] := hs
      rw [onRequestComplete, eraseIter_orphans, runCallback_orphans_iff hcompleted, hfind]
      exact ⟨fun h x hx => Option.some.inj hx ▸ h, fun h => h iter rfl⟩

/-- Every request that is no longer under way and was not cancelled has had its answer once, no iterator has
been used after its entry was erased, and every delegate of such a request has been deleted once. -/
structure Clean (hasCallback : Nat → Bool) (s : SimpleUrlFetcher) : Prop where
  answered : ∀ id < s.nextId, hasCallback id = true → id ∉ s.cancelled →
    s.ran.count id = if id ∈ s.waiting then 0 else 1
  notErased : s.usedErased = false
  freed : ∀ d < s.nextFetcher, s.deleted.count d = if d ∈ s.live then 0 else 1

theorem count_range_of_lt {n d : Nat} (h : d < n) : (List.range n).count d = 1 :=
  List.count_eq_one_of_mem List.nodup_range (List.mem_range.mpr h)

theorem Counted.clean (h : Counted hasCallback s) (herased : s.usedErased = false) (hnone : s.orphans = []) :
    Clean hasCallback s := by
  refine ⟨fun id hid hcall hcancelled => ?_, herased, fun d hd => ?_⟩
  · have hcount := h.requests id
    have hran := h.ran id
    rw [if_pos hcall] at hran
    rw [count_range_of_lt hid, List.count_eq_zero.mpr hcancelled, h.failed hnone, List.count_nil] at hcount
    split
    · rename_i hwaiting
      have := List.count_pos_iff.mpr hwaiting
      omega
    · rename_i hwaiting
      have := List.count_eq_zero.mpr hwaiting
      omega
  · have hcount := h.delegates d
    rw [count_range_of_lt hd, hnone, List.count_nil] at hcount
    split
    · rename_i hlive
      have := List.count_pos_iff.mpr hlive
      omega
    · rename_i hlive
      have := List.count_eq_zero.mpr hlive
      omega

/-- A delegate that is orphaned is never deleted. -/
theorem clean_iff_orphans (h : Inv hasCallback s) : Clean hasCallback s ↔ s.orphans = [] := by
  constructor
  · intro hclean
    obtain ⟨herased, -⟩ | ⟨-, hcounted⟩ := h
    · rw [hclean.notErased] at herased
      cases herased
    · rw [List.eq_nil_iff_forall_not_mem]
      intro d hd
      have hpos := List.count_pos_iff.mpr hd
      have hcount := hcounted.delegates d
      have hle := List.nodup_iff_count_le_one.mp (List.nodup_range (n := s.nextFetcher)) d
      have hmade : d < s.nextFetcher := List.mem_range.mp (List.count_pos_iff.mp (by omega))
      have hfreed := hclean.freed d hmade
      have hlive : d ∉ s.live := List.count_eq_zero.mp (by omega)
      rw [if_neg hlive] at hfreed
      omega
  · intro hnone
    obtain ⟨-, horphans⟩ | ⟨herased, hcounted⟩ := h
    · exact absurd hnone horphans
    · exact hcounted.clean herased hnone

theorem inv_init : Inv hasCallback {} := by
  refine .inr ⟨rfl, fun d => rfl, fun id => rfl, fun id => ?_, fun _ => rfl⟩
  simp

/-- For every interleaving of calls, posted tasks and completions, with any calls made by the callbacks. -/
theorem clean_iff_spares (hasCallback : Nat → Bool) (es : List FetcherEvent) :
    Clean hasCallback (run (step hasCallback) {} es) ↔ Along (step hasCallback) (Spares hasCallback) {} es := by
  have hinv : Inv hasCallback (run (step hasCallback) {} es) :=
    run_keep (I := Inv hasCallback) (fun _ e h => inv_step h e) inv_init es
  have hback : ∀ s e, (step hasCallback s e).orphans = [] → s.orphans = [] :=
    fun s e h => List.prefix_nil.mp (h ▸ (worsens_step hasCallback s e).orphans)
  rw [clean_iff_orphans hinv]
  exact run_iff_along (I := fun s : SimpleUrlFetcher => s.orphans = []) hback
    (fun s e hs => step_orphans_iff hs e) rfl es

/-- A callback that cancels its own request, and a request that is cancelled under way: its delegate is
never deleted. -/
theorem cancelled_not_clean :
    (run (step fun _ => true) {} [.startGet, .runPosted true, .complete 0 [.fetcher 0]]).usedErased = true ∧
    (let s := run (step fun _ => true) {} [.startPost, .runPosted true, .cancel true (.fetcher 0)]
     s.posted = [] ∧ s.fetchers = [] ∧ s.nextFetcher = 1 ∧ s.deleted = []) := by
  decide

end SimpleUrlFetcher

end Nas.Common
