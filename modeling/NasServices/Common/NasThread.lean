import Mathlib.Logic.Function.Basic
import NasServices.Lib.Run

/-!
# The registry of threads

A `NasThread` registers itself in `all_thread`, where `GetThread` finds it by its
name or by the id of its thread. `all_thread_lock` is held while `GetThread`
searches, while the constructor appends the object and while `Uninit` erases it. The
constructor asks `GetThread` whether the name is taken, and starts the thread, before it
takes the lock again; `Uninit` stops the thread and clears `data_` before it takes
the lock at all.

A step is what a thread does between two points where another may come in: the
search of `GetThread` is one step for each entry. Objects have a number that is never
used again, which is also the id of the thread they start. After a null pointer has
been followed nothing happens any more.

`run_valid_iff` says when the registry is sound.
-/

namespace Nas.Common

structure NasThreadData where
  name : String
  threadId : Nat
  deriving DecidableEq, Repr

/-- How far the constructor is: it has asked nothing yet, it has seen that its name is free, it
has started its thread, it has returned. -/
inductive InitStage
  | unborn | checking | checked | started | done
  deriving DecidableEq, Repr

structure NasThread where
  name : String := ""
  stage : InitStage := .unborn
  data : Option NasThreadData := none
  deriving DecidableEq, Repr

def NasThread.Entering (t : NasThread) : Prop := t.stage = .checked ∨ t.stage = .started

instance : DecidablePred NasThread.Entering := fun _ => inferInstanceAs (Decidable (_ ∨ _))

inductive Key
  | name (name : String)
  | id (threadId : Nat)
  deriving DecidableEq, Repr

def Key.isOf (d : NasThreadData) : Key → Bool
  | .name n => d.name == n
  | .id i => d.threadId == i

structure Search where
  key : Key
  forInit : Option Nat := none
  rest : List Nat
  deriving DecidableEq, Repr

inductive UninitStage
  | stop | reset | erase
  deriving DecidableEq, Repr

structure Registry where
  objects : Nat → NasThread := fun _ => {}
  next : Nat := 0
  allThread : List Nat := []
  search : Option Search := none
  uninits : List (Nat × UninitStage) := []
  crashed : Bool := false

namespace Registry

def setObject (s : Registry) (o : Nat) (t : NasThread) : Registry :=
  { s with objects := Function.update s.objects o t }

def construct (s : Registry) (name : String) : Registry :=
  { s.setObject s.next { name, stage := if name = "" then .done else .checking } with next := s.next + 1 }

def getThread (s : Registry) (key : Key) (forInit : Option Nat) : Registry :=
  if s.search.isNone then { s with search := some { key, forInit, rest := s.allThread } } else s

def init (s : Registry) (o : Nat) : Registry :=
  if (s.objects o).stage = .checking then s.getThread (.name (s.objects o).name) (some o) else s

def lookUp (s : Registry) (key : Key) : Registry :=
  if key = .name "" then s else s.getThread key none

def return_ (s : Registry) (q : Search) (found : Bool) : Registry :=
  match q.forInit with
  | none => { s with search := none }
  | some o =>
    { s.setObject o { s.objects o with stage := if found then .done else .checked } with search := none }

def look (s : Registry) : Registry :=
  match s.search with
  | none => s
  | some q =>
    match q.rest with
    | [] => s.return_ q false
    | o :: rest =>
      match (s.objects o).data with
      | none => { s with crashed := true }
      | some d => if q.key.isOf d then s.return_ q true else { s with search := some { q with rest } }

def start (s : Registry) (o : Nat) : Registry :=
  let t := s.objects o
  if t.stage = .checked then
    s.setObject o { t with stage := .started, data := some { name := t.name, threadId := o } }
  else s

def push (s : Registry) (o : Nat) : Registry :=
  let t := s.objects o
  if t.stage = .started ∧ s.search = none then
    { s.setObject o { t with stage := .done } with allThread := s.allThread ++ [o] }
  else s

def stop (s : Registry) (o : Nat) : Registry :=
  let t := s.objects o
  if t.stage = .done ∧ t.data ≠ none then { s with uninits := s.uninits ++ [(o, .stop)] } else s

def uninit (s : Registry) (o : Nat) (stage : UninitStage) : Registry :=
  let t := s.objects o
  let rest := s.uninits.erase (o, stage)
  if (o, stage) ∈ s.uninits then
    match stage with
    | .stop =>
      if t.data = none then { s with crashed := true } else { s with uninits := rest ++ [(o, .reset)] }
    | .reset => { s.setObject o { t with data := none } with uninits := rest ++ [(o, .erase)] }
    | .erase =>
      if s.search = none then { s with allThread := s.allThread.erase o, uninits := rest } else s
  else s

inductive Event
  | construct (name : String)
  | init (o : Nat)
  | lookUp (key : Key)
  | look
  | start (o : Nat)
  | push (o : Nat)
  | stop (o : Nat)
  | uninit (o : Nat) (stage : UninitStage)
  deriving DecidableEq

def step (s : Registry) (e : Event) : Registry :=
  if s.crashed then s
  else match e with
    | .construct name => s.construct name
    | .init o => s.init o
    | .lookUp key => s.lookUp key
    | .look => s.look
    | .start o => s.start o
    | .push o => s.push o
    | .stop o => s.stop o
    | .uninit o stage => s.uninit o stage

def Valid (s : Registry) : Prop :=
  (∀ o ∈ s.allThread, (s.objects o).data ≠ none) ∧
  s.allThread.Pairwise fun o o' => (s.objects o).data.map (·.name) ≠ (s.objects o').data.map (·.name)

instance (s : Registry) : Decidable s.Valid := inferInstanceAs (Decidable (_ ∧ _))

def NoRace (s : Registry) : Event → Prop
  | .init o => (s.objects o).stage = .checking → s.search = none →
      ∀ o' < s.next, (s.objects o').Entering → (s.objects o').name ≠ (s.objects o).name
  | _ => True

instance (s : Registry) : (e : Event) → Decidable (s.NoRace e)
  | .init _ => inferInstanceAs (Decidable (_ → _ → ∀ o' < _, _ → _ ≠ _))
  | .construct _ | .lookUp _ | .look | .start _ | .push _ | .stop _ | .uninit _ _ => isTrue trivial

/-! ## The invariant -/

/-- What holds of each object: it is listed once its constructor has returned, with its `data_`
unless an `Uninit` is about to erase it. -/
structure ObjectOk (s : Registry) (o : Nat) : Prop where
  listed : o ∈ s.allThread → (s.objects o).stage = .done
  data : ∀ d, (s.objects o).data = some d →
    d.name = (s.objects o).name ∧ ((s.objects o).stage = .started ∨ (s.objects o).stage = .done)
  started : (s.objects o).stage = .started → (s.objects o).data ≠ none
  uninits : ∀ stage, (o, stage) ∈ s.uninits → (s.objects o).stage = .done
  null_iff : o ∈ s.allThread → ((s.objects o).data = none ↔ (o, .erase) ∈ s.uninits)
  erase : (o, .erase) ∈ s.uninits → (s.objects o).data = none

def Named (s : Registry) (o : Nat) : Prop := o ∈ s.allThread ∧ (s.objects o).data ≠ none

def Holds (s : Registry) (o : Nat) : Prop := (s.objects o).Entering ∨ s.Named o

/-- The search of an `Init` has passed no entry with the name, and nobody else enters with it. -/
structure SearchOk (s : Registry) (q : Search) (o : Nat) : Prop where
  checking : (s.objects o).stage = .checking
  key : q.key = .name (s.objects o).name
  unseen : ∀ o', s.Named o' → o' ∉ q.rest → (s.objects o').name ≠ (s.objects o).name
  alone : ∀ o', (s.objects o').Entering → (s.objects o').name ≠ (s.objects o).name

structure Inv (s : Registry) : Prop where
  nodup : s.allThread.Nodup
  unborn : ∀ o, s.next ≤ o → (s.objects o).stage = .unborn
  objects : ∀ o, s.ObjectOk o
  unique : ∀ o o', s.Holds o → s.Holds o' → (s.objects o).name = (s.objects o').name → o = o'
  rest : ∀ q, s.search = some q → ∀ o ∈ q.rest, o ∈ s.allThread
  search : ∀ q o, s.search = some q → q.forInit = some o → s.SearchOk q o

structure Frame (s s' : Registry) (o : Nat) : Prop where
  objects : ∀ o' ≠ o, s'.objects o' = s.objects o'
  listed : ∀ o' ≠ o, o' ∈ s'.allThread ↔ o' ∈ s.allThread
  uninits : ∀ o' ≠ o, ∀ stage, (o', stage) ∈ s'.uninits ↔ (o', stage) ∈ s.uninits

variable {s s' : Registry} {o o' : Nat}

theorem Frame.objectOk (h : Frame s s' o) (hne : o' ≠ o) (hok : s.ObjectOk o') : s'.ObjectOk o' := by
  have hobj := h.objects o' hne
  have hlist := h.listed o' hne
  have huninit := h.uninits o' hne
  constructor
  · rw [hlist, hobj]
    exact hok.listed
  · rw [hobj]
    exact hok.data
  · rw [hobj]
    exact hok.started
  · simp only [huninit, hobj]
    exact hok.uninits
  · rw [hlist, hobj, huninit]
    exact hok.null_iff
  · rw [huninit, hobj]
    exact hok.erase

theorem Frame.named (h : Frame s s' o) (hne : o' ≠ o) : s'.Named o' ↔ s.Named o' := by
  rw [Named, Named, h.listed o' hne, h.objects o' hne]

theorem Frame.holds (h : Frame s s' o) (hne : o' ≠ o) : s'.Holds o' ↔ s.Holds o' := by
  rw [Holds, Holds, h.named hne, h.objects o' hne]

/-- A search does not see the change of an object that neither comes in nor is renamed. -/
theorem SearchOk.frame {q : Search} (hs : s.SearchOk q o') (hframe : Frame s s' o) (hne : o' ≠ o)
    (henter : (s'.objects o).Entering → (s.objects o).Entering ∧ (s'.objects o).name = (s.objects o).name)
    (hnamed : s'.Named o → s.Named o ∧ (s'.objects o).name = (s.objects o).name) : s'.SearchOk q o' := by
  have hobj := hframe.objects o' hne
  constructor
  · rw [hobj]
    exact hs.checking
  · rw [hobj]
    exact hs.key
  · intro o₁ ho₁ hrest
    rw [hobj]
    by_cases heq : o₁ = o
    · subst heq
      rw [(hnamed ho₁).2]
      exact hs.unseen o₁ (hnamed ho₁).1 hrest
    · rw [hframe.objects o₁ heq]
      exact hs.unseen o₁ ((hframe.named heq).mp ho₁) hrest
  · intro o₁ ho₁
    rw [hobj]
    by_cases heq : o₁ = o
    · subst heq
      rw [(henter ho₁).2]
      exact hs.alone o₁ (henter ho₁).1
    · rw [hframe.objects o₁ heq] at ho₁ ⊢
      exact hs.alone o₁ ho₁

/-- A step on one object keeps the invariant if it does so for that object, if no other object has
a name that it then holds, and if the search that goes on is not for it. -/
theorem Inv.update (h : Inv s) (hframe : Frame s s' o) (hnodup : s'.allThread.Nodup)
    (hunborn : ∀ o, s'.next ≤ o → (s'.objects o).stage = .unborn) (hok : s'.ObjectOk o)
    (hapart : s'.Holds o → ∀ o' ≠ o, s.Holds o' → (s.objects o').name ≠ (s'.objects o).name)
    (hsearch : s'.search = none ∨
      (s'.search = s.search ∧ s'.allThread = s.allThread) ∧ (s.objects o).stage ≠ .checking ∧
      ((s'.objects o).Entering → (s.objects o).Entering ∧ (s'.objects o).name = (s.objects o).name) ∧
      (s'.Named o → s.Named o ∧ (s'.objects o).name = (s.objects o).name)) : Inv s' where
  nodup := hnodup
  unborn := hunborn
  objects o' := by
    by_cases hne : o' = o
    · exact hne ▸ hok
    · exact hframe.objectOk hne (h.objects o')
  unique o₁ o₂ h₁ h₂ hname := by
    by_cases hne₁ : o₁ = o <;> by_cases hne₂ : o₂ = o
    · rw [hne₁, hne₂]
    · subst hne₁
      rw [hframe.objects o₂ hne₂] at hname
      exact absurd hname.symm (hapart h₁ o₂ hne₂ ((hframe.holds hne₂).mp h₂))
    · subst hne₂
      rw [hframe.objects o₁ hne₁] at hname
      exact absurd hname (hapart h₂ o₁ hne₁ ((hframe.holds hne₁).mp h₁))
    · rw [hframe.objects o₁ hne₁, hframe.objects o₂ hne₂] at hname
      exact h.unique o₁ o₂ ((hframe.holds hne₁).mp h₁) ((hframe.holds hne₂).mp h₂) hname
  rest q hq := by
    rcases hsearch with hnone | ⟨⟨hsame, hlist⟩, -⟩
    · cases hnone.symm.trans hq
    · rw [hlist]
      exact h.rest q (hsame ▸ hq)
  search q o₀ hq ho₀ := by
    rcases hsearch with hnone | ⟨⟨hsame, -⟩, hstage, henter, hnamed⟩
    · cases hnone.symm.trans hq
    · have hs := h.search q o₀ (hsame ▸ hq) ho₀
      have hne : o₀ ≠ o := fun heq => hstage (heq ▸ hs.checking)
      exact hs.frame hframe hne henter hnamed

theorem Inv.apart (h : Inv s) (hholds : s.Holds o) (hne : o' ≠ o) (h' : s.Holds o') :
    (s.objects o').name ≠ (s.objects o).name :=
  fun hname => hne (h.unique o' o h' hholds hname)

/-! ### The steps -/

theorem Frame.of_update {t : NasThread} (hobj : s'.objects = Function.update s.objects o t)
    (hlist : ∀ o' ≠ o, o' ∈ s'.allThread ↔ o' ∈ s.allThread)
    (huninits : ∀ o' ≠ o, ∀ stage, (o', stage) ∈ s'.uninits ↔ (o', stage) ∈ s.uninits) : Frame s s' o :=
  ⟨fun o' hne => by rw [hobj, Function.update_of_ne hne], hlist, huninits⟩

theorem Inv.unborn_update (h : Inv s) {t : NasThread} (hborn : (s.objects o).stage ≠ .unborn) :
    ∀ o', s.next ≤ o' → (Function.update s.objects o t o').stage = .unborn := by
  intro o' hle
  have hne : o' ≠ o := fun heq => hborn (heq ▸ h.unborn o' hle)
  rw [Function.update_of_ne hne]
  exact h.unborn o' hle

/-- An object whose constructor has not returned is neither listed nor stopped. -/
theorem ObjectOk.of_stage {t : NasThread} (hobj : s'.objects o = t) (hlisted : o ∉ s'.allThread)
    (huninits : ∀ stage, (o, stage) ∉ s'.uninits)
    (hdata : ∀ d, t.data = some d → d.name = t.name ∧ (t.stage = .started ∨ t.stage = .done))
    (hstarted : t.stage = .started → t.data ≠ none) : s'.ObjectOk o where
  listed hmem := absurd hmem hlisted
  data := by
    rw [hobj]
    exact hdata
  started := by
    rw [hobj]
    exact hstarted
  uninits stage hmem := absurd hmem (huninits stage)
  null_iff hmem := absurd hmem hlisted
  erase hmem := absurd hmem (huninits _)

theorem ObjectOk.not_listed (h : s.ObjectOk o) (hst : (s.objects o).stage ≠ .done) : o ∉ s.allThread :=
  fun hmem => hst (h.listed hmem)

theorem ObjectOk.not_uninit (h : s.ObjectOk o) (hst : (s.objects o).stage ≠ .done) (stage : UninitStage) :
    (o, stage) ∉ s.uninits :=
  fun hmem => hst (h.uninits stage hmem)

theorem Inv.construct (h : Inv s) (name : String) : Inv (s.construct name) := by
  have hborn : (s.objects s.next).stage = .unborn := h.unborn _ (Nat.le_refl _)
  have hdone : (s.objects s.next).stage ≠ .done := by
    rw [hborn]
    nofun
  have hlisted := (h.objects s.next).not_listed hdone
  have hself : (s.construct name).objects s.next =
      { name, stage := if name = "" then .done else .checking } := Function.update_self ..
  have henter : ¬ ((s.construct name).objects s.next).Entering := by
    rw [hself, NasThread.Entering]
    dsimp only
    split <;> simp
  have hnamed : ¬ (s.construct name).Named s.next := fun hn => hlisted hn.1
  refine h.update (.of_update rfl (fun _ _ => Iff.rfl) fun _ _ _ => Iff.rfl) h.nodup ?_
    (.of_stage hself hlisted ((h.objects s.next).not_uninit hdone) nofun ?_) ?_ ?_
  · intro o hle
    have hne : o ≠ s.next := Nat.ne_of_gt hle
    show (Function.update s.objects s.next _ o).stage = .unborn
    rw [Function.update_of_ne hne]
    exact h.unborn o (Nat.le_of_lt hle)
  · dsimp only
    split <;> nofun
  · exact fun hholds => absurd hholds (not_or.mpr ⟨henter, hnamed⟩)
  · refine .inr ⟨⟨rfl, rfl⟩, ?_, fun he => absurd he henter, fun hn => absurd hn hnamed⟩
    rw [hborn]
    nofun

theorem Inv.start (h : Inv s) (o : Nat) : Inv (s.start o) := by
  unfold Registry.start
  dsimp only
  split
  case isFalse => exact h
  case isTrue hst =>
    have hdone : (s.objects o).stage ≠ .done := by
      rw [hst]
      nofun
    have henter : (s.objects o).Entering := .inl hst
    have hlisted := (h.objects o).not_listed hdone
    refine h.update (.of_update rfl (fun _ _ => Iff.rfl) fun _ _ _ => Iff.rfl) h.nodup
      (h.unborn_update (by rw [hst]; nofun))
      (.of_stage (Function.update_self ..) hlisted ((h.objects o).not_uninit hdone) ?_ nofun) ?_ ?_
    · intro d hd
      cases hd
      exact ⟨rfl, .inl rfl⟩
    · simp only [setObject, Function.update_self]
      exact fun _ o' hne hholds => h.apart (.inl henter) hne hholds
    · refine .inr ⟨⟨rfl, rfl⟩, by rw [hst]; nofun, fun _ => ⟨henter, ?_⟩, fun hn => absurd hn.1 hlisted⟩
      simp only [setObject, Function.update_self]

theorem Inv.push (h : Inv s) (o : Nat) : Inv (s.push o) := by
  unfold Registry.push
  dsimp only
  split
  case isFalse => exact h
  case isTrue hcond =>
    obtain ⟨hst, hnone⟩ := hcond
    have hok := h.objects o
    have hdone : (s.objects o).stage ≠ .done := by
      rw [hst]
      nofun
    have henter : (s.objects o).Entering := .inr hst
    have hlisted := hok.not_listed hdone
    refine h.update (.of_update rfl (fun o' hne => by simp [hne]) fun _ _ _ => Iff.rfl) ?_
      (h.unborn_update (by rw [hst]; nofun)) ?_ ?_ (.inl hnone)
    · refine List.nodup_append.mpr ⟨h.nodup, by simp, ?_⟩
      rintro a ha b hb rfl
      exact hlisted (List.mem_singleton.mp hb ▸ ha)
    · constructor <;> simp only [setObject, Function.update_self]
      · exact fun _ => trivial
      · exact fun d hd => ⟨(hok.data d hd).1, .inr trivial⟩
      · nofun
      · exact fun _ _ => trivial
      · exact fun _ => iff_of_false (hok.started hst) (hok.not_uninit hdone _)
      · exact hok.erase
    · simp only [setObject, Function.update_self]
      exact fun _ o' hne hholds => h.apart (.inl henter) hne hholds

/-- A step of an `Uninit`, which is an object's whose constructor has returned. -/
theorem Inv.update_done (h : Inv s) (hframe : Frame s s' o) (hst : (s.objects o).stage = .done)
    (hst' : (s'.objects o).stage = .done) (hname : (s'.objects o).name = (s.objects o).name)
    (hnext : s'.next = s.next) (hnodup : s'.allThread.Nodup) (hok : s'.ObjectOk o)
    (hnamed : s'.Named o → s.Named o)
    (hsearch : s'.search = none ∨ s'.search = s.search ∧ s'.allThread = s.allThread) : Inv s' := by
  have henter : ¬ (s'.objects o).Entering := by
    rw [NasThread.Entering, hst']
    nofun
  refine h.update hframe hnodup ?_ hok ?_ ?_
  · intro o' hle
    rw [hnext] at hle
    have hborn := h.unborn o' hle
    have hne : o' ≠ o := by
      rintro rfl
      rw [hst] at hborn
      cases hborn
    rw [hframe.objects o' hne]
    exact hborn
  · intro hholds o' hne ho'
    rw [hname]
    exact h.apart (.inr (hnamed (hholds.resolve_left henter))) hne ho'
  · refine hsearch.imp_right fun hsame =>
      ⟨hsame, by rw [hst]; nofun, fun he => absurd he henter, fun hn => ⟨hnamed hn, hname⟩⟩

theorem Inv.stop (h : Inv s) (o : Nat) : Inv (s.stop o) := by
  unfold Registry.stop
  dsimp only
  split
  case isFalse => exact h
  case isTrue hcond =>
    have hok := h.objects o
    refine h.update_done (o := o) ⟨fun _ _ => rfl, fun _ _ => Iff.rfl, fun o' hne stage => by simp [hne]⟩
      hcond.1 hcond.1 rfl rfl h.nodup ?_ id (.inr ⟨rfl, rfl⟩)
    constructor
    · exact hok.listed
    · exact hok.data
    · exact hok.started
    · exact fun _ _ => hcond.1
    · simpa using hok.null_iff
    · simpa using hok.erase

theorem Inv.uninit_stop (h : Inv s) (hmem : (o, .stop) ∈ s.uninits) :
    Inv { s with uninits := s.uninits.erase (o, .stop) ++ [(o, .reset)] } := by
  have hok := h.objects o
  have hst := hok.uninits _ hmem
  refine h.update_done (o := o) ⟨fun _ _ => rfl, fun _ _ => Iff.rfl, fun o' hne stage => by simp [hne]⟩
    hst hst rfl rfl h.nodup ?_ id (.inr ⟨rfl, rfl⟩)
  constructor
  · exact hok.listed
  · exact hok.data
  · exact hok.started
  · exact fun _ _ => hst
  · simpa using hok.null_iff
  · simpa using hok.erase

theorem Inv.uninit_reset (h : Inv s) (hmem : (o, .reset) ∈ s.uninits) :
    Inv { s.setObject o { s.objects o with data := none } with
      uninits := s.uninits.erase (o, .reset) ++ [(o, .erase)] } := by
  have hok := h.objects o
  have hst := hok.uninits _ hmem
  refine h.update_done (o := o) (.of_update rfl (fun _ _ => Iff.rfl) fun o' hne stage => by simp [hne])
    hst ?_ ?_ rfl h.nodup ?_ ?_ (.inr ⟨rfl, rfl⟩)
  · simpa [setObject] using hst
  · simp [setObject]
  · constructor <;> simp only [setObject, Function.update_self]
    · exact fun _ => hst
    · nofun
    · rw [hst]
      nofun
    · exact fun _ _ => hst
    · simp
    · exact fun _ => trivial
  · rintro ⟨_, hnull⟩
    simp [setObject] at hnull

theorem Inv.uninit_erase (h : Inv s) (hmem : (o, .erase) ∈ s.uninits) (hnone : s.search = none) :
    Inv { s with allThread := s.allThread.erase o, uninits := s.uninits.erase (o, .erase) } := by
  have hok := h.objects o
  have hst := hok.uninits _ hmem
  have hgone : o ∉ s.allThread.erase o := h.nodup.not_mem_erase
  refine h.update_done (o := o)
    ⟨fun _ _ => rfl, fun o' hne => List.mem_erase_of_ne hne, fun o' hne stage => by simp [hne]⟩
    hst hst rfl rfl (h.nodup.erase o) ?_ (fun hn => absurd hn.1 hgone) (.inl hnone)
  exact ⟨fun hin => absurd hin hgone, hok.data, hok.started, fun _ _ => hst, fun hin => absurd hin hgone,
    fun hin => hok.erase (List.mem_of_mem_erase hin)⟩

theorem Inv.withSearch (h : Inv s) {search : Option Search} {crashed : Bool}
    (hrest : ∀ q, search = some q → ∀ o ∈ q.rest, o ∈ s.allThread)
    (hs : ∀ q o, search = some q → q.forInit = some o → s.SearchOk q o) : Inv { s with search, crashed } where
  nodup := h.nodup
  unborn := h.unborn
  objects o :=
    have hok := h.objects o
    ⟨hok.listed, hok.data, hok.started, hok.uninits, hok.null_iff, hok.erase⟩
  unique := h.unique
  rest := hrest
  search q o hq ho :=
    have hok := hs q o hq ho
    ⟨hok.checking, hok.key, hok.unseen, hok.alone⟩

theorem Inv.uninit (h : Inv s) (o : Nat) (stage : UninitStage) : Inv (s.uninit o stage) := by
  unfold Registry.uninit
  dsimp only
  split
  case isFalse => exact h
  case isTrue hmem =>
    cases stage with
    | stop =>
      dsimp only
      split
      · exact h.withSearch h.rest h.search
      · exact h.uninit_stop hmem
    | reset => exact h.uninit_reset hmem
    | erase =>
      dsimp only
      split
      case isTrue hnone => exact h.uninit_erase hmem hnone
      case isFalse => exact h

theorem Inv.lookUp (h : Inv s) (key : Key) : Inv (s.lookUp key) := by
  unfold Registry.lookUp getThread
  split_ifs
  · exact h
  · refine h.withSearch (fun q hq => ?_) fun q o hq ho => ?_
    · cases hq
      exact fun _ => id
    · cases hq
      cases ho
  · exact h

theorem Inv.init (h : Inv s) (o : Nat) (hrace : s.NoRace (.init o)) : Inv (s.init o) := by
  unfold Registry.init getThread
  split_ifs with hst hfree
  · refine h.withSearch (fun q hq => ?_) fun q o₀ hq ho₀ => ?_
    · cases hq
      exact fun _ => id
    · cases hq
      cases ho₀
      refine ⟨hst, rfl, fun o' hn hrest => absurd hn.1 hrest, fun o' henter => ?_⟩
      refine hrace hst (Option.isNone_iff_eq_none.mp hfree) o' ?_ henter
      by_contra hle
      have hborn := h.unborn o' (Nat.le_of_not_lt hle)
      rw [NasThread.Entering, hborn] at henter
      exact henter.elim nofun nofun
  · exact h
  · exact h

/-- The `Init` that has looked at every entry holds its name from now on. -/
theorem Inv.return_ (h : Inv s) {q : Search} (hq : s.search = some q) (found : Bool)
    (hfound : found = false → q.rest = []) : Inv (s.return_ q found) := by
  unfold Registry.return_
  split
  case h_1 => exact h.withSearch nofun nofun
  case h_2 o ho =>
    have hs := h.search q o hq ho
    have hok := h.objects o
    have hst := hs.checking
    have hdone : (s.objects o).stage ≠ .done := by
      rw [hst]
      nofun
    have hdata : ∀ d, (s.objects o).data ≠ some d := by
      intro d hd
      have hstage := (hok.data d hd).2
      rw [hst] at hstage
      exact hstage.elim nofun nofun
    have hlisted := hok.not_listed hdone
    refine h.update (.of_update rfl (fun _ _ => Iff.rfl) fun _ _ _ => Iff.rfl) h.nodup
      (h.unborn_update (by rw [hst]; nofun))
      (.of_stage (Function.update_self ..) hlisted (hok.not_uninit hdone) (fun d hd => absurd hd (hdata d)) ?_)
      ?_ (.inl rfl)
    · dsimp only
      split <;> nofun
    · intro hholds o' hne ho'
      have henter := hholds.resolve_right fun hn => hlisted hn.1
      simp only [setObject, Function.update_self] at henter ⊢
      cases found with
      | true => exact henter.elim nofun nofun
      | false =>
        have hrest : o' ∉ q.rest := by
          rw [hfound rfl]
          nofun
        exact ho'.elim (hs.alone o') fun hn => hs.unseen o' hn hrest

theorem Inv.look (h : Inv s) : Inv s.look := by
  unfold Registry.look
  split
  case h_1 => exact h
  case h_2 q hq =>
    split
    case h_1 hrest => exact h.return_ hq false fun _ => hrest
    case h_2 o rest hrest =>
      split
      case h_1 => exact h.withSearch h.rest h.search
      case h_2 d hd =>
        split
        case isTrue => exact h.return_ hq true nofun
        case isFalse hkey =>
          refine h.withSearch (fun q' hq' o' ho' => ?_) fun q' o₀ hq' ho₀ => ?_
          · cases hq'
            exact h.rest q hq o' (hrest ▸ List.mem_cons_of_mem o ho')
          · cases hq'
            have hs := h.search q o₀ hq ho₀
            refine ⟨hs.checking, hs.key, fun o' hn hmem => ?_, hs.alone⟩
            by_cases heq : o' = o
            · subst heq
              rw [← ((h.objects o').data d hd).1]
              simpa [hs.key, Key.isOf] using hkey
            · exact hs.unseen o' hn (by simpa [hrest, heq] using hmem)

theorem Inv.step (h : Inv s) (e : Event) (hrace : s.NoRace e) : Inv (s.step e) := by
  unfold Registry.step
  split
  case isTrue => exact h
  case isFalse =>
    cases e with
    | construct name => exact h.construct name
    | init o => exact h.init o hrace
    | lookUp key => exact h.lookUp key
    | look => exact h.look
    | start o => exact h.start o
    | push o => exact h.push o
    | stop o => exact h.stop o
    | uninit o stage => exact h.uninit o stage

theorem Inv.empty : Inv {} where
  nodup := List.nodup_nil
  unborn _ _ := rfl
  objects _ := ⟨nofun, nofun, nofun, nofun, nofun, nofun⟩
  unique _ _ h := h.elim (fun he => he.elim nofun nofun) fun hn => absurd hn.1 List.not_mem_nil
  rest := nofun
  search := nofun

/-! ## What the registry shows -/

theorem Inv.valid_iff (h : Inv s) : s.Valid ↔ ∀ o ∈ s.allThread, (o, .erase) ∉ s.uninits := by
  constructor
  · exact fun hvalid o ho herase => hvalid.1 o ho ((h.objects o).erase herase)
  · intro hnone
    have hdata : ∀ o ∈ s.allThread, (s.objects o).data ≠ none :=
      fun o ho hnull => hnone o ho (((h.objects o).null_iff ho).mp hnull)
    refine ⟨hdata, h.nodup.imp_of_mem fun {o o'} ho ho' hne hname => ?_⟩
    obtain ⟨d, hd⟩ := Option.ne_none_iff_exists'.mp (hdata o ho)
    obtain ⟨d', hd'⟩ := Option.ne_none_iff_exists'.mp (hdata o' ho')
    have hnames : d.name = d'.name := by simpa [hd, hd'] using hname
    rw [((h.objects o).data d hd).1, ((h.objects o').data d' hd').1] at hnames
    exact hne (h.unique o o' (.inr ⟨ho, hdata o ho⟩) (.inr ⟨ho', hdata o' ho'⟩) hnames)

@[simp] theorem return_crashed (s : Registry) (q : Search) (found : Bool) :
    (s.return_ q found).crashed = s.crashed := by
  unfold Registry.return_
  split <;> rfl

/-- `GetThread` follows no null pointer in a registry whose entries are valid. -/
theorem Inv.look_crashed (h : Inv s) (hvalid : s.Valid) : (s.step .look).crashed = s.crashed := by
  unfold Registry.step Registry.look
  split
  case isTrue => rfl
  case isFalse =>
    dsimp only
    split
    case h_1 => rfl
    case h_2 q hq =>
      split
      case h_1 => exact return_crashed ..
      case h_2 o rest hrest =>
        have ho : o ∈ s.allThread := h.rest q hq o (hrest ▸ List.mem_cons_self)
        split
        case h_1 hnull => exact absurd hnull (hvalid.1 o ho)
        case h_2 =>
          split
          · exact return_crashed ..
          · rfl

/-- In every run in which no two constructors enter with one name, the registry is valid but for the
entries that an `Uninit` is about to erase; and as long as it is valid, a search goes well. -/
theorem run_valid_iff (es : List Event) (hrace : Lib.Along step NoRace {} es) :
    ((Lib.run step {} es).Valid ↔
      ∀ o ∈ (Lib.run step {} es).allThread, (o, .erase) ∉ (Lib.run step {} es).uninits) ∧
    ((Lib.run step {} es).Valid →
      ((Lib.run step {} es).step .look).crashed = (Lib.run step {} es).crashed) := by
  have h : Inv (Lib.run step {} es) := hrace.run (fun _ e hs => hs.step e) .empty
  exact ⟨h.valid_iff, h.look_crashed⟩

def oneThread : List Event :=
  [.construct "work", .init 0, .look, .start 0, .push 0, .lookUp (.name "work"), .look,
    .stop 0, .uninit 0 .stop]

theorem run_valid_iff_oneThread :
    Lib.Along step NoRace {} oneThread ∧ (Lib.run step {} oneThread).allThread = [0] ∧
    (Lib.run step {} oneThread).Valid := by
  have hrace : Lib.Along step NoRace {} oneThread := by decide +kernel
  refine ⟨hrace, by decide +kernel, (run_valid_iff oneThread hrace).1.mpr ?_⟩
  decide +kernel

def sameName : List Event :=
  [.construct "work", .construct "work", .init 0, .look, .init 1, .look, .start 0, .push 0, .start 1, .push 1]

/-- `Uninit` has cleared `data_` and waits for the lock, which a lookup takes. -/
def cleared : List Event := oneThread ++ [.uninit 0 .reset]

/-- The lock is free and the registry has two entries with one name, or an entry without
`data_`, on which the next lookup crashes. -/
theorem sameName_cleared :
    ((Lib.run step {} sameName).search = none ∧ (Lib.run step {} sameName).allThread = [0, 1] ∧
      ¬ (Lib.run step {} sameName).Valid) ∧
    (Lib.run step {} cleared).search = none ∧ ¬ (Lib.run step {} cleared).Valid ∧
    (Lib.run step {} (cleared ++ [.lookUp (.name "other"), .look])).crashed = true := by
  decide +kernel

end Registry

end Nas.Common
