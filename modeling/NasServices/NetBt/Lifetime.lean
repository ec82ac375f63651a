import NasServices.NetBt.BtTask

/-!
# Callbacks reach living tasks

A `SubscribeEvent` outlives the task that made it, so its slots must not be
connected when the task is destroyed; nor may a posted
`UpdateAndPublishTorrentInfo`, which does not keep the task alive, still be
waiting then. `Dangles` says that a step destroys a task for which one of the
two is left. In runs without such a step every connected slot and every posted
closure belongs to a living task (`Live`), and so does every callback that runs
(`run_alive`). Nothing in the code prevents such a step (`delete_dangles`).
-/

namespace Nas.NetBt

namespace World

open Lib (Along run)

/-- Every slot that is connected and every closure that is posted belongs to a task that has
not been destroyed, and so did every callback that was run. -/
structure Live (w : World) : Prop where
  subscribed : ∀ o, w.subscribed o → o ∈ w.tasks
  posted : ∀ o ∈ w.posted, o ∈ w.tasks
  calls : ∀ c ∈ w.calls, c.alive

def destroys (w : World) : Event → Option Nat
  | .delete o =>
    match w.tasks.lookup o with
    | some t => if t.listed ∧ t.holds = 0 then some o else none
    | none => none
  | .fileListRead o =>
    match w.tasks.lookup o with
    | some t => if !t.listed ∧ t.holds = 1 then some o else none
    | none => none
  | _ => none

/-- The step destroys a task to which a slot or a closure is still bound. -/
def Dangles (w : World) (e : Event) : Prop :=
  ∃ o ∈ w.destroys e, w.subscribed o ∨ o ∈ w.posted

instance (w : World) (e : Event) : Decidable (w.Dangles e) :=
  match h : w.destroys e with
  | none => isFalse fun ⟨_, ho, _⟩ => by simp [h] at ho
  | some o =>
    decidable_of_iff (w.subscribed o ∨ o ∈ w.posted) (by simp [Dangles, h])

variable {w : World}

theorem live_init : Live {} where
  subscribed := by simp [World.subscribed]
  posted := by simp
  calls := by simp

/-- What a step does to the slots and closures of living tasks is harmless. -/
theorem Live.of_bound {w' : World} (h : Live w) (ht : ∀ o ∈ w.tasks, o ∈ w'.tasks)
    (hs : ∀ o, w'.subscribed o → w.subscribed o ∨ o ∈ w'.tasks)
    (hp : w'.posted = w.posted) (hc : w'.calls = w.calls) : Live w' where
  subscribed := fun o ho => (hs o ho).elim (fun ho => ht o (h.subscribed o ho)) id
  posted := fun o ho => ht o (h.posted o (hp ▸ ho))
  calls := hc ▸ h.calls

theorem subscribed_insert (w : World) (o o' : Nat) (e : SubscribeEvent) :
    { w with events := w.events.insert o e }.subscribed o' =
      if o' = o then e.metadataDownloaded || e.torrentAdded else w.subscribed o' := by
  by_cases ho : o' = o
  · subst ho
    simp [World.subscribed]
  · simp [World.subscribed, AList.lookup_insert_ne ho, ho]

theorem subscribed_of_insert {o o' : Nat} {e : SubscribeEvent}
    (h : { w with events := w.events.insert o e }.subscribed o') : o' = o ∨ w.subscribed o' := by
  rw [subscribed_insert] at h
  split at h
  · exact .inl ‹_›
  · exact .inr h

/-! ## The session's signals -/

theorem Live.call (h : Live w) {o : Nat} (ho : o ∈ w.tasks) (callback : Callback) :
    Live (w.call callback o) where
  subscribed := h.subscribed
  posted := h.posted
  calls := by
    intro c hc
    obtain rfl | hc := List.mem_cons.mp hc
    · simpa using ho
    · exact h.calls c hc

theorem Live.disconnect (h : Live w) {o : Nat} {e : SubscribeEvent} (he : w.events.lookup o = some e)
    (e' : SubscribeEvent) (hm : e'.metadataDownloaded → e.metadataDownloaded) (ha : e'.torrentAdded → e.torrentAdded) :
    Live { w with events := w.events.insert o e' } := by
  refine h.of_bound (fun _ ho => ho) (fun o' ho' => .inl ?_) rfl rfl
  rw [subscribed_insert] at ho'
  split at ho'
  · rename_i heq
    subst heq
    simp only [World.subscribed, he]
    simp only [Bool.or_eq_true] at ho' ⊢
    exact ho'.imp hm ha
  · exact ho'

theorem live_onMetaDataLoadCompleted (hash : String) (w : World) (o : Nat) (h : Live w) :
    Live (w.onMetaDataLoadCompleted hash o) := by
  simp only [World.onMetaDataLoadCompleted]
  split
  · rename_i e he
    split
    · rename_i hon
      have ho : o ∈ w.tasks := h.subscribed o (by simp [World.subscribed, he, hon.1])
      exact (h.disconnect he { e with metadataDownloaded := false } nofun id).call ho _
    · exact h
  · exact h

theorem live_onTorrentAdded (hash : String) (w : World) (o : Nat) (h : Live w) :
    Live (w.onTorrentAdded hash o) := by
  simp only [World.onTorrentAdded]
  split
  · rename_i e he
    split
    · rename_i hon
      have ho : o ∈ w.tasks := h.subscribed o (by simp [World.subscribed, he, hon.1])
      have h' := (h.disconnect he { e with torrentAdded := false } id nofun).call ho .torrentAdded
      refine ⟨h'.subscribed, fun o' ho' => ?_, h'.calls⟩
      obtain ho' | ho' := List.mem_append.mp ho'
      · exact h'.posted o' ho'
      · exact List.mem_singleton.mp ho' ▸ ho
    · exact h
  · exact h

theorem Live.emit (h : Live w) {slot : World → Nat → World}
    (hslot : ∀ w o, Live w → Live (slot w o)) : Live (w.emit slot) :=
  Lib.run_keep hslot h _

theorem Live.addTorrentAlert (h : Live w) (hash : String) (error : Bool) :
    Live (w.step (.addTorrentAlert hash error)) := by
  simp only [step]
  have h' : Live { w with session := (w.session.handleAddTorrentAlert hash error).1 } := { h with }
  split
  · exact h'.emit (live_onTorrentAdded hash)
  · exact h'

theorem Live.runPosted (h : Live w) (k : Nat) : Live (w.step (.runPosted k)) := by
  simp only [step]
  split
  · rename_i o ho
    have hlive : o ∈ w.tasks := h.posted o (List.mem_of_getElem? ho)
    have h' : Live { w with posted := w.posted.eraseIdx k } :=
      { h with posted := fun o' ho' => h.posted o' (List.mem_of_mem_eraseIdx ho') }
    exact h'.call hlive _
  · exact h

/-! ## The manager -/

theorem Live.create (h : Live w) (user : String) (isMagnet : Bool) (hash : String) :
    Live (w.create user isMagnet hash) := by
  refine h.of_bound (fun o ho => (AList.mem_insert _).mpr (.inr ho)) (fun o ho => ?_) rfl rfl
  have hs : { w with events := w.events.insert w.next {} }.subscribed o := ho
  exact (subscribed_of_insert hs).elim (fun he => .inr ((AList.mem_insert _).mpr (.inl he))) .inl

theorem Live.subscribe (h : Live w) {o : Nat} (ho : o ∈ w.tasks) (e : SubscribeEvent) :
    Live { w with events := w.events.insert o e } :=
  h.of_bound (fun _ ho => ho)
    (fun _ ho' => (subscribed_of_insert ho').elim (fun he => .inr (he ▸ ho)) .inl) rfl rfl

theorem Live.update (h : Live w) (o : Nat) (t : BtTask) :
    Live { w with tasks := w.tasks.insert o t } :=
  h.of_bound (fun _ ho => (AList.mem_insert _).mpr (.inr ho)) (fun _ ho => .inl ho) rfl rfl

theorem Live.erase (h : Live w) {o : Nat} (hs : ¬ w.subscribed o) (hp : o ∉ w.posted) :
    Live { w with tasks := w.tasks.erase o } where
  subscribed := fun o' ho' =>
    AList.mem_erase.mpr ⟨fun he => hs (he ▸ ho'), h.subscribed o' ho'⟩
  posted := fun o' ho' => AList.mem_erase.mpr ⟨fun he => hp (he ▸ ho'), h.posted o' ho'⟩
  calls := h.calls

theorem Live.settle (h : Live w) {o : Nat} {t : BtTask}
    (hd : !t.listed ∧ t.holds = 0 → ¬ (w.subscribed o ∨ o ∈ w.posted)) : Live (w.settle o t) := by
  simp only [World.settle]
  split
  · rename_i hlast
    exact h.erase (fun hs => hd hlast (.inl hs)) (fun hp => hd hlast (.inr hp))
  · exact h.update o t

theorem Live.start (h : Live w) {o : Nat} (ho : o ∈ w.tasks) (t : BtTask) (readable : Bool) :
    Live (w.start o t readable) := by
  simp only [World.start]
  split
  · exact h
  · have h' : Live (w.setTorrentAddedCallback o t.hash) := h.subscribe ho _
    split
    · exact { h'.update o { t with isStarted := _ } with }
    · exact h'

theorem Live.parse (h : Live w) {o : Nat} (ho : o ∈ w.tasks) (t : BtTask) (known : Bool) :
    Live (w.parse o t known) := by
  simp only [World.parse]
  split
  · exact h.subscribe ho _
  · exact h

theorem Live.onListed (h : Live w) {o : Nat} {f : BtTask → World}
    (hf : ∀ t, w.tasks.lookup o = some t → t.listed → Live (f t)) : Live (w.onListed o f) := by
  simp only [World.onListed]
  split
  · rename_i t ht
    split
    · exact hf t ht ‹_›
    · exact h
  · exact h

theorem mem_of_lookup {o : Nat} {t : BtTask} (h : w.tasks.lookup o = some t) : o ∈ w.tasks :=
  AList.lookup_isSome.mp (by rw [h]; rfl)

theorem Live.delete (h : Live w) {o : Nat} (hd : ¬ w.Dangles (.delete o)) :
    Live (w.step (.delete o)) := by
  refine h.onListed fun t ht hl => ?_
  have h' : ∀ refs session, Live { w with refs, session } := fun _ _ => { h with }
  refine (h' _ _).settle fun hlast hbound => hd ⟨o, ?_, hbound⟩
  simp [destroys, ht, hl, show t.holds = 0 from hlast.2]

theorem Live.fileListRead (h : Live w) {o : Nat} (hd : ¬ w.Dangles (.fileListRead o)) :
    Live (w.step (.fileListRead o)) := by
  simp only [step]
  split
  · rename_i t ht
    split
    · exact h
    · rename_i hpos
      refine h.settle fun hlast hbound => hd ⟨o, ?_, hbound⟩
      have hone : t.holds = 1 := by
        have := hlast.2
        dsimp only at this
        omega
      simpa [destroys, ht, hone] using hlast.1
  · exact h

/-! ## Runs -/

theorem step_live (w : World) (e : Event) (h : Live w) (hd : ¬ w.Dangles e) : Live (w.step e) := by
  cases e with
  | create user isMagnet hash => exact h.create user isMagnet hash
  | parse o known => exact h.onListed fun t ht _ => h.parse (mem_of_lookup ht) t known
  | start o readable => exact h.onListed fun t ht _ => h.start (mem_of_lookup ht) t readable
  | readFileList o => exact h.onListed fun t _ _ => h.update o _
  | fileListRead o => exact h.fileListRead hd
  | delete o => exact h.delete hd
  | addTorrentAlert hash error => exact h.addTorrentAlert hash error
  | metadataReceivedAlert hash => exact h.emit (live_onMetaDataLoadCompleted hash)
  | runPosted k => exact h.runPosted k

/-- In every run that destroys no task to which a slot or a posted closure is still bound,
every callback runs on a task that has not been destroyed. -/
theorem run_alive (es : List Event) (h : Along step (fun w e => ¬ w.Dangles e) {} es) :
    ∀ c ∈ (run step {} es).calls, c.alive :=
  (h.run step_live live_init).calls

/-- Two users share an infohash. The second starts its task while the infohash is being
loaded, both are told when it has been added, and both delete their tasks after that. -/
def sharedEvents : List Event :=
  [.create "u" true "h", .start 0 true, .parse 0 false, .create "v" false "h", .start 1 true,
    .addTorrentAlert "h" false, .metadataReceivedAlert "h", .runPosted 1, .readFileList 1,
    .delete 1, .runPosted 0, .fileListRead 1, .delete 0]

theorem run_alive_shared :
    (run step {} sharedEvents).calls.map Call.alive = [true, true, true, true, true] ∧
      ∀ c ∈ (run step {} sharedEvents).calls, c.alive :=
  ⟨by decide +kernel, run_alive sharedEvents (by decide +kernel)⟩

/-- A task is deleted while its infohash is being loaded. -/
def lateEvents : List Event :=
  [.create "u" true "h", .start 0 true, .delete 0, .addTorrentAlert "h" false, .runPosted 0]

/-- The task of `v` is started while its infohash is in the session, and deleted; `u` then
deletes its own task and adds the infohash again. -/
def readdedEvents : List Event :=
  [.create "u" true "h", .start 0 true, .addTorrentAlert "h" false, .runPosted 0,
    .create "v" true "h", .start 1 true, .delete 1, .delete 0, .create "u" true "h",
    .start 2 true, .addTorrentAlert "h" false]

/-- Both runs call back a task that has been destroyed. -/
theorem delete_dangles :
    (¬ ∀ c ∈ (run step {} lateEvents).calls, c.alive) ∧
      ⟨.torrentAdded, 1, false⟩ ∈ (run step {} readdedEvents).calls := by
  decide +kernel

end World

end Nas.NetBt
