import Mathlib.Logic.Relation
import NasServices.Download.UserSelfMgr.Listing

/-!
# Events as chains of pieces

The events that neither list tasks nor take them off the list change one task
at a time and never its parameter. `step_pieces` says so once for all of them,
so an invariant that only depends on which tasks there are needs one lemma for
a `Piece` instead of one for each event.
-/

namespace Nas.Download.UserSelfMgr

open TaskBase (Kept)

inductive Piece : UserSelfMgr → UserSelfMgr → Prop
  | update {id : String} {m m' : UserSelfMgr} (hu : Updates Kept id m m') : Piece m m'
  | parse {id : String} {m : UserSelfMgr} {t t' : TaskBase} (ht : m.findTask id = some t)
    (hp : t'.param = t.param) (parseQueue : List TaskBase.ParseMessage) :
    Piece m { m.setTask id t' with parseQueue }
  | queue {m : UserSelfMgr} (parseQueue : List TaskBase.ParseMessage) : Piece m { m with parseQueue }
  | settings {m : UserSelfMgr} (userInfo : Option UserInfo) (isBtAutoDownload : Bool) :
    Piece m { m with userInfo, isBtAutoDownload }

abbrev Pieces : UserSelfMgr → UserSelfMgr → Prop := Relation.ReflTransGen Piece

variable {m m' : UserSelfMgr} {id : String} {t t' : TaskBase} {a : Answer}

theorem Pieces.of_updates {rel : TaskBase → TaskBase → Prop} (hu : Updates rel id m m')
    (hrel : ∀ t t', rel t t' → Kept t t') : Pieces m m' := .single (.update (hu.mono hrel))

theorem pieces_forEach {S A R : Type*} (mgr : S → UserSelfMgr) {body : S → A → R → S}
    (hbody : ∀ s x a, Pieces (mgr s) (mgr (body s x a))) (s : S) (xs : List A) (ω : Nat → R) :
    Pieces (mgr s) (mgr (Lib.forEach body s xs ω)) :=
  Lib.forEach_keep (I := fun s' => Pieces (mgr s) (mgr s'))
    (fun s' x a (_ : x ∈ xs) hs => hs.trans (hbody s' x a)) .refl ω

theorem pieces_operate {cond : UserSelfMgr → String → Bool}
    {exec : UserSelfMgr → String → Answer → UserSelfMgr × DownloadErrorCode}
    (hexec : ∀ m j a, cond m j → Pieces m (exec m j a).1) (m : UserSelfMgr) (r : Reply)
    (rounds : List String) (ω : Nat → Answer) :
    Pieces m (Lib.forEach (operate cond exec) (m, r) rounds ω).1 :=
  forEach_operate_keep (I := Pieces m) (fun m' j a _ hc hm => hm.trans (hexec m' j a hc)) .refl r ω

theorem onParseComplete_pieces (m : UserSelfMgr) (msg : TaskBase.ParseMessage) (a : Answer) :
    Pieces m (m.onParseComplete msg a) := by
  rcases ht : m.findTask msg.1 with _ | t
  · rw [onParseComplete_of_none ht]
  · obtain ⟨t', hc, heq⟩ := onParseComplete_eq ht a
    rw [heq]
    exact .single (.parse ht hc.param m.parseQueue)

theorem parse_param (t : TaskBase) (userId : String) (a : Answer) :
    (t.parse userId a).1.param = t.param := by
  unfold TaskBase.parse
  split
  · unfold TaskBase.magnetParse
    split
    · rfl
    · split
      · rfl
      · unfold TaskBase.parseTorrent
        rfl
  · rfl
  · unfold TaskBase.linkParse
    split <;> rfl

theorem parseTask_pieces (m : UserSelfMgr) (id : String) (a : Answer) : Pieces m (m.parseTask id a) := by
  unfold parseTask
  split
  · exact .refl
  · rename_i t ht
    have hset : Pieces m (m.setTask id (t.parse m.userId a).1) :=
      .single (.parse ht (parse_param t m.userId a) m.parseQueue)
    split
    · rename_i hp
      rwa [hp] at hset
    · rename_i hp
      rw [hp] at hset
      exact hset.trans (onParseComplete_pieces ..)

theorem metadataDownloaded_pieces (m : UserSelfMgr) (id : String) (l : TorrentList) :
    Pieces m (m.metadataDownloaded id l) := by
  unfold metadataDownloaded
  split
  · exact .refl
  · rename_i t ht
    have hp : (t.parseMangetResult l).1.param = t.param := by
      unfold TaskBase.parseMangetResult
      split <;> rfl
    exact .single (.parse ht hp _)

theorem setFileList_pieces (m : UserSelfMgr) (id : String) (l : TorrentList) :
    Pieces m (m.setFileList id l) := by
  unfold setFileList
  split
  · exact .refl
  · rename_i t ht
    split
    · have hp : (t.parseTorrent (some l)).param = t.param := rfl
      exact .single (.parse ht hp m.parseQueue)
    · exact .refl

theorem runParse_pieces (m : UserSelfMgr) (a : Answer) : Pieces m (m.runParse a) := by
  unfold runParse
  split
  · exact .refl
  · rename_i msg rest _
    exact .trans (.single (.queue rest)) (onParseComplete_pieces ..)

theorem checkTaskCountLimit_pieces (m : UserSelfMgr) (queue : List String) (ω : Nat → Answer) :
    Pieces m (m.checkTaskCountLimit queue ω).1 :=
  pieces_forEach LimitCheck.mgr
    (fun c j a => .of_updates (checkLimit_round c j a).updates fun _ _ h => h.kept) { mgr := m } queue ω

theorem forEach_checkTask_pieces (m : UserSelfMgr) (queue : List String) (ω : Nat → Answer) :
    Pieces m (Lib.forEach checkTask m queue ω) :=
  pieces_forEach (fun m => m) (fun m j a => .of_updates (checkTask_updates m j a) fun _ _ h => h.kept) m queue ω

theorem timerChcek_pieces (m : UserSelfMgr) (queue : List String) (ω ω' : Nat → Answer) :
    Pieces m (m.timerChcek queue ω ω') := by
  unfold timerChcek
  split
  · exact (checkTaskCountLimit_pieces m queue ω).trans (forEach_checkTask_pieces _ queue ω')
  · exact .refl

theorem step_pieces {e : Event} (hl : e.lists = false) (hr : e.removes = false) :
    Pieces m (m.step e) := by
  cases e with
  | pause ids ω | pauseAll ω =>
    exact pieces_operate (fun m j a _ => .of_updates (execPauseOperate_updates m j a)
      fun _ _ h => h.kept) m _ _ ω
  | resume queue ids ω | resumeAll queue ω =>
    exact pieces_operate (fun m j a _ => .of_updates (execResumeOperate_updates m j a)
      fun _ _ h => h.kept) m _ _ ω
  | retry queue ids ω | retryAll queue ω =>
    exact pieces_operate (fun m j a _ => .of_updates (execRetryOperate_updates m j a)
      fun _ _ h => h.kept) m _ _ ω
  | restore queue ids ω | restoreAll queue ω =>
    exact pieces_operate (fun m j a hd => .of_updates (execRestoreOperate_updates hd a)
      fun _ _ h => h.kept) m _ _ ω
  | timer queue ω ω' => exact timerChcek_pieces m queue ω ω'
  | metadataDownloaded id l => exact metadataDownloaded_pieces m id l
  | setFileList id l => exact setFileList_pieces m id l
  | runParse a => exact runParse_pieces m a
  | settings n b => exact .single (.settings (some ⟨n⟩) b)
  | createLink | createTorrent => cases hl
  | delete | deleteCategory | clean | cleanCategory | reset | restart => cases hr

/-! ## The parameters of the listed tasks -/

def Listed (Q : String → TaskParam → Prop) (m : UserSelfMgr) : Prop :=
  ∀ id t, m.findTask id = some t → Q id t.param

variable {Q : String → TaskParam → Prop}

theorem Listed.of_empty (hm : m.taskList = ∅) : Listed Q m := fun id t ht => by
  rw [findTask, hm] at ht
  cases ht

theorem Listed.setTask (h : Listed Q m) (ht : Q id t.param) : Listed Q (m.setTask id t) := by
  intro j t' ht'
  by_cases hj : j = id
  · rw [hj, findTask_setTask] at ht'
    rw [hj, ← Option.some.inj ht']
    exact ht
  · rw [findTask_setTask_ne m t hj] at ht'
    exact h j t' ht'

theorem Listed.piece (h : Listed Q m) (hp : Piece m m') : Listed Q m' := by
  cases hp with
  | @update id _ _ hu =>
    intro j
    refine hu.keep (Q := fun o => ∀ t, o = some t → Q j t.param) ?_ (h j)
    rintro t t' hk hQ t₁ ht₁
    rw [← Option.some.inj ht₁, hk.param]
    exact hQ t rfl
  | @parse id _ t t' ht hp q =>
    have hset : Listed Q (m.setTask id t') := h.setTask (hp ▸ h id t ht)
    exact hset
  | queue q => exact h
  | settings u b => exact h

theorem Listed.pieces (h : Listed Q m) (hp : Pieces m m') : Listed Q m' := by
  induction hp with
  | refl => exact h
  | tail _ hp ih => exact ih.piece hp

theorem Listed.deleted (h : Listed Q m) (hd : Deleted id a m m') : Listed Q m' := by
  intro j t' ht'
  by_cases hj : j = id
  · subst hj
    obtain ⟨t, ht, hq⟩ := hd.quiet ht'
    rw [hq.kept.param]
    exact h j t ht
  · rw [hd.findTask_ne hj] at ht'
    exact h j t' ht'

theorem Listed.cancel (h : Listed Q m) (ht : Q id t.param) (a : Answer) : Listed Q (m.cancel id t a).1 := by
  have hrel : Listed Q (m.releaseTask t a).1 := h
  have hleft : Q id (m.releaseTask t a).2.1.param := by
    rw [releaseTask_param]
    exact ht
  exact hrel.setTask hleft

theorem Listed.resetTask (h : Listed Q m) (id : String) (a : Answer) : Listed Q (m.resetTask id a) := by
  unfold UserSelfMgr.resetTask
  split
  · exact h
  · rename_i t ht
    refine h.cancel ?_ a
    rw [(t.pause_kept a).param]
    exact h id t ht

end Nas.Download.UserSelfMgr
