import NasServices.Download.DownloadManager
import NasServices.Download.UserSelfMgr.Pieces

/-!
# Reference counts of shared downloads are exact

`Tallied n m` says that the counters are what `n` says for each hash, and that
the engine has a download for a hash only if `n` counts a task for it. Every
event keeps it, `n` being the number of listed tasks of all users: creation
and reload add one, a deletion takes one off (`Tallied.release`), and nothing
else changes the number (`Pieces`). `Drops` is about the engine's side: a
download is cancelled exactly when its number comes down to zero.

Two things break this. A failed `Cancel` leaves the task listed with its
reference gone. And a task other than a torrent task that was never started is
dropped without asking the engine, also when it is the last one of a download
that another user's task has started.
-/

namespace Nas.Download

open DownloadManager (live)
open TaskRefCount (tally)

namespace UserSelfMgr

section Count

variable {m m' : UserSelfMgr} {id : String} {t t' : TaskBase} {a : Answer} {hash : String}

theorem hashNum_pos (ht : m.findTask id = some t) : 0 < m.hashNum t.param.hash := by
  have hle : (if t.param.hash = t.param.hash then 1 else 0) ≤ m.hashNum t.param.hash :=
    Lib.le_sumBy (f := fun _ t' => if t'.param.hash = t.param.hash then 1 else 0) ht
  rw [if_pos rfl] at hle
  omega

theorem hashNum_setTask (ht : m.findTask id = some t) (hp : t'.param.hash = t.param.hash)
    (hash : String) : (m.setTask id t').hashNum hash = m.hashNum hash := by
  have h : (m.setTask id t').hashNum hash + (if t.param.hash = hash then 1 else 0) =
      m.hashNum hash + if t'.param.hash = hash then 1 else 0 := Lib.sumBy_replace ht
  rw [hp] at h
  omega

theorem hashNum_list (hid : m.findTask id = none) (t : TaskBase) (calls : List EngineCall)
    (param : TaskParam) (hash : String) : (m.list id t calls param).hashNum hash =
      (if t.param.hash = hash then 1 else 0) + m.hashNum hash := Lib.sumBy_insert_of_notMem hid

/-- Taking a task off the list takes one off the number for its hash. -/
theorem hashNum_erase (ht : m.findTask id = some t) (t' : TaskBase) (hash : String) :
    ((m.setTask id t').erase id).hashNum hash + (if t.param.hash = hash then 1 else 0) =
      m.hashNum hash := by
  have herase : ((m.setTask id t').erase id).hashNum hash + (if t'.param.hash = hash then 1 else 0) =
      (m.setTask id t').hashNum hash := Lib.sumBy_erase (findTask_setTask ..)
  have hset : (m.setTask id t').hashNum hash + (if t.param.hash = hash then 1 else 0) =
      m.hashNum hash + if t'.param.hash = hash then 1 else 0 := Lib.sumBy_replace ht
  omega

theorem hashNum_updates (hu : Updates TaskBase.Kept id m m') (hash : String) :
    m'.hashNum hash = m.hashNum hash := by
  refine Lib.sumBy_congr (fun k => ?_) fun k => ?_
  · have hiff : (m'.findTask k).isSome = true ↔ (m.findTask k).isSome = true := by
      refine hu.keep (Q := fun o => o.isSome = true ↔ (m.findTask k).isSome = true) ?_ Iff.rfl
      exact fun _ _ _ h => h
    exact AList.lookup_isSome.symm.trans (hiff.trans AList.lookup_isSome)
  · refine hu.keep (Q := fun o => o.elim 0 (fun t => if t.param.hash = hash then 1 else 0) =
      (m.findTask k).elim 0 fun t => if t.param.hash = hash then 1 else 0) ?_ rfl
    intro t t' hk h
    rw [← h]
    simp only [Option.elim_some, hk.param]

end Count

/-! ## The engine -/

section Engine

variable {hash : String} {calls engine : List EngineCall}

theorem live_cancel {h : String} {ok : Bool} (hl : live hash (.cancel h ok :: engine) = true) :
    live hash engine = true := by
  simp only [live, Bool.and_eq_true] at hl
  exact hl.2

theorem not_live_cancel : live hash (.cancel hash true :: engine) = false := by
  simp [live]

theorem live_starts (hc : ∀ c ∈ calls, ∃ h, c = .start h) (hl : live hash (calls ++ engine) = true) :
    .start hash ∈ calls ∨ live hash engine = true := by
  induction calls with
  | nil => exact .inr hl
  | cons c calls ih =>
    obtain ⟨h, rfl⟩ := hc c List.mem_cons_self
    simp only [List.cons_append, live, Bool.or_eq_true, beq_iff_eq] at hl
    rcases hl with rfl | hl
    · exact .inl List.mem_cons_self
    · exact (ih (fun c hm => hc c (List.mem_cons_of_mem _ hm)) hl).imp_left (List.mem_cons_of_mem _)

/-- The numbers come down from `n` to `n'`, and a download is cancelled only when its number
has come down to zero. -/
structure Drops (n n' : String → Nat) (engine engine' : List EngineCall) : Prop where
  le : ∀ h, n' h ≤ n h
  calls : ∃ calls, engine' = calls ++ engine ∧ ∀ h ok, .cancel h ok ∈ calls → 0 < n h ∧ n' h = 0

theorem Drops.refl (n : String → Nat) (engine : List EngineCall) : Drops n n engine engine :=
  ⟨fun _ => le_rfl, [], rfl, nofun⟩

theorem Drops.trans {n n' n'' : String → Nat} {engine' engine'' : List EngineCall}
    (h : Drops n n' engine engine') (h' : Drops n' n'' engine' engine'') :
    Drops n n'' engine engine'' := by
  obtain ⟨calls, heq, hcalls⟩ := h.calls
  obtain ⟨calls', heq', hcalls'⟩ := h'.calls
  refine ⟨fun k => (h'.le k).trans (h.le k), calls' ++ calls,
    by rw [heq', heq, List.append_assoc], fun k ok hmem => ?_⟩
  have hle := h.le k
  have hle' := h'.le k
  rcases List.mem_append.mp hmem with hmem | hmem
  · have := hcalls' k ok hmem
    omega
  · have := hcalls k ok hmem
    omega

end Engine

/-! ## Releasing a reference -/

structure Tallied (n : String → Nat) (m : UserSelfMgr) : Prop where
  refs : ∀ h, m.refs.lookup h = tally (n h)
  live : ∀ h, live h m.engine = true → 0 < n h

def minus (n : String → Nat) (hash : String) (h : String) : Nat := if h = hash then n h - 1 else n h

theorem minus_le (n : String → Nat) (hash h : String) : minus n hash h ≤ n h := by
  unfold minus
  split <;> omega

def Skips (t : TaskBase) : Prop := t.isStarted = false ∧ t.param.type ≠ .kTorrent

theorem asksCancel_of_not_skips {t : TaskBase} (h : ¬ Skips t) : t.asksCancel true = true := by
  unfold TaskBase.asksCancel
  cases hst : t.isStarted with
  | true => simp
  | false =>
    have hty : t.param.type = .kTorrent := not_not.mp fun hty => h ⟨hst, hty⟩
    simp [hty]

section Release

variable {n : String → Nat} {m : UserSelfMgr} {t : TaskBase} {a : Answer}

theorem exceCancel_snd {realDelete : Bool} (h : realDelete = true → a.cancel = true) :
    (t.exceCancel a realDelete).2 = true := by
  unfold TaskBase.exceCancel
  split
  · rename_i hasks
    have hreal : realDelete = true := by
      unfold TaskBase.asksCancel at hasks
      exact (Bool.and_eq_true_iff.mp hasks).1
    rw [if_pos (h hreal)]
  · split <;> rfl

structure Released (n : String → Nat) (m : UserSelfMgr) (t : TaskBase) (m' : UserSelfMgr) : Prop where
  tallied : Tallied (minus n t.param.hash) m'
  drops : Drops n (minus n t.param.hash) m.engine m'.engine
  live : ∀ h, DownloadManager.live h m'.engine = true → DownloadManager.live h m.engine = true

/-- Others still share the download: the engine is not asked. -/
theorem Tallied.release_shared (hm : Tallied n m) (hn : 1 < n t.param.hash) :
    ∃ m' t', m.releaseTask t a = (m', t', true) ∧ Released n m t m' := by
  have hrel := TaskRefCount.release_shared (cancelCallback t a) (hm.refs t.param.hash) hn
  have hret : (t.exceCancel a false).2 = true := exceCancel_snd nofun
  have hcb : cancelCallback t a false = (((t.exceCancel a false).1, []), true) := Prod.ext rfl hret
  refine ⟨{ m with refs := m.refs.insert t.param.hash ((n t.param.hash - 1 : Nat) : Int) },
    (t.exceCancel a false).1, ?_, ⟨fun h => ?_, fun h hl => ?_⟩,
    ⟨minus_le n _, [], rfl, nofun⟩, fun _ hl => hl⟩
  · unfold releaseTask
    rw [hrel, hcb]
    rfl
  · by_cases hh : h = t.param.hash
    · subst hh
      rw [minus, if_pos rfl, TaskRefCount.tally_of_pos (by omega)]
      exact AList.lookup_insert _
    · rw [minus, if_neg hh, ← hm.refs]
      exact AList.lookup_insert_ne hh
  · have hpos := hm.live h hl
    unfold minus
    split
    · rename_i hh
      subst hh
      omega
    · exact hpos

/-- With the last reference the engine is asked, or else there is nothing to ask it for: either
way no download is left. -/
theorem cancelCallback_last {engine : List EngineCall} (hc : a.cancel = true)
    (hskip : Skips t → DownloadManager.live t.param.hash engine = false) :
    (∀ h ok, .cancel h ok ∈ (cancelCallback t a true).1.2 → h = t.param.hash) ∧
      DownloadManager.live t.param.hash ((cancelCallback t a true).1.2 ++ engine) = false ∧
      ∀ h, DownloadManager.live h ((cancelCallback t a true).1.2 ++ engine) = true →
        DownloadManager.live h engine = true := by
  unfold cancelCallback
  dsimp only
  by_cases hs : Skips t
  · have hasks : t.asksCancel true = false := by
      unfold TaskBase.asksCancel
      simp [hs.1, hs.2]
    rw [hasks]
    exact ⟨nofun, hskip hs, fun _ hl => hl⟩
  · rw [asksCancel_of_not_skips hs, hc]
    refine ⟨fun h ok hmem => ?_, not_live_cancel, fun h hl => live_cancel hl⟩
    injection List.mem_singleton.mp hmem

theorem Tallied.release_last (hm : Tallied n m) (hn : n t.param.hash = 1) (hc : a.cancel = true)
    (hskip : Skips t → DownloadManager.live t.param.hash m.engine = false) :
    ∃ m' t', m.releaseTask t a = (m', t', true) ∧ Released n m t m' := by
  have hret : (cancelCallback t a true).2 = true := exceCancel_snd fun _ => hc
  have hrel := TaskRefCount.release_last (cancelCallback t a) (hn ▸ hm.refs t.param.hash) hret
  have hzero : minus n t.param.hash t.param.hash = 0 := by rw [minus, if_pos rfl, hn]
  obtain ⟨hcancel, hdead, hlive⟩ := cancelCallback_last hc hskip
  refine ⟨{ m with
      refs := (m.refs.insert t.param.hash 0).erase t.param.hash
      engine := (cancelCallback t a true).1.2 ++ m.engine },
    (cancelCallback t a true).1.1, ?_, ⟨fun h => ?_, fun h hl => ?_⟩,
    ⟨minus_le n _, _, rfl, fun h ok hmem => ?_⟩, hlive⟩
  · unfold releaseTask
    rw [hrel]
    exact Prod.ext rfl (Prod.ext rfl hret)
  · by_cases hh : h = t.param.hash
    · subst hh
      rw [hzero]
      exact AList.lookup_erase ..
    · rw [minus, if_neg hh, ← hm.refs]
      exact (AList.lookup_erase_ne hh).trans (AList.lookup_insert_ne hh)
  · have hne : h ≠ t.param.hash := by
      rintro rfl
      rw [hdead] at hl
      cases hl
    rw [minus, if_neg hne]
    exact hm.live h (hlive h hl)
  · obtain rfl := hcancel h ok hmem
    exact ⟨by omega, hzero⟩

/-- A reference goes, and with the last one the download. -/
theorem Tallied.release (hm : Tallied n m) (hn : 0 < n t.param.hash) (hc : a.cancel = true)
    (hskip : Skips t → DownloadManager.live t.param.hash m.engine = true → 1 < n t.param.hash) :
    ∃ m' t', m.releaseTask t a = (m', t', true) ∧ Released n m t m' := by
  by_cases hone : n t.param.hash = 1
  · refine hm.release_last hone hc fun hs => ?_
    rw [← Bool.not_eq_true]
    intro hl
    have := hskip hs hl
    omega
  · exact hm.release_shared (by omega)

end Release

/-! ## Events that remove no task -/

section Keep

variable {others : String → Nat} {m m' : UserSelfMgr} {id : String} {t : TaskBase}

def total (others : String → Nat) (m : UserSelfMgr) (hash : String) : Nat := others hash + m.hashNum hash

def Shared (others : String → Nat) (m : UserSelfMgr) : Prop := Tallied (total others m) m

def OnlyStarts (m m' : UserSelfMgr) : Prop :=
  ∃ calls, m'.engine = calls ++ m.engine ∧ ∀ h ok, .cancel h ok ∉ calls

theorem OnlyStarts.refl (m : UserSelfMgr) : OnlyStarts m m := ⟨[], rfl, nofun⟩

theorem OnlyStarts.trans {m'' : UserSelfMgr} (h : OnlyStarts m m') (h' : OnlyStarts m' m'') :
    OnlyStarts m m'' := by
  obtain ⟨calls, heq, hno⟩ := h
  obtain ⟨calls', heq', hno'⟩ := h'
  refine ⟨calls' ++ calls, by rw [heq', heq, List.append_assoc], fun k ok hmem => ?_⟩
  rcases List.mem_append.mp hmem with hmem | hmem
  · exact hno' k ok hmem
  · exact hno k ok hmem

/-- Downloads are started for tasks that are counted. -/
theorem Tallied.starts {n n' : String → Nat} (hm : Tallied n m) (hrefs : ∀ h, m'.refs.lookup h = tally (n' h))
    (hle : ∀ h, n h ≤ n' h) {calls : List EngineCall} (heq : m'.engine = calls ++ m.engine)
    (hcalls : ∀ c ∈ calls, ∃ h, c = .start h ∧ 0 < n' h) : Tallied n' m' ∧ OnlyStarts m m' := by
  refine ⟨⟨hrefs, fun h hl => ?_⟩, calls, heq, fun h ok hmem => ?_⟩
  · rw [heq] at hl
    rcases live_starts (fun c hc => (hcalls c hc).imp fun _ h => h.1) hl with hmem | hl
    · obtain ⟨h', he, hpos⟩ := hcalls _ hmem
      cases he
      exact hpos
    · exact (hm.live h hl).trans_le (hle h)
  · obtain ⟨h', he, -⟩ := hcalls _ hmem
    cases he

theorem Shared.piece (h : Shared others m) (hp : Piece m m') : Shared others m' ∧ OnlyStarts m m' := by
  cases hp with
  | @update id _ _ hu =>
    have hnum : ∀ k, total others m' k = total others m k := fun k => by
      rw [total, total, hashNum_updates hu]
    obtain ⟨calls, heq, hcalls⟩ := hu.engine
    refine Tallied.starts h (fun k => by rw [hu.refs, h.refs, hnum]) (fun k => (hnum k).ge) heq fun c hc => ?_
    obtain ⟨t, ht, rfl⟩ := hcalls c hc
    refine ⟨_, rfl, ?_⟩
    rw [hnum, total]
    exact Nat.add_pos_right _ (hashNum_pos ht)
  | parse ht hp q =>
    have hnum : ∀ k, total others { m.setTask _ _ with parseQueue := q } k = total others m k := fun k =>
      congrArg (others k + ·) (hashNum_setTask ht (by rw [hp]) k)
    exact ⟨⟨fun k => by rw [hnum]; exact h.refs k, fun k hl => by rw [hnum]; exact h.live k hl⟩, .refl m⟩
  | queue q => exact ⟨⟨h.refs, h.live⟩, .refl m⟩
  | settings u b => exact ⟨⟨h.refs, h.live⟩, .refl m⟩

theorem Shared.pieces (h : Shared others m) (hp : Pieces m m') : Shared others m' ∧ OnlyStarts m m' := by
  induction hp with
  | refl => exact ⟨h, .refl m⟩
  | tail _ hp ih =>
    obtain ⟨h', hstarts⟩ := ih
    obtain ⟨h'', hstarts'⟩ := h'.piece hp
    exact ⟨h'', hstarts.trans hstarts'⟩

theorem Shared.list (h : Shared others m) (hid : m.findTask id = none) {calls : List EngineCall}
    (hcalls : ∀ c ∈ calls, c = .start t.param.hash) (param : TaskParam) :
    Shared others (m.list id t calls param) ∧ OnlyStarts m (m.list id t calls param) := by
  have hself : total others (m.list id t calls param) t.param.hash =
      total others m t.param.hash + 1 := by
    rw [total, total, hashNum_list hid, if_pos rfl]
    omega
  have hne : ∀ k, k ≠ t.param.hash → total others (m.list id t calls param) k = total others m k := by
    intro k hk
    rw [total, total, hashNum_list hid, if_neg (Ne.symm hk), Nat.zero_add]
  have hle : ∀ k, total others m k ≤ total others (m.list id t calls param) k := by
    intro k
    by_cases hk : k = t.param.hash
    · rw [hk, hself]
      omega
    · rw [hne k hk]
  refine Tallied.starts h (fun k => ?_) hle rfl fun c hc => ?_
  · by_cases hk : k = t.param.hash
    · subst hk
      rw [hself]
      exact TaskRefCount.lookup_addRef (h.refs _)
    · rw [hne k hk, ← h.refs]
      exact TaskRefCount.lookup_addRef_ne m.refs hk
  · exact ⟨_, hcalls c hc, by omega⟩

theorem Shared.execCreate {c : Creation} (h : Shared others c.mgr) (param : TaskParam) (host : Host) :
    Shared others (execCreate c param host).mgr ∧ OnlyStarts c.mgr (execCreate c param host).mgr := by
  have hc := execCreate_created c param host
  generalize UserSelfMgr.execCreate c param host = c' at hc
  cases hc with
  | refused => exact ⟨h, .refl _⟩
  | dropped => exact ⟨⟨h.refs, h.live⟩, .refl _⟩
  | listed ht hid himpl hs reply =>
    exact h.list hid (fun c hc => by rw [hs.calls c hc, hs.hash]) _

theorem Shared.createAll (h : Shared others m) (params : List TaskParam) (host : Nat → Host)
    (ω : Nat → Answer) : Shared others (m.createAll params host ω).1 ∧ OnlyStarts m (m.createAll params host ω).1 := by
  have hc := Lib.forEach_keep (I := fun c : Creation => Shared others c.mgr ∧ OnlyStarts m c.mgr)
    (fun c param a (_ : param ∈ params) hc =>
      ⟨(hc.1.execCreate param a).1, hc.2.trans (hc.1.execCreate param a).2⟩)
    (s := { mgr := m }) ⟨h, .refl m⟩ host
  refine Lib.forEach_keep (I := fun m' => Shared others m' ∧ OnlyStarts m m') ?_ hc ω
  rintro m' j a - ⟨hm', hs⟩
  obtain ⟨hm'', hs'⟩ := hm'.pieces (parseTask_pieces m' j a)
  exact ⟨hm'', hs.trans hs'⟩

theorem Shared.resumeFromDb (h : Shared others m) (rows : List TaskBase.Row) (host : Nat → Host) :
    Shared others (m.resumeFromDb rows host) ∧ OnlyStarts m (m.resumeFromDb rows host) := by
  refine Lib.forEach_keep (I := fun m' => Shared others m' ∧ OnlyStarts m m') ?_ ⟨h, .refl m⟩ host
  rintro m' r a - ⟨hm', hs⟩
  have hload := resumeRow_reloaded m' r a
  generalize m'.resumeRow r a = m'' at hload
  cases hload with
  | refused => exact ⟨hm', hs⟩
  | dropped => exact ⟨⟨hm'.refs, hm'.live⟩, hs⟩
  | listed hid ht =>
    refine (hm'.list hid (fun c hc => ?_) _).imp id hs.trans
    split at hc
    · exact List.mem_singleton.mp hc
    · cases hc

end Keep

/-! ## Deletion -/

section Remove

variable {others : String → Nat} {m m' : UserSelfMgr} {id : String} {t t' : TaskBase} {a : Answer}

/-- None of these tasks is dropped without asking the engine while it is the last one of a
live download. -/
def Guarded (others : String → Nat) (ids : List String) (m : UserSelfMgr) : Prop :=
  ∀ id ∈ ids, ∀ t, m.findTask id = some t → Skips t → live t.param.hash m.engine = true →
    0 < others t.param.hash

theorem deleteToRecycleBin_same (t : TaskBase) (a : Answer) :
    (t.deleteToRecycleBin a).1.param = t.param ∧ (t.deleteToRecycleBin a).1.isStarted = t.isStarted := by
  unfold TaskBase.deleteToRecycleBin
  split
  · exact ⟨rfl, rfl⟩
  · split <;> exact ⟨rfl, rfl⟩

theorem total_erase (ht : m.findTask id = some t) (hlist : m'.taskList = m.taskList) (t' : TaskBase) :
    total others ((m'.setTask id t').erase id) = minus (total others m) t.param.hash := by
  funext h
  have ht₁ : m'.findTask id = some t := by rwa [findTask, hlist]
  have herase := hashNum_erase ht₁ t' h
  have hnum : m'.hashNum h = m.hashNum h := by rw [hashNum, hashNum, hlist]
  rw [hnum] at herase
  unfold minus total
  by_cases hh : h = t.param.hash
  · subst hh
    rw [if_pos rfl] at herase ⊢
    omega
  · rw [if_neg (Ne.symm hh)] at herase
    rw [if_neg hh]
    omega

structure Removed (others : String → Nat) (m m' : UserSelfMgr) : Prop where
  shared : Shared others m'
  drops : Drops (total others m) (total others m') m.engine m'.engine
  live : ∀ h, DownloadManager.live h m'.engine = true → DownloadManager.live h m.engine = true

theorem Shared.deleted (h : Shared others m) {ids : List String} (hg : Guarded others ids m)
    (hid : id ∈ ids) (hc : a.cancel = true) (hd : Deleted id a m m') : Removed others m m' := by
  have hrel : ∀ t, m.findTask id = some t →
      ∃ m' t', m.releaseTask t a = (m', t', true) ∧ Released (total others m) m t m' := by
    intro t ht
    have hpos := hashNum_pos ht
    refine Tallied.release h (by unfold total; omega) hc fun hs hl => ?_
    have := hg id hid t ht hs hl
    unfold total
    omega
  cases hd with
  | same => exact ⟨h, .refl .., fun _ hl => hl⟩
  | @binned t ht =>
    have hp := (deleteToRecycleBin_same t a).1
    have hnum : total others (m.setTask id (t.deleteToRecycleBin a).1) = total others m :=
      funext fun k => congrArg (others k + ·) (hashNum_setTask ht (by rw [hp]) k)
    refine ⟨?_, by rw [hnum]; exact .refl .., fun _ hl => hl⟩
    unfold Shared
    rw [hnum]
    exact ⟨h.refs, h.live⟩
  | @removed t t' m' ht hr =>
    obtain ⟨m₁, t₁, hr₁, hrel⟩ := hrel t ht
    rw [hr] at hr₁
    obtain ⟨rfl, rfl⟩ : m' = m₁ ∧ t' = t₁ := by simpa using hr₁
    have hlist : m'.taskList = m.taskList := by rw [releaseTask_eq hr]
    have hnum : total others ((m'.setTask id t').erase id) = _ := total_erase ht hlist t'
    refine ⟨?_, by rw [hnum]; exact hrel.drops, hrel.live⟩
    unfold Shared
    rw [hnum]
    exact ⟨hrel.tallied.refs, hrel.tallied.live⟩
  | @refused t m' ht hr =>
    obtain ⟨m₁, t₁, hr₁, -⟩ := hrel t ht
    rw [hr] at hr₁
    cases hr₁

theorem Deleted.isStarted (hd : Deleted id a m m') (ht' : m'.findTask id = some t') :
    ∃ t, m.findTask id = some t ∧ t'.param = t.param ∧ t'.isStarted = t.isStarted := by
  obtain ⟨t, ht, rfl | rfl⟩ := hd.listed ht'
  · exact ⟨_, ht, rfl, rfl⟩
  · exact ⟨t, ht, deleteToRecycleBin_same t a⟩

theorem Guarded.deleted {ids : List String} (hg : Guarded others ids m) (hd : Deleted id a m m')
    (hl : ∀ h, live h m'.engine = true → live h m.engine = true) : Guarded others ids m' := by
  intro j hj t' ht' hs hlive
  by_cases hne : j = id
  · subst hne
    obtain ⟨t, ht, hp, hst⟩ := hd.isStarted ht'
    rw [hp] at hlive ⊢
    exact hg j hj t ht ⟨hst ▸ hs.1, hp ▸ hs.2⟩ (hl _ hlive)
  · rw [hd.findTask_ne hne] at ht'
    exact hg j hj t' ht' hs (hl _ hlive)

theorem Shared.forEach_deleted (h : Shared others m)
    {body : UserSelfMgr × Reply → String → Answer → UserSelfMgr × Reply}
    (hbody : ∀ s j a, Deleted j a s.1 (body s j a).1) {ids : List String} (hg : Guarded others ids m)
    (r : Reply) {ω : Nat → Answer} (hc : ∀ k, (ω k).cancel = true) :
    Shared others (Lib.forEach body (m, r) ids ω).1 ∧
      Drops (total others m) (total others (Lib.forEach body (m, r) ids ω).1) m.engine
        (Lib.forEach body (m, r) ids ω).1.engine := by
  let I (s : UserSelfMgr × Reply) : Prop := Shared others s.1 ∧ Guarded others ids s.1 ∧
    Drops (total others m) (total others s.1) m.engine s.1.engine
  have hloop : I (Lib.forEach body (m, r) ids ω) := by
    refine Lib.forEach_keep_get ?_ ⟨h, hg, .refl ..⟩
    rintro s k j hj ⟨hs, hg, hdrops⟩
    have hrem := hs.deleted hg (List.mem_of_getElem? hj) (hc k) (hbody s j (ω k))
    exact ⟨hrem.shared, hg.deleted (hbody s j (ω k)) hrem.live, hdrops.trans hrem.drops⟩
  exact ⟨hloop.1, hloop.2.2⟩

/-! ## Reset -/

def restNum (m : UserSelfMgr) (rest : List String) (hash : String) : Nat :=
  (rest.map fun id => (m.findTask id).elim 0 fun t => if t.param.hash = hash then 1 else 0).sum

theorem restNum_cons (ht : m.findTask id = some t) (rest : List String) (hash : String) :
    restNum m (id :: rest) hash = (if t.param.hash = hash then 1 else 0) + restNum m rest hash := by
  unfold restNum
  rw [List.map_cons, List.sum_cons, ht, Option.elim_some]

theorem restNum_cons_of_none (ht : m.findTask id = none) (rest : List String) :
    restNum m (id :: rest) = restNum m rest := by
  funext hash
  unfold restNum
  rw [List.map_cons, List.sum_cons, ht]
  exact Nat.zero_add _

theorem restNum_taskIds (m : UserSelfMgr) (hash : String) : restNum m m.taskIds hash = m.hashNum hash := by
  unfold restNum hashNum
  rw [Lib.sumBy_eq_keys]
  exact ((List.perm_insertionSort _ m.taskList.keys).map _).sum_eq

theorem restNum_setTask {rest : List String} (hid : id ∉ rest) (hlist : m'.taskList = m.taskList)
    (t' : TaskBase) (hash : String) : restNum (m'.setTask id t') rest hash = restNum m rest hash := by
  unfold restNum
  congr 1
  refine List.map_congr_left fun j hj => ?_
  have hne : j ≠ id := fun he => hid (he ▸ hj)
  rw [findTask_setTask_ne m' t' hne, findTask, hlist]
  rfl

/-- Once the first task has been released, the others are what is left to count. -/
theorem restNum_minus {rest : List String} (ht : m.findTask id = some t) (hid : id ∉ rest)
    (hlist : m'.taskList = m.taskList) (others : String → Nat) (t' : TaskBase) :
    (fun h => others h + restNum (m'.setTask id t') rest h) =
      minus (fun h => others h + restNum m (id :: rest) h) t.param.hash := by
  funext hash
  rw [restNum_setTask hid hlist]
  unfold minus
  dsimp only
  rw [restNum_cons ht]
  by_cases hh : hash = t.param.hash
  · subst hh
    rw [if_pos rfl, if_pos rfl]
    omega
  · rw [if_neg hh, if_neg (Ne.symm hh), Nat.zero_add]

structure Resetting (others : String → Nat) (m₀ : UserSelfMgr) (m : UserSelfMgr) (rest : List String) :
    Prop where
  nodup : rest.Nodup
  tallied : Tallied (fun h => others h + restNum m rest h) m
  guarded : Guarded others rest m
  drops : Drops (total others m₀) (fun h => others h + restNum m rest h) m₀.engine m.engine

theorem pause_same (t : TaskBase) (a : Answer) :
    (t.pause a).1.param = t.param ∧ (t.pause a).1.isStarted = t.isStarted := by
  unfold TaskBase.pause
  split <;> exact ⟨rfl, rfl⟩

theorem Resetting.resetTask {m₀ : UserSelfMgr} {rest : List String}
    (h : Resetting others m₀ m (id :: rest)) (hc : a.cancel = true) :
    Resetting others m₀ (m.resetTask id a) rest := by
  obtain ⟨hid, hnd⟩ := List.nodup_cons.mp h.nodup
  unfold UserSelfMgr.resetTask
  split
  · rename_i hnone
    have ht := h.tallied
    have hd := h.drops
    rw [restNum_cons_of_none hnone] at ht hd
    exact ⟨hnd, ht, fun j hj => h.guarded j (List.mem_cons_of_mem _ hj), hd⟩
  · rename_i t ht
    obtain ⟨hp, hst⟩ := pause_same t a
    have hself : restNum m (id :: rest) t.param.hash = 1 + restNum m rest t.param.hash := by
      rw [restNum_cons ht, if_pos rfl]
    obtain ⟨m', t', hr, hrel⟩ := h.tallied.release (t := (t.pause a).1) (a := a)
      (by rw [hp, hself]; omega) hc (fun hs hl => by
        rw [hp] at hl
        have := h.guarded id List.mem_cons_self t ht ⟨hst ▸ hs.1, hp ▸ hs.2⟩ hl
        rw [hp, hself]
        omega)
    have hlist : m'.taskList = m.taskList := by rw [releaseTask_eq hr]
    have hcancel : (m.cancel id (t.pause a).1 a).1 = m'.setTask id t' := by
      unfold UserSelfMgr.cancel
      rw [hr]
    have hnum := restNum_minus ht hid hlist others t'
    rw [← hp] at hnum
    rw [hcancel]
    refine ⟨hnd, ?_, fun j hj t₁ ht₁ hs hl => ?_, ?_⟩
    · rw [hnum]
      exact ⟨hrel.tallied.refs, hrel.tallied.live⟩
    · have hne : j ≠ id := fun he => hid (he ▸ hj)
      rw [findTask_setTask_ne m' t' hne, findTask, hlist] at ht₁
      exact h.guarded j (List.mem_cons_of_mem _ hj) t₁ ht₁ hs (hrel.live _ hl)
    · rw [hnum]
      exact h.drops.trans hrel.drops

theorem Shared.reset (h : Shared others m) (hg : ∀ id t, m.findTask id = some t → Skips t →
    live t.param.hash m.engine = true → 0 < others t.param.hash) {ω : Nat → Answer}
    (hc : ∀ k, (ω k).cancel = true) : Shared others (m.reset ω) ∧
      Drops (total others m) (total others (m.reset ω)) m.engine (m.reset ω).engine := by
  have hstart : Resetting others m m m.taskIds := by
    have hnum : (fun h => others h + restNum m m.taskIds h) = total others m := by
      funext k
      rw [restNum_taskIds, total]
    refine ⟨m.nodup_taskIds, by rw [hnum]; exact h, fun id _ t ht hs hl => hg id t ht hs hl, ?_⟩
    rw [hnum]
    exact .refl ..
  have hend : Resetting others m (Lib.forEach UserSelfMgr.resetTask m m.taskIds ω) [] :=
    Lib.forEach_scan_all (fun _ _ _ k h => h.resetTask (hc k)) hstart
  have hnum : total others (m.reset ω) =
      fun h => others h + restNum (Lib.forEach UserSelfMgr.resetTask m m.taskIds ω) [] h := rfl
  refine ⟨?_, by rw [hnum]; exact hend.drops⟩
  unfold Shared
  rw [hnum]
  exact ⟨hend.tallied.refs, hend.tallied.live⟩

end Remove

def Event.removeAnswers : Event → Nat → Answer
  | .delete _ _ ω | .deleteCategory _ _ ω | .clean _ ω | .cleanCategory _ ω | .reset ω => ω
  | _ => fun _ => {}

def Event.mayRemove (id : String) : Event → Prop
  | .delete ids .. | .clean ids _ => id ∈ ids
  | .deleteCategory .. | .cleanCategory .. | .reset .. => True
  | _ => False

theorem Shared.step {others : String → Nat} {m : UserSelfMgr} (h : Shared others m) {e : Event}
    (hr : ∀ rows host, e ≠ .restart rows host) (hc : ∀ k, (e.removeAnswers k).cancel = true)
    (hg : ∀ id, e.mayRemove id → ∀ t, m.findTask id = some t → Skips t →
      live t.param.hash m.engine = true → 0 < others t.param.hash) :
    Shared others (m.step e) ∧ (OnlyStarts m (m.step e) ∨
      Drops (total others m) (total others (m.step e)) m.engine (m.step e).engine) := by
  cases e with
  | createLink sourceList host ω => exact (h.createAll _ host ω).imp id .inl
  | createTorrent request host ω => exact (h.createAll _ host ω).imp id .inl
  | delete ids b ω =>
    exact (h.forEach_deleted (execDeleteOperate_deleted b false) hg {} hc).imp id .inr
  | clean ids ω =>
    exact (h.forEach_deleted (execDeleteOperate_deleted false true) hg {} hc).imp id .inr
  | deleteCategory c b ω =>
    exact (h.forEach_deleted (execDeleteCategoryOperate_deleted c b) (fun id _ => hg id trivial) {} hc).imp
      id .inr
  | cleanCategory c ω =>
    exact (h.forEach_deleted (execCleanCategoryOperate_deleted c) (fun id _ => hg id trivial) {} hc).imp
      id .inr
  | reset ω => exact (h.reset (fun id => hg id trivial) hc).imp id .inr
  | restart rows host => exact absurd rfl (hr rows host)
  | _ => exact (h.pieces (step_pieces rfl rfl)).imp id .inl

end UserSelfMgr

/-! ## All users -/

namespace DownloadManager

open UserSelfMgr (Shared total)

variable {s : DownloadManager} {userId : String} {m : UserSelfMgr}

theorem step_user {e : UserSelfMgr.Event} (hr : ∀ rows host, e ≠ .restart rows host) :
    s.step (.user userId e) = match s.findUser userId with
      | some m => s.leave userId ((s.enter m).step e)
      | none => if e.lists then s.leave userId ((s.enter { userId }).step e) else s := by
  cases e with
  | restart rows host => exact absurd rfl (hr rows host)
  | _ => rfl

def otherNum (s : DownloadManager) (userId hash : String) : Nat :=
  Lib.sumBy (fun _ m => m.hashNum hash) (s.userSelfMgrList.erase userId)

theorem taskNum_leave (s : DownloadManager) (userId : String) (m : UserSelfMgr) (hash : String) :
    (s.leave userId m).taskNum hash = total (s.otherNum userId) m hash := by
  have h : (s.leave userId m).taskNum hash = m.hashNum hash + s.otherNum userId hash := Lib.sumBy_insert
  rw [h, total, Nat.add_comm]

theorem taskNum_eq (hm : s.findUser userId = some m ∨ s.findUser userId = none ∧ m = { userId })
    (hash : String) : s.taskNum hash = total (s.otherNum userId) (s.enter m) hash := by
  rcases hm with hm | ⟨hm, rfl⟩
  · have h : s.otherNum userId hash + m.hashNum hash = s.taskNum hash := Lib.sumBy_erase hm
    exact h.symm
  · have h : s.otherNum userId hash = s.taskNum hash := Lib.sumBy_erase_of_notMem hm
    exact h.symm

structure Exact (s : DownloadManager) : Prop where
  refs : ∀ hash, s.refs.lookup hash = tally (s.taskNum hash)
  live : ∀ hash, live hash s.engine = true → 0 < s.taskNum hash

def CancelsLast (s : DownloadManager) (e : Event) : Prop :=
  e = .restart ∨ ∃ calls, (s.step e).engine = calls ++ s.engine ∧
    ∀ hash ok, .cancel hash ok ∈ calls → 0 < s.taskNum hash ∧ (s.step e).taskNum hash = 0

/-- The request breaks the count: a cancellation fails, or it covers a task that is dropped
without asking the engine, whose download is live and shared by no other user. -/
def Event.Miscounts (s : DownloadManager) : Event → Prop
  | .user userId e => (∃ k, (e.removeAnswers k).cancel = false) ∨
      ∃ m id t, s.findUser userId = some m ∧ e.mayRemove id ∧ m.findTask id = some t ∧
        t.isStarted = false ∧ t.param.type ≠ .kTorrent ∧ DownloadManager.live t.param.hash s.engine = true ∧
        s.otherNum userId t.param.hash = 0
  | _ => False

theorem Exact.enter (h : Exact s)
    (hm : s.findUser userId = some m ∨ s.findUser userId = none ∧ m = { userId }) :
    Shared (s.otherNum userId) (s.enter m) :=
  ⟨fun hash => by rw [← taskNum_eq hm]; exact h.refs hash,
    fun hash hl => by rw [← taskNum_eq hm]; exact h.live hash hl⟩

theorem exact_leave (h : Shared (s.otherNum userId) m) : Exact (s.leave userId m) :=
  ⟨fun hash => by rw [taskNum_leave]; exact h.refs hash,
    fun hash hl => by rw [taskNum_leave]; exact h.live hash hl⟩

theorem cancel_of_not_miscounts {e : UserSelfMgr.Event} (hno : ¬ (Event.user userId e).Miscounts s) (k : Nat) :
    (e.removeAnswers k).cancel = true := by
  by_contra hk
  exact hno (.inl ⟨k, Bool.eq_false_iff.mpr hk⟩)

/-- A task that is dropped without asking the engine while its download is live leaves it to
another user. -/
theorem otherNum_pos_of_not_miscounts {e : UserSelfMgr.Event} (hno : ¬ (Event.user userId e).Miscounts s)
    (hm : s.findUser userId = some m ∨ s.findUser userId = none ∧ m = { userId }) {id : String}
    (hid : e.mayRemove id) {t : TaskBase} (ht : (s.enter m).findTask id = some t) (hs : UserSelfMgr.Skips t)
    (hl : live t.param.hash (s.enter m).engine = true) : 0 < s.otherNum userId t.param.hash := by
  rcases hm with hm | ⟨-, rfl⟩
  · by_contra hzero
    exact hno (.inr ⟨m, id, t, hm, hid, ht, hs.1, hs.2, hl, by omega⟩)
  · cases ht

theorem Exact.user (h : Exact s) {e : UserSelfMgr.Event}
    (hm : s.findUser userId = some m ∨ s.findUser userId = none ∧ m = { userId })
    (hr : ∀ rows host, e ≠ .restart rows host) (hno : ¬ (Event.user userId e).Miscounts s) :
    Exact (s.leave userId ((s.enter m).step e)) ∧
      ∃ calls, (s.leave userId ((s.enter m).step e)).engine = calls ++ s.engine ∧
        ∀ hash ok, .cancel hash ok ∈ calls → 0 < s.taskNum hash ∧
          (s.leave userId ((s.enter m).step e)).taskNum hash = 0 := by
  obtain ⟨hshared, hcalls⟩ := (h.enter hm).step hr (cancel_of_not_miscounts hno)
    fun id hid t ht hs hl => otherNum_pos_of_not_miscounts hno hm hid ht hs hl
  refine ⟨exact_leave hshared, ?_⟩
  rcases hcalls with ⟨calls, heq, hstarts⟩ | ⟨-, calls, heq, hlast⟩
  · exact ⟨calls, heq, fun hash ok hmem => absurd hmem (hstarts hash ok)⟩
  · refine ⟨calls, heq, fun hash ok hmem => ?_⟩
    rw [taskNum_eq hm, taskNum_leave]
    exact hlast hash ok hmem

theorem step_exact (h : Exact s) {e : Event} (hno : ¬ e.Miscounts s) :
    Exact (s.step e) ∧ CancelsLast s e := by
  have hsame : s.step e = s → Exact (s.step e) ∧ CancelsLast s e := by
    intro heq
    refine ⟨heq.symm ▸ h, .inr ⟨[], by rw [heq]; rfl, nofun⟩⟩
  cases e with
  | restart => exact ⟨⟨fun _ => rfl, nofun⟩, .inl rfl⟩
  | resumeFromDb userId rows host =>
    have hm : s.findUser userId = some ((s.findUser userId).getD { userId }) ∨
        s.findUser userId = none ∧ (s.findUser userId).getD { userId } = { userId } := by
      cases s.findUser userId with
      | none => exact .inr ⟨rfl, rfl⟩
      | some m => exact .inl rfl
    obtain ⟨hshared, calls, heq, hstarts⟩ := (h.enter hm).resumeFromDb rows host
    exact ⟨exact_leave hshared, .inr ⟨calls, heq, fun hash ok hmem => absurd hmem (hstarts hash ok)⟩⟩
  | user userId e =>
    by_cases hr : ∃ rows host, e = .restart rows host
    · obtain ⟨rows, host, rfl⟩ := hr
      exact hsame rfl
    · have hr' : ∀ rows host, e ≠ .restart rows host := fun rows host he => hr ⟨rows, host, he⟩
      rcases hm : s.findUser userId with _ | m
      · cases hl : e.lists with
        | true =>
          have hstep : s.step (.user userId e) = s.leave userId ((s.enter { userId }).step e) := by
            rw [step_user hr', hm]
            exact if_pos hl
          have hu := h.user (.inr ⟨hm, rfl⟩) hr' hno
          unfold CancelsLast
          rw [hstep]
          exact hu.imp id .inr
        | false =>
          refine hsame ?_
          rw [step_user hr', hm]
          exact if_neg (by rw [hl]; decide)
      · have hstep : s.step (.user userId e) = s.leave userId ((s.enter m).step e) := by
          rw [step_user hr', hm]
        have hu := h.user (.inl hm) hr' hno
        unfold CancelsLast
        rw [hstep]
        exact hu.imp id .inr

theorem not_miscounts_of_isStarted {e : UserSelfMgr.Event}
    (hc : ∀ k, (e.removeAnswers k).cancel = true)
    (hst : ∀ id, e.mayRemove id →
      ((s.findUser userId).bind (·.findTask id)).map (·.isStarted) ≠ some false) :
    ¬ (Event.user userId e).Miscounts s := by
  rintro (⟨k, hk⟩ | ⟨m, id, t, hm, hid, ht, hns, -⟩)
  · rw [hc k] at hk
    cases hk
  · refine hst id hid ?_
    rw [hm, Option.bind_some, ht, Option.map_some, hns]

/-- In every run in which no cancellation fails and no request covers a task that is dropped
without asking the engine while its download is live and its own alone, the
counter of every hash is the number of listed tasks with it, a download that is
live has a task, and a download is cancelled only when its last task goes. -/
theorem run_exact (es : List Event) (h : Lib.Along step (fun s e => ¬ e.Miscounts s) {} es) :
    (∀ hash, (Lib.run step {} es).refs.count hash = (Lib.run step {} es).taskNum hash) ∧
    (∀ hash, live hash (Lib.run step {} es).engine = true → 0 < (Lib.run step {} es).taskNum hash) ∧
    Lib.Along step CancelsLast {} es := by
  have hempty : Exact {} := ⟨fun _ => rfl, nofun⟩
  have hrun := h.run (I := Exact) (fun _ _ hs hno => (step_exact hs hno).1) hempty
  refine ⟨fun hash => TaskRefCount.count_of_tally (hrun.refs hash), hrun.live, ?_⟩
  exact h.imp (I := Exact) (fun _ _ hs hno => (step_exact hs hno).1)
    (fun _ _ hs hno => (step_exact hs hno).2) hempty

def sharedLink : List Event :=
  [Event.user "u" (UserSelfMgr.linkTask "a" "http://x"), .user "v" (UserSelfMgr.linkTask "b" "http://x")]

def deleteTwice (userId id : String) (cancel : Bool) : List Event :=
  [.user userId (.delete [id] false fun _ => {}), .user userId (.delete [id] false fun _ => { cancel })]

/-- Both users delete their tasks; the second deletion cancels the download. -/
theorem run_exact_sharedLink :
    live "http://x" (Lib.run step {} (sharedLink ++ deleteTwice "u" "a" true)).engine = true ∧
    (∀ hash, (Lib.run step {} (sharedLink ++ deleteTwice "u" "a" true ++ deleteTwice "v" "b" true)).refs.count hash =
      (Lib.run step {} (sharedLink ++ deleteTwice "u" "a" true ++ deleteTwice "v" "b" true)).taskNum hash) ∧
    live "http://x"
      (Lib.run step {} (sharedLink ++ deleteTwice "u" "a" true ++ deleteTwice "v" "b" true)).engine = false := by
  refine ⟨by decide +kernel, (run_exact _ ?_).1, by decide +kernel⟩
  refine ⟨?_, ?_, ?_, ?_, ?_, ?_, trivial⟩
  · exact not_miscounts_of_isStarted (fun _ => rfl) nofun
  · exact not_miscounts_of_isStarted (fun _ => rfl) nofun
  all_goals
    refine not_miscounts_of_isStarted (fun _ => rfl) fun id hid => ?_
    obtain rfl := List.mem_singleton.mp hid
    decide +kernel

/-- A failed cancellation leaves a listed task without its reference; and a waiting task that
is deleted last leaves the download behind. -/
theorem delete_miscounts :
    (Lib.run step {} (Event.user "u" (UserSelfMgr.linkTask "a" "http://a") :: deleteTwice "u" "a" false)).refs.count
        "http://a" ≠
      (Lib.run step {} (Event.user "u" (UserSelfMgr.linkTask "a" "http://a") :: deleteTwice "u" "a" false)).taskNum
        "http://a" ∧
    live "http://x" (Lib.run step {} ([.user "v" (UserSelfMgr.linkTask "c" "http://c"), .user "v" (.settings 0 true)] ++
      sharedLink ++ deleteTwice "u" "a" true ++ deleteTwice "v" "b" true)).engine = true ∧
    (Lib.run step {} ([.user "v" (UserSelfMgr.linkTask "c" "http://c"), .user "v" (.settings 0 true)] ++
      sharedLink ++ deleteTwice "u" "a" true ++ deleteTwice "v" "b" true)).taskNum "http://x" = 0 := by
  decide +kernel

end DownloadManager

end Nas.Download
