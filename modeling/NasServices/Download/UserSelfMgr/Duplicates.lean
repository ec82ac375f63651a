import NasServices.Download.UserSelfMgr.Pieces
import NasServices.Download.UserSelfMgr.Writes

/-!
# Creating the same download twice

`CreateTask` compares the url and the hash of a new task with those of the
listed ones before `CheckCondition` may rewrite the url, and takes an empty id
for the answer that there is no such task. Apart from these two cases a create
request keeps the urls and the hashes of a user's tasks distinct
(`Catalogued.createAll`).
-/

namespace Nas.Download.UserSelfMgr

variable {m m' : UserSelfMgr} {id : String} {t t' : TaskBase} {h : Host}

def Distinct (P : String → Option TaskParam) : Prop :=
  ∀ id id' p p', P id = some p → P id' = some p' → id ≠ id' →
    p.url ≠ p'.url ∧ (p.hash ≠ "" → p.hash ≠ p'.hash)

theorem mem_listed (ht : m.findTask id = some t) : t ∈ m.taskIds.filterMap m.findTask := by
  exact List.mem_filterMap.mpr ⟨id, mem_taskIds_iff.mpr (Option.isSome_iff_exists.mpr ⟨t, ht⟩), ht⟩

theorem isTaskExisted_eq_empty {param : TaskParam} (hids : ∀ id t, m.findTask id = some t → t.param.id ≠ "")
    (hsame : m.isTaskExisted param = "") (ht : m.findTask id = some t) :
    t.param.url ≠ param.url ∧ (param.hash ≠ "" → param.hash ≠ t.param.hash) := by
  simp only [isTaskExisted] at hsame
  rcases hfind : (m.taskIds.filterMap m.findTask).find? (fun t => t.param.url == param.url ||
      (param.hash != "" && t.param.hash != "" && param.hash == t.param.hash)) with _ | w
  · have hno := List.find?_eq_none.mp hfind t (mem_listed ht)
    simp only [Bool.or_eq_true, beq_iff_eq, Bool.and_eq_true, bne_iff_ne, not_or, not_and] at hno
    exact ⟨hno.1, fun hne heq => hno.2 ⟨hne, heq ▸ hne⟩ heq⟩
  · rw [hfind] at hsame
    obtain ⟨j, -, hj⟩ := List.mem_filterMap.mp (List.mem_of_find?_eq_some hfind)
    exact absurd hsame (hids j w hj)

/-! ## Accepted tasks -/

def isLink (param : TaskParam) : Bool := !(param.type.isBt || param.type == .kEd2k)

theorem checkCondition_passed (hc : t.checkCondition h = (t', .kNormal)) :
    ∃ url, t'.param = { t.param with url } ∧
      (isLink t.param = true → h.isValidUrl t.param.url = some url) ∧
      (isLink t.param = false → url = t.param.url ∧ t.hasImpl = true) := by
  simp only [TaskBase.checkCondition] at hc
  split at hc
  · rename_i hlink
    obtain ⟨rfl, herr⟩ := Prod.mk.inj hc
    refine ⟨t.param.url, rfl, fun hl => by simp [isLink, hlink] at hl, fun _ => ⟨rfl, ?_⟩⟩
    by_contra hno
    rw [if_neg hno] at herr
    exact absurd herr (by decide)
  · rename_i hlink
    split at hc
    · exact absurd (Prod.mk.inj hc).2 (by decide)
    · rename_i url hurl
      obtain ⟨rfl, -⟩ := Prod.mk.inj hc
      exact ⟨url, rfl, fun _ => hurl, fun hl => by simp [isLink, hlink] at hl⟩

structure Accepted (m : UserSelfMgr) (param : TaskParam) (h : Host) (t : TaskBase) : Prop where
  free : m.findTask param.id = none
  existed : m.isTaskExisted (TaskFactory.construct param h) = ""
  built : ∃ url, t.param = { TaskFactory.construct param h with url } ∧
    (isLink (TaskFactory.construct param h) = true →
      h.isValidUrl (TaskFactory.construct param h).url = some url) ∧
    (isLink (TaskFactory.construct param h) = false → url = (TaskFactory.construct param h).url)
  hasImpl : (TaskFactory.construct param h).type.isBt = true → h.hasImpl = true

theorem createTask_accepted {param : TaskParam} {same : String}
    (hc : m.createTask param h = (some t, .kNormal, same)) : Accepted m param h t := by
  have hresult := createTask_result m param h
  rw [hc] at hresult
  cases hresult with
  | tested hpasses ht₀ hsame herr =>
    rename_i t₀
    obtain ⟨hparam, himpl, -⟩ := TaskFactory.createTask_eq ht₀
    rw [hparam] at himpl
    have hcond : t₀.checkCondition h = ((t₀.checkCondition h).1, .kNormal) := by rw [← herr rfl]
    obtain ⟨url, hurl, hlink, hother⟩ := checkCondition_passed hcond
    rw [hparam] at hurl hlink hother hsame
    refine ⟨hpasses.free, hsame, ⟨url, hurl, hlink, fun hl => (hother hl).1⟩, fun hbt => ?_⟩
    have hnot : isLink (TaskFactory.construct param h) = false := by simp [isLink, hbt]
    simpa [himpl, hbt] using (hother hnot).2

theorem execCreate_paramOf (c : Creation) (param : TaskParam) (h : Host) :
    paramOf (execCreate c param h).mgr = paramOf c.mgr ∨
    ∃ t torrent, Accepted c.mgr param h t ∧
      paramOf (execCreate c param h).mgr =
        Function.update (paramOf c.mgr) param.id (some { t.param with torrent }) := by
  unfold execCreate
  rcases hc : c.mgr.createTask param h with ⟨_ | t, err, same⟩
  · exact .inl rfl
  · dsimp only
    by_cases herr : err ≠ .kNormal
    · rw [if_pos herr]
      exact .inl rfl
    · obtain rfl := not_not.mp herr
      have hacc := createTask_accepted hc
      obtain ⟨torrent, hparam, -⟩ :=
        (execStart_startedFrom { c.mgr with made := t.param :: c.mgr.made } t h).param
      rw [if_neg herr]
      generalize execStart { c.mgr with made := t.param :: c.mgr.made } t h = s at hparam ⊢
      by_cases hserr : s.err ≠ .kNormal
      · rw [if_pos hserr]
        exact .inl rfl
      · rw [if_neg hserr, addTask_of_none hacc.free]
        refine .inr ⟨t, torrent, hacc, funext fun j => ?_⟩
        show paramOf (c.mgr.list param.id s.task s.calls t.param) j = _
        by_cases hj : j = param.id
        · rw [hj, paramOf, findTask_list, Function.update_self, Option.map_some, hparam]
        · rw [paramOf, findTask_list_ne hj, Function.update_of_ne hj, paramOf]

theorem Piece.paramOf_eq (hp : Piece m m') : paramOf m' = paramOf m := by
  funext j
  cases hp with
  | update hu =>
    refine hu.keep (Q := fun o => o.map (·.param) = paramOf m j) ?_ rfl
    intro t t' hk hQ
    rw [← hQ, Option.map_some, Option.map_some, hk.param]
  | @parse id _ t t' ht hp q =>
    show paramOf (m.setTask id t') j = _
    by_cases hj : j = id
    · rw [hj, paramOf, findTask_setTask, paramOf, ht, Option.map_some, Option.map_some, hp]
    · rw [paramOf, findTask_setTask_ne m t' hj, paramOf]
  | queue | settings => rfl

theorem Pieces.paramOf_eq (hp : Pieces m m') : paramOf m' = paramOf m := by
  induction hp with
  | refl => rfl
  | tail _ hlast ih => rw [hlast.paramOf_eq, ih]

/-! ## The catalogue of a user -/

structure Naming where
  isValid : String → Option String
  hash : DownloadType → String → String

def Naming.Conforms (n : Naming) (param : TaskParam) (h : Host) : Prop :=
  h.isValidUrl = n.isValid ∧
    h.taskHash = n.hash (TaskFactory.construct param h).type (TaskFactory.construct param h).url

/-- The source has an id, and its url stays as it is. -/
def Naming.Plain (n : Naming) (param : TaskParam) (h : Host) : Prop :=
  param.id ≠ "" ∧ (isLink (TaskFactory.construct param h) = true →
    ∀ url, n.isValid param.url = some url → url = param.url)

structure Catalogued (n : Naming) (P : String → Option TaskParam) : Prop where
  id : ∀ id p, P id = some p → id ≠ "" ∧ p.id = id
  hash : ∀ id p, P id = some p → p.hash = n.hash p.type p.url
  distinct : Distinct P

variable {n : Naming} {P : String → Option TaskParam}

theorem Catalogued.insert (hcat : Catalogued n P) {p : TaskParam} (hid : id ≠ "" ∧ p.id = id)
    (hhash : p.hash = n.hash p.type p.url)
    (hnew : ∀ j q, P j = some q → q.url ≠ p.url ∧ (p.hash ≠ "" → p.hash ≠ q.hash)) :
    Catalogued n (Function.update P id (some p)) := by
  have hcases (j : String) (q : TaskParam) (hq : Function.update P id (some p) j = some q) :
      (j = id ∧ q = p) ∨ (j ≠ id ∧ P j = some q) := by
    by_cases hj : j = id
    · rw [hj, Function.update_self] at hq
      exact .inl ⟨hj, (Option.some.inj hq).symm⟩
    · rw [Function.update_of_ne hj] at hq
      exact .inr ⟨hj, hq⟩
  refine ⟨fun j q hq => ?_, fun j q hq => ?_, fun j j' q q' hq hq' hne => ?_⟩
  · rcases hcases j q hq with ⟨rfl, rfl⟩ | ⟨-, hq⟩
    · exact hid
    · exact hcat.id j q hq
  · rcases hcases j q hq with ⟨rfl, rfl⟩ | ⟨-, hq⟩
    · exact hhash
    · exact hcat.hash j q hq
  · rcases hcases j q hq with ⟨rfl, rfl⟩ | ⟨-, hold⟩ <;> rcases hcases j' q' hq' with ⟨rfl, rfl⟩ | ⟨-, hold'⟩
    · exact absurd rfl hne
    · exact ⟨(hnew j' q' hold').1.symm, (hnew j' q' hold').2⟩
    · exact ⟨(hnew j q hold).1, fun hh heq => (hnew j q hold).2 (heq ▸ hh) heq.symm⟩
    · exact hcat.distinct j j' q q' hold hold' hne

/-- Unless the adapter of a BitTorrent task is missing, a task has the hash the engine gave. -/
theorem construct_hash {param : TaskParam}
    (himpl : (TaskFactory.construct param h).type.isBt = true → h.hasImpl = true) :
    (TaskFactory.construct param h).hash = h.taskHash := by
  obtain ⟨url, hash, hcons⟩ := TaskFactory.construct_eq param h
  rw [hcons] at himpl
  simp only [TaskFactory.construct]
  split
  · rename_i hbt
    split
    · rfl
    · rw [if_neg (by simp [himpl hbt])]
      split <;> rfl
  · rfl

/-- A link keeps its url until `CheckCondition`. -/
theorem construct_url_of_isLink {param : TaskParam} (hlink : isLink (TaskFactory.construct param h) = true) :
    (TaskFactory.construct param h).url = param.url := by
  obtain ⟨url, hash, hcons⟩ := TaskFactory.construct_eq param h
  rw [TaskFactory.construct_url, if_neg]
  rintro ⟨htor, -⟩
  rw [hcons, htor] at hlink
  cases hlink

theorem Catalogued.execCreate {c : Creation} (hcat : Catalogued n (paramOf c.mgr)) {param : TaskParam}
    (hconf : n.Conforms param h) (hplain : n.Plain param h) :
    Catalogued n (paramOf (execCreate c param h).mgr) := by
  rcases execCreate_paramOf c param h with heq | ⟨t, torrent, hacc, heq⟩
  · rw [heq]
    exact hcat
  · obtain ⟨url, hparam, hlink, hother⟩ := hacc.built
    have hurl : url = (TaskFactory.construct param h).url := by
      cases hl : isLink (TaskFactory.construct param h) with
      | false => exact hother hl
      | true =>
        have hvalid := hlink hl
        rw [construct_url_of_isLink hl, hconf.1] at hvalid
        rw [construct_url_of_isLink hl]
        exact hplain.2 hl url hvalid
    have hids (j : String) (w : TaskBase) (hw : c.mgr.findTask j = some w) : w.param.id ≠ "" := by
      have hj := hcat.id j w.param (by rw [paramOf, hw, Option.map_some])
      rw [hj.2]
      exact hj.1
    obtain ⟨_, _, hcons⟩ := TaskFactory.construct_eq param h
    rw [heq, hparam, hurl]
    refine hcat.insert ⟨hplain.1, ?_⟩ ?_ fun j q hq => ?_
    · rw [hcons]
    · exact (construct_hash hacc.hasImpl).trans hconf.2
    · obtain ⟨w, hw, rfl⟩ := Option.map_eq_some_iff.mp hq
      exact isTaskExisted_eq_empty hids hacc.existed hw

theorem Catalogued.createAll (hcat : Catalogued n (paramOf m)) {params : List TaskParam} {host : Nat → Host}
    (hparams : ∀ k p, params[k]? = some p → n.Conforms p (host k) ∧ n.Plain p (host k)) (ω : Nat → Answer) :
    Catalogued n (paramOf (m.createAll params host ω).1) := by
  have hcreate : Catalogued n (paramOf (Lib.forEach UserSelfMgr.execCreate { mgr := m } params host).mgr) :=
    Lib.forEach_keep_get (I := fun c : Creation => Catalogued n (paramOf c.mgr))
      (fun c k p hp hc => hc.execCreate (hparams k p hp).1 (hparams k p hp).2) hcat
  have hparse := pieces_forEach (fun m => m) parseTask_pieces
    (Lib.forEach UserSelfMgr.execCreate { mgr := m } params host).mgr
    (Lib.forEach UserSelfMgr.execCreate { mgr := m } params host).needParse ω
  show Catalogued n (paramOf (Lib.forEach parseTask _ _ ω))
  rw [hparse.paramOf_eq]
  exact hcreate

end Nas.Download.UserSelfMgr
