import NasServices.Download.Db.UserStatistics

/-!
# Clearing the database

A reset empties the tables of the users that the store knows: `users_` has the users whose
record was inserted or read. A user whose record cannot be inserted has one, and is in `users_`
since it was inserted or read. No name is taken out, and a statement that fails does not keep
the others from being run. So nothing is left of any user, whatever was called before
(`run_clearTableData`).
-/

namespace Nas.Download

open Lib Lib.Sql

structure DownloadInfoStore where
  db : Db
  users : List String := []
  /-- Not in the source: the users with a `UserSelfMgr`, which has called `AddUserInfo` or was made for a
  record that was read. -/
  managers : List String := []

namespace DownloadInfoStore

def getAllTableName (s : DownloadInfoStore) : List String := s.users.map tableName ++ [kUserInfoTableName]

def clearText (name : String) : List Char := splice [("DELETE FROM ".toList, cStr name)] []

def clearTables (db : Db) : List String → Db × Bool
  | [] => (db, true)
  | name :: names =>
    let (db, deleted) := execute db (clearText name)
    let (db, ok) := clearTables db names
    (db, deleted && ok)

def clearTableData (s : DownloadInfoStore) : DownloadInfoStore × Bool :=
  let (db, ok) := clearTables s.db s.getAllTableName
  ({ s with db }, ok)

/-- For a user id that is `Clean`: others are not printed as they are. -/
def makeSureTaskInfoTableExist (db : Db) (userId : String) : Db :=
  match db (fold (tableName userId)) with
  | some _ => db
  | none => Function.update db (fold (tableName userId)) (some (table []))

inductive Call
  | user (c : UserCall)
  | getAllUsersInfo
  | addTaskInfo (userId : String) (i : TaskInfo)
  | updateTaskInfo (userId : String) (i : TaskInfo)
  | deleteTaskInfo (userId taskId : String)
  | clearTableData

def recorded (db : Db) : List String :=
  ((db (fold kUserInfoTableName)).elim [] (·.rows)).map fun r => (readUserRow r).userId

def announced (db : Db) : Call → List String
  | .user (.addUserInfo i) => [i.userId]
  | .getAllUsersInfo => recorded db
  | _ => []

/-- The users that a call adds: a record that is already there is not inserted. -/
def added (db : Db) : Call → List String
  | .user (.addUserInfo i) =>
    match (makeSureUserInfoTableExist db (fold kUserInfoTableName)).bind (·.insert (userValues i)) with
    | some _ => [i.userId]
    | none => []
  | .getAllUsersInfo => recorded db
  | _ => []

def exec (db : Db) (names : List String) : Call → Db
  | .user c => c.step db
  | .getAllUsersInfo => db
  | .addTaskInfo userId i => addTaskInfo (makeSureTaskInfoTableExist db userId) userId i
  | .updateTaskInfo userId i => updateTaskInfo db userId i
  | .deleteTaskInfo userId taskId => deleteTaskInfo db userId taskId
  | .clearTableData => (clearTables db names).1

def step (s : DownloadInfoStore) (c : Call) : DownloadInfoStore :=
  { db := exec s.db s.getAllTableName c, users := s.users ++ added s.db c,
    managers := s.managers ++ announced s.db c }

/-- A manager writes the tasks of its user, and what is printed between quotes has none. -/
def Ok (s : DownloadInfoStore) : Call → Prop
  | .user c => c.Ok ∧ Clean c.info.userId
  | .addTaskInfo userId _ => userId ∈ s.managers
  | .updateTaskInfo userId i => userId ∈ s.managers ∧ Clean i.fileName ∧ Clean i.task.param.id
  | .deleteTaskInfo userId taskId => userId ∈ s.managers ∧ Clean taskId
  | _ => True

/-- Rows are only in tables that the store knows, and every user with a manager or a record is known. -/
structure Known (s : DownloadInfoStore) : Prop where
  clean : ∀ u ∈ s.users, Clean u
  rows : ∀ name t, s.db name = some t → t.rows ≠ [] → name ∈ s.getAllTableName.map fold
  managers : ∀ u ∈ s.managers, u ∈ s.users
  recorded : ∃ us, Holds s.db us ∧ ∀ u ∈ us, u.userId ∈ s.users

/-! ## Clearing -/

theorem lex_clearText {name : String} (h : Clean name) :
    lex (clearText name) = [.word "DELETE", .word "FROM", .text name] := by
  have hsql : "DELETE FROM ".toList.all isPlainChar = true ∧
      lex "DELETE FROM ".toList = [.word "DELETE", .word "FROM"] := by decide +kernel
  have hprinted : cStr name = name.toList := printed_eq h.2
  have hpieces : Pieces [("DELETE FROM ".toList, name.toList)] [] :=
    ⟨by simpa using List.all_eq_true.mp hsql.1, by simp, by simp⟩
  rw [clearText, hprinted, (lex_splice_iff hpieces).mpr (by simpa using h.1)]
  simp only [spliceTokens, hsql.2, String.ofList_toList]
  rfl

theorem clearTables_apply {names : List String} (hnames : ∀ n ∈ names, Clean n) (db : Db) (name : String) :
    (clearTables db names).1 name =
      if name ∈ names.map fold then (db name).map fun t => { t with rows := [] } else db name := by
  induction names generalizing db with
  | nil => rfl
  | cons n names ih =>
    obtain ⟨hn, hnames⟩ := List.forall_mem_cons.mp hnames
    rw [clearTables, execute_deleteAll (lex_clearText hn)]
    refine (ih hnames _).trans ?_
    by_cases hname : name = fold n
    · subst hname
      simp [Db.modify, Option.map_map, Function.comp_def]
    · simp [Db.modify, hname]

theorem Known.clean_names {s : DownloadInfoStore} (hs : s.Known) : ∀ n ∈ s.getAllTableName, Clean n := by
  intro n hn
  rcases List.mem_append.mp hn with hn | hn
  · obtain ⟨u, hu, rfl⟩ := List.mem_map.mp hn
    exact (clean_tableName_iff u).mpr (hs.clean u hu)
  · rw [List.mem_singleton.mp hn]
    decide +kernel

theorem Known.clearTableData_apply {s : DownloadInfoStore} (hs : s.Known) {name : String} {t : Table}
    (h : s.clearTableData.1.db name = some t) : t.rows = [] := by
  have happly := clearTables_apply hs.clean_names s.db name
  rw [show (clearTables s.db s.getAllTableName).1 name = some t from h] at happly
  split at happly
  · obtain ⟨t', -, rfl⟩ := Option.map_eq_some_iff.mp happly.symm
    rfl
  · rename_i hname
    by_contra hrows
    exact hname (hs.rows name t happly.symm hrows)

/-! ## The other calls write to one table -/

section

variable {db : Db} {userId name : String}

theorem userCall_of_ne {c : UserCall} (h : '\'' ∉ c.info.userId.toList)
    (hname : name ≠ fold kUserInfoTableName) : c.step db name = db name := by
  cases c with
  | addUserInfo i =>
    cases hdb : db (fold kUserInfoTableName) <;>
      simp [UserCall.step, addUserInfo, makeSureUserInfoTableExist, hdb, Db.modify, hname]
  | updateUserInfo i =>
    exact execute_updateRow_of_ne (by decide +kernel) (userSets_ne_nil _) hname (lex_userUpdate h i.statisticsInfo)

variable (hclean : Clean userId) (hname : name ≠ fold (tableName userId))
include hclean hname

theorem addTaskInfo_of_ne (i : TaskInfo) :
    addTaskInfo (makeSureTaskInfoTableExist db userId) userId i name = db name := by
  have hprinted : cString (tableName userId) = tableName userId :=
    (cString_eq_iff _).mpr ((clean_tableName_iff userId).mpr hclean).2
  cases hdb : db (fold (tableName userId)) <;>
    simp [addTaskInfo, makeSureTaskInfoTableExist, hdb, lex_insertText hclean.1, hprinted, Db.modify, hname]

theorem updateTaskInfo_of_ne {i : TaskInfo} (hfile : Clean i.fileName) (hid : Clean i.task.param.id) :
    updateTaskInfo db userId i name = db name := by
  have hlex := ((lex_updateText_iff userId i).mpr ⟨hclean, hfile, hid⟩).trans (updateTokens_eq userId i)
  have hne : updateSets i ≠ [] := List.cons_ne_nil _ _
  have hother : (execute db (updateText userId i)).1 name = db name :=
    execute_updateRow_of_ne (by decide +kernel) hne hname hlex
  cases hdb : db (fold (tableName userId)) <;> simp [updateTaskInfo, executeFor, hdb, hother]

theorem deleteTaskInfo_of_ne {taskId : String} (hid : Clean taskId) :
    deleteTaskInfo db userId taskId name = db name := by
  have hlex := ((lex_deleteText_iff userId taskId).mpr ⟨hclean, hid⟩).trans (deleteTokens_eq userId taskId)
  have hother : (execute db (deleteText userId taskId)).1 name = db name :=
    execute_deleteRow_of_ne (by decide +kernel) hname hlex
  cases hdb : db (fold (tableName userId)) <;> simp [deleteTaskInfo, executeFor, hdb, hother]

end

theorem fold_tableName_ne (userId : String) : fold kUserInfoTableName ≠ fold (tableName userId) := by
  intro h
  have hlength := congrArg (fun s => s.toList.length) h
  have hkeep (s : String) : (fold s).toList.length = s.toList.length := by simp [fold]
  have htask : kTaskInfo.toList.length = 10 := by decide +kernel
  have husers : kUserInfoTableName.toList.length = 9 := by decide +kernel
  simp only [hkeep, tableName, String.toList_append, List.length_append, htask, husers] at hlength
  omega

/-! ## The users that are known -/

theorem recorded_eq {db : Db} {us : List UserInfo} (h : Holds db us) : recorded db = us.map UserInfo.userId := by
  rcases h.table with hdb | ⟨hdb, rfl⟩
  · simp [recorded, hdb, userTable, readUserRow_userRow]
  · simp [recorded, hdb]

/-- A record that is not inserted is there, so that its user is known. -/
theorem Known.mem_of_addUserInfo {s : DownloadInfoStore} (hs : s.Known) {i : UserInfo}
    (hi : (UserCall.addUserInfo i).Ok) : i.userId ∈ s.users ++ added s.db (.user (.addUserInfo i)) := by
  obtain ⟨us, hus, hknown⟩ := hs.recorded
  have hexist : makeSureUserInfoTableExist s.db (fold kUserInfoTableName) = some (userTable (us.map userRow)) := by
    rcases hus.table with hdb | ⟨hdb, rfl⟩ <;> simp [makeSureUserInfoTableExist, hdb]
  have hinsert := insert_userValues (i := i) hi.download hi.upload us
  rw [added, hexist, Option.bind_some]
  cases h : (userTable (us.map userRow)).insert (userValues i) with
  | some t => exact List.mem_append_right _ (List.mem_singleton_self _)
  | none =>
    rw [h, Option.getD_none] at hinsert
    have hrows : us.map userRow = (Keyed.add UserInfo.userId us i).map userRow := congrArg Table.rows hinsert
    have hfind : (Keyed.find UserInfo.userId (Keyed.add UserInfo.userId us i) i.userId).isSome := by
      rw [Keyed.find_add_self, Option.isSome_some]
    obtain ⟨u, hu, hid⟩ := Keyed.find_isSome_iff.mp hfind
    obtain ⟨u', hu', hrow⟩ := List.mem_map.mp (hrows ▸ List.mem_map_of_mem hu)
    have hsame := congrArg readUserRow hrow
    rw [readUserRow_userRow, readUserRow_userRow] at hsame
    exact List.mem_append_left _ (hid ▸ hsame ▸ hknown u' hu')

theorem Known.of_announced {s : DownloadInfoStore} (hs : s.Known) {c : Call} (hc : s.Ok c) {u : String}
    (hu : u ∈ announced s.db c) : Clean u ∧ u ∈ s.users ++ added s.db c := by
  unfold announced at hu
  split at hu
  · rw [List.mem_singleton.mp hu]
    exact ⟨hc.2, hs.mem_of_addUserInfo hc.1⟩
  · obtain ⟨us, hus, hknown⟩ := hs.recorded
    obtain ⟨i, hi, rfl⟩ := List.mem_map.mp (recorded_eq hus ▸ hu)
    exact ⟨hs.clean _ (hknown i hi), List.mem_append_right _ hu⟩
  · exact absurd hu List.not_mem_nil

theorem announced_of_added {db : Db} {c : Call} {u : String} (hu : u ∈ added db c) : u ∈ announced db c := by
  unfold added at hu
  split at hu
  · split at hu
    · exact hu
    · exact absurd hu List.not_mem_nil
  · exact hu
  · exact absurd hu List.not_mem_nil

/-! ## Whole runs -/

theorem Known.step_of_ne {s : DownloadInfoStore} (hs : s.Known) {c : Call} (hc : s.Ok c)
    (hclear : c ≠ .clearTableData) {name : String} (huser : name ≠ fold kUserInfoTableName ∨ ∀ d, c ≠ .user d)
    (htask : ∀ u ∈ s.users, name ≠ fold (tableName u)) : (s.step c).db name = s.db name := by
  have hclean {u : String} (hu : u ∈ s.managers) : Clean u := hs.clean u (hs.managers u hu)
  have hne {u : String} (hu : u ∈ s.managers) : name ≠ fold (tableName u) := htask u (hs.managers u hu)
  cases c with
  | user d => exact userCall_of_ne hc.2.1 (huser.resolve_right fun h => h d rfl)
  | getAllUsersInfo => rfl
  | addTaskInfo u i => exact addTaskInfo_of_ne (hclean hc) (hne hc) i
  | updateTaskInfo u i => exact updateTaskInfo_of_ne (hclean hc.1) (hne hc.1) hc.2.1 hc.2.2
  | deleteTaskInfo u id => exact deleteTaskInfo_of_ne (hclean hc.1) (hne hc.1) hc.2
  | clearTableData => exact absurd rfl hclear

theorem Known.recorded_step {s : DownloadInfoStore} (hs : s.Known) {c : Call} (hc : s.Ok c) :
    ∃ us, Holds (s.step c).db us ∧ ∀ u ∈ us, u.userId ∈ (s.step c).users := by
  obtain ⟨us, hus, hknown⟩ := hs.recorded
  have hmem : ∀ u ∈ us, u.userId ∈ (s.step c).users := fun u hu => List.mem_append_left _ (hknown u hu)
  cases c with
  | user d =>
    refine ⟨d.apply us, holds_step hc.1 hus, fun u hu => ?_⟩
    cases d with
    | addUserInfo i =>
      rcases Keyed.mem_add hu with hu | rfl
      · exact hmem u hu
      · exact hs.mem_of_addUserInfo hc.1
    | updateUserInfo i =>
      obtain ⟨x, hx, rfl | ⟨-, rfl⟩⟩ := Keyed.mem_modify hu
      · exact hmem _ hx
      · exact UserInfo.userId_updated i.statisticsInfo x ▸ hmem x hx
  | clearTableData =>
    have happly := clearTables_apply hs.clean_names s.db (fold kUserInfoTableName)
    rw [if_pos (by simp [getAllTableName])] at happly
    refine ⟨[], ⟨?_, List.nodup_nil, nofun⟩, nofun⟩
    rcases hus.table with hdb | ⟨hdb, -⟩
    · exact .inl (happly.trans (by rw [hdb]; rfl))
    · exact .inr ⟨happly.trans (by rw [hdb]; rfl), rfl⟩
  | _ =>
    have hsame := hs.step_of_ne hc nofun (.inr nofun) fun u _ => fold_tableName_ne u
    exact ⟨us, ⟨hsame ▸ hus.table, hus.nodup, hus.bounded⟩, hmem⟩

theorem Known.step {s : DownloadInfoStore} (hs : s.Known) {c : Call} (hc : s.Ok c) : (s.step c).Known := by
  refine ⟨fun u hu => ?_, fun name t ht hrows => ?_, fun u hu => ?_, hs.recorded_step hc⟩
  · exact (List.mem_append.mp hu).elim (hs.clean u) fun hu => (hs.of_announced hc (announced_of_added hu)).1
  · by_cases hclear : c = .clearTableData
    · subst hclear
      exact absurd (hs.clearTableData_apply ht) hrows
    have hname : name ∈ s.getAllTableName.map fold := by
      by_contra hname
      have hsame : (s.step c).db name = s.db name := by
        refine hs.step_of_ne hc hclear (.inl ?_) fun u hu => ?_ <;> rintro rfl <;> refine hname ?_
        · simp [getAllTableName]
        · exact List.mem_map_of_mem (List.mem_append_left _ (List.mem_map_of_mem hu))
      exact hname (hs.rows name t (hsame ▸ ht) hrows)
    simp only [getAllTableName, DownloadInfoStore.step] at hname ⊢
    grind
  · rcases List.mem_append.mp hu with hu | hu
    · exact List.mem_append_left _ (hs.managers u hu)
    · exact (hs.of_announced hc hu).2

/-- Whatever was called before, no row is left after `ClearTableData`. -/
theorem run_clearTableData {s : DownloadInfoStore} (hs : s.Known) {calls : List Call}
    (hcalls : Along step Ok s calls) {name : String} {t : Table}
    (ht : (run step s calls).clearTableData.1.db name = some t) : t.rows = [] :=
  (hcalls.run (fun _ _ hs hc => hs.step hc) hs).clearTableData_apply ht

theorem run_clearTableData_one :
    let s := run step { db := fun _ => none }
      [.user (.addUserInfo ⟨"u", ⟨1, 2⟩⟩), .addTaskInfo "u" (linkInfo "a" "f")]
    (getTaskInfoList s.db "u").length = 1 ∧
      ∀ name t, s.clearTableData.1.db name = some t → t.rows = [] := by
  have hempty : Known { db := fun _ => none } :=
    ⟨by simp, by simp, by simp, [], ⟨.inr ⟨rfl, rfl⟩, by simp, by simp⟩, by simp⟩
  refine ⟨by decide +kernel, fun name t ht => run_clearTableData hempty ?_ ht⟩
  exact ⟨⟨⟨by decide +kernel, by decide, by decide⟩, by decide +kernel⟩, List.mem_singleton_self _, trivial⟩

end DownloadInfoStore

end Nas.Download
