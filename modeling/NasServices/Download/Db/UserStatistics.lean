import NasServices.Download.Db.RoundTrip
import NasServices.Lib.Keyed
import NasServices.Lib.Run

/-!
# The counters of the users

`AddUserInfo` inserts a row with the accumulated download and upload of a user,
`UpdateUserInfo` is meant to write them again, and `GetAllUsersInfo` reads
the rows back by position. The text of the update assigns `accumulate_download`
twice and `accumulate_upload` never, so that the column of the download takes the
upload that was given (`updateUserInfo_eq`).

The store refines a list of users with distinct ids (`Holds`), on which the two
calls are `Keyed.add` and a `Keyed.modify` of one counter (`UserCall.apply`). What
`GetAllUsersInfo` gives for one user then depends on the first insert
of that user and on the last update of its row (`run_statistics`).
-/

namespace Nas.Download.DownloadInfoStore

open Lib Lib.Sql

structure DownloadStatisticsInfo where
  accumulateDownload : UInt64 := 0
  accumulateUpload : UInt64 := 0
  deriving DecidableEq, Repr

structure UserInfo where
  userId : String
  statisticsInfo : DownloadStatisticsInfo
  deriving DecidableEq, Repr

def kUserInfoTableName : String := "user_info"

def userColumns : List Column :=
  [⟨"user_id", .text⟩, ⟨"accumulate_download", .integer⟩, ⟨"accumulate_upload", .integer⟩]

def userTable (rows : List (List Value)) : Table := { columns := userColumns, key := 0, rows }

def makeSureUserInfoTableExist (db : Db) : Db :=
  match db (fold kUserInfoTableName) with
  | some _ => db
  | none => Function.update db (fold kUserInfoTableName) (some (userTable []))

def boundInt64 (n : UInt64) : Value := .int n.toBitVec.toInt

def userValues (i : UserInfo) : List (String × Value) :=
  [("user_id", .text i.userId), ("accumulate_download", boundInt64 i.statisticsInfo.accumulateDownload),
    ("accumulate_upload", boundInt64 i.statisticsInfo.accumulateUpload)]

def addUserInfo (db : Db) (i : UserInfo) : Db :=
  (makeSureUserInfoTableExist db).modify kUserInfoTableName fun t => (t.insert (userValues i)).getD t

def userUpdatePieces (id : List Char) (s : DownloadStatisticsInfo) : List (List Char × List Char) :=
  [("UPDATE ".toList, kUserInfoTableName.toList),
    (" SET accumulate_download=".toList, intText s.accumulateDownload.toNat),
    (", accumulate_download=".toList, intText s.accumulateUpload.toNat),
    (" WHERE user_id=".toList, id)]

def updateUserInfo (db : Db) (i : UserInfo) : Db :=
  (execute db (splice (userUpdatePieces (cStr i.userId) i.statisticsInfo) [])).1

def readUserRow (row : List Value) : UserInfo :=
  let column (k : Nat) : Value := (row[k]?).getD .null
  { userId := (column 0).toText
    statisticsInfo :=
      { accumulateDownload := .ofInt (column 1).toInt, accumulateUpload := .ofInt (column 2).toInt } }

def getAllUsersInfo (db : Db) : String → Option DownloadStatisticsInfo :=
  match db (fold kUserInfoTableName) with
  | none => fun _ => none
  | some t => (t.rows.map readUserRow).foldl
      (fun list i => Function.update list i.userId (some i.statisticsInfo)) fun _ => none

inductive UserCall
  | addUserInfo (i : UserInfo)
  | updateUserInfo (i : UserInfo)
  deriving DecidableEq, Repr

namespace UserCall

def info : UserCall → UserInfo
  | addUserInfo i | updateUserInfo i => i

def step (db : Db) : UserCall → Db
  | addUserInfo i => DownloadInfoStore.addUserInfo db i
  | updateUserInfo i => DownloadInfoStore.updateUserInfo db i

structure Ok (c : UserCall) : Prop where
  quoteFree : '\'' ∉ c.info.userId.toList
  download : c.info.statisticsInfo.accumulateDownload.toNat < 2 ^ 63
  upload : c.info.statisticsInfo.accumulateUpload.toNat < 2 ^ 63

end UserCall

/-! ## The update -/

def DownloadStatisticsInfo.updated (s new : DownloadStatisticsInfo) : DownloadStatisticsInfo :=
  { s with accumulateDownload := new.accumulateUpload }

def UserInfo.updated (new : DownloadStatisticsInfo) (u : UserInfo) : UserInfo :=
  { u with statisticsInfo := u.statisticsInfo.updated new }

@[simp] theorem UserInfo.userId_updated (new : DownloadStatisticsInfo) (u : UserInfo) :
    (u.updated new).userId = u.userId := rfl

def userRow (i : UserInfo) : List Value :=
  [.text i.userId, .int i.statisticsInfo.accumulateDownload.toNat,
    .int i.statisticsInfo.accumulateUpload.toNat]

def userSets (s : DownloadStatisticsInfo) : List (String × String) :=
  [("accumulate_download", String.ofList (intText s.accumulateDownload.toNat)),
    ("accumulate_download", String.ofList (intText s.accumulateUpload.toNat))]

theorem userSets_ne_nil (s : DownloadStatisticsInfo) : userSets s ≠ [] := List.cons_ne_nil _ _

theorem lex_userUpdate {id : String} (h : '\'' ∉ id.toList) (s : DownloadStatisticsInfo) :
    lex (splice (userUpdatePieces (cStr id) s) []) =
      .word "UPDATE" :: .text kUserInfoTableName :: .word "SET" ::
        (setTokens (userSets s) ++ whereTokens "user_id" (cString id)) := by
  have hplain : ∀ p ∈ userUpdatePieces (cStr id) s, plainSql p := by
    simp only [userUpdatePieces, plainSql_iff, List.forall_mem_cons]
    decide +kernel
  have hpieces : Pieces (userUpdatePieces (cStr id) s) [] :=
    ⟨fun p hp c hc => ((hplain p hp).2 c hc).1, fun p hp => (hplain p hp).1, by simp⟩
  have hint (n : Int) : '\'' ∉ intText n := (notMem_of_isNumeral (intText_isNumeral n)).1
  have hid : '\'' ∉ cStr id := fun hq => h ((List.takeWhile_sublist _).subset hq)
  have hname : '\'' ∉ kUserInfoTableName.toList := by decide +kernel
  have hlex : (userUpdatePieces (cStr id) s).map (fun p => lex p.1) =
      [[.word "UPDATE"], [.word "SET", .word "accumulate_download", .symbol '='],
        [.symbol ',', .word "accumulate_download", .symbol '='],
        [.word "WHERE", .word "user_id", .symbol '=']] := by
    simp only [userUpdatePieces, List.map_cons, List.map_nil]
    decide +kernel
  rw [(lex_splice_iff hpieces).mpr (by simp [userUpdatePieces, hint, hid, hname]), spliceTokens_eq, hlex]
  simp [userUpdatePieces, userSets, setTokens, whereTokens, cString]

/-- Both assignments are to the column of the download, and the second one stays. -/
theorem assign_userSets (rows : List (List Value)) (s : DownloadStatisticsInfo) (row : List Value) :
    (userTable rows).assign (assignments (userSets s)) row = row.set 1 (.int s.accumulateUpload.toNat) := by
  have hcells : (userTable rows).assign (assignments (userSets s)) row =
      [(1, .int s.accumulateDownload.toNat), (1, .int s.accumulateUpload.toNat)].foldl
        (fun r (c : Nat × Value) => r.set c.1 c.2) row := by
    refine Table.assign_assignments ?_ row
    exact .cons ⟨rfl, store_intText _⟩ <| .cons ⟨rfl, store_intText _⟩ .nil
  rw [hcells]
  simp

theorem updateUserInfo_eq {db : Db} {us : List UserInfo} {i : UserInfo} (h : '\'' ∉ i.userId.toList)
    (hdb : db (fold kUserInfoTableName) = some (userTable (us.map userRow))) :
    updateUserInfo db i (fold kUserInfoTableName) = some (userTable
      ((Keyed.modify UserInfo.userId us (cString i.userId) (.updated i.statisticsInfo)).map userRow)) := by
  have hkey : parseNumber "user_id".toList = none := by decide +kernel
  have hsets : ∀ s ∈ userSets i.statisticsInfo,
      ((userTable (us.map userRow)).index s.1).isSome = true := by
    have hindex : (userTable (us.map userRow)).index "accumulate_download" = some 1 := rfl
    simp [userSets, hindex]
  have hexec := execute_updateRow hdb rfl rfl hkey (userSets_ne_nil _) hsets
    (lex_userUpdate h i.statisticsInfo)
  have hrows := congrFun (congrArg Prod.fst hexec) (fold kUserInfoTableName)
  simp only [Function.update_self] at hrows
  refine hrows.trans (congrArg (fun rows => some (userTable rows)) ?_)
  simp only [assign_userSets]
  rw [Keyed.modify, List.map_map, userTable, List.map_map]
  refine List.map_congr_left fun u _ => ?_
  by_cases hu : u.userId = cString i.userId
  · simp [userRow, hu, UserInfo.updated, DownloadStatisticsInfo.updated]
  · simp [userRow, hu]

theorem updateUserInfo_of_none {db : Db} {i : UserInfo} (h : '\'' ∉ i.userId.toList)
    (hdb : db (fold kUserInfoTableName) = none) : updateUserInfo db i = db := by
  have hlex := lex_userUpdate h i.statisticsInfo
  have hkey : parseNumber "user_id".toList = none := by decide +kernel
  have hparse := parseStatement_update hkey (userSets_ne_nil i.statisticsInfo) kUserInfoTableName
    (cString i.userId)
  have hsemi : Token.symbol ';' ∉ lex (splice (userUpdatePieces (cStr i.userId) i.statisticsInfo) []) := by
    simp [hlex, semicolon_notMem_setTokens, whereTokens]
  rw [updateUserInfo, execute, statements_eq_single (by simp [hlex]) hsemi, hlex]
  simp only [executeAll, hparse, Option.bind_some, Statement.exec, hdb]

/-! ## The list of users -/

structure Holds (db : Db) (us : List UserInfo) : Prop where
  table : db (fold kUserInfoTableName) = some (userTable (us.map userRow)) ∨
    (db (fold kUserInfoTableName) = none ∧ us = [])
  nodup : (us.map UserInfo.userId).Nodup
  bounded : ∀ u ∈ us, u.statisticsInfo.accumulateDownload.toNat < 2 ^ 63 ∧
    u.statisticsInfo.accumulateUpload.toNat < 2 ^ 63

def UserCall.apply (us : List UserInfo) : UserCall → List UserInfo
  | addUserInfo i => Keyed.add UserInfo.userId us i
  | updateUserInfo i => Keyed.modify UserInfo.userId us (cString i.userId) (.updated i.statisticsInfo)

theorem boundInt64_eq {n : UInt64} (h : n.toNat < 2 ^ 63) : boundInt64 n = .int n.toNat := by
  rw [boundInt64, BitVec.toInt_eq_toNat_of_lt (by rw [UInt64.toNat_toBitVec]; omega)]
  rfl

theorem insert_userValues {i : UserInfo} (hd : i.statisticsInfo.accumulateDownload.toNat < 2 ^ 63)
    (hu : i.statisticsInfo.accumulateUpload.toNat < 2 ^ 63) (us : List UserInfo) :
    ((userTable (us.map userRow)).insert (userValues i)).getD (userTable (us.map userRow)) =
      userTable ((Keyed.add UserInfo.userId us i).map userRow) := by
  have hrow : (userColumns.map fun c => (((userValues i).lookup c.name).getD .null).store c.affinity) =
      userRow i := by
    rw [userValues, boundInt64_eq hd, boundInt64_eq hu]
    rfl
  have hany : ((us.map userRow).any fun r => r[0]? == (userRow i)[0]?) =
      (Keyed.find UserInfo.userId us i.userId).isSome := by
    rw [Bool.eq_iff_iff, Keyed.find_isSome_iff]
    simp [userRow]
  simp only [Table.insert, userTable, hrow, hany, Keyed.add]
  split <;> simp

theorem holds_step {db : Db} {us : List UserInfo} {c : UserCall} (hc : c.Ok) (h : Holds db us) :
    Holds (c.step db) (c.apply us) := by
  cases c with
  | addUserInfo i =>
    have hexist : makeSureUserInfoTableExist db (fold kUserInfoTableName) =
        some (userTable (us.map userRow)) := by
      rcases h.table with hdb | ⟨hdb, rfl⟩
      · simp only [makeSureUserInfoTableExist, hdb]
      · simp [makeSureUserInfoTableExist, hdb]
    refine ⟨.inl ?_, Keyed.nodup_add h.nodup i, fun u hu => ?_⟩
    · have hinsert := insert_userValues (i := i) hc.download hc.upload us
      rw [UserCall.step, addUserInfo, Db.modify, Function.update_self, hexist, Option.map_some, hinsert]
      rfl
    · rcases Keyed.mem_add hu with hu | rfl
      · exact h.bounded u hu
      · exact ⟨hc.download, hc.upload⟩
  | updateUserInfo i =>
    have hid : '\'' ∉ i.userId.toList := hc.quoteFree
    refine ⟨?_, Keyed.nodup_modify (UserInfo.userId_updated _) h.nodup _, fun u hu => ?_⟩
    · rcases h.table with hdb | ⟨hdb, rfl⟩
      · exact .inl (updateUserInfo_eq hid hdb)
      · refine .inr ⟨?_, rfl⟩
        rw [UserCall.step, updateUserInfo_of_none hid hdb, hdb]
    · obtain ⟨x, hx, rfl | ⟨-, rfl⟩⟩ := Keyed.mem_modify hu
      · exact h.bounded _ hx
      · exact ⟨hc.upload, (h.bounded x hx).2⟩

theorem holds_run {calls : List UserCall} (hcalls : ∀ c ∈ calls, c.Ok) {db : Db} {us : List UserInfo}
    (h : Holds db us) : Holds (run UserCall.step db calls) (run UserCall.apply us calls) := by
  induction calls generalizing db us with
  | nil => exact h
  | cons c calls ih =>
    rw [List.forall_mem_cons] at hcalls
    exact ih hcalls.2 (holds_step hcalls.1 h)

theorem ofInt_toNat (n : UInt64) : UInt64.ofInt n.toNat = n := by
  have hmod : ((n.toNat : Int) % 2 ^ 64).toNat = n.toNat := by
    have := n.toNat_lt
    omega
  rw [UInt64.ofInt, hmod, UInt64.ofNat_toNat]

theorem readUserRow_userRow (u : UserInfo) : readUserRow (userRow u) = u := by
  simp [readUserRow, userRow, Value.toText, Value.toInt, ofInt_toNat]

theorem Holds.getAllUsersInfo_eq {db : Db} {us : List UserInfo} (h : Holds db us) (id : String) :
    getAllUsersInfo db id = (Keyed.find UserInfo.userId us id).map UserInfo.statisticsInfo := by
  rcases h.table with hdb | ⟨hdb, rfl⟩
  · have hread : (us.map userRow).map readUserRow = us := by
      rw [List.map_map, (funext readUserRow_userRow : readUserRow ∘ userRow = fun u => u), List.map_id']
    simp only [getAllUsersInfo, hdb, userTable, hread]
    rw [Keyed.foldl_update h.nodup, Option.or_none]
  · simp [getAllUsersInfo, hdb, Keyed.find]

/-! ## One user -/

def UserCall.counters (id : String) (s : Option DownloadStatisticsInfo) :
    UserCall → Option DownloadStatisticsInfo
  | addUserInfo i => if i.userId = id then some (s.getD i.statisticsInfo) else s
  | updateUserInfo i => if cString i.userId = id then s.map (·.updated i.statisticsInfo) else s

theorem find_apply (us : List UserInfo) (c : UserCall) (id : String) :
    (Keyed.find UserInfo.userId (c.apply us) id).map UserInfo.statisticsInfo =
      c.counters id ((Keyed.find UserInfo.userId us id).map UserInfo.statisticsInfo) := by
  cases c with
  | addUserInfo i =>
    by_cases hid : i.userId = id
    · subst hid
      rw [UserCall.apply, Keyed.find_add_self, UserCall.counters, if_pos rfl]
      cases Keyed.find UserInfo.userId us i.userId <;> rfl
    · rw [UserCall.apply, Keyed.find_add_ne us (Ne.symm hid), UserCall.counters, if_neg hid]
  | updateUserInfo i =>
    have hkey := UserInfo.userId_updated i.statisticsInfo
    by_cases hid : cString i.userId = id
    · subst hid
      rw [UserCall.apply, Keyed.find_modify_self hkey, UserCall.counters, if_pos rfl]
      cases Keyed.find UserInfo.userId us (cString i.userId) <;> rfl
    · rw [UserCall.apply, Keyed.find_modify_ne hkey us (Ne.symm hid), UserCall.counters, if_neg hid]

theorem find_run (us : List UserInfo) (calls : List UserCall) (id : String) :
    (Keyed.find UserInfo.userId (run UserCall.apply us calls) id).map UserInfo.statisticsInfo =
      run (UserCall.counters id) ((Keyed.find UserInfo.userId us id).map UserInfo.statisticsInfo) calls := by
  induction calls generalizing us with
  | nil => rfl
  | cons c calls ih => rw [run_cons, run_cons, ih, find_apply]

def firstAdd (id : String) : List UserCall → Option (DownloadStatisticsInfo × List UserCall)
  | [] => none
  | .addUserInfo i :: calls => if i.userId = id then some (i.statisticsInfo, calls) else firstAdd id calls
  | .updateUserInfo _ :: calls => firstAdd id calls

def lastUpload (id : String) : List UserCall → Option UInt64
  | [] => none
  | .addUserInfo _ :: calls => lastUpload id calls
  | .updateUserInfo i :: calls => (lastUpload id calls).or
      (if cString i.userId = id then some i.statisticsInfo.accumulateUpload else none)

/-- Once a user is inserted, its upload stays and its download is the upload given last. -/
theorem run_counters_some (id : String) (s : DownloadStatisticsInfo) (calls : List UserCall) :
    run (UserCall.counters id) (some s) calls =
      some { s with accumulateDownload := (lastUpload id calls).getD s.accumulateDownload } := by
  induction calls generalizing s with
  | nil => rfl
  | cons c calls ih =>
    rw [run_cons]
    cases c with
    | addUserInfo i =>
      have hsame : UserCall.counters id (some s) (.addUserInfo i) = some s := by
        simp [UserCall.counters]
      rw [hsame, ih, lastUpload]
    | updateUserInfo i =>
      by_cases hid : cString i.userId = id
      · have hstep : UserCall.counters id (some s) (.updateUserInfo i) = some (s.updated i.statisticsInfo) := by
          simp [UserCall.counters, hid]
        rw [hstep, ih, lastUpload, if_pos hid]
        cases lastUpload id calls <;> simp [DownloadStatisticsInfo.updated]
      · have hstep : UserCall.counters id (some s) (.updateUserInfo i) = some s := by
          simp [UserCall.counters, hid]
        rw [hstep, ih, lastUpload, if_neg hid, Option.or_none]

theorem run_counters (id : String) (calls : List UserCall) :
    run (UserCall.counters id) none calls = (firstAdd id calls).map fun p =>
      { p.1 with accumulateDownload := (lastUpload id p.2).getD p.1.accumulateDownload } := by
  induction calls with
  | nil => rfl
  | cons c calls ih =>
    rw [run_cons]
    cases c with
    | addUserInfo i =>
      by_cases hid : i.userId = id
      · rw [firstAdd, if_pos hid, UserCall.counters, if_pos hid]
        exact run_counters_some id _ calls
      · rw [firstAdd, if_neg hid, UserCall.counters, if_neg hid]
        exact ih
    | updateUserInfo i =>
      have hnone : UserCall.counters id none (.updateUserInfo i) = none := by simp [UserCall.counters]
      rw [hnone, firstAdd, ih]

theorem run_statistics {db : Db} (hdb : db (fold kUserInfoTableName) = none) {calls : List UserCall}
    (hcalls : ∀ c ∈ calls, c.Ok) (id : String) :
    getAllUsersInfo (run UserCall.step db calls) id = (firstAdd id calls).map fun p =>
      { p.1 with accumulateDownload := (lastUpload id p.2).getD p.1.accumulateDownload } := by
  have hempty : Holds db [] := ⟨.inr ⟨hdb, rfl⟩, List.nodup_nil, by simp⟩
  rw [(holds_run hcalls hempty).getAllUsersInfo_eq, find_run, ← run_counters]
  rfl

def lastGiven (id : String) (calls : List UserCall) : Option DownloadStatisticsInfo :=
  ((calls.filter (·.info.userId = id)).getLast?).map (·.info.statisticsInfo)

theorem firstAdd_eq_none {id : String} {calls : List UserCall} (h : lastGiven id calls = none) :
    firstAdd id calls = none := by
  have hnone : ∀ c ∈ calls, c.info.userId ≠ id := by
    simpa [lastGiven, List.filter_eq_nil_iff] using h
  clear h
  induction calls with
  | nil => rfl
  | cons c calls ih =>
    rw [List.forall_mem_cons] at hnone
    cases c with
    | addUserInfo i =>
      have hne : i.userId ≠ id := hnone.1
      rw [firstAdd, if_neg hne]
      exact ih hnone.2
    | updateUserInfo i => exact ih hnone.2

/-- A user is read back with the counters of its last call if and only if it was inserted, the
insert had this upload, and the upload given by the last update of its row, or without one the
download of the insert, is this download. -/
theorem getAllUsersInfo_lastGiven_iff {db : Db} (hdb : db (fold kUserInfoTableName) = none)
    {calls : List UserCall} (hcalls : ∀ c ∈ calls, c.Ok) (id : String) :
    getAllUsersInfo (run UserCall.step db calls) id = lastGiven id calls ↔
      ∀ s, lastGiven id calls = some s → ∃ first after, firstAdd id calls = some (first, after) ∧
        first.accumulateUpload = s.accumulateUpload ∧
        (lastUpload id after).getD first.accumulateDownload = s.accumulateDownload := by
  rw [run_statistics hdb hcalls]
  cases hlast : lastGiven id calls with
  | none => simp [firstAdd_eq_none hlast]
  | some s =>
    rw [Option.map_eq_some_iff]
    constructor
    · rintro ⟨⟨first, after⟩, hfirst, rfl⟩ _ ⟨⟩
      exact ⟨first, after, hfirst, rfl, rfl⟩
    · intro h
      obtain ⟨first, after, hfirst, hupload, hdownload⟩ := h s rfl
      refine ⟨(first, after), hfirst, ?_⟩
      show DownloadStatisticsInfo.mk _ _ = s
      rw [hupload, hdownload]

/-- The counters of an insert without a later call are read back. -/
theorem getAllUsersInfo_inserted :
    let calls := [UserCall.addUserInfo ⟨"u", ⟨1, 2⟩⟩, .addUserInfo ⟨"v", ⟨3, 4⟩⟩]
    getAllUsersInfo (run UserCall.step (fun _ => none) calls) "u" = some ⟨1, 2⟩ := by
  have hcalls : ∀ c ∈ [UserCall.addUserInfo ⟨"u", ⟨1, 2⟩⟩, .addUserInfo ⟨"v", ⟨3, 4⟩⟩], c.Ok := by
    simp only [List.forall_mem_cons]
    exact ⟨⟨by decide +kernel, by decide, by decide⟩, ⟨by decide +kernel, by decide, by decide⟩, by simp⟩
  refine (getAllUsersInfo_lastGiven_iff rfl hcalls "u").mpr fun s hs => ?_
  obtain rfl : ⟨1, 2⟩ = s := Option.some.inj hs
  exact ⟨⟨1, 2⟩, [.addUserInfo ⟨"v", ⟨3, 4⟩⟩], by decide +kernel, rfl, by decide +kernel⟩

/-- An update with other counters: the upload is read as the download, and the old upload is kept. -/
theorem updated_upload_read_as_download :
    let calls := [UserCall.addUserInfo ⟨"u", ⟨1, 2⟩⟩, .updateUserInfo ⟨"u", ⟨10, 20⟩⟩]
    lastGiven "u" calls = some ⟨10, 20⟩ ∧
      getAllUsersInfo (run UserCall.step (fun _ => none) calls) "u" = some ⟨20, 2⟩ := by
  decide +kernel

end Nas.Download.DownloadInfoStore
