import Mathlib.Data.List.Induction
import NasServices.Download.Db.Quoting
import NasServices.Download.UserSelfMgr.Request

/-!
# Writing a task and reading it back

A row is inserted by `AddTaskInfo` and then written by any number of
`UpdateTaskInfo`. What `GetTaskInfoListFromSQLStatement` reads is the task as it
was written last (`survives_iff`), up to three differences: strings end
at a NUL, the progress is rounded to six digits before its fraction is
dropped, and the category is the one that the status determines.
-/

namespace Nas.Download.DownloadInfoStore

open Lib Lib.Sql

variable {db : Db} {rows : List (List Value)} {userId : String} {i u : TaskInfo}

/-! ## Cells -/

def keyCells (i : TaskInfo) : List Value :=
  [.text i.task.param.id, .text i.task.param.url, .text i.task.param.savePath,
    .int i.task.param.type.code]

def cells (i : TaskInfo) (progress download upload : ℚ) : List Value :=
  [.text i.fileName, .int i.fileSize, .real progress, .real download, .real upload,
    .int i.task.taskStatus.code, .int i.task.createTime, .int i.task.finishTime,
    .int i.task.deleteTime, .int i.task.errCode.code, .int (boolCode i.task.isStarted)]

def insertedCells (i : TaskInfo) : List Value :=
  cells i (truncate i.task.totalProgress) (truncate i.downloadSpeed) (truncate i.uploadSpeed)

def updatedCells (i : TaskInfo) : List Value :=
  cells i (roundTo 6 i.task.totalProgress) (roundTo 6 i.downloadSpeed) (roundTo 6 i.uploadSpeed)

theorem written_append {rest : List Value} (h : rest.length = 11) :
    written u (keyCells i ++ rest) = keyCells i ++ updatedCells u := by
  match rest, h with
  | [_, _, _, _, _, _, _, _, _, _, _], _ => rfl

theorem isRow_append (id : String) (rest : List Value) :
    isRow id (keyCells i ++ rest) = (i.task.param.id == id) := by
  simp [isRow, keyCells]

def reloaded (i : TaskInfo) (progress download upload : ℚ) : TaskInfo :=
  { task :=
      { param :=
          { id := i.task.param.id, url := i.task.param.url, savePath := i.task.param.savePath,
            fileName := i.fileName, type := i.task.param.type, isFromDbResume := true,
            torrent := if i.task.param.type.isBt then some {} else none }
        taskStatus := i.task.taskStatus
        taskCategory := TaskBase.categoryOf i.task.taskStatus .kDownloadingTask
        totalProgress := truncate progress, createTime := i.task.createTime
        finishTime := i.task.finishTime, deleteTime := i.task.deleteTime
        errCode := i.task.errCode, isStarted := i.task.isStarted }
    fileName := i.fileName, fileSize := i.fileSize
    downloadSpeed := truncate download, uploadSpeed := truncate upload }

theorem readRow_cells (hkey : keyCells u = keyCells i) (progress download upload : ℚ) :
    readRow (keyCells i ++ cells u progress download upload) =
      some (reloaded u progress download upload) := by
  rw [← hkey]
  cases hb : u.task.isStarted <;>
    simp [readRow, keyCells, cells, reloaded, Value.toInt, Value.toText, boolCode, hb]

/-! ## The two statements -/

def cString (s : String) : String := String.ofList (cStr s)

theorem cStr_cString (s : String) : cStr (cString s) = cStr s := by
  simp [cString, cStr, List.takeWhile_takeWhile]

theorem nul_notMem_cString (s : String) : '\x00' ∉ (cString s).toList := by
  rw [cString, String.toList_ofList]
  exact nul_notMem_printed s.toList

theorem clean_cString {s : String} (h : '\'' ∉ s.toList) : Clean (cString s) := by
  have hsub : (cStr s).Sublist s.toList := List.takeWhile_sublist _
  refine ⟨fun hq => h (hsub.subset ?_), nul_notMem_cString s⟩
  simpa [cString] using hq

theorem cString_eq_iff (s : String) : cString s = s ↔ '\x00' ∉ s.toList := by
  constructor
  · intro h
    have hnul := nul_notMem_cString s
    rwa [h] at hnul
  · intro h
    rw [cString, cStr, List.takeWhile_eq_self_iff.mpr, String.ofList_toList]
    exact fun c hc => by simpa using fun heq : c = '\x00' => h (heq ▸ hc)

def asPrinted (i : TaskInfo) : TaskInfo :=
  { i with
    fileName := cString i.fileName
    task := { i.task with param := { i.task.param with id := cString i.task.param.id } } }

/-- Without quotes an update writes the strings up to their first NUL, into the row whose id is
the printed one. -/
theorem updateTaskInfo_rows (hu : Clean userId) (hid : '\'' ∉ i.task.param.id.toList)
    (hname : '\'' ∉ i.fileName.toList) (hdb : db (fold (tableName userId)) = some (table rows)) :
    updateTaskInfo db userId i (fold (tableName userId)) = some (table (rows.map fun r =>
      if isRow (cString i.task.param.id) r then written (asPrinted i) r else r)) := by
  have htext : updateText userId i = updateText userId (asPrinted i) := by
    simp only [updateText, updatePieces, asPrinted, cStr_cString]
  have hlex := (lex_updateText_iff userId (asPrinted i)).mpr
    ⟨hu, clean_cString hname, clean_cString hid⟩
  have heq : updateTaskInfo db userId i = updateTaskInfo db userId (asPrinted i) := by
    rw [updateTaskInfo, htext, updateTaskInfo]
  have hprinted : (asPrinted i).task.param.id = cString i.task.param.id := rfl
  rw [heq, updateTaskInfo_eq hdb hlex, Function.update_self, hprinted]

/-- A literal is the text of its characters, which are slow to compute from its bytes. -/
theorem plain_ofList {cs : List Char} (h : cs.all isPlainChar = true) :
    ∀ c ∈ (String.ofList cs).toList, isPlainChar c = true := by
  rwa [String.toList_ofList, ← List.all_eq_true]

set_option maxRecDepth 4000 in
theorem insertTail_plain : ∀ c ∈ insertTail, isPlainChar c = true := by
  unfold insertTail
  rw [List.forall_mem_append, List.forall_mem_append]
  refine ⟨⟨?_, ?_⟩, ?_⟩
  all_goals exact plain_ofList (by decide +kernel)

theorem lex_insertText (h : '\'' ∉ userId.toList) :
    lex (insertText userId) =
      .word "INSERT" :: .word "INTO" :: .text (cString (tableName userId)) :: lex insertTail := by
  have hsql : "INSERT INTO ".toList.all isPlainChar = true ∧
      lex "INSERT INTO ".toList = [.word "INSERT", .word "INTO"] := by decide +kernel
  have hname : '\'' ∉ cStr (tableName userId) := by
    have hquote : '\'' ∉ (tableName userId).toList := by
      have hsuffix : '\'' ∉ kTaskInfo.toList := by decide +kernel
      simp [tableName, h, hsuffix]
    exact fun hq => hquote ((List.takeWhile_sublist _).subset hq)
  have hpieces : Pieces [("INSERT INTO ".toList, cStr (tableName userId))] insertTail :=
    ⟨by simpa using List.all_eq_true.mp hsql.1, by simp, insertTail_plain⟩
  rw [insertText, (lex_splice_iff hpieces).mpr (by simpa using hname)]
  simp only [spliceTokens, hsql.2]
  rfl

/-- `AddTaskInfo` inserts into the table whose name is printed. -/
theorem addTaskInfo_eq (h : '\'' ∉ userId.toList) (hdb : db (fold (tableName userId)) = some (table rows)) :
    addTaskInfo db userId i = db.modify (cString (tableName userId)) fun t =>
      (t.insert (values i)).getD t := by
  simp only [addTaskInfo, hdb, lex_insertText h, if_true]

theorem insert_values (hnew : ∀ r ∈ rows, isRow i.task.param.id r = false) :
    (table rows).insert (values i) = some (table (rows ++ [keyCells i ++ insertedCells i])) := by
  have hrow : (columns.map fun c => (((values i).lookup c.name).getD .null).store c.affinity) =
      keyCells i ++ insertedCells i := rfl
  have hkey : (rows.any fun r => r[0]? == (keyCells i ++ insertedCells i)[0]?) = false := by
    rw [List.any_eq_false]
    intro r hr
    simpa [isRow, keyCells] using hnew r hr
  simp only [Table.insert, table, hrow, hkey]
  rfl

/-! ## A row from its insert to its last update -/

def writeRow (db : Db) (userId : String) (first : TaskInfo) (updates : List TaskInfo) : Db :=
  updates.foldl (updateTaskInfo · userId) (addTaskInfo db userId first)

theorem writeRow_concat (db : Db) (userId : String) (first u : TaskInfo) (us : List TaskInfo) :
    writeRow db userId first (us ++ [u]) = updateTaskInfo (writeRow db userId first us) userId u := by
  simp only [writeRow, List.foldl_append, List.foldl_cons, List.foldl_nil]

def IsNew (id : String) (rows : List (List Value)) : Prop :=
  ∀ r ∈ rows, ((r[0]?).getD Value.null).toText ≠ id

theorem IsNew.isRow {id : String} (h : IsNew id rows) : ∀ r ∈ rows, isRow id r = false := by
  intro r hr
  refine beq_eq_false_iff_ne.mpr fun heq => h r hr ?_
  rw [heq]
  rfl

theorem readRow_id {row : List Value} {x : TaskInfo} (h : readRow row = some x) :
    x.task.param.id = ((row[0]?).getD Value.null).toText := by
  simp only [readRow] at h
  split at h
  · obtain rfl := Option.some.inj h
    rfl
  · cases h

theorem addTaskInfo_rows (hu : Clean userId) (hdb : db (fold (tableName userId)) = some (table rows))
    (hnew : IsNew i.task.param.id rows) :
    addTaskInfo db userId i (fold (tableName userId)) =
      some (table (rows ++ [keyCells i ++ insertedCells i])) := by
  have hname : cString (tableName userId) = tableName userId :=
    (cString_eq_iff _).mpr ((clean_tableName_iff userId).mpr hu).2
  rw [addTaskInfo_eq hu.1 hdb, hname, Db.modify, Function.update_self, hdb, Option.map_some,
    insert_values hnew.isRow, Option.getD_some]

theorem id_of_keyCells (h : keyCells u = keyCells i) : u.task.param.id = i.task.param.id := by
  simp only [keyCells, List.cons.injEq, Value.text.injEq] at h
  exact h.1

theorem writeRow_rows {first : TaskInfo} {updates : List TaskInfo} (hu : Clean userId)
    (hid : Clean i.task.param.id) (hdb : db (fold (tableName userId)) = some (table rows))
    (hnew : IsNew i.task.param.id rows)
    (hkeys : ∀ u ∈ first :: updates, keyCells u = keyCells i ∧ '\'' ∉ u.fileName.toList) :
    ∃ rest, rest.length = 11 ∧
      writeRow db userId first updates (fold (tableName userId)) =
        some (table (rows ++ [keyCells i ++ rest])) ∧
      rest = (updates.getLast?.map fun u => updatedCells (asPrinted u)).getD (insertedCells first) := by
  induction updates using List.reverseRecOn with
  | nil =>
    have hfirst := (hkeys first List.mem_cons_self).1
    refine ⟨insertedCells first, rfl, ?_, rfl⟩
    rw [← hfirst]
    exact addTaskInfo_rows hu hdb (id_of_keyCells hfirst ▸ hnew)
  | append_singleton us u ih =>
    obtain ⟨rest, hlen, hrows, -⟩ := ih fun w hw => hkeys w (by
      rcases List.mem_cons.mp hw with rfl | hw
      · exact List.mem_cons_self
      · exact List.mem_cons_of_mem _ (List.mem_append_left _ hw))
    obtain ⟨hkey, hname⟩ := hkeys u (by simp)
    have huid : u.task.param.id = i.task.param.id := id_of_keyCells hkey
    have hcid : cString u.task.param.id = i.task.param.id := by
      rw [huid]
      exact (cString_eq_iff _).mpr hid.2
    refine ⟨updatedCells (asPrinted u), rfl, ?_, by simp⟩
    -- the row of the task is the last one, and no other row has its id
    have hothers : (rows.map fun r => if isRow i.task.param.id r then written (asPrinted u) r else r) =
        rows := by
      refine (List.map_congr_left fun r hr => ?_).trans (List.map_id rows)
      rw [if_neg (by simp [hnew.isRow r hr]), id]
    rw [writeRow_concat, updateTaskInfo_rows hu (huid ▸ hid.1) hname hrows, hcid, List.map_append, hothers,
      List.map_cons, List.map_nil, isRow_append, beq_self_eq_true, if_pos rfl, written_append hlen]

theorem getTaskInfoList_last {row : List Value} {id : String} {x : TaskInfo}
    (hdb : db (fold (tableName userId)) = some (table (rows ++ [row]))) (hnew : IsNew id rows)
    (hrow : readRow row = some x) (hid : x.task.param.id = id) :
    (getTaskInfoList db userId).filter (·.task.param.id == id) = [x] := by
  have hothers : (rows.filterMap readRow).filter (·.task.param.id == id) = [] := by
    refine List.filter_eq_nil_iff.mpr fun y hy => ?_
    obtain ⟨r, hr, hread⟩ := List.mem_filterMap.mp hy
    rw [readRow_id hread]
    simpa using hnew r hr
  simp only [getTaskInfoList, hdb, table, List.filterMap_append, List.filter_append, hothers,
    List.nil_append, List.filterMap_cons, List.filterMap_nil, hrow, List.filter_cons, hid,
    beq_self_eq_true, if_true, List.filter_nil]

/-! ## Records -/

/-- What is read back of `i`; of the progress only the integer part is compared. -/
structure SameRecord (i x : TaskInfo) : Prop where
  id : x.task.param.id = i.task.param.id
  url : x.task.param.url = i.task.param.url
  savePath : x.task.param.savePath = i.task.param.savePath
  type : x.task.param.type = i.task.param.type
  fileName : x.fileName = i.fileName
  fileSize : x.fileSize = i.fileSize
  taskStatus : x.task.taskStatus = i.task.taskStatus
  taskCategory : x.task.taskCategory = i.task.taskCategory
  createTime : x.task.createTime = i.task.createTime
  finishTime : x.task.finishTime = i.task.finishTime
  deleteTime : x.task.deleteTime = i.task.deleteTime
  errCode : x.task.errCode = i.task.errCode
  isStarted : x.task.isStarted = i.task.isStarted
  totalProgress : x.task.totalProgress = truncate i.task.totalProgress

theorem sameRecord_reloaded_iff (progress download upload : ℚ) :
    SameRecord i (reloaded i progress download upload) ↔
      i.task.taskCategory = TaskBase.categoryOf i.task.taskStatus .kDownloadingTask ∧
      truncate progress = truncate i.task.totalProgress := by
  constructor
  · intro h
    exact ⟨h.taskCategory.symm, Int.cast_injective h.totalProgress⟩
  · rintro ⟨hcategory, hprogress⟩
    exact ⟨rfl, rfl, rfl, rfl, rfl, rfl, rfl, hcategory.symm, rfl, rfl, rfl, rfl, rfl,
      congrArg Int.cast hprogress⟩

/-- Whatever the table held and whatever was written of the task before, once its row has been
written in the state `i` exactly one task with its id is read, and that with the data of `i`. -/
def Survives (userId : String) (i : TaskInfo) : Prop :=
  ∀ (db : Db) (rows : List (List Value)) (first : TaskInfo) (updates : List TaskInfo),
    db (fold (tableName userId)) = some (table rows) → IsNew i.task.param.id rows →
    (∀ u ∈ first :: updates, keyCells u = keyCells i ∧ '\'' ∉ u.fileName.toList) →
    (first :: updates).getLast? = some i →
      ∃ x, (getTaskInfoList (writeRow db userId first updates) userId).filter
          (·.task.param.id == i.task.param.id) = [x] ∧ SameRecord i x

theorem truncate_intCast (n : Int) : truncate (n : ℚ) = n := by simp [truncate]

theorem asPrinted_eq (hid : '\x00' ∉ i.task.param.id.toList) (hname : '\x00' ∉ i.fileName.toList) :
    asPrinted i = i := by
  rw [asPrinted, (cString_eq_iff _).mpr hid, (cString_eq_iff _).mpr hname]

theorem survives_of (hu : Clean userId) (hid : Clean i.task.param.id)
    (hname : '\x00' ∉ i.fileName.toList)
    (hcategory : i.task.taskCategory = TaskBase.categoryOf i.task.taskStatus .kDownloadingTask)
    (hprogress : truncate (roundTo 6 i.task.totalProgress) = truncate i.task.totalProgress) :
    Survives userId i := by
  intro db rows first updates hdb hnew hkeys hlast
  obtain ⟨rest, -, hrows, hrest⟩ := writeRow_rows hu hid hdb hnew hkeys
  rcases List.eq_nil_or_concat updates with rfl | ⟨us, u, rfl⟩
  · obtain rfl : first = i := by simpa using hlast
    obtain rfl : rest = insertedCells first := hrest
    exact ⟨_, getTaskInfoList_last hrows hnew (readRow_cells rfl _ _ _) rfl,
      (sameRecord_reloaded_iff _ _ _).mpr ⟨hcategory, truncate_intCast _⟩⟩
  · obtain rfl : u = i := by simpa [List.getLast?_cons] using hlast
    obtain rfl : rest = updatedCells u := by
      rw [hrest]
      simp [asPrinted_eq hid.2 hname]
    exact ⟨_, getTaskInfoList_last hrows hnew (readRow_cells rfl _ _ _) rfl,
      (sameRecord_reloaded_iff _ _ _).mpr ⟨hcategory, hprogress⟩⟩

/-! ## What goes wrong otherwise -/

def freshDb (userId : String) : Db := Function.update (fun _ => none) (fold (tableName userId)) (some (table []))

theorem freshDb_table (userId : String) : freshDb userId (fold (tableName userId)) = some (table []) :=
  Function.update_self ..

theorem isNew_nil (id : String) : IsNew id [] := fun _ hr => nomatch hr

theorem Survives.fresh (h : Survives userId i) {first : TaskInfo} {updates : List TaskInfo}
    (hkeys : ∀ u ∈ first :: updates, keyCells u = keyCells i ∧ '\'' ∉ u.fileName.toList)
    (hlast : (first :: updates).getLast? = some i) {row : List Value} {x : TaskInfo}
    (hrows : writeRow (freshDb userId) userId first updates (fold (tableName userId)) = some (table [row]))
    (hrow : readRow row = some x) : SameRecord i x := by
  obtain ⟨y, hread, hsame⟩ := h _ [] first updates (freshDb_table userId) (isNew_nil _) hkeys hlast
  have hmem : y ∈ getTaskInfoList (writeRow (freshDb userId) userId first updates) userId :=
    (List.mem_filter.mp (hread ▸ List.mem_singleton_self y)).1
  rw [getTaskInfoList, hrows] at hmem
  simp only [table, List.filterMap_cons, hrow, List.filterMap_nil, List.mem_singleton] at hmem
  exact hmem ▸ hsame

theorem fold_cString_ne {s : String} (h : '\x00' ∈ s.toList) : fold (cString s) ≠ fold s := by
  intro heq
  have hlen : (cStr s).length = s.toList.length := by
    simpa [fold, cString] using congrArg (fun r : String => r.toList.length) heq
  have hall : cStr s = s.toList := (List.takeWhile_sublist _).eq_of_length hlen
  have hsame : cString s = s := by rw [cString, hall, String.ofList_toList]
  exact (cString_eq_iff s).mp hsame h

theorem Survives.nul_notMem_userId (h : Survives userId i) (hquote : '\'' ∉ userId.toList)
    (hname : '\'' ∉ i.fileName.toList) : '\x00' ∉ userId.toList := by
  intro hnul
  have htable : '\x00' ∈ (tableName userId).toList := by simp [tableName, hnul]
  have hempty : writeRow (freshDb userId) userId i [] (fold (tableName userId)) = some (table []) := by
    show addTaskInfo _ _ _ _ = _
    rw [addTaskInfo_eq hquote (freshDb_table userId), Db.modify,
      Function.update_of_ne (fold_cString_ne htable).symm, freshDb_table]
  obtain ⟨x, hread, -⟩ := h _ [] i [] (freshDb_table userId) (isNew_nil _)
    (by simpa using hname) rfl
  rw [getTaskInfoList, hempty] at hread
  cases hread

theorem Survives.nul_notMem_id (h : Survives userId i) (hu : Clean userId) (hid : '\'' ∉ i.task.param.id.toList)
    (hname : '\'' ∉ i.fileName.toList) : '\x00' ∉ i.task.param.id.toList := by
  intro hnul
  -- the update does not find the row, so the time of creation stays the first one
  let first : TaskInfo := { i with task := { i.task with createTime := i.task.createTime + 1 } }
  have hfirst : addTaskInfo (freshDb userId) userId first (fold (tableName userId)) =
      some (table [keyCells i ++ insertedCells first]) :=
    addTaskInfo_rows hu (freshDb_table userId) (isNew_nil _)
  have hne : (i.task.param.id == cString i.task.param.id) = false :=
    beq_eq_false_iff_ne.mpr fun heq => (cString_eq_iff _).mp heq.symm hnul
  have hrows : writeRow (freshDb userId) userId first [i] (fold (tableName userId)) =
      some (table [keyCells i ++ insertedCells first]) := by
    show updateTaskInfo _ _ _ _ = _
    rw [updateTaskInfo_rows hu hid hname hfirst, List.map_cons, List.map_nil, isRow_append, hne]
    rfl
  have hkeys : ∀ u ∈ [first, i], keyCells u = keyCells i ∧ '\'' ∉ u.fileName.toList := by
    simpa [first] using ⟨rfl, hname⟩
  have hkey : keyCells first = keyCells i := rfl
  have hsame := h.fresh hkeys rfl hrows (readRow_cells hkey _ _ _)
  have htime : i.task.createTime + 1 = i.task.createTime := hsame.createTime
  omega

section

variable (h : Survives userId i) (hu : Clean userId) (hid : Clean i.task.param.id)
  (hname : '\'' ∉ i.fileName.toList)

include h hu hid hname

theorem Survives.updated :
    SameRecord i (reloaded (asPrinted i) (roundTo 6 i.task.totalProgress) (roundTo 6 i.downloadSpeed)
      (roundTo 6 i.uploadSpeed)) := by
  have hkeys : ∀ u ∈ [i, i], keyCells u = keyCells i ∧ '\'' ∉ u.fileName.toList := by
    simpa using hname
  obtain ⟨rest, -, hrows, hrest⟩ := writeRow_rows hu hid (freshDb_table userId) (isNew_nil _) hkeys
  have hkey : keyCells (asPrinted i) = keyCells i := by
    simp [keyCells, asPrinted, (cString_eq_iff _).mpr hid.2]
  refine h.fresh hkeys rfl hrows ?_
  rw [hrest]
  exact readRow_cells hkey _ _ _

end

/-- Without quotes in its strings, a task survives a reload if and only if no string has a NUL,
its category is the one that its status determines, and rounding the progress to six digits does
not reach the next integer. -/
theorem survives_iff (hquotes : '\'' ∉ userId.toList ∧ '\'' ∉ i.task.param.id.toList ∧ '\'' ∉ i.fileName.toList) :
    Survives userId i ↔
      ('\x00' ∉ userId.toList ∧ '\x00' ∉ i.task.param.id.toList ∧ '\x00' ∉ i.fileName.toList) ∧
      i.task.taskCategory = TaskBase.categoryOf i.task.taskStatus .kDownloadingTask ∧
      truncate (roundTo 6 i.task.totalProgress) = truncate i.task.totalProgress := by
  obtain ⟨hu, hid, hname⟩ := hquotes
  constructor
  · intro h
    have hcleanUser : Clean userId := ⟨hu, h.nul_notMem_userId hu hname⟩
    have hcleanId : Clean i.task.param.id := ⟨hid, h.nul_notMem_id hcleanUser hid hname⟩
    have hsame := h.updated hcleanUser hcleanId hname
    refine ⟨⟨hcleanUser.2, hcleanId.2, (cString_eq_iff _).mp hsame.fileName⟩, hsame.taskCategory.symm, ?_⟩
    exact Int.cast_injective hsame.totalProgress
  · rintro ⟨⟨hu', hid', hname'⟩, hcategory, hprogress⟩
    exact survives_of ⟨hu, hu'⟩ ⟨hid, hid'⟩ hname' hcategory hprogress

theorem survives_linkInfo :
    (linkInfo "1" "a.zip").task.taskStatus = .kWaitting ∧ Survives "u" (linkInfo "1" "a.zip") :=
  ⟨rfl, (survives_iff (by decide +kernel)).mpr (by decide +kernel)⟩

def failedSeeding : List UserSelfMgr.Event :=
  let complete : Answer := { totalProgress := 100, isSeed := true, errCode := ⟨15⟩ }
  [.createTorrent { taskId := "1", source := "/v/a.torrent" }
      (fun _ => { taskHash := "1", pathExists := fun _ => true })
      fun _ => { torrentList := some ⟨"a", by decide⟩ },
    .timer ["1"] (fun _ => {}) fun _ => complete, .timer ["1"] (fun _ => {}) fun _ => complete]

/-- A failed task in the category of seeding tasks is read back as one that is downloading. -/
theorem failedSeeding_not_survives :
    ∃ t, (run UserSelfMgr.step { userId := "u" } failedSeeding).findTask "1" = some t ∧
      t.taskStatus = .kFailed ∧ t.taskCategory = .kSeedingTask ∧
      ¬ Survives "u" { task := t, fileName := "a" } := by
  have hrun : ((run UserSelfMgr.step { userId := "u" } failedSeeding).findTask "1").map
      (fun t => (t.param.id, t.taskStatus, t.taskCategory)) = some ("1", .kFailed, .kSeedingTask) := by
    decide +kernel
  obtain ⟨t, ht, hfields⟩ := Option.map_eq_some_iff.mp hrun
  simp only [Prod.mk.injEq] at hfields
  obtain ⟨hid, hst, hcat⟩ := hfields
  refine ⟨t, ht, hst, hcat, fun h => ?_⟩
  have hclean : Clean t.param.id := by
    rw [hid]
    decide +kernel
  have hname : '\'' ∉ "a".toList := by decide +kernel
  have hsame := (h.updated (by decide +kernel) hclean hname).taskCategory
  have hcategory : TaskBase.categoryOf t.taskStatus .kDownloadingTask = t.taskCategory := hsame
  rw [hst, hcat] at hcategory
  cases hcategory

end Nas.Download.DownloadInfoStore
