import NasServices.Download.Db.DownloadInfoStore

/-!
# Strings in the statements about a task

`UpdateTaskInfo` and `DeleteTaskInfo` put the user id, the task id and the
file name between quotes without escaping them. Their texts have the tokens
that were meant if and only if none of these strings has a quote or a NUL
(`lex_updateText_iff`, `lex_deleteText_iff`), and then they change the one row
(`updateTaskInfo_eq`, `deleteTaskInfo_eq`).
-/

namespace Nas.Download.DownloadInfoStore

open Lib Lib.Sql

def Clean (s : String) : Prop := '\'' ∉ s.toList ∧ '\x00' ∉ s.toList

instance (s : String) : Decidable (Clean s) := inferInstanceAs (Decidable (_ ∧ _))

theorem clean_tableName_iff (userId : String) : Clean (tableName userId) ↔ Clean userId := by
  have hquote : '\'' ∉ kTaskInfo.toList := by decide +kernel
  have hnul : '\x00' ∉ kTaskInfo.toList := by decide +kernel
  simp [Clean, tableName, hquote, hnul]

/-! ## What is printed -/

def printed (cs : List Char) : List Char := cs.takeWhile (· ≠ '\x00')

theorem printed_eq {cs : List Char} (h : '\x00' ∉ cs) : printed cs = cs := by
  refine List.takeWhile_eq_self_iff.mpr fun c hc => ?_
  have hne : c ≠ '\x00' := fun heq => h (heq ▸ hc)
  simp [hne]

theorem nul_notMem_printed (cs : List Char) : '\x00' ∉ printed cs := by
  intro h
  simpa using List.mem_takeWhile_imp h

theorem notMem_of_isNumeral {cs : List Char} (h : ∀ c ∈ cs, isNumeral c = true) :
    '\'' ∉ cs ∧ '\x00' ∉ cs := by
  have hquote : isNumeral '\'' = false := by decide
  have hnul : isNumeral '\x00' = false := by decide
  exact ⟨fun hc => by simp [h _ hc] at hquote, fun hc => by simp [h _ hc] at hnul⟩

def printPieces (ps : List (List Char × List Char)) : List (List Char × List Char) :=
  ps.map fun p => (p.1, printed p.2)

theorem nul_notMem_splice {ps : List (List Char × List Char)} (h : ∀ p ∈ ps, '\x00' ∉ p.1) :
    '\x00' ∉ splice (printPieces ps) [] := by
  intro hmem
  rcases mem_splice hmem with hq | ⟨p, hp, hc⟩ | hl
  · simp at hq
  · obtain ⟨q, hq, rfl⟩ := List.mem_map.mp hp
    rcases hc with hc | hc
    · exact h q hq hc
    · exact nul_notMem_printed _ hc
  · simp at hl

/-- A printed statement has the tokens that were meant if and only if no argument has a
quote or a NUL. -/
theorem lex_printPieces_iff {ps : List (List Char × List Char)} (hps : Pieces ps [])
    (hnul : ∀ p ∈ ps, '\x00' ∉ p.1) :
    lex (splice (printPieces ps) []) = spliceTokens ps [] ↔
      ∀ p ∈ ps, '\'' ∉ p.2 ∧ '\x00' ∉ p.2 := by
  have hsame : (∀ p ∈ ps, '\x00' ∉ p.2) → printPieces ps = ps := fun h =>
    (List.map_congr_left fun p hp => by rw [printed_eq (h p hp), id]).trans (List.map_id ps)
  constructor
  · intro heq
    -- a text among the tokens has no character that the statement does not have
    have hn : ∀ p ∈ ps, '\x00' ∉ p.2 := by
      intro p hp hc
      have htext : Token.text (String.ofList p.2) ∈ lex (splice (printPieces ps) []) :=
        heq ▸ text_mem_spliceTokens hp
      exact nul_notMem_splice hnul (chars_of_text_mem_lex htext _ (by simpa using hc))
    rw [hsame hn] at heq
    exact fun p hp => ⟨(lex_splice_iff hps).mp heq p hp, hn p hp⟩
  · intro h
    rw [hsame fun p hp => (h p hp).2]
    exact (lex_splice_iff hps).mpr fun p hp => (h p hp).1

/-! ## The two texts -/

def meantUpdatePieces (userId : String) (i : TaskInfo) : List (List Char × List Char) :=
  updatePieces (tableName userId).toList i.fileName.toList i.task.param.id.toList i

def meantDeletePieces (userId taskId : String) : List (List Char × List Char) :=
  deletePieces (tableName userId).toList taskId.toList

theorem updateText_eq (userId : String) (i : TaskInfo) :
    updateText userId i = splice (printPieces (meantUpdatePieces userId i)) [] := by
  have hint (n : Int) : printed (intText n) = intText n :=
    printed_eq (notMem_of_isNumeral (intText_isNumeral n)).2
  have hfixed (x : ℚ) : printed (fixedText 6 x) = fixedText 6 x :=
    printed_eq (notMem_of_isNumeral (fixedText_isNumeral 6 x)).2
  simp only [updateText, meantUpdatePieces, updatePieces, printPieces, List.map_cons, List.map_nil,
    hint, hfixed]
  rfl

theorem deleteText_eq (userId taskId : String) :
    deleteText userId taskId = splice (printPieces (meantDeletePieces userId taskId)) [] := rfl

def plainSql (p : List Char × List Char) : Prop :=
  p.1 ≠ [] ∧ ∀ c ∈ p.1, isPlainChar c = true ∧ c ≠ '\x00'

-- Over the characters of the text: the instance for `∀ c` would go through every `Char`.
theorem plainSql_iff (p : List Char × List Char) :
    plainSql p ↔ p.1.isEmpty = false ∧ p.1.all (fun c => isPlainChar c && c != '\x00') = true := by
  simp [plainSql]

theorem updatePieces_plainSql (table fileName id : List Char) (i : TaskInfo) :
    ∀ p ∈ updatePieces table fileName id i, plainSql p := by
  simp only [updatePieces, plainSql_iff, List.forall_mem_cons]
  decide +kernel

theorem deletePieces_plainSql (table id : List Char) : ∀ p ∈ deletePieces table id, plainSql p := by
  simp only [deletePieces, plainSql_iff, List.forall_mem_cons]
  decide +kernel

theorem lex_plainSql_iff {ps : List (List Char × List Char)} (h : ∀ p ∈ ps, plainSql p) :
    lex (splice (printPieces ps) []) = spliceTokens ps [] ↔ ∀ p ∈ ps, '\'' ∉ p.2 ∧ '\x00' ∉ p.2 :=
  lex_printPieces_iff
    ⟨fun p hp c hc => ((h p hp).2 c hc).1, fun p hp => (h p hp).1, by simp⟩
    fun p hp hc => ((h p hp).2 _ hc).2 rfl

theorem lex_updateText_iff (userId : String) (i : TaskInfo) :
    lex (updateText userId i) = spliceTokens (meantUpdatePieces userId i) [] ↔
      Clean userId ∧ Clean i.fileName ∧ Clean i.task.param.id := by
  have hint (n : Int) := notMem_of_isNumeral (intText_isNumeral n)
  have hfixed (x : ℚ) := notMem_of_isNumeral (fixedText_isNumeral 6 x)
  rw [updateText_eq, meantUpdatePieces, lex_plainSql_iff (updatePieces_plainSql _ _ _ i),
    ← clean_tableName_iff]
  simp [updatePieces, hint, hfixed, Clean]

theorem lex_deleteText_iff (userId taskId : String) :
    lex (deleteText userId taskId) = spliceTokens (meantDeletePieces userId taskId) [] ↔
      Clean userId ∧ Clean taskId := by
  rw [deleteText_eq, meantDeletePieces, lex_plainSql_iff (deletePieces_plainSql _ _),
    ← clean_tableName_iff]
  simp [deletePieces, Clean]

/-! ## What the statements do -/

def updateSets (i : TaskInfo) : List (String × String) :=
  [("file_name", i.fileName), ("file_size", String.ofList (intText i.fileSize)),
    ("total_progress", String.ofList (fixedText 6 i.task.totalProgress)),
    ("download_speed", String.ofList (fixedText 6 i.downloadSpeed)),
    ("upload_speed", String.ofList (fixedText 6 i.uploadSpeed)),
    ("task_status", String.ofList (intText i.task.taskStatus.code)),
    ("create_time", String.ofList (intText i.task.createTime)),
    ("finish_time", String.ofList (intText i.task.finishTime)),
    ("delete_time", String.ofList (intText i.task.deleteTime)),
    ("err_code", String.ofList (intText i.task.errCode.code)),
    ("is_started", String.ofList (intText (boolCode i.task.isStarted)))]

theorem spliceTokens_eq (ps : List (List Char × List Char)) :
    spliceTokens ps [] = (List.zipWith (fun sql arg => sql ++ [.text (String.ofList arg)])
      (ps.map fun p => lex p.1) (ps.map (·.2))).flatten := by
  induction ps with
  | nil => rfl
  | cons p ps ih => simp [spliceTokens, ih]

-- A literal is the text of its characters; computing them from its bytes is slow.
theorem lex_literal {cs : List Char} {ts : List Token} (h : lex cs = ts) :
    lex (String.ofList cs).toList = ts := by
  rwa [String.toList_ofList]

theorem updateTokens_eq (userId : String) (i : TaskInfo) :
    spliceTokens (meantUpdatePieces userId i) [] =
      .word "UPDATE" :: .text (tableName userId) :: .word "SET" ::
        (setTokens (updateSets i) ++ whereTokens "id" i.task.param.id) := by
  have hlex : (meantUpdatePieces userId i).map (fun p => lex p.1) =
      [.word "UPDATE"] :: [.word "SET", .word "file_name", .symbol '='] ::
        ["file_size", "total_progress", "download_speed", "upload_speed", "task_status", "create_time",
          "finish_time", "delete_time", "err_code", "is_started"].map
            (fun c => [.symbol ',', .word c, .symbol '=']) ++
        [[.word "WHERE", .word "id", .symbol '=']] := by
    simp only [meantUpdatePieces, updatePieces, List.map_cons, List.map_nil, List.cons_append,
      List.nil_append]
    iterate 13
      refine congrArg₂ List.cons (lex_literal ?_) ?_
      · decide +kernel
    rfl
  rw [spliceTokens_eq, hlex]
  simp [meantUpdatePieces, updatePieces, updateSets, setTokens, whereTokens]

theorem deleteTokens_eq (userId taskId : String) :
    spliceTokens (meantDeletePieces userId taskId) [] =
      .word "DELETE" :: .word "FROM" :: .text (tableName userId) :: whereTokens "id" taskId := by
  have hlex : (meantDeletePieces userId taskId).map (fun p => lex p.1) =
      [[.word "DELETE", .word "FROM"], [.word "WHERE", .word "id", .symbol '=']] := by
    simp only [meantDeletePieces, deletePieces, List.map_cons, List.map_nil]
    decide +kernel
  rw [spliceTokens_eq, hlex]
  simp [meantDeletePieces, deletePieces, whereTokens]

def isRow (id : String) (row : List Value) : Bool := row[0]? == some (.text id)

/-- A row after `UpdateTaskInfo`; the first four columns are not written. -/
def written (i : TaskInfo) (row : List Value) : List Value :=
  [(4, .text i.fileName), (5, .int i.fileSize), (6, .real (roundTo 6 i.task.totalProgress)),
    (7, .real (roundTo 6 i.downloadSpeed)), (8, .real (roundTo 6 i.uploadSpeed)),
    (9, .int i.task.taskStatus.code), (10, .int i.task.createTime), (11, .int i.task.finishTime),
    (12, .int i.task.deleteTime), (13, .int i.task.errCode.code),
    (14, .int (boolCode i.task.isStarted))].foldl (fun r (s : Nat × Value) => r.set s.1 s.2) row

theorem store_intText (n : Int) : Value.store .integer (.text (String.ofList (intText n))) = .int n := by
  simp [Value.store, parseNumber_intText, Value.number]

theorem store_fixedText (k : Nat) (x : ℚ) :
    Value.store .real (.text (String.ofList (fixedText k x))) = .real (roundTo k x) := by
  simp [Value.store, parseNumber_fixedText]

theorem assign_updateSets (rows : List (List Value)) (i : TaskInfo) (row : List Value) :
    (table rows).assign (assignments (updateSets i)) row = written i row := by
  have hint (n : Int) := store_intText n
  have hreal (x : ℚ) := store_fixedText 6 x
  refine Table.assign_assignments ?_ row
  exact .cons ⟨rfl, rfl⟩ <| .cons ⟨rfl, hint _⟩ <| .cons ⟨rfl, hreal _⟩ <| .cons ⟨rfl, hreal _⟩ <|
    .cons ⟨rfl, hreal _⟩ <| .cons ⟨rfl, hint _⟩ <| .cons ⟨rfl, hint _⟩ <| .cons ⟨rfl, hint _⟩ <|
    .cons ⟨rfl, hint _⟩ <| .cons ⟨rfl, hint _⟩ <| .cons ⟨rfl, hint _⟩ .nil

section

variable {db : Db} {rows : List (List Value)} {userId : String}

theorem updateTaskInfo_eq {i : TaskInfo} (hdb : db (fold (tableName userId)) = some (table rows))
    (hlex : lex (updateText userId i) = spliceTokens (meantUpdatePieces userId i) []) :
    updateTaskInfo db userId i = Function.update db (fold (tableName userId))
      (some (table (rows.map fun r => if isRow i.task.param.id r then written i r else r))) := by
  have hkey : parseNumber "id".toList = none := by decide +kernel
  have hnames : ∀ c ∈ (updateSets i).map (·.1), ((table rows).index c).isSome = true := by
    show ∀ c ∈ _, (columns.findIdx? (·.name == c)).isSome = true
    simp only [updateSets, List.map_cons, List.map_nil]
    decide +kernel
  have hexec := execute_updateRow hdb rfl rfl hkey (List.cons_ne_nil _ _)
    (fun s hs => hnames _ (List.mem_map_of_mem hs)) (hlex.trans (updateTokens_eq userId i))
  have hrows : updateTaskInfo db userId i =
      Function.update db (fold (tableName userId)) (some (table (rows.map fun r =>
        if isRow i.task.param.id r then (table rows).assign (assignments (updateSets i)) r else r))) := by
    simp only [updateTaskInfo, executeFor, hdb]
    exact congrArg Prod.fst hexec
  simpa only [assign_updateSets] using hrows

theorem deleteTaskInfo_eq {taskId : String}
    (hdb : db (fold (tableName userId)) = some (table rows))
    (hlex : lex (deleteText userId taskId) = spliceTokens (meantDeletePieces userId taskId) []) :
    deleteTaskInfo db userId taskId = Function.update db (fold (tableName userId))
      (some (table (rows.filter fun r => !isRow taskId r))) := by
  have hkey : parseNumber "id".toList = none := by decide +kernel
  have hexec := execute_deleteRow hdb rfl rfl hkey (hlex.trans (deleteTokens_eq userId taskId))
  simp only [deleteTaskInfo, executeFor, hdb, hexec]
  rfl

end

theorem written_fileName (i : TaskInfo) {row : List Value} (h : row.length = columns.length) :
    (written i row)[4]? = some (.text i.fileName) ∧ ∀ k < 4, (written i row)[k]? = row[k]? := by
  have hlen : 4 < row.length := by rw [h]; decide
  constructor
  · simp [written, hlen]
  · intro k hk
    simp (disch := omega) only [written, List.foldl_cons, List.foldl_nil, List.getElem?_set_ne]

/-! ## Exactness -/

def RowUpdated (i : TaskInfo) (r r' : List Value) : Prop :=
  if isRow i.task.param.id r then
    r'[4]? = some (.text i.fileName) ∧ ∀ k < 4, r'[k]? = r[k]?
  else r' = r

/-- The text of `UpdateTaskInfo` is the statement that was meant, and for every content of the
database it changes the one row. -/
structure ExactUpdate (userId : String) (i : TaskInfo) : Prop where
  tokens : lex (updateText userId i) = spliceTokens (meantUpdatePieces userId i) []
  rows : ∀ (db : Db) (rows : List (List Value)), db (fold (tableName userId)) = some (table rows) →
    (∀ r ∈ rows, r.length = columns.length) →
      ∃ rows', updateTaskInfo db userId i =
          Function.update db (fold (tableName userId)) (some (table rows')) ∧
        List.Forall₂ (RowUpdated i) rows rows'

/-- The text of `DeleteTaskInfo` is the statement that was meant, and for every content of the
database it removes the one row. -/
structure ExactDelete (userId taskId : String) : Prop where
  tokens : lex (deleteText userId taskId) = spliceTokens (meantDeletePieces userId taskId) []
  rows : ∀ (db : Db) (rows : List (List Value)), db (fold (tableName userId)) = some (table rows) →
    deleteTaskInfo db userId taskId = Function.update db (fold (tableName userId))
      (some (table (rows.filter fun r => !isRow taskId r)))

theorem exactUpdate_iff (userId : String) (i : TaskInfo) :
    ExactUpdate userId i ↔ Clean userId ∧ Clean i.fileName ∧ Clean i.task.param.id := by
  rw [← lex_updateText_iff]
  refine ⟨fun h => h.tokens, fun hlex => ⟨hlex, fun db rows hdb hrows => ⟨_, updateTaskInfo_eq hdb hlex, ?_⟩⟩⟩
  refine List.forall₂_map_right_iff.mpr (List.forall₂_same.mpr fun r hr => ?_)
  by_cases hid : isRow i.task.param.id r = true
  · simpa only [RowUpdated, hid, if_true] using written_fileName i (hrows r hr)
  · simp only [RowUpdated, hid, if_false, Bool.false_eq_true]

theorem exactDelete_iff (userId taskId : String) :
    ExactDelete userId taskId ↔ Clean userId ∧ Clean taskId := by
  rw [← lex_deleteText_iff]
  exact ⟨fun h => h.tokens, fun hlex => ⟨hlex, fun db rows hdb => deleteTaskInfo_eq hdb hlex⟩⟩

/-- The statements about a task are exact if and only if its strings and the user id have no
quote and no NUL. -/
theorem exact_iff_clean (userId : String) (i : TaskInfo) :
    ExactUpdate userId i ∧ ExactDelete userId i.task.param.id ↔
      Clean userId ∧ Clean i.fileName ∧ Clean i.task.param.id := by
  rw [exactUpdate_iff, exactDelete_iff]
  exact ⟨And.left, fun h => ⟨h, h.1, h.2.2⟩⟩

def linkInfo (id fileName : String) : TaskInfo :=
  { task := { param := { id, url := "http://h/f", type := .kHttp } }, fileName }

def sampleRows : List (List Value) :=
  [linkInfo "1" "a.zip", linkInfo "2" "b.zip"].map fun i => (values i).map (·.2)

def sampleDb : Db := fun name => if name = "u_task_info" then some (table sampleRows) else none

/-- A task id with quotes deletes every row, and a file name with a quote is not stored. -/
theorem quotes_break_statements :
    ¬ ExactDelete "u" "x' OR '1'='1" ∧ ¬ ExactUpdate "u" (linkInfo "1" "it's.zip") := by
  have htable : sampleDb (fold (tableName "u")) = some (table sampleRows) := by decide +kernel
  have hname : fold (tableName "u") = "u_task_info" := by decide +kernel
  constructor
  · intro h
    have hrows := congrFun (h.rows sampleDb sampleRows htable) "u_task_info"
    rw [hname, Function.update_self] at hrows
    revert hrows
    decide +kernel
  · intro h
    obtain ⟨rows', heq, hrows⟩ := h.rows sampleDb sampleRows htable (by decide +kernel)
    have hsame : updateTaskInfo sampleDb "u" (linkInfo "1" "it's.zip") "u_task_info" =
      some (table sampleRows) := by decide +kernel
    rw [heq, hname, Function.update_self] at hsame
    obtain rfl : rows' = sampleRows := congrArg Table.rows (Option.some.inj hsame)
    cases hrows with
    | cons hrow _ =>
      revert hrow
      simp only [RowUpdated]
      decide +kernel

end Nas.Download.DownloadInfoStore
