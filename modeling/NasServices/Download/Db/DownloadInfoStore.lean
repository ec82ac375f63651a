import NasServices.Download.Task.TaskBase
import NasServices.Lib.Sql.Exec

/-!
# The task table

`DownloadInfoStore` keeps a table of tasks for each user. A task is inserted
with bound parameters, but updated and deleted by a SQL text into which its
strings are formatted between quotes. Rows are read back by position, and
the category is not stored: it is derived from the status again.
-/

namespace Nas.Download

open Lib Lib.Sql

def TaskStatus.code : TaskStatus → Int
  | .kDownloading => 0
  | .kWaitting => 1
  | .kPaused => 2
  | .kFailed => 3
  | .kFinished => 4
  | .kDeleted => 5
  | .kCompletedDeleted => 6
  | .kParsing => 7
  | .kSeeding => 8
  | .kChecking => 9

def TaskStatus.ofCode (n : Int) : Option TaskStatus :=
  [.kDownloading, .kWaitting, .kPaused, .kFailed, .kFinished, .kDeleted, .kCompletedDeleted,
    .kParsing, .kSeeding, .kChecking].find? (·.code == n)

def DownloadType.code : DownloadType → Int
  | .kUnknown => 0
  | .kEd2k => 1
  | .kTorrent => 2
  | .kMagnet => 3
  | .kHttp => 4
  | .kHttps => 5
  | .kFtp => 6
  | .kFtps => 7
  | .kSftp => 8

def DownloadType.ofCode (n : Int) : Option DownloadType :=
  [.kUnknown, .kEd2k, .kTorrent, .kMagnet, .kHttp, .kHttps, .kFtp, .kFtps, .kSftp].find? (·.code == n)

@[simp] theorem TaskStatus.ofCode_code (s : TaskStatus) : TaskStatus.ofCode s.code = some s := by
  cases s <;> rfl

@[simp] theorem DownloadType.ofCode_code (t : DownloadType) : DownloadType.ofCode t.code = some t := by
  cases t <;> rfl

structure TaskInfo where
  task : TaskBase
  fileName : String := ""
  fileSize : Int := 0
  downloadSpeed : ℚ := 0
  uploadSpeed : ℚ := 0
  deriving DecidableEq

namespace DownloadInfoStore

def kTaskInfo : String := "_task_info"

def tableName (userId : String) : String := userId ++ kTaskInfo

def columns : List Column :=
  [⟨"id", .text⟩, ⟨"source", .text⟩, ⟨"save_path", .text⟩, ⟨"download_type", .integer⟩,
    ⟨"file_name", .text⟩, ⟨"file_size", .integer⟩, ⟨"total_progress", .real⟩,
    ⟨"download_speed", .real⟩, ⟨"upload_speed", .real⟩, ⟨"task_status", .integer⟩,
    ⟨"create_time", .integer⟩, ⟨"finish_time", .integer⟩, ⟨"delete_time", .integer⟩,
    ⟨"err_code", .integer⟩, ⟨"is_started", .integer⟩]

def table (rows : List (List Value)) : Table := { columns, key := 0, rows }

def boolCode (b : Bool) : Int := if b then 1 else 0

/-- The parameters bound by `AddTaskInfo`; the progress and the speeds are bound as integers. -/
def values (i : TaskInfo) : List (String × Value) :=
  [("id", .text i.task.param.id), ("source", .text i.task.param.url),
    ("save_path", .text i.task.param.savePath), ("download_type", .int i.task.param.type.code),
    ("file_name", .text i.fileName), ("file_size", .int i.fileSize),
    ("total_progress", .int (truncate i.task.totalProgress)),
    ("download_speed", .int (truncate i.downloadSpeed)),
    ("upload_speed", .int (truncate i.uploadSpeed)), ("task_status", .int i.task.taskStatus.code),
    ("create_time", .int i.task.createTime), ("finish_time", .int i.task.finishTime),
    ("delete_time", .int i.task.deleteTime), ("err_code", .int i.task.errCode.code),
    ("is_started", .int (boolCode i.task.isStarted))]

/-- The part of a string that `%s` prints: up to the first NUL. -/
def cStr (s : String) : List Char := s.toList.takeWhile (· ≠ '\x00')

def updatePieces (table fileName id : List Char) (i : TaskInfo) : List (List Char × List Char) :=
  [("UPDATE ".toList, table),
    (" SET file_name=".toList, fileName),
    (", file_size=".toList, intText i.fileSize),
    (", total_progress=".toList, fixedText 6 i.task.totalProgress),
    (", download_speed=".toList, fixedText 6 i.downloadSpeed),
    (", upload_speed=".toList, fixedText 6 i.uploadSpeed),
    (", task_status=".toList, intText i.task.taskStatus.code),
    (", create_time=".toList, intText i.task.createTime),
    (", finish_time=".toList, intText i.task.finishTime),
    (", delete_time=".toList, intText i.task.deleteTime),
    (", err_code=".toList, intText i.task.errCode.code),
    (", is_started=".toList, intText (boolCode i.task.isStarted)),
    (" WHERE id=".toList, id)]

def updateText (userId : String) (i : TaskInfo) : List Char :=
  splice (updatePieces (cStr (tableName userId)) (cStr i.fileName) (cStr i.task.param.id) i) []

def deletePieces (table id : List Char) : List (List Char × List Char) :=
  [("DELETE FROM ".toList, table), (" WHERE id=".toList, id)]

def deleteText (userId taskId : String) : List Char :=
  splice (deletePieces (cStr (tableName userId)) (cStr taskId)) []

def insertTail : List Char :=
  " (id, source, save_path, download_type, file_name, file_size, total_progress, download_speed, ".toList ++
    "upload_speed, task_status, create_time, finish_time, delete_time, err_code, is_started) ".toList ++
    "VALUES (?,?,?,?,?,?,?,?,?,?,?,?,?,?,?)".toList

def insertText (userId : String) : List Char :=
  splice [("INSERT INTO ".toList, cStr (tableName userId))] insertTail

/-- `AddTaskInfo`, once the table exists: the values are bound, only the name of the table is put
between quotes. A text that is not this insert, or an insert that fails, changes nothing. -/
def addTaskInfo (db : Db) (userId : String) (i : TaskInfo) : Db :=
  match db (fold (tableName userId)), lex (insertText userId) with
  | some _, .word "INSERT" :: .word "INTO" :: .text name :: tail =>
    if tail = lex insertTail then db.modify name fun t => (t.insert (values i)).getD t else db
  | _, _ => db

def executeFor (db : Db) (userId : String) (sql : List Char) : Db :=
  match db (fold (tableName userId)) with
  | none => db
  | some _ => (execute db sql).1

def updateTaskInfo (db : Db) (userId : String) (i : TaskInfo) : Db :=
  executeFor db userId (updateText userId i)

def deleteTaskInfo (db : Db) (userId taskId : String) : Db :=
  executeFor db userId (deleteText userId taskId)

def readRow (row : List Value) : Option TaskInfo :=
  let column (k : Nat) : Value := (row[k]?).getD .null
  match DownloadType.ofCode (column 3).toInt, TaskStatus.ofCode (column 9).toInt with
  | some type, some status =>
    some
      { task :=
          { param :=
              { id := (column 0).toText, url := (column 1).toText, savePath := (column 2).toText,
                fileName := (column 4).toText, type, isFromDbResume := true,
                torrent := if type.isBt then some {} else none }
            taskStatus := status, taskCategory := TaskBase.categoryOf status .kDownloadingTask
            totalProgress := (column 6).toInt, createTime := (column 10).toInt
            finishTime := (column 11).toInt, deleteTime := (column 12).toInt
            errCode := ⟨(column 13).toInt⟩, isStarted := (column 14).toInt ≠ 0 }
        fileName := (column 4).toText, fileSize := (column 5).toInt
        downloadSpeed := (column 7).toInt, uploadSpeed := (column 8).toInt }
  | _, _ => none

def getTaskInfoList (db : Db) (userId : String) : List TaskInfo :=
  match db (fold (tableName userId)) with
  | none => []
  | some t => t.rows.filterMap readRow

end DownloadInfoStore

end Nas.Download
