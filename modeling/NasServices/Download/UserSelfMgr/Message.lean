import NasServices.Download.UserSelfMgr.Request

/-!
# The message that answers a request

`AssembleMessage` puts the two lists of a request into a message and gives it
an error code: that of the operation if a task has failed. What goes out is the
code together with its source (`GetTransErrorNo`).
-/

namespace Nas.Download

inductive TaskOperation
  | kCreate | kParse | kPause | kPauseAll | kResume | kResumeAll | kDelete | kDeleteCategory | kRetry
  | kRetryAll | kClean | kCleanCategory | kRestore | kRestoreAll
  deriving DecidableEq, Repr

def getAction : TaskOperation → String
  | .kCreate => "create"
  | .kPause => "pause"
  | .kPauseAll => "pause_all"
  | .kResume => "resume"
  | .kResumeAll => "resume_all"
  | .kDelete => "delete"
  | .kDeleteCategory => "delete_category"
  | .kRetry => "retry"
  | .kRetryAll => "retry_all"
  | .kClean => "clean"
  | .kCleanCategory => "clean_category"
  | .kRestore => "restore"
  | .kRestoreAll => "restore_all"
  | .kParse => ""

def kDownloadService : BitVec 32 := 0x17

def kErrorSourceMaskCode : BitVec 32 := 0xFFFF0000

def getTransErrorNo (err : BitVec 32) : Int :=
  if err ≠ 0 ∧ err &&& kErrorSourceMaskCode = 0 then
    (((kDownloadService <<< 16) &&& kErrorSourceMaskCode) + err).toInt
  else err.toInt

def downloadErrNoToOutErrNo (err : DownloadErrorCode) : Int := getTransErrorNo (BitVec.ofInt 32 err.code)

structure Message where
  action : String
  successList : List SuccessData
  failedList : List FailedData
  operationId : String
  errno : Int
  error : DownloadErrorCode

def assembleError (operation : TaskOperation) (error : DownloadErrorCode) (failed : Bool) : DownloadErrorCode :=
  if failed then
    match operation with
    | .kCreate => if error = .kNormal then .kCreateTaskFailed else error
    | .kPause | .kPauseAll => .kPauseTaskFailed
    | .kResume | .kResumeAll => .kResumeTaskFailed
    | .kDelete | .kDeleteCategory => .kDeleteTaskFailed
    | .kRetry | .kRetryAll => .kRetryTaskFailed
    | .kClean | .kCleanCategory => .kCleanTaskFailed
    | .kRestore | .kRestoreAll => .kRestoreTaskFailed
    | .kParse => error
  else error

def assembleMessage (operation : TaskOperation) (callId : String) (r : Reply)
    (error : DownloadErrorCode := .kNormal) : Message :=
  let error := assembleError operation error (!r.failedList.isEmpty)
  { action := getAction operation, successList := r.successList, failedList := r.failedList,
    operationId := callId, errno := downloadErrNoToOutErrNo error, error }

/-- The message of every operation but a parse is normal exactly if no task has failed. -/
theorem errno_assembleMessage_iff {operation : TaskOperation} (hparse : operation ≠ .kParse) (callId : String)
    (r : Reply) :
    (assembleMessage operation callId r).errno = downloadErrNoToOutErrNo .kNormal ↔
      (assembleMessage operation callId r).failedList = [] := by
  have hnormal : ∀ failed, operation ≠ .kParse →
      (downloadErrNoToOutErrNo (assembleError operation .kNormal failed) = downloadErrNoToOutErrNo .kNormal ↔
        failed = false) := by
    cases operation <;> decide
  have herrno := hnormal (!r.failedList.isEmpty) hparse
  rw [Bool.not_eq_false', List.isEmpty_iff] at herrno
  exact herrno

/-! ## Requests that name tasks -/

inductive IdRequest
  | pause | resume | retry | restore | clean
  | delete (isDeleteLocalFile : Bool)
  deriving DecidableEq, Repr

namespace IdRequest

def operation : IdRequest → TaskOperation
  | .pause => .kPause
  | .resume => .kResume
  | .retry => .kRetry
  | .restore => .kRestore
  | .clean => .kClean
  | .delete _ => .kDelete

def run (m : UserSelfMgr) (queue ids : List String) (ω : Nat → Answer) : IdRequest → UserSelfMgr × Reply
  | .pause => m.pause ids ω
  | .resume => m.resume queue ids ω
  | .retry => m.retry queue ids ω
  | .restore => m.restore queue ids ω
  | .clean => m.clean ids ω
  | .delete isDeleteLocalFile => m.delete ids isDeleteLocalFile ω

def message (req : IdRequest) (m : UserSelfMgr) (queue ids : List String) (ω : Nat → Answer) (callId : String) :
    Message := assembleMessage req.operation callId (req.run m queue ids ω).2

end IdRequest

end Nas.Download
