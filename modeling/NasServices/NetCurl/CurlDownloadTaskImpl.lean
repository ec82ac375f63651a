import NasServices.Download.Task.CommonDefine
import NasServices.NetCurl.CurlDownloadTask

/-!
# What the curl engine reports

`CurlDownloadTaskImpl` as its task sees it: the answers of its calls, and the
progress and the error code it reports. Of the transfer thread there is only
whether it is running and whether libcurl has been told to pause it. What the
file system, the server and libcurl do during a call is a `Call`; a transfer
reports any progress and ends with any result.

A call that waits for the thread to quit is one step. In that time the thread
comes to its end as `Call.result` says, with `cancel_` set.
-/

namespace Nas.NetCurl

open Download (DownloadErrorCode)

def CurlCode.ofCode : Nat → CurlCode
  | 0 => .ok
  | 18 => .partialFile
  | 42 => .abortedByCallback
  | _ => .other

/-- How an attempt ends: what `curl_easy_perform` returns, the response code of the server, and
whether the temporary file can be moved. -/
structure Result where
  curlCode : Nat := 0
  responseCode : Nat := 200
  renamed : Bool := true

structure Call where
  fopen : Bool := true
  pathExists : Bool := true
  fileSize : Nat := 0
  /-- How a thread ends that is waited for. -/
  result : Result := { curlCode := 42 }

/-- `thread_`, with where `Perform` stands. -/
inductive Thread
  | none
  | running (retryCount : Nat) (paused : Bool)
  /-- `Perform` has returned; the thread has not been joined. -/
  | done
  deriving DecidableEq

def Thread.isRunning : Thread → Bool
  | .running .. => true
  | .none | .done => false

def Thread.isPaused : Thread → Bool
  | .running _ paused => paused
  | .none | .done => false

/-! ## `HttpDownloadTask` -/

structure HttpDownloadTask where
  thread : Thread := .none
  isFileOpen : Bool := false
  firstHasTotalValue : Bool := true
  fileInitSize : Nat := 0
  fileTotalSize : Nat := 0

namespace HttpDownloadTask

def createTempFile (h : HttpDownloadTask) (c : Call) : HttpDownloadTask × Bool :=
  if h.isFileOpen then (h, true) else ({ h with isFileOpen := c.fopen }, c.fopen)

/-- `NetworkTask::Start`, and `SetFileSize` of the first attempt. -/
def start (h : HttpDownloadTask) (c : Call) : HttpDownloadTask :=
  { h with thread := .running setparamRetryCount false, fileInitSize := c.fileSize }

def setPaused (h : HttpDownloadTask) (paused : Bool) : HttpDownloadTask :=
  match h.thread with
  | .running retryCount _ => { h with thread := .running retryCount paused }
  | _ => h

/-- `UpdateProgress`, with the percentage it computes. -/
def updateProgress (h : HttpDownloadTask) (dltotal dlnow : Nat) : HttpDownloadTask × ℚ :=
  if dltotal = 0 then (h, 0)
  else
    let total := if h.firstHasTotalValue then dltotal + h.fileInitSize else h.fileTotalSize
    let total := if total = 0 then dltotal else total
    ({ h with firstHasTotalValue := false, fileTotalSize := total },
      ((dlnow + h.fileInitSize) * 100 : ℚ) / total)

/-- What `UpdateProgress` returns: reports that follow within a second are dropped, but not the last. -/
def isReported (dltotal dlnow : Nat) (elapsed : Bool) : Bool := elapsed || dlnow == dltotal

def httpCode (h : HttpDownloadTask) (r : Result) : Nat :=
  if r.curlCode = 0 ∧ 0 < h.fileTotalSize ∧ r.responseCode = 0 then 200 else r.responseCode

end HttpDownloadTask

/-! ## `CurlDownloadTaskImpl` -/

structure CurlDownloadTaskImpl where
  httpTask : HttpDownloadTask := {}
  totalProgress : ℚ := 0
  errCode : DownloadErrorCode := .kNormal
  isStarted : Bool := false
  isHttpTaskResume : Bool := false
  /-- In seconds of the steady clock, whose epoch is the default. -/
  lastPauseTime : Nat := 0
  /-- `RenameTempFile` has moved the file since the download was last begun anew. -/
  inPlace : Bool := false
  /-- `std::terminate` has been called: a thread was destroyed that had not been joined. -/
  terminated : Bool := false

namespace CurlDownloadTaskImpl

def httpError (httpCode : Nat) : DownloadErrorCode :=
  let err := DownloadErrorCode.kHttpStartErrorCode.code + httpCode
  if err ≤ DownloadErrorCode.kHttpStartErrorCode.code ∨ DownloadErrorCode.kHttpError504.code < err then
    .kPerformCurlFailed
  else ⟨err⟩

def renameTempFile (e : CurlDownloadTaskImpl) (renamed : Bool) : CurlDownloadTaskImpl :=
  if renamed then { e with totalProgress := 100, inPlace := true }
  else { e with errCode := .kRenameTempFileFailed }

def taskResult (e : CurlDownloadTaskImpl) (r : Result) : CurlDownloadTaskImpl :=
  if r.curlCode ≠ 0 then
    { e with errCode := ⟨DownloadErrorCode.kPerformCurlStartErrorCode.code + r.curlCode⟩ }
  else if e.httpTask.httpCode r < 200 ∨ 400 ≤ e.httpTask.httpCode r then
    { e with
      errCode := httpError (e.httpTask.httpCode r)
      totalProgress := if e.totalProgress = 100 then 0 else e.totalProgress }
  else { e with errCode := .kNormal }.renameTempFile r.renamed

def taskProgress (e : CurlDownloadTaskImpl) (percent : ℚ) : CurlDownloadTaskImpl :=
  if percent < 100 then { e with totalProgress := percent } else e

def leave (e : CurlDownloadTaskImpl) (r : Result) : CurlDownloadTaskImpl :=
  { e with httpTask := { e.httpTask with thread := .done, isFileOpen := false } }.taskResult r

def waitThreadQuit (e : CurlDownloadTaskImpl) (r : Result) : CurlDownloadTaskImpl :=
  match e.httpTask.thread with
  | .running .. => e.leave r
  | _ => e

def httpReset (e : CurlDownloadTaskImpl) (c : Call) : CurlDownloadTaskImpl :=
  let e := e.waitThreadQuit c.result
  { e with httpTask := { e.httpTask with thread := .none } }

def start (e : CurlDownloadTaskImpl) (c : Call) : CurlDownloadTaskImpl × DownloadErrorCode :=
  match e.httpTask.createTempFile c with
  | (h, false) => ({ e with httpTask := h }, .kCreateFileFailed)
  | (h, true) =>
    ({ e with
        httpTask := h.start c
        isStarted := true
        terminated := e.terminated || decide (h.thread ≠ .none) }, .kNormal)

def pause (e : CurlDownloadTaskImpl) (now : Nat) : CurlDownloadTaskImpl :=
  { e with httpTask := e.httpTask.setPaused true, lastPauseTime := now }

def resumeBreakPoint (e : CurlDownloadTaskImpl) (c : Call) : CurlDownloadTaskImpl × Bool :=
  match e.httpTask.createTempFile c with
  | (h, false) => ({ e with httpTask := h }, false)
  | (h, true) =>
    if c.pathExists then
      let e := { e with httpTask := h }.httpReset c
      ({ e with httpTask := e.httpTask.start c, isStarted := true }, true)
    else ({ e with httpTask := h }, false)

def resume (e : CurlDownloadTaskImpl) (isFailed : Bool) (c : Call) : CurlDownloadTaskImpl × Bool :=
  if !e.isStarted then e.resumeBreakPoint c
  else if isFailed then
    match e.resumeBreakPoint c with
    | (e, true) => ({ e with errCode := .kNormal }, true)
    | (e, false) => (e, false)
  else ({ e with httpTask := e.httpTask.setPaused false, isHttpTaskResume := true }, true)

def reset (e : CurlDownloadTaskImpl) (c : Call) : CurlDownloadTaskImpl :=
  { e with totalProgress := 0, errCode := .kNormal, inPlace := false }.httpReset c

def getProgressInfo (e : CurlDownloadTaskImpl) (totalProgress : ℚ) : CurlDownloadTaskImpl :=
  if |e.totalProgress - 0| < 1 / 10000 ∧ totalProgress ≠ 0 then { e with totalProgress } else e

def initTask (e : CurlDownloadTaskImpl) (c : Call) : CurlDownloadTaskImpl :=
  { e.waitThreadQuit c.result with httpTask := {}, errCode := .kNormal }

def willReStart (e : CurlDownloadTaskImpl) (now : Nat) : Bool :=
  e.isHttpTaskResume && decide (120 < now - e.lastPauseTime)

def tryReStart (e : CurlDownloadTaskImpl) (now : Nat) (c : Call) : CurlDownloadTaskImpl :=
  if e.willReStart now then ((e.initTask c).start c).1 else e

def progress (e : CurlDownloadTaskImpl) (dltotal dlnow : Nat) (elapsed : Bool) : CurlDownloadTaskImpl :=
  match e.httpTask.thread with
  | .running .. =>
    let e' := { e with httpTask := (e.httpTask.updateProgress dltotal dlnow).1 }
    if HttpDownloadTask.isReported dltotal dlnow elapsed then
      e'.taskProgress (e.httpTask.updateProgress dltotal dlnow).2
    else e'
  | _ => e

def finish (e : CurlDownloadTaskImpl) (r : Result) (fileSize : Nat) : CurlDownloadTaskImpl :=
  match e.httpTask.thread with
  | .running retryCount _ =>
    match CurlTask.next retryCount false (.ofCode r.curlCode) with
    | .leave => e.leave r
    | .quit => { e with httpTask := { e.httpTask with thread := .done } }
    | .again =>
      { e with
        httpTask := { e.httpTask with thread := .running (retryCount - 1) false, fileInitSize := fileSize } }
  | _ => e

end CurlDownloadTaskImpl

end Nas.NetCurl
