import NasServices.Lib.AppendFile
import NasServices.Lib.Run

/-!
# The curl download task

`CurlDownloadTaskImpl` with the `HttpDownloadTask` it owns. Two threads work
on it: the thread of the manager, which calls `Start`, `Resume`, `Reset` and
`TryReStart`, and the thread of `Perform`, which makes up to three attempts at
the download. The events are the steps of both, so that a list of events is an
interleaving of the two with the answers of the server, of libcurl and of
stdio. The manager's thread stands still while it waits for the other to quit.

The resource `R` does not change. The server answers a request for the bytes
from `n` on with `R[n..]`, or, if `n = 0`, with an error reply whose body is
arbitrary; either may break off at any point. libcurl hands every body to the
write callback, in order, and reports success only for a reply that arrived
whole. `Pause` only stops the delivery of data, so it does not show in the state.
-/

namespace Nas.NetCurl

open Lib (AppendFile)

abbrev Bytes := List UInt8

inductive CurlCode where
  | ok
  | abortedByCallback
  | partialFile
  | other
  deriving DecidableEq, Repr

inductive Reply where
  | content
  | error (body : Bytes)
  deriving DecidableEq, Repr

structure Transfer where
  /-- `CURLOPT_RESUME_FROM_LARGE`; nothing if `file_size` failed. -/
  offset : Option Nat
  body : Bytes
  /-- The HTTP status is that of an error. -/
  isError : Bool
  /-- How much of the body the write callback has accepted. -/
  received : Nat := 0
  /-- The write callback has refused data. -/
  writeFailed : Bool := false
  deriving DecidableEq, Repr

inductive Perform where
  | top (retryCount : Nat)
  | transfer (retryCount : Nat) (t : Transfer)
  deriving DecidableEq, Repr

/-- What the manager's thread is doing when it waits for `Perform` to quit. -/
inductive Wait where
  | reset
  | resumeBreakPoint
  | tryReStart
  deriving DecidableEq, Repr

structure FinalFile where
  disk : Bytes
  leaked : List Bytes
  deriving DecidableEq, Repr

structure CurlTask where
  /-- The temporary file and `file_`, the stream of `http_task_` on it. -/
  tmpFile : AppendFile UInt8 := .absent
  /-- The buffers of streams on the temporary file whose owner is gone. -/
  leaked : List Bytes := []
  finalFiles : List FinalFile := []
  thread : Option Perform := none
  cancel : Bool := false
  wait : Option Wait := none
  isStarted : Bool := false
  isHttpTaskResume : Bool := false
  deriving DecidableEq, Repr

def setparamRetryCount : Nat := 3

namespace CurlTask

/-! ## `HttpDownloadTask` -/

def createTempFile (c : CurlTask) (fopen : Bool) : CurlTask × Bool :=
  if c.tmpFile.isOpen then (c, true)
  else if fopen then ({ c with tmpFile := c.tmpFile.openAppend }, true)
  else (c, false)

def closeFile (c : CurlTask) : CurlTask := { c with tmpFile := c.tmpFile.close }

/-- `SetFileSize`, with the offset it gives to libcurl. The size is read first; the seek
then flushes the stream. -/
def setFileSize (c : CurlTask) : CurlTask × Option Nat :=
  ({ c with tmpFile := c.tmpFile.seekEnd }, c.tmpFile.size)

def writeFileData (c : CurlTask) (data : Bytes) (flushed : Nat) : CurlTask × Bool :=
  if c.tmpFile.isOpen then ({ c with tmpFile := c.tmpFile.write data flushed }, true)
  else (c, false)

def httpStart (c : CurlTask) : CurlTask :=
  { c with thread := some (.top setparamRetryCount) }

def request (R : Bytes) (offset : Option Nat) : Reply → Transfer
  | .content => { offset, body := R.drop (offset.getD 0), isError := false }
  | .error body =>
    if offset = some 0 then { offset, body, isError := true }
    else { offset, body := R.drop (offset.getD 0), isError := false }

/-- What `curl_easy_perform` returns: data that was refused is a write error, and success
needs the whole body. -/
def curlCode (t : Transfer) (code : CurlCode) : CurlCode :=
  if t.writeFailed then .other
  else if code = .ok ∧ t.received < t.body.length then .other
  else code

inductive Next where
  | leave
  | quit
  | again
  deriving DecidableEq, Repr

def next (retryCount : Nat) (cancel : Bool) (code : CurlCode) : Next :=
  if code = .ok then .leave
  else if code = .abortedByCallback ∨ cancel then .leave
  else if code = .partialFile then .quit
  else if retryCount - 1 = 0 then .leave
  else .again

/-! ## `CurlDownloadTaskImpl` -/

/-- `RenameTempFile`, after the stream has been closed; `renamed` is the success of the
rename. A stream that was leaked on the temporary file moves with it. -/
def renameTempFile (c : CurlTask) (renamed : Bool) : CurlTask :=
  match c.tmpFile.disk? with
  | some disk =>
    if renamed then
      { c with
        tmpFile := .absent, leaked := [], finalFiles := ⟨disk, c.leaked⟩ :: c.finalFiles }
    else c
  | none => c

def taskUpdate (c : CurlTask) (code : CurlCode) (isError renamed : Bool) : CurlTask :=
  if code ≠ .ok then c
  else if isError then c
  else c.renameTempFile renamed

def start (c : CurlTask) (fopen : Bool) : CurlTask :=
  if (c.createTempFile fopen).2 then { (c.createTempFile fopen).1.httpStart with isStarted := true }
  else (c.createTempFile fopen).1

def waitThreadQuit (c : CurlTask) (wait : Wait) : CurlTask :=
  { c with cancel := true, wait := some wait }

def resumeBreakPoint (c : CurlTask) (fopen : Bool) : CurlTask :=
  if (c.createTempFile fopen).2 ∧ (c.createTempFile fopen).1.tmpFile.disk?.isSome then
    (c.createTempFile fopen).1.waitThreadQuit .resumeBreakPoint
  else (c.createTempFile fopen).1

def resume (c : CurlTask) (isFailed fopen : Bool) : CurlTask :=
  if !c.isStarted || isFailed then c.resumeBreakPoint fopen
  else { c with isHttpTaskResume := true }

def tryReStart (c : CurlTask) (elapsed : Nat) : CurlTask :=
  if c.isHttpTaskResume ∧ elapsed > 120 then c.waitThreadQuit .tryReStart else c

/-- `InitTask` in place of an `http_task_` that has been destroyed. The destructor does not
close `file_`. -/
def initTask (c : CurlTask) : CurlTask :=
  { c with
    tmpFile := c.tmpFile.drop
    leaked := if c.tmpFile.isOpen then c.tmpFile.unflushed :: c.leaked else c.leaked
    thread := none
    cancel := false }

def quitted (c : CurlTask) (fopen : Bool) : Wait → CurlTask
  | .reset => { c with cancel := false }
  | .resumeBreakPoint => { c with cancel := false, isStarted := true }.httpStart
  | .tryReStart => c.initTask.start fopen

def flushLeaked (leaked : List Bytes) : AppendFile UInt8 → AppendFile UInt8
  | .closed disk => .closed (disk ++ leaked.flatten)
  | f => f

/-- The process ends, with `flushed` by `exit`, and the service creates the task anew on
the same temporary file. -/
def restart (c : CurlTask) (flushed : Bool) : CurlTask :=
  if flushed then
    { tmpFile := flushLeaked c.leaked c.tmpFile.close
      finalFiles := c.finalFiles.map fun f => ⟨f.disk ++ f.leaked.flatten, []⟩ }
  else
    { tmpFile := c.tmpFile.drop, finalFiles := c.finalFiles.map fun f => ⟨f.disk, []⟩ }

/-! ## The thread of `Perform` -/

def attempt (R : Bytes) (c : CurlTask) (reply : Reply) : CurlTask :=
  match c.thread with
  | some (.top retryCount) =>
    { c.setFileSize.1 with
      thread := some (.transfer retryCount (request R c.setFileSize.2 reply)) }
  | _ => c

/-- The next `n` bytes of the body come to the write callback. After a refusal none come. -/
def receive (c : CurlTask) (n flushed : Nat) : CurlTask :=
  match c.thread with
  | some (.transfer retryCount t) =>
    let data := (t.body.drop t.received).take n
    if t.writeFailed ∨ data = [] then c
    else if (c.writeFileData data flushed).2 then
      { (c.writeFileData data flushed).1 with
        thread := some (.transfer retryCount { t with received := t.received + n }) }
    else { c with thread := some (.transfer retryCount { t with writeFailed := true }) }
  | _ => c

def finish (c : CurlTask) (code : CurlCode) (renamed : Bool) : CurlTask :=
  match c.thread with
  | some (.transfer retryCount t) =>
    match next retryCount c.cancel (curlCode t code) with
    | .leave => { c.closeFile with thread := none }.taskUpdate (curlCode t code) t.isError renamed
    | .quit => { c with thread := none }
    | .again => { c with thread := some (.top (retryCount - 1)) }
  | _ => c

end CurlTask

/-! ## Events -/

inductive Event where
  | start (fopen : Bool)
  | pause
  | resume (isFailed fopen : Bool)
  | resumeBreakPoint (fopen : Bool)
  | reset
  /-- `elapsed` seconds after the last pause. -/
  | tryReStart (elapsed : Nat)
  | quitted (fopen : Bool)
  | attempt (reply : Reply)
  | receive (n flushed : Nat)
  | finish (code : CurlCode) (renamed : Bool)
  | restart (flushed : Bool)
  deriving DecidableEq, Repr

namespace CurlTask

def manage (c : CurlTask) (f : CurlTask → CurlTask) : CurlTask :=
  if c.wait.isSome then c else f c

def step (R : Bytes) (c : CurlTask) : Event → CurlTask
  -- `LinkTask::Start` starts a task once
  | .start fopen => c.manage fun c => if c.isStarted then c else c.start fopen
  | .pause => c
  | .resume isFailed fopen => c.manage (·.resume isFailed fopen)
  | .resumeBreakPoint fopen => c.manage (·.resumeBreakPoint fopen)
  | .reset => c.manage (·.waitThreadQuit .reset)
  | .tryReStart elapsed => c.manage (·.tryReStart elapsed)
  | .quitted fopen =>
    match c.wait, c.thread with
    | some wait, none => { c with wait := none }.quitted fopen wait
    | _, _ => c
  | .attempt reply => c.attempt R reply
  | .receive n flushed => c.receive n flushed
  | .finish code renamed => c.finish code renamed
  | .restart flushed => c.restart flushed

end CurlTask

end Nas.NetCurl
