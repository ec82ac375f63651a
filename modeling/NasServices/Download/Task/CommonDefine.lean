import Mathlib.Data.Rat.Defs
import Mathlib.Algebra.Order.Field.Rat

/-!
# Statuses, categories and parameters of a download task

The enumerations and parameter records of `task_common_define.h` and
`download_public_define.h`. A `TorrentTaskParam` is a `TaskParam` with a
torrent part: `TaskParam.torrent` holds it, so `torrent.isSome` says that the
object's dynamic type is `TorrentTaskParam`. Error codes are integers, since
the source casts curl and http codes to `DownloadErrorCode`.
-/

namespace Nas.Download

inductive TaskStatus
  | kDownloading | kWaitting | kPaused | kFailed | kFinished
  | kDeleted | kCompletedDeleted | kParsing | kSeeding | kChecking
  deriving DecidableEq, Repr

inductive TaskCategory
  | kAll | kUnkownnTask | kDownloadingTask | kFinishedTask | kRecyclebinTask | kSeedingTask
  deriving DecidableEq, Repr

inductive DownloadType
  | kUnknown | kEd2k | kTorrent | kMagnet | kHttp | kHttps | kFtp | kFtps | kSftp
  deriving DecidableEq, Repr

def DownloadType.isBt : DownloadType → Bool
  | .kTorrent | .kMagnet => true
  | _ => false

structure DownloadErrorCode where
  code : Int
  deriving DecidableEq, Repr

namespace DownloadErrorCode

def kNormal : DownloadErrorCode := ⟨0⟩
def kTaskIdIsNotExist : DownloadErrorCode := ⟨2⟩
def kTaskIdExisted : DownloadErrorCode := ⟨3⟩
def kCreateTaskFailed : DownloadErrorCode := ⟨4⟩
def kAddTaskFailed : DownloadErrorCode := ⟨5⟩
def kCreateDirFailed : DownloadErrorCode := ⟨6⟩
def kPerformFailed : DownloadErrorCode := ⟨7⟩
def kFileMissing : DownloadErrorCode := ⟨8⟩
def kExistSameTask : DownloadErrorCode := ⟨9⟩
def kCreateFileFailed : DownloadErrorCode := ⟨10⟩
def kRenameTempFileFailed : DownloadErrorCode := ⟨11⟩
def kFileNameExisted : DownloadErrorCode := ⟨13⟩
def kProtectedPath : DownloadErrorCode := ⟨16⟩
def kInvalidFileName : DownloadErrorCode := ⟨17⟩
def kCurlUrlInvalid : DownloadErrorCode := ⟨1001⟩
def kPerformCurlFailed : DownloadErrorCode := ⟨1003⟩
def kPerformCurlStartErrorCode : DownloadErrorCode := ⟨1100⟩
def kAddTorrentTaskFailed : DownloadErrorCode := ⟨4002⟩
def kPauseTaskFailed : DownloadErrorCode := ⟨5000⟩
def kResumeTaskFailed : DownloadErrorCode := ⟨5100⟩
def kDeleteTaskFailed : DownloadErrorCode := ⟨5200⟩
def kDeleteLocalFileFailed : DownloadErrorCode := ⟨5201⟩
def kRetryTaskFailed : DownloadErrorCode := ⟨5300⟩
def kCleanTaskFailed : DownloadErrorCode := ⟨5400⟩
def kRestoreTaskFailed : DownloadErrorCode := ⟨5500⟩
def kHttpStartErrorCode : DownloadErrorCode := ⟨10000⟩
def kHttpError504 : DownloadErrorCode := ⟨10504⟩

end DownloadErrorCode

structure TorrenFileItemSelect where
  index : Int
  isSelected : Bool
  deriving DecidableEq, Repr

structure TorrentPart where
  torrentItemSelectList : List TorrenFileItemSelect := []
  selectedCount : Nat := 0
  isPrivateCloudSource : Bool := false
  isDownloadNow : Bool := false
  frontTransUrl : String := ""
  deriving DecidableEq, Repr

structure TaskParam where
  id : String
  url : String
  savePath : String := ""
  fileName : String := ""
  fileSize : Int := 0
  type : DownloadType := .kUnknown
  hash : String := ""
  isFromDbResume : Bool := false
  /-- The torrent part of an object made as a `TorrentTaskParam`. -/
  torrent : Option TorrentPart := none
  deriving DecidableEq, Repr

abbrev TorrentList := { s : String // s ≠ "" }

end Nas.Download
