import Mathlib.Data.List.Infix
import NasServices.Download.Task.TaskBase

/-!
# Making a task from its parameter

`TaskFactory::CreateTask` classifies the url and makes a task of the class
for it. The parameter object was made earlier, by the request handler or the
database reader, and the factory does not look at its dynamic type.
-/

namespace Nas.Download

structure Host extends Answer where
  /-- The save path exists or could be created. -/
  createSavePath : Bool := true
  isProtectedPath : Bool := false
  hasWriteAccess : Bool := true
  pathExists : String → Bool := fun _ => false
  /-- `PathExists` once the torrent file has been copied. -/
  pathExistsLater : String → Bool := fun _ => false
  isLoadedNetMule : Bool := true
  isLoadedNetBt : Bool := true
  isLoadedNetCurl : Bool := true
  /-- The BitTorrent library returned an adapter object. -/
  hasImpl : Bool := true
  /-- Where `ModifyTorrentPath` copied the torrent file to, if it could. -/
  copyFile : Option String := none
  taskHash : String := ""
  /-- `utils::IsValid` on a link, with the url it leaves behind. -/
  isValidUrl : String → Option String := some
  /-- The engine's `CheckCondition` for ed2k and BitTorrent tasks. -/
  checkCondition : DownloadErrorCode := .kNormal

namespace TaskFactory

/-- `GetDownloadType`. The schemes are compared on the text before the first NUL, in
lower case; an existing file whose path contains ".torrent" is a torrent
before any scheme but ed2k is looked at. -/
def getDownloadType (pathExists : String → Bool) (url : String) : DownloadType :=
  let str := (url.toList.takeWhile (· ≠ '\x00')).map Char.toLower
  if str.take 7 = "ed2k://".toList then .kEd2k
  else if pathExists url ∧ ".torrent".toList <:+: url.toList then .kTorrent
  else if str.take 20 = "magnet:?xt=urn:btih:".toList then .kMagnet
  else if str.take 7 = "http://".toList then .kHttp
  else if str.take 8 = "https://".toList then .kHttps
  else if str.take 6 = "ftp://".toList then .kFtp
  else if str.take 7 = "ftps://".toList then .kFtps
  else if str.take 7 = "sftp://".toList then .kSftp
  else .kUnknown

def isLoaded (h : Host) : DownloadType → Bool
  | .kUnknown => false
  | .kEd2k => h.isLoadedNetMule
  | .kTorrent | .kMagnet => h.isLoadedNetBt
  | .kHttp | .kHttps | .kFtp | .kFtps | .kSftp => h.isLoadedNetCurl

/-- What the constructors do to the parameter: a new torrent task copies its
file and points the url at the copy, and every class stores the engine's hash. -/
def construct (param : TaskParam) (h : Host) : TaskParam :=
  let param := { param with type := getDownloadType h.pathExists param.url }
  if param.type.isBt then
    if param.isFromDbResume then { param with hash := h.taskHash }
    else if !h.hasImpl then param
    else if param.type = .kTorrent then
      { param with url := h.copyFile.getD param.url, hash := h.taskHash }
    else { param with hash := h.taskHash }
  else { param with hash := h.taskHash }

/-- The constructors set the type, and may change the url and the hash. -/
theorem construct_eq (param : TaskParam) (h : Host) : ∃ url hash,
    construct param h = { param with type := getDownloadType h.pathExists param.url, url, hash } := by
  unfold construct
  dsimp only
  split
  · split
    · exact ⟨_, _, rfl⟩
    · split
      · exact ⟨_, _, rfl⟩
      · split <;> exact ⟨_, _, rfl⟩
  · exact ⟨_, _, rfl⟩

theorem construct_url (param : TaskParam) (h : Host) : (construct param h).url =
    if getDownloadType h.pathExists param.url = .kTorrent ∧ param.isFromDbResume = false ∧ h.hasImpl = true then
      h.copyFile.getD param.url
    else param.url := by
  unfold construct
  generalize getDownloadType h.pathExists param.url = type
  cases h.hasImpl <;> cases param.isFromDbResume <;> cases type <;> rfl

def createTask (param : TaskParam) (h : Host) : Option TaskBase :=
  let param := construct param h
  if isLoaded h param.type then
    some { param, hasImpl := h.hasImpl || !param.type.isBt, createTime := h.now }
  else none

/-- A task object that is made has the constructed parameter, and the library of its class. -/
theorem createTask_eq {param : TaskParam} {h : Host} {t : TaskBase} (ht : createTask param h = some t) :
    t.param = construct param h ∧ t.hasImpl = (h.hasImpl || !t.param.type.isBt) ∧
      isLoaded h t.param.type = true := by
  simp only [createTask] at ht
  split at ht
  · rename_i hload
    obtain rfl := Option.some.inj ht
    exact ⟨rfl, rfl, hload⟩
  · cases ht

/-- The parameter that is read from a row keeps its url. -/
theorem construct_row (r : TaskBase.Row) (h : Host) : construct r.param h = { r.param with
    type := getDownloadType h.pathExists r.source, hash := h.taskHash } := by
  simp only [construct]
  split <;> rfl

end TaskFactory

end Nas.Download
