import NasServices.Download.UserSelfMgr.Create
import NasServices.Lib.Decimal
import NasServices.Lib.Json

/-!
# The records of the media server

The ffmpeg tool writes what it finds in a media file as JSON, and the media server
reads it. Each record writes itself into a dictionary (`toJsonObj`) and reads itself
from one (`fromJsonObj`); a key that is not found leaves its field as it is. Some of
the numbers are written as text. The metadata of every record are a dictionary below
the key `"metadata"`, for which the readers look as for a list.

Paths are on a system whose native text is UTF-8.
-/

namespace Nas.Media

open Lib.Json (Value Double)

structure FilePath where
  value : List Char
  noNul : '\x00' ∉ value
  deriving DecidableEq

namespace FilePath

instance : EmptyCollection FilePath := ⟨⟨[], List.not_mem_nil⟩⟩

def fromU8 (path : String) : FilePath where
  value := Download.baseFilePathFromU8 path
  noNul hmem := by simpa using List.mem_takeWhile_imp hmem

def asUTF8Unsafe (p : FilePath) : String := String.ofList p.value

end FilePath

structure MediaMetadata where
  entries : List (String × String)
  sorted : Lib.Sorted entries
  deriving DecidableEq

namespace MediaMetadata

instance : EmptyCollection MediaMetadata := ⟨⟨[], List.Pairwise.nil⟩⟩

def insert (m : MediaMetadata) (key value : String) : MediaMetadata :=
  ⟨Lib.insertKey key value m.entries, m.sorted.insertKey key value⟩

def jsonMetadata (m : MediaMetadata) : Value :=
  m.entries.foldl (fun d e => d.setStringKey e.1 e.2) (.dict [])

def toJsonObj (m : MediaMetadata) (j : Value) : Value := j.setKey "metadata" m.jsonMetadata

def read (m : MediaMetadata) (e : String × Value) : MediaMetadata :=
  match e.2.getIfString with
  | none => m
  | some value => if e.1.isEmpty then m else m.insert e.1 value

def fromJson (m : MediaMetadata) (j : Value) : MediaMetadata :=
  match j.getIfDict with
  | none => m
  | some entries => entries.foldl read m

def fromJsonObj (m : MediaMetadata) (j : Value) : MediaMetadata :=
  match j.findListKey "metadata" with
  | some d => m.fromJson d
  | none => m

end MediaMetadata

def toString64 (n : Int64) : String := String.ofList (Lib.intText n.toInt)
def toString32 (n : Int32) : String := String.ofList (Lib.intText n.toInt)

/-- `base::StringToInt64` and `base::StringToInt`: the number that is read, also when the text is
not one. -/
def stringToInt64 (text : String) : Int64 :=
  .ofInt (Lib.readInt Int64.minValue.toInt Int64.maxValue.toInt text.toList)
def stringToInt (text : String) : Int32 :=
  .ofInt (Lib.readInt Int32.minValue.toInt Int32.maxValue.toInt text.toList)

structure MediaBasicInfo where
  localPath : FilePath := ∅
  title : String := ""
  fileSize : Int64 := 0
  mediaContainer : String := ""
  durationMs : Int64 := 0
  width : Int32 := 0
  height : Int32 := 0
  totalBitrate : Int32 := 0
  hasSubtitle : Bool := false
  metadata : MediaMetadata := ∅
  deriving DecidableEq

namespace MediaBasicInfo

def toJsonObj (r : MediaBasicInfo) (j : Value) : Value :=
  let j := j.setStringKey "path" r.localPath.asUTF8Unsafe
  let j := j.setStringKey "title" r.title
  let j := j.setStringKey "size" (toString64 r.fileSize)
  let j := j.setStringKey "container" r.mediaContainer
  let j := j.setStringKey "duration" (toString64 r.durationMs)
  let j := j.setStringKey "width" (toString32 r.width)
  let j := j.setStringKey "height" (toString32 r.height)
  let j := j.setStringKey "total_bitrate" (toString32 r.totalBitrate)
  let j := j.setBoolKey "has_subtitle" r.hasSubtitle
  r.metadata.toJsonObj j

def fromJsonObj (r : MediaBasicInfo) (j : Value) : MediaBasicInfo where
  mediaContainer := (j.findStringKey "container").getD r.mediaContainer
  localPath := ((j.findStringKey "path").map .fromU8).getD r.localPath
  title := (j.findStringKey "title").getD r.title
  fileSize := ((j.findStringKey "size").map stringToInt64).getD r.fileSize
  durationMs := ((j.findStringKey "duration").map stringToInt64).getD r.durationMs
  width := ((j.findStringKey "width").map stringToInt).getD r.width
  height := ((j.findStringKey "height").map stringToInt).getD r.height
  totalBitrate := ((j.findStringKey "total_bitrate").map stringToInt).getD r.totalBitrate
  hasSubtitle := (j.findBoolKey "has_subtitle").getD r.hasSubtitle
  metadata := r.metadata.fromJsonObj j

end MediaBasicInfo

structure MediaStream where
  streamIndex : Int32 := 0
  codecId : Int32 := 0
  codecName : String := ""
  codecLongName : String := ""
  title : String := ""
  language : String := ""
  bitrate : Int32 := 0
  metadata : MediaMetadata := ∅
  deriving DecidableEq

namespace MediaStream

def toJsonObj (r : MediaStream) (j : Value) : Value :=
  let j := j.setIntKey "stream_index" r.streamIndex
  let j := j.setIntKey "codec_id" r.codecId
  let j := j.setStringKey "codec_name" r.codecName
  let j := j.setStringKey "codec_long_name" r.codecLongName
  let j := j.setStringKey "title" r.title
  let j := j.setStringKey "language" r.language
  let j := j.setIntKey "bitrate" r.bitrate
  r.metadata.toJsonObj j

def fromJsonObj (r : MediaStream) (j : Value) : MediaStream where
  streamIndex := (j.findIntKey "stream_index").getD r.streamIndex
  codecId := (j.findIntKey "codec_id").getD r.codecId
  codecName := (j.findStringKey "codec_name").getD r.codecName
  codecLongName := (j.findStringKey "codec_long_name").getD r.codecLongName
  title := (j.findStringKey "title").getD r.title
  language := (j.findStringKey "language").getD r.language
  bitrate := (j.findIntKey "bitrate").getD r.bitrate
  metadata := r.metadata.fromJsonObj j

end MediaStream

structure HDRInfo where
  colorPrimaries : Int32 := 0
  colorTrc : Int32 := 0
  colorSpace : Int32 := 0
  deriving DecidableEq

namespace HDRInfo

def toJsonObj (r : HDRInfo) (j : Value) : Value :=
  let hdr := (Value.dict []).setIntKey "color_primaries" r.colorPrimaries
  let hdr := hdr.setIntKey "color_trc" r.colorTrc
  let hdr := hdr.setIntKey "color_space" r.colorSpace
  j.setKey "hdr" hdr

def fromJsonObj (r : HDRInfo) (j : Value) : Option HDRInfo :=
  (j.findDictKey "hdr").map fun hdr =>
    { colorPrimaries := (hdr.findIntKey "color_primaries").getD r.colorPrimaries
      colorTrc := (hdr.findIntKey "color_trc").getD r.colorTrc
      colorSpace := (hdr.findIntKey "color_space").getD r.colorSpace }

end HDRInfo

structure VideoStream extends MediaStream where
  profile : String := ""
  level : Int32 := 0
  aspectRatio : String := ""
  realFrameBitrate : Double := {}
  avgFrameBitrate : Double := {}
  rotate : Int32 := 0
  hdrInfo : Option HDRInfo := none
  deriving DecidableEq

namespace VideoStream

def toJsonObj (r : VideoStream) (j : Value) : Value :=
  let j := r.toMediaStream.toJsonObj j
  let j := j.setStringKey "profile" r.profile
  let j := j.setIntKey "level" r.level
  let j := j.setStringKey "aspect_ratio" r.aspectRatio
  let j := j.setDoubleKey "real_frame_bitrate" r.realFrameBitrate
  let j := j.setDoubleKey "avg_frame_bitrate" r.avgFrameBitrate
  let j := j.setIntKey "rotate" r.rotate
  match r.hdrInfo with
  | some hdrInfo => hdrInfo.toJsonObj j
  | none => j

def fromJsonObj (r : VideoStream) (j : Value) : VideoStream where
  toMediaStream := r.toMediaStream.fromJsonObj j
  profile := (j.findStringKey "profile").getD r.profile
  level := (j.findIntKey "level").getD r.level
  aspectRatio := (j.findStringKey "aspect_ratio").getD r.aspectRatio
  realFrameBitrate := (j.findDoubleKey "real_frame_bitrate").getD r.realFrameBitrate
  avgFrameBitrate := (j.findDoubleKey "avg_frame_bitrate").getD r.avgFrameBitrate
  rotate := (j.findIntKey "rotate").getD r.rotate
  hdrInfo := (HDRInfo.fromJsonObj {} j).or r.hdrInfo

end VideoStream

structure AudioStream extends MediaStream where
  channel : Int32 := 0
  sampleRate : Int32 := 0
  deriving DecidableEq

namespace AudioStream

def toJsonObj (r : AudioStream) (j : Value) : Value :=
  let j := r.toMediaStream.toJsonObj j
  let j := j.setIntKey "channel" r.channel
  j.setIntKey "sample_rate" r.sampleRate

def fromJsonObj (r : AudioStream) (j : Value) : AudioStream where
  toMediaStream := r.toMediaStream.fromJsonObj j
  channel := (j.findIntKey "channel").getD r.channel
  sampleRate := (j.findIntKey "sample_rate").getD r.sampleRate

end AudioStream

structure SubtitleStream extends MediaStream where
  vttFilePath : FilePath := ∅
  deriving DecidableEq

namespace SubtitleStream

def toJsonObj (r : SubtitleStream) (j : Value) : Value :=
  (r.toMediaStream.toJsonObj j).setStringKey "vtt_file_path" r.vttFilePath.asUTF8Unsafe

def fromJsonObj (r : SubtitleStream) (j : Value) : SubtitleStream where
  toMediaStream := r.toMediaStream.fromJsonObj j
  vttFilePath := ((j.findStringKey "vtt_file_path").map .fromU8).getD r.vttFilePath

end SubtitleStream

structure MediaChapter where
  streamIndex : Int32 := 0
  title : String := ""
  startTimeSec : Double := {}
  endTimeSec : Double := {}
  metadata : MediaMetadata := ∅
  deriving DecidableEq

namespace MediaChapter

def toJsonObj (r : MediaChapter) (j : Value) : Value :=
  let j := j.setIntKey "stream_index" r.streamIndex
  let j := j.setStringKey "title" r.title
  let j := j.setDoubleKey "start_time_sec" r.startTimeSec
  let j := j.setDoubleKey "end_time_sec" r.endTimeSec
  r.metadata.toJsonObj j

def fromJsonObj (r : MediaChapter) (j : Value) : MediaChapter where
  streamIndex := (j.findIntKey "stream_index").getD r.streamIndex
  title := (j.findStringKey "title").getD r.title
  startTimeSec := (j.findDoubleKey "start_time_sec").getD r.startTimeSec
  endTimeSec := (j.findDoubleKey "end_time_sec").getD r.endTimeSec
  metadata := r.metadata.fromJsonObj j

end MediaChapter

structure MediaAttachment where
  streamIndex : Int32 := 0
  codecId : Int32 := 0
  codecName : String := ""
  codecLongName : String := ""
  fileName : String := ""
  mimeType : String := ""
  metadata : MediaMetadata := ∅
  deriving DecidableEq

namespace MediaAttachment

def toJsonObj (r : MediaAttachment) (j : Value) : Value :=
  let j := j.setIntKey "stream_index" r.streamIndex
  let j := j.setIntKey "codec_id" r.codecId
  let j := j.setStringKey "codec_name" r.codecName
  let j := j.setStringKey "codec_long_name" r.codecLongName
  let j := j.setStringKey "file_name" r.fileName
  let j := j.setStringKey "mime_type" r.mimeType
  r.metadata.toJsonObj j

def fromJsonObj (r : MediaAttachment) (j : Value) : MediaAttachment where
  streamIndex := (j.findIntKey "stream_index").getD r.streamIndex
  codecId := (j.findIntKey "codec_id").getD r.codecId
  codecName := (j.findStringKey "codec_name").getD r.codecName
  codecLongName := (j.findStringKey "codec_long_name").getD r.codecLongName
  fileName := (j.findStringKey "file_name").getD r.fileName
  mimeType := (j.findStringKey "mime_type").getD r.mimeType
  metadata := r.metadata.fromJsonObj j

end MediaAttachment

inductive MediaRecord
  | basicInfo (r : MediaBasicInfo)
  | videoStream (r : VideoStream)
  | audioStream (r : AudioStream)
  | subtitleStream (r : SubtitleStream)
  | chapter (r : MediaChapter)
  | attachment (r : MediaAttachment)
  deriving DecidableEq

namespace MediaRecord

def exchange : MediaRecord → MediaRecord
  | .basicInfo r => .basicInfo (MediaBasicInfo.fromJsonObj {} (r.toJsonObj (.dict [])))
  | .videoStream r => .videoStream (VideoStream.fromJsonObj {} (r.toJsonObj (.dict [])))
  | .audioStream r => .audioStream (AudioStream.fromJsonObj {} (r.toJsonObj (.dict [])))
  | .subtitleStream r => .subtitleStream (SubtitleStream.fromJsonObj {} (r.toJsonObj (.dict [])))
  | .chapter r => .chapter (MediaChapter.fromJsonObj {} (r.toJsonObj (.dict [])))
  | .attachment r => .attachment (MediaAttachment.fromJsonObj {} (r.toJsonObj (.dict [])))

end MediaRecord

end Nas.Media
