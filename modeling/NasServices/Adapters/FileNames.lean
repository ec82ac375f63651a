import NasServices.Lib.CBuffer

/-!
# The file names that the engines hand over

Every download engine is used through an adapter that copies file names into the
character arrays of `FileBaseInfo` (a name of 1040 bytes, a type of 32) and of
`DownloadProgressInfo`. The names come from the network: the name of a torrent and of
its files, the display name of a magnet link, the name in an ed2k link, the last part
of an url.

`Copy` lists the calls that copy a name, with everything they read, and `Copy.run` is
what they leave in the arrays they write; it has no value when a write is outside.
`Copy.safe_iff_fits` says for each of them which lengths keep the writes inside and the
arrays terminated.
-/

namespace Nas.Adapters

open Lib (CBuffer)

abbrev Bytes := List UInt8

abbrev CString := { bytes : Bytes // 0 ∉ bytes }

structure FileBaseInfo where
  fileName : CBuffer 1040 := .zeroed 1040
  fileType : CBuffer 32 := .zeroed 32

inductive Written
  | fileName (buf : CBuffer 1040)
  | fileType (buf : CBuffer 32)

def Written.Terminated : Written → Prop
  | .fileName buf => buf.Terminated
  | .fileType buf => buf.Terminated

/-! ## Torrents and magnet links -/

/-- The text of `QFileInfo::suffix`: after the last dot of the last part of the path. -/
def suffix (name : Bytes) : Bytes :=
  let file := name.reverse.takeWhile (· ≠ '/'.toUInt8)
  if '.'.toUInt8 ∈ file then (file.takeWhile (· ≠ '.'.toUInt8)).reverse else []

def qStringToUtf8Buf {n : Nat} (qstr : Bytes) (buf : CBuffer n) : Option (CBuffer n) :=
  buf.memcpy (qstr ++ [0])

namespace TorrentHelper

def getFileBaseInfo (name : Bytes) : Option FileBaseInfo :=
  (qStringToUtf8Buf name (.zeroed 1040)).bind fun fileName =>
    (qStringToUtf8Buf (suffix name) (.zeroed 32)).map fun fileType => ⟨fileName, fileType⟩

end TorrentHelper

namespace TorrentlFileDownloadTaskImpl

def getTorrentFileBaseInfo (paramFileName torrentName : Bytes) : Option FileBaseInfo :=
  (if paramFileName ≠ [] then (CBuffer.zeroed 1040).memcpy paramFileName
    else qStringToUtf8Buf torrentName (.zeroed 1040)).bind fun fileName =>
      (qStringToUtf8Buf (suffix torrentName) (.zeroed 32)).map fun fileType => ⟨fileName, fileType⟩

def getProgressInfo (torrentName : Bytes) : Option (CBuffer 1040) :=
  qStringToUtf8Buf torrentName (.zeroed 1040)

end TorrentlFileDownloadTaskImpl

namespace MagnetDownloadTaskImpl

/-- What `GetTorrentFileBaseInfo` reads, for a valid magnet link. -/
structure Names where
  paramFileName : Bytes
  torrentInfoValid : Bool
  rootFolder : Bytes
  torrentName : Bytes
  uriName : Bytes
  /-- The info hash in hexadecimal digits. -/
  torrentId : { bytes : Bytes // bytes.length = 40 }

def Names.fileName (m : Names) : Bytes :=
  if m.paramFileName ≠ [] then m.paramFileName
  else if m.torrentInfoValid then
    if m.rootFolder ≠ [] then m.rootFolder else m.torrentName
  else if m.uriName = [] then m.torrentId else m.uriName

def getTorrentFileBaseInfo (m : Names) : Option FileBaseInfo :=
  (qStringToUtf8Buf m.fileName (.zeroed 1040)).map fun fileName => { fileName := fileName }

end MagnetDownloadTaskImpl

/-! ## Links -/

/-- The file name of a `DownloadParam`: `AssembleDownloadParam` leaves out one that is
longer than the array, and copies one that fills it. -/
def assembleFileName (requested : CString) : CBuffer 1040 :=
  ((CBuffer.zeroed 1040).memcpy requested).getD (.zeroed 1040)

namespace MuleDownloadTaskImpl

def setParam (requested : CString) : CBuffer 1040 := assembleFileName requested

def parseLink (linkName : Bytes) : Option (CBuffer 1040) := (CBuffer.zeroed 1040).memcpy linkName

def getProgressInfo (partFileName : Bytes) : Option (CBuffer 1040) :=
  (CBuffer.zeroed 1040).memcpy partFileName

end MuleDownloadTaskImpl

/-- The names that a `CurlDownloadTaskImpl` holds: `file_base_info_.file_name`, that of
`download_progress_info_`, and the one that `GetFileNameFromUrl` makes of its url. -/
structure CurlNames where
  fileName : CBuffer 1040 := .zeroed 1040
  progressName : CBuffer 1040 := .zeroed 1040
  urlName : CString := ⟨[], by simp⟩

inductive CurlCall
  | setParam (requested urlName : CString)
  | parseLink
  | getProgressInfo
  | renameTempFile (finalName : CString)

namespace CurlNames

def storeName (s : CurlNames) : Option CurlNames :=
  let name : Bytes := if s.fileName.text = [] then s.urlName else s.fileName.text
  (s.fileName.memcpy name).map fun buf => { s with fileName := buf }

def call (s : CurlNames) : CurlCall → Option (CurlNames × List (CBuffer 1040))
  | .setParam requested urlName =>
    { s with fileName := assembleFileName requested, urlName := urlName }.storeName.map fun s =>
      (s, [s.fileName])
  | .parseLink => s.storeName.map fun s => (s, [s.fileName, s.fileName])
  | .getProgressInfo => some ({ s with progressName := s.fileName }, [s.fileName, s.fileName])
  | .renameTempFile finalName =>
    (s.fileName.memcpy finalName).map fun buf => ({ s with fileName := buf }, [buf])

def calls : CurlNames → List CurlCall → Option (List (CBuffer 1040))
  | _, [] => some []
  | s, c :: cs => (s.call c).bind fun r => (calls r.1 cs).map fun bufs => r.2 ++ bufs

end CurlNames

/-! ## Every copy -/

inductive Copy
  | torrentBaseInfo (paramFileName torrentName : Bytes)
  | torrentFile (name : Bytes)
  | torrentProgress (torrentName : Bytes)
  | magnetBaseInfo (names : MagnetDownloadTaskImpl.Names)
  | muleParam (requested : CString)
  | muleLink (linkName : Bytes)
  | muleProgress (partFileName : Bytes)
  | curl (requested urlName : CString) (calls : List CurlCall)

def FileBaseInfo.written (info : FileBaseInfo) : List Written := [.fileName info.fileName, .fileType info.fileType]

def Copy.run : Copy → Option (List Written)
  | .torrentBaseInfo paramFileName torrentName =>
    (TorrentlFileDownloadTaskImpl.getTorrentFileBaseInfo paramFileName torrentName).map FileBaseInfo.written
  | .torrentFile name => (TorrentHelper.getFileBaseInfo name).map FileBaseInfo.written
  | .torrentProgress torrentName =>
    (TorrentlFileDownloadTaskImpl.getProgressInfo torrentName).map fun buf => [.fileName buf]
  | .magnetBaseInfo names => (MagnetDownloadTaskImpl.getTorrentFileBaseInfo names).map FileBaseInfo.written
  | .muleParam requested => some [.fileName (MuleDownloadTaskImpl.setParam requested)]
  | .muleLink linkName => (MuleDownloadTaskImpl.parseLink linkName).map fun buf => [.fileName buf]
  | .muleProgress partFileName =>
    (MuleDownloadTaskImpl.getProgressInfo partFileName).map fun buf => [.fileName buf]
  | .curl requested urlName calls =>
    (CurlNames.calls {} (.setParam requested urlName :: calls)).map fun bufs => bufs.map Written.fileName

def Copy.Safe (c : Copy) : Prop := ∃ written, c.run = some written ∧ ∀ w ∈ written, w.Terminated

def FitsIn (n : Nat) (bytes : Bytes) : Prop := bytes.length < n ∨ (bytes.length = n ∧ 0 ∈ bytes)

def startName (requested urlName : CString) : Bytes :=
  if requested.1 = [] ∨ 1040 < requested.1.length then urlName else requested

def CurlCall.Fits : CurlCall → Prop
  | .setParam requested urlName => (startName requested urlName).length < 1040
  | .renameTempFile finalName => finalName.1.length < 1040
  | .parseLink | .getProgressInfo => True

def Copy.Fits : Copy → Prop
  | .torrentBaseInfo paramFileName torrentName =>
    (if paramFileName ≠ [] then FitsIn 1040 paramFileName else torrentName.length < 1040) ∧
      (suffix torrentName).length < 32
  | .torrentFile name => name.length < 1040 ∧ (suffix name).length < 32
  | .torrentProgress torrentName => torrentName.length < 1040
  | .magnetBaseInfo names => names.fileName.length < 1040
  | .muleParam requested => requested.1.length ≠ 1040
  | .muleLink linkName => FitsIn 1040 linkName
  | .muleProgress partFileName => FitsIn 1040 partFileName
  | .curl requested urlName calls => ∀ c ∈ CurlCall.setParam requested urlName :: calls, c.Fits

/-! ## One array -/

def Inside {n : Nat} (copied : Option (CBuffer n)) : Prop := ∃ buf, copied = some buf ∧ buf.Terminated

theorem inside_some {n : Nat} {buf : CBuffer n} : Inside (some buf) ↔ buf.Terminated := by simp [Inside]

theorem inside_memcpy {src : Bytes} : Inside ((CBuffer.zeroed 1040).memcpy src) ↔ FitsIn 1040 src :=
  CBuffer.memcpy_zeroed_iff (by decide)

theorem inside_qStringToUtf8Buf {n : Nat} (hn : 0 < n) {qstr : Bytes} :
    Inside (qStringToUtf8Buf qstr (CBuffer.zeroed n)) ↔ qstr.length < n := by
  show (∃ b, (CBuffer.zeroed n).memcpy (qstr ++ [0]) = some b ∧ b.Terminated) ↔ _
  rw [CBuffer.memcpy_zeroed_iff hn, List.length_append, List.length_singleton]
  have hmem : (0 : UInt8) ∈ qstr ++ [0] := by simp
  simp only [hmem, and_true]
  omega

theorem safe_fileName {c : Copy} {copied : Option (CBuffer 1040)}
    (h : c.run = copied.map fun buf => [.fileName buf]) : c.Safe ↔ Inside copied := by
  unfold Copy.Safe Inside
  rw [h]
  cases copied with
  | none => simp
  | some buf => simp [Written.Terminated]

theorem safe_fileNames {c : Copy} {copied : Option (List (CBuffer 1040))}
    (h : c.run = copied.map fun bufs => bufs.map .fileName) :
    c.Safe ↔ ∃ bufs, copied = some bufs ∧ ∀ b ∈ bufs, b.Terminated := by
  unfold Copy.Safe
  rw [h]
  cases copied with
  | none => simp
  | some bufs => simp [Written.Terminated]

theorem safe_fileBaseInfo {c : Copy} {name : Option (CBuffer 1040)} {type : Option (CBuffer 32)}
    (h : c.run = (name.bind fun fileName => type.map fun fileType =>
      (⟨fileName, fileType⟩ : FileBaseInfo)).map FileBaseInfo.written) :
    c.Safe ↔ Inside name ∧ Inside type := by
  unfold Copy.Safe Inside
  rw [h]
  cases name with
  | none => simp
  | some fileName =>
    cases type with
    | none => simp
    | some fileType => simp [FileBaseInfo.written, Written.Terminated]

theorem terminated_assembleFileName (requested : CString) :
    (assembleFileName requested).Terminated ↔ requested.1.length ≠ 1040 := by
  unfold assembleFileName
  rcases Nat.lt_trichotomy requested.1.length 1040 with hlt | heq | hgt
  · obtain ⟨buf, hbuf, hterm⟩ := inside_memcpy.mpr (.inl hlt)
    rw [hbuf]
    exact iff_of_true hterm (by omega)
  · obtain ⟨buf, hbuf⟩ := CBuffer.memcpy_isSome (CBuffer.zeroed 1040) heq.le
    rw [hbuf]
    refine iff_of_false (fun hterm => requested.2 ?_) (by omega)
    rwa [Option.getD_some, CBuffer.Terminated, CBuffer.memcpy_full hbuf heq] at hterm
  · rw [show (CBuffer.zeroed 1040).memcpy requested = none from dif_neg (by omega)]
    exact iff_of_true (CBuffer.zeroed_endsInZero (by decide)).terminated (by omega)

/-! ## The calls of a curl task -/

namespace CurlNames

structure Good (s : CurlNames) : Prop where
  endsInZero : s.fileName.EndsInZero
  urlFits : s.fileName.text = [] → s.urlName.1.length < 1040

variable {s : CurlNames}

theorem Good.storeName (hs : s.Good) : ∃ s', s.storeName = some s' ∧ s'.Good := by
  unfold CurlNames.storeName
  by_cases htext : s.fileName.text = []
  · have hlt := hs.urlFits htext
    obtain ⟨buf, hbuf⟩ := CBuffer.memcpy_isSome s.fileName hlt.le
    refine ⟨{ s with fileName := buf }, by simp [htext, hbuf], hs.endsInZero.memcpy hbuf hlt, fun _ => hlt⟩
  · exact ⟨s, by simp [htext, CBuffer.memcpy_text], hs⟩

theorem text_ne_nil {b b' : CBuffer 1040} {name : CString} (h : b.memcpy name = some b')
    (hne : name.1 ≠ []) : b'.text ≠ [] := by
  obtain ⟨-, hbytes⟩ := CBuffer.memcpy_eq_some_iff.mp h
  obtain ⟨x, rest, hx⟩ := List.exists_cons_of_ne_nil hne
  have hx0 : x ≠ 0 := fun h0 => name.2 (by rw [hx, h0]; exact List.mem_cons_self)
  rw [CBuffer.text, hbytes, hx, List.cons_append, List.takeWhile_cons_of_pos (by simpa using hx0)]
  exact List.cons_ne_nil _ _

/-- A copy that does not leave room for a NUL fails or leaves the array unterminated. -/
theorem not_terminated {b b' : CBuffer 1040} {name : CString} (h : b.memcpy name = some b')
    (hlen : 1040 ≤ name.1.length) : ¬ b'.Terminated := by
  have hfull := CBuffer.memcpy_full h (Nat.le_antisymm (CBuffer.memcpy_eq_some_iff.mp h).1 hlen)
  rw [CBuffer.Terminated, hfull]
  exact name.2

theorem assembleFileName_none {requested : CString} (h : requested.1 = [] ∨ 1040 < requested.1.length) :
    assembleFileName requested = .zeroed 1040 := by
  unfold assembleFileName
  rcases h with h | h
  · rw [h]
    rfl
  · rw [show (CBuffer.zeroed 1040).memcpy requested = none from dif_neg (by omega)]
    rfl

theorem assembleFileName_some {requested : CString} (h : ¬ (requested.1 = [] ∨ 1040 < requested.1.length)) :
    (CBuffer.zeroed 1040).memcpy requested = some (assembleFileName requested) := by
  obtain ⟨buf, hbuf⟩ := CBuffer.memcpy_isSome (CBuffer.zeroed 1040) (show requested.1.length ≤ 1040 by omega)
  rw [assembleFileName, hbuf]
  rfl

theorem good_setParam {requested urlName : CString} (h : (startName requested urlName).length < 1040) :
    Good { s with fileName := assembleFileName requested, urlName := urlName } := by
  have hzero : (CBuffer.zeroed 1040).EndsInZero := CBuffer.zeroed_endsInZero (by decide)
  by_cases hreq : requested.1 = [] ∨ 1040 < requested.1.length
  · rw [startName, if_pos hreq] at h
    refine ⟨?_, fun _ => h⟩
    rw [assembleFileName_none hreq]
    exact hzero
  · rw [startName, if_neg hreq] at h
    have hcopy := assembleFileName_some hreq
    exact ⟨hzero.memcpy hcopy h, fun htext => absurd htext (text_ne_nil hcopy (fun hnil => hreq (.inl hnil)))⟩

theorem Good.call (hs : s.Good) {c : CurlCall} (hc : c.Fits) :
    ∃ s' bufs, s.call c = some (s', bufs) ∧ s'.Good ∧ ∀ b ∈ bufs, b.Terminated := by
  cases c with
  | setParam requested urlName =>
    obtain ⟨s', hs', hgood⟩ := (good_setParam (s := s) hc).storeName
    refine ⟨s', [s'.fileName], by simp [CurlNames.call, hs'], hgood, ?_⟩
    simpa using hgood.endsInZero.terminated
  | parseLink =>
    obtain ⟨s', hs', hgood⟩ := hs.storeName
    refine ⟨s', [s'.fileName, s'.fileName], by simp [CurlNames.call, hs'], hgood, ?_⟩
    simpa using hgood.endsInZero.terminated
  | getProgressInfo =>
    refine ⟨_, _, rfl, ⟨hs.endsInZero, hs.urlFits⟩, ?_⟩
    simpa using hs.endsInZero.terminated
  | renameTempFile finalName =>
    obtain ⟨buf, hbuf⟩ := CBuffer.memcpy_isSome s.fileName (show finalName.1.length ≤ 1040 from Nat.le_of_lt hc)
    have hzero := hs.endsInZero.memcpy hbuf hc
    refine ⟨{ s with fileName := buf }, [buf], by simp [CurlNames.call, hbuf], ⟨hzero, ?_⟩, ?_⟩
    · intro htext
      by_cases hnil : finalName.1 = []
      · have hsame : buf = s.fileName := by
          apply CBuffer.ext
          rw [(CBuffer.memcpy_eq_some_iff.mp hbuf).2, hnil]
          rfl
        exact hs.urlFits (hsame ▸ htext)
      · exact absurd htext (text_ne_nil hbuf hnil)
    · simpa using hzero.terminated

/-- A call with a name that does not fit fails or leaves an array unterminated. -/
theorem call_not_fits {c : CurlCall} (hc : ¬ c.Fits) {s' : CurlNames} {bufs : List (CBuffer 1040)}
    (h : s.call c = some (s', bufs)) : ∃ b ∈ bufs, ¬ b.Terminated := by
  cases c with
  | setParam requested urlName =>
    have hlen : 1040 ≤ (startName requested urlName).length := Nat.le_of_not_lt hc
    simp only [CurlNames.call, CurlNames.storeName, Option.map_map, Option.map_eq_some_iff] at h
    obtain ⟨buf, hbuf, heq⟩ := h
    obtain ⟨-, rfl⟩ := Prod.mk.inj heq
    refine ⟨buf, List.mem_singleton.mpr rfl, ?_⟩
    by_cases hreq : requested.1 = [] ∨ 1040 < requested.1.length
    · rw [startName, if_pos hreq] at hlen
      rw [assembleFileName_none hreq, if_pos (by decide +kernel)] at hbuf
      exact not_terminated hbuf hlen
    · rw [startName, if_neg hreq] at hlen
      have hcopy := assembleFileName_some hreq
      rw [if_neg (text_ne_nil hcopy fun hnil => hreq (.inl hnil)), CBuffer.memcpy_text] at hbuf
      obtain rfl := Option.some.inj hbuf
      exact not_terminated hcopy hlen
  | renameTempFile finalName =>
    simp only [CurlNames.call, Option.map_eq_some_iff] at h
    obtain ⟨buf, hbuf, heq⟩ := h
    obtain ⟨-, rfl⟩ := Prod.mk.inj heq
    exact ⟨buf, List.mem_singleton.mpr rfl, not_terminated hbuf (Nat.le_of_not_lt hc)⟩
  | parseLink => exact absurd trivial hc
  | getProgressInfo => exact absurd trivial hc

/-- A sequence of calls is safe exactly when the name of each call fits. -/
theorem calls_iff (hs : s.Good) (cs : List CurlCall) :
    (∃ bufs, s.calls cs = some bufs ∧ ∀ b ∈ bufs, b.Terminated) ↔ ∀ c ∈ cs, c.Fits := by
  induction cs generalizing s with
  | nil => simp [CurlNames.calls]
  | cons c cs ih =>
    simp only [CurlNames.calls, List.forall_mem_cons]
    by_cases hc : c.Fits
    · obtain ⟨s', bufs, hcall, hs', hterm⟩ := hs.call hc
      rw [hcall, Option.bind_some, ← ih hs']
      simp only [hc, true_and, Option.map_eq_some_iff]
      constructor
      · rintro ⟨_, ⟨rest, hrest, rfl⟩, hall⟩
        exact ⟨rest, hrest, fun b hb => hall b (List.mem_append_right _ hb)⟩
      · rintro ⟨rest, hrest, hall⟩
        refine ⟨_, ⟨rest, hrest, rfl⟩, fun b hb => ?_⟩
        exact (List.mem_append.mp hb).elim (hterm b) (hall b)
    · refine iff_of_false ?_ fun h => hc h.1
      rintro ⟨bufs, hbufs, hall⟩
      obtain ⟨⟨s', written⟩, hcall, hrest⟩ := Option.bind_eq_some_iff.mp hbufs
      obtain ⟨rest, -, rfl⟩ := Option.map_eq_some_iff.mp hrest
      obtain ⟨b, hb, hnot⟩ := call_not_fits hc hcall
      exact hnot (hall b (List.mem_append_left _ hb))

theorem good_init : Good {} := ⟨CBuffer.zeroed_endsInZero (by decide), fun _ => by decide⟩

end CurlNames

theorem magnetBaseInfo_run (names : MagnetDownloadTaskImpl.Names) : (Copy.magnetBaseInfo names).run =
    ((qStringToUtf8Buf names.fileName (CBuffer.zeroed 1040)).bind fun fileName =>
      (some (CBuffer.zeroed 32)).map fun fileType =>
        (⟨fileName, fileType⟩ : FileBaseInfo)).map FileBaseInfo.written := by
  show ((qStringToUtf8Buf names.fileName (CBuffer.zeroed 1040)).map _).map _ = _
  cases qStringToUtf8Buf names.fileName (CBuffer.zeroed 1040) <;> rfl

/-- The copies of every adapter are inside their arrays and leave them terminated exactly when the
names are shorter than the arrays. -/
theorem Copy.safe_iff_fits (c : Copy) : c.Safe ↔ c.Fits := by
  have htype {name : Bytes} : Inside (qStringToUtf8Buf name (CBuffer.zeroed 32)) ↔ name.length < 32 :=
    inside_qStringToUtf8Buf (by decide)
  have hname {name : Bytes} : Inside (qStringToUtf8Buf name (CBuffer.zeroed 1040)) ↔ name.length < 1040 :=
    inside_qStringToUtf8Buf (by decide)
  cases c with
  | torrentBaseInfo paramFileName torrentName =>
    rw [safe_fileBaseInfo rfl, htype]
    refine and_congr_left' ?_
    by_cases h : paramFileName ≠ []
    · rw [if_pos h, if_pos h, inside_memcpy]
    · rw [if_neg h, if_neg h, hname]
  | torrentFile name =>
    rw [safe_fileBaseInfo rfl, hname, htype]
    rfl
  | torrentProgress torrentName =>
    rw [safe_fileName rfl]
    exact hname
  | magnetBaseInfo names =>
    have hzero : Inside (some (CBuffer.zeroed 32)) :=
      inside_some.mpr (CBuffer.zeroed_endsInZero (by decide)).terminated
    rw [safe_fileBaseInfo (magnetBaseInfo_run names), and_iff_left hzero]
    exact hname
  | muleParam requested =>
    have hrun : Copy.run (.muleParam requested) =
        (some (MuleDownloadTaskImpl.setParam requested)).map fun buf => [.fileName buf] := rfl
    rw [safe_fileName hrun, inside_some]
    exact terminated_assembleFileName requested
  | muleLink linkName =>
    rw [safe_fileName rfl]
    exact inside_memcpy
  | muleProgress partFileName =>
    rw [safe_fileName rfl]
    exact inside_memcpy
  | curl requested urlName calls =>
    rw [safe_fileNames rfl]
    exact CurlNames.calls_iff CurlNames.good_init (.setParam requested urlName :: calls)

/-- A link whose last part is 1100 bytes long, a torrent with a file whose suffix is 40 bytes long,
and an ed2k link with a name of 1041 bytes are copied outside their arrays. -/
theorem longNames_unsafe :
    ¬ (Copy.curl ⟨[], by simp⟩
          ⟨List.replicate 1100 97, fun h => absurd (List.eq_of_mem_replicate h) (by decide)⟩ []).Safe ∧
      ¬ (Copy.torrentFile (97 :: 46 :: List.replicate 40 98)).Safe ∧
      ¬ (Copy.muleLink (List.replicate 1041 97)).Safe := by
  have hout {c : Copy} (h : c.run.isNone = true) : ¬ c.Safe := by
    rintro ⟨written, hrun, -⟩
    rw [hrun] at h
    cases h
  refine ⟨hout ?_, hout ?_, hout ?_⟩ <;> decide +kernel

end Nas.Adapters
