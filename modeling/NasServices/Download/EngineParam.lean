import NasServices.Download.RejectedFiles
import NasServices.Download.UserSelfMgr.Duplicates
import NasServices.Lib.StructMemory

/-!
# The parameter that an engine is given

A new task copies its id, url, save path and file name to the arrays of a struct and hands that to
its engine. `LinkTask::AssembleDownloadParam` copies a text when it is not longer than its array,
`BtTaskBase::SetDownloadParam` copies every text. Neither asks for the byte of the NUL, and no caller
looks at the lengths.

`Creation` is one create request, with what the memory of the structs holds apart from the arrays.
`receivesUnchanged_iff` says exactly when the engine is given the texts of the request.
-/

namespace Nas.Download

open Lib Lib.StructMemory

def utf8 (s : String) : List UInt8 := s.toList.flatMap String.utf8EncodeChar

structure ParamTexts where
  id : List UInt8
  url : List UInt8
  savePath : List UInt8
  fileName : List UInt8
  deriving DecidableEq

def TaskParam.texts (p : TaskParam) : ParamTexts := ⟨utf8 p.id, utf8 p.url, utf8 p.savePath, utf8 p.fileName⟩

namespace ParamTexts

/-- The arrays, which are the first members of `DownloadParam` and of `TorrentDownloadParam`. -/
def slots (t : ParamTexts) : List Slot :=
  [⟨⟨0, kIdLength⟩, t.id⟩, ⟨⟨kIdLength, kUrlLength⟩, t.url⟩, ⟨⟨kIdLength + kUrlLength, kMaxPath⟩, t.savePath⟩,
    ⟨⟨kIdLength + kUrlLength + kMaxPath, kMaxPath⟩, t.fileName⟩]

def arraysEnd : Nat := kIdLength + kUrlLength + kMaxPath + kMaxPath

def sizeofDownloadParam : Nat := arraysEnd + 4

/-- `sizeof(TorrentDownloadParam)`: `download_type`, `item_select_list`, `file_count` and `is_download_now`
follow, with what aligns the pointer and the struct. -/
def sizeofTorrentDownloadParam : Nat := arraysEnd + 24

def NulFree (t : ParamTexts) : Prop := ∀ s ∈ t.slots, 0 ∉ s.text

def FitsArrays (t : ParamTexts) : Prop := ∀ s ∈ t.slots, s.text.length < s.member.size

def InsideStruct (t : ParamTexts) : Prop :=
  ∀ s ∈ t.slots, s.member.offset + s.text.length ≤ sizeofTorrentDownloadParam

instance (t : ParamTexts) : Decidable t.NulFree := inferInstanceAs (Decidable (∀ s ∈ t.slots, 0 ∉ s.text))

instance (t : ParamTexts) : Decidable t.FitsArrays :=
  inferInstanceAs (Decidable (∀ s ∈ t.slots, s.text.length < s.member.size))

instance (t : ParamTexts) : Decidable t.InsideStruct :=
  inferInstanceAs (Decidable (∀ s ∈ t.slots, s.member.offset + s.text.length ≤ sizeofTorrentDownloadParam))

end ParamTexts

open ParamTexts

def clearedStruct (rest : List UInt8) : List UInt8 := List.replicate arraysEnd 0 ++ rest

def LinkTask.assembleDownloadParam (mem : List UInt8) (t : ParamTexts) : Checked (List UInt8) :=
  copyFitting mem t.slots

/-- The file name is copied twice. The members behind the arrays are set afterwards. -/
def BtTaskBase.setDownloadParam (mem : List UInt8) (t : ParamTexts) (others : List Copy) : Checked (List UInt8) := do
  let mem ← copyAll mem (t.slots.map Slot.copy)
  let mem ← copyTo mem ⟨kIdLength + kUrlLength + kMaxPath, t.fileName⟩
  copyAll mem others

/-! ## One struct -/

section Structs

variable {t : ParamTexts} {rest mem : List UInt8} {others : List Copy}

theorem slots_ordered (t : ParamTexts) : Ordered t.slots := by
  simp [Ordered, slots, kIdLength, kUrlLength, kMaxPath]

theorem slots_inside (t : ParamTexts) : ∀ s ∈ t.slots, s.member.offset + s.member.size ≤ arraysEnd := by
  simp [slots, arraysEnd, kIdLength, kUrlLength, kMaxPath]

theorem bytesOf_clearedStruct (rest : List UInt8) {m : Member} (h : m.offset + m.size ≤ arraysEnd) :
    bytesOf (clearedStruct rest) m = List.replicate m.size 0 := by
  rw [bytesOf, clearedStruct, List.drop_append_of_le_length (by rw [List.length_replicate]; omega),
    List.drop_replicate, List.take_append_of_le_length (by rw [List.length_replicate]; omega), List.take_replicate]
  congr 1
  omega

theorem ready_clearedStruct (hnul : t.NulFree) (hothers : ∀ w ∈ others, arraysEnd ≤ w.offset) :
    Ready (clearedStruct rest) t.slots others where
  ordered := slots_ordered t
  cleared s hs := bytesOf_clearedStruct rest (slots_inside t s hs)
  nulFree := hnul
  behind w hw s hs := (slots_inside t s hs).trans (hothers w hw)

theorem length_clearedStruct (rest : List UInt8) : (clearedStruct rest).length = arraysEnd + rest.length := by
  rw [clearedStruct, List.length_append, List.length_replicate]

/-- The struct of a link task: nothing outside is written, and the arrays hold the texts when all of them
are shorter. -/
theorem LinkTask.assembleDownloadParam_spec (hnul : t.NulFree) (rest : List UInt8) :
    ∃ mem, LinkTask.assembleDownloadParam (clearedStruct rest) t = .ok mem ∧
      ((∀ s ∈ t.slots, HoldsText mem s.member s.text) ↔ t.FitsArrays) := by
  have hinside : ∀ s ∈ t.slots, s.member.offset + s.member.size ≤ (clearedStruct rest).length := by
    intro s hs
    rw [length_clearedStruct]
    have := slots_inside t s hs
    omega
  obtain ⟨mem, hmem⟩ := copyFitting_ok hinside
  exact ⟨mem, hmem, holdsAll_iff_of_checked (ready_clearedStruct hnul fun w hw => absurd hw List.not_mem_nil) hmem⟩

/-- The second copy of the file name changes nothing. -/
theorem BtTaskBase.setDownloadParam_eq (mem : List UInt8) (t : ParamTexts) (others : List Copy) :
    BtTaskBase.setDownloadParam mem t others = copyAll mem (t.slots.map Slot.copy ++ others) := by
  rw [copyAll_append]
  exact copyAll_last_twice mem
    [⟨0, t.id⟩, ⟨kIdLength, t.url⟩, ⟨kIdLength + kUrlLength, t.savePath⟩]
    ⟨kIdLength + kUrlLength + kMaxPath, t.fileName⟩ (fun mem => copyAll mem others)

/-- The struct of a BitTorrent task: nothing outside is written when all texts end inside of it, and then the
arrays hold the texts when all of them are shorter. -/
theorem BtTaskBase.setDownloadParam_spec (hnul : t.NulFree) (hrest : rest.length = 24)
    (hothers : ∀ w ∈ others, arraysEnd ≤ w.offset ∧ w.offset + w.text.length ≤ sizeofTorrentDownloadParam) :
    ((∃ mem, BtTaskBase.setDownloadParam (clearedStruct rest) t others = .ok mem) ↔ t.InsideStruct) ∧
    ∀ mem, BtTaskBase.setDownloadParam (clearedStruct rest) t others = .ok mem →
      ((∀ s ∈ t.slots, HoldsText mem s.member s.text) ↔ t.FitsArrays) := by
  rw [BtTaskBase.setDownloadParam_eq]
  constructor
  · rw [copyAll_isOk_iff, length_clearedStruct, hrest]
    constructor
    · intro hall s hs
      exact hall s.copy (List.mem_append_left _ (List.mem_map_of_mem hs))
    · intro hinside w hw
      rcases List.mem_append.mp hw with hslot | hother
      · obtain ⟨s, hs, rfl⟩ := List.mem_map.mp hslot
        exact hinside s hs
      · exact (hothers w hother).2
  · intro mem hmem
    exact holdsAll_iff_of_unchecked (ready_clearedStruct hnul fun w hw => (hothers w hw).1) hmem

end Structs

/-! ## One create request -/

structure Creation where
  mgr : UserSelfMgr
  request : CreateRequest
  host : Host
  linkRest : List UInt8
  torrentRest : List UInt8
  others : List Copy
  length_torrentRest : torrentRest.length = 24
  others_inside : ∀ w ∈ others, arraysEnd ≤ w.offset ∧ w.offset + w.text.length ≤ sizeofTorrentDownloadParam

namespace Creation

variable (x : Creation)

def param : TaskParam := TaskFactory.construct x.request.param x.host

def result : Option TaskBase × DownloadErrorCode × String := x.mgr.createTask x.request.param x.host

def Rejected : Prop := x.result.2.1 ≠ .kNormal

instance : Decidable x.Rejected := inferInstanceAs (Decidable (_ ≠ _))

def handedOver : Option (Checked (List UInt8)) :=
  if x.result.1.isNone then none
  else if x.param.type.isBt then
    if x.host.hasImpl then
      some (BtTaskBase.setDownloadParam (clearedStruct x.torrentRest) x.param.texts x.others)
    else none
  else some (LinkTask.assembleDownloadParam (clearedStruct x.linkRest) x.param.texts)

def FillsTorrentParam : Prop := x.result.1.isSome ∧ x.param.type.isBt = true ∧ x.host.hasImpl = true

instance : Decidable x.FillsTorrentParam := inferInstanceAs (Decidable (_ ∧ _))

/-- The request is rejected or its engine is given the four texts, and nothing is written outside of the struct. -/
def ReceivesUnchanged : Prop :=
  (∀ r, x.handedOver = some r → ∃ mem, r = .ok mem) ∧
    (x.Rejected ∨ ∃ mem, x.handedOver = some (.ok mem) ∧
      ∀ s ∈ x.param.texts.slots, HoldsText mem s.member s.text)

end Creation

namespace UserSelfMgr

theorem createTask_none {m : UserSelfMgr} {param : TaskParam} {h : Host} {err : DownloadErrorCode} {same : String}
    (hc : m.createTask param h = (none, err, same)) : err ≠ .kNormal := by
  have hresult := createTask_result m param h
  rw [hc] at hresult
  cases hresult with
  | refused herr => exact herr

end UserSelfMgr

namespace Creation

variable {x : Creation}

/-- An accepted task has its engine, and so is handed a struct. -/
theorem accepted_hasImpl (h : ¬ x.Rejected) :
    x.result.1.isSome = true ∧ (x.param.type.isBt = true → x.host.hasImpl = true) := by
  have herr : x.result.2.1 = .kNormal := not_not.mp h
  cases hmade : x.result.1 with
  | none =>
    have hc : x.mgr.createTask x.request.param x.host = (none, x.result.2.1, x.result.2.2) := by
      rw [← hmade]
      rfl
    exact absurd herr (UserSelfMgr.createTask_none hc)
  | some t =>
    have hc : x.mgr.createTask x.request.param x.host = (some t, .kNormal, x.result.2.2) := by
      rw [← hmade, ← herr]
      rfl
    exact ⟨rfl, (UserSelfMgr.createTask_accepted hc).hasImpl⟩

theorem handedOver_of_fills (h : x.FillsTorrentParam) : x.handedOver =
    some (BtTaskBase.setDownloadParam (clearedStruct x.torrentRest) x.param.texts x.others) := by
  obtain ⟨hsome, hbt, himpl⟩ := h
  rw [handedOver, if_neg (by simp [Option.isSome_iff_ne_none.mp hsome]), if_pos hbt, if_pos himpl]

theorem handedOver_of_link (hsome : x.result.1.isSome = true) (hlink : ¬ x.param.type.isBt = true) :
    x.handedOver = some (LinkTask.assembleDownloadParam (clearedStruct x.linkRest) x.param.texts) := by
  rw [handedOver, if_neg (by simp [Option.isSome_iff_ne_none.mp hsome]), if_neg hlink]

theorem receivesUnchanged_of_fills (hnul : x.param.texts.NulFree) (h : x.FillsTorrentParam) :
    x.ReceivesUnchanged ↔ x.param.texts.InsideStruct ∧ (x.Rejected ∨ x.param.texts.FitsArrays) := by
  obtain ⟨hok, hholds⟩ := BtTaskBase.setDownloadParam_spec hnul x.length_torrentRest x.others_inside
  have hall : (∀ r, x.handedOver = some r → ∃ mem, r = .ok mem) ↔ x.param.texts.InsideStruct := by
    rw [handedOver_of_fills h, ← hok]
    exact ⟨fun hr => hr _ rfl, fun hex r hr => Option.some.inj hr ▸ hex⟩
  rw [ReceivesUnchanged, hall]
  apply and_congr_right
  intro hinside
  apply or_congr_right
  obtain ⟨mem, hmem⟩ := hok.mpr hinside
  rw [handedOver_of_fills h, hmem, ← hholds mem hmem]
  constructor
  · intro hex
    obtain ⟨mem', heq, htexts⟩ := hex
    exact Except.ok.inj (Option.some.inj heq) ▸ htexts
  · intro htexts
    exact ⟨mem, rfl, htexts⟩

theorem receivesUnchanged_of_link (hnul : x.param.texts.NulFree) (hsome : x.result.1.isSome = true)
    (hlink : ¬ x.param.type.isBt = true) :
    x.ReceivesUnchanged ↔ x.Rejected ∨ x.param.texts.FitsArrays := by
  obtain ⟨mem, hmem, hholds⟩ := LinkTask.assembleDownloadParam_spec hnul x.linkRest
  have hhanded := handedOver_of_link hsome hlink
  rw [hmem] at hhanded
  have hall : ∀ r, x.handedOver = some r → ∃ mem, r = .ok mem := by
    intro r hr
    rw [hhanded] at hr
    exact ⟨mem, (Option.some.inj hr).symm⟩
  rw [ReceivesUnchanged, and_iff_right hall, hhanded, ← hholds]
  apply or_congr_right
  constructor
  · intro hex
    obtain ⟨mem', heq, htexts⟩ := hex
    exact Except.ok.inj (Option.some.inj heq) ▸ htexts
  · intro htexts
    exact ⟨mem, rfl, htexts⟩

/-- For every create request whose texts hold no NUL: it is rejected or its engine is given the four texts, and
nothing is written outside of the struct, exactly when the texts of a BitTorrent task end inside of its struct
and, unless the request is rejected, every text is shorter than its array. -/
theorem receivesUnchanged_iff (x : Creation) (hnul : x.param.texts.NulFree) :
    x.ReceivesUnchanged ↔
      (x.FillsTorrentParam → x.param.texts.InsideStruct) ∧ (x.Rejected ∨ x.param.texts.FitsArrays) := by
  by_cases hfills : x.FillsTorrentParam
  · rw [receivesUnchanged_of_fills hnul hfills, imp_iff_right hfills]
  · rw [and_iff_right fun h => absurd h hfills]
    by_cases hlink : x.result.1.isSome = true ∧ ¬ x.param.type.isBt = true
    · exact receivesUnchanged_of_link hnul hlink.1 hlink.2
    · -- no struct is filled, so the request was rejected
      have hrejected : x.Rejected := by
        by_contra haccepted
        obtain ⟨hsome, himpl⟩ := accepted_hasImpl haccepted
        have hbt : x.param.type.isBt = true := not_not.mp fun h => hlink ⟨hsome, h⟩
        exact hfills ⟨hsome, hbt, himpl hbt⟩
      have hnone : x.handedOver = none := by
        rw [handedOver]
        cases hmade : x.result.1 with
        | none => rfl
        | some t =>
          have hsome : x.result.1.isSome = true := by rw [hmade]; rfl
          have hbt : x.param.type.isBt = true := not_not.mp fun h => hlink ⟨hsome, h⟩
          rw [if_neg (by simp), if_pos hbt, if_neg fun himpl => hfills ⟨hsome, hbt, himpl⟩]
      refine iff_of_true ⟨fun r hr => ?_, .inl hrejected⟩ (.inl hrejected)
      rw [hnone] at hr
      cases hr

def ofRequest (request : CreateRequest) (pathExists : String → Bool) : Creation where
  mgr := { userId := "u" }
  request := request
  host := { pathExists := pathExists }
  linkRest := List.replicate 4 0
  torrentRest := List.replicate 24 0
  others := []
  length_torrentRest := List.length_replicate
  others_inside _ hw := absurd hw List.not_mem_nil

/-- A link with short texts. -/
theorem receivesUnchanged_short :
    (ofRequest (.link ⟨"7", "http://nas/a.mp4", "/nas/u", "a.mp4", 0⟩) fun _ => false).ReceivesUnchanged :=
  (receivesUnchanged_iff _ (by decide +kernel)).mpr (by decide +kernel)

/-- A link whose id fills its array is accepted, and its id has no end there. The name of a torrent that is 1065
bytes long is written over the struct. -/
theorem longTexts_not_unchanged :
    let id := "xxxxxxxxxxxxxxxxxxxxxxxxxxxxxxxxxxxxxxxxxxxxxxxxxxxxxxxxxxxxxxxx"
    let x := ofRequest (.link ⟨id, "http://nas/a.mp4", "/nas/u", "a.mp4", 0⟩) fun _ => false
    let name : List UInt8 := List.replicate 1065 120
    (¬ x.Rejected ∧ ¬ x.ReceivesUnchanged) ∧
    ¬ ∃ mem, BtTaskBase.setDownloadParam (clearedStruct (List.replicate 24 0)) ⟨[55], [97], [98], name⟩ [] = .ok mem := by
  intro id x name
  constructor
  · have hx : ¬ x.Rejected ∧ x.param.texts.NulFree ∧ ¬ x.param.texts.FitsArrays ∧
        ¬ x.param.type.isBt = true := by decide +kernel
    refine ⟨hx.1, ?_⟩
    rw [receivesUnchanged_of_link hx.2.1 (accepted_hasImpl hx.1).1 hx.2.2.2]
    exact not_or.mpr ⟨hx.1, hx.2.2.1⟩
  · have hname : (ParamTexts.mk [55] [97] [98] name).NulFree := by decide +kernel
    rw [(BtTaskBase.setDownloadParam_spec hname List.length_replicate fun _ hw => absurd hw List.not_mem_nil).1]
    decide +kernel

end Creation

end Nas.Download
