import NasServices.Media.MediaStruct

/-!
# What survives the exchange

Every field of a record comes back as it was written (`MediaRecord.exchange_eq`), except
the metadata: what `MediaMetadata::ToJsonObj` writes is a dictionary, which the readers do
not find. `MediaMetadata.fromJson` would give the map back (`fromJson_jsonMetadata`), but no
reader gets to it with a dictionary, so that no JSON at all changes the metadata of
a record (`MediaMetadata.fromJsonObj_eq`).
-/

namespace Nas.Media

open Lib.Json (Value Double)

/-! ## Metadata -/

namespace MediaMetadata

/-- No reader takes any metadata over. -/
@[simp] theorem fromJsonObj_eq (m : MediaMetadata) (j : Value) : m.fromJsonObj j = m := by
  unfold fromJsonObj
  split
  case h_2 => rfl
  case h_1 d hd =>
    obtain ⟨-, hlist⟩ := Option.filter_eq_some_iff.mp hd
    cases d with
    | list => rfl
    | none | boolean | integer | double | string | dict => cases hlist

@[simp] theorem isDict_toJsonObj (m : MediaMetadata) (j : Value) : (m.toJsonObj j).isDict = j.isDict :=
  Value.isDict_setKey ..

theorem jsonMetadata_eq (m : MediaMetadata) :
    m.jsonMetadata = .dict (m.entries.map fun e => (e.1, .string e.2)) := by
  have hfold : ∀ (es : List (String × String)) (acc : List (String × Value)),
      es.foldl (fun d e => Value.setStringKey d e.1 e.2) (.dict acc) =
        .dict (es.foldl (fun acc e => Lib.setKey e.1 (.string e.2) acc) acc) := by
    intro es
    induction es with
    | nil => exact fun _ => rfl
    | cons e es ih => exact fun acc => ih _
  rw [jsonMetadata, hfold, Lib.foldl_setKey (fun e => Value.string e.2) m.sorted]

theorem entries_foldl_read {es : List (String × String)} (hkeys : ∀ e ∈ es, e.1 ≠ "") (m : MediaMetadata) :
    ((es.map fun e => (e.1, Value.string e.2)).foldl read m).entries =
      es.foldl (fun acc e => Lib.insertKey e.1 e.2 acc) m.entries := by
  induction es generalizing m with
  | nil => rfl
  | cons e es ih =>
    have he : e.1.isEmpty = false := by simpa using hkeys e List.mem_cons_self
    have hread : m.read (e.1, .string e.2) = m.insert e.1 e.2 := by
      simp [read, Value.getIfString, he]
    rw [List.map_cons, List.foldl_cons, List.foldl_cons, hread]
    exact ih (fun e' he' => hkeys e' (List.mem_cons_of_mem _ he')) _

/-- Read as a dictionary, metadata with non-empty keys come back. -/
theorem fromJson_jsonMetadata (m : MediaMetadata) (hkeys : ∀ e ∈ m.entries, e.1 ≠ "") :
    fromJson ∅ m.jsonMetadata = m := by
  have hentries : (fromJson ∅ m.jsonMetadata).entries = m.entries := by
    rw [jsonMetadata_eq]
    show ((m.entries.map fun e => (e.1, Value.string e.2)).foldl read ∅).entries = _
    rw [entries_foldl_read hkeys]
    exact Lib.foldl_insertKey m.sorted
  generalize fromJson ∅ m.jsonMetadata = m' at hentries
  cases m
  cases m'
  simpa using hentries

theorem fromJson_jsonMetadata_title :
    fromJson ∅ ((∅ : MediaMetadata).insert "title" "film").jsonMetadata = (∅ : MediaMetadata).insert "title" "film" :=
  fromJson_jsonMetadata _ (by decide)

end MediaMetadata

/-! ## Fields -/

theorem FilePath.fromU8_asUTF8Unsafe {p : FilePath} (h : '\\' ∉ p.value) : fromU8 p.asUTF8Unsafe = p := by
  have hslash : p.value.map (fun c => if c = '\\' then '/' else c) = p.value := by
    refine (List.map_congr_left fun c hc => ?_).trans (List.map_id _)
    have hne : c ≠ '\\' := fun heq => h (heq ▸ hc)
    rw [if_neg hne, id]
  have hvalue : Download.baseFilePathFromU8 p.asUTF8Unsafe = p.value := by
    rw [Download.baseFilePathFromU8, Download.unifiedSlash, asUTF8Unsafe, String.toList_ofList,
      String.toList_ofList, hslash]
    refine List.takeWhile_eq_self_iff.mpr fun c hc => ?_
    have hne : c ≠ '\x00' := fun heq => p.noNul (heq ▸ hc)
    simpa using hne
  cases p
  simpa [fromU8] using hvalue

@[simp] theorem stringToInt64_toString64 (n : Int64) : stringToInt64 (toString64 n) = n := by
  rw [stringToInt64, toString64, String.toList_ofList, Lib.readInt_intText n.minValue_le_toInt n.toInt_le]
  exact Int64.ofInt_toInt n

@[simp] theorem stringToInt_toString32 (n : Int32) : stringToInt (toString32 n) = n := by
  rw [stringToInt, toString32, String.toList_ofList, Lib.readInt_intText n.minValue_le_toInt n.toInt_le]
  exact Int32.ofInt_toInt n

/-! ## Records -/

namespace MediaRecord

def metadata : MediaRecord → MediaMetadata
  | .basicInfo r => r.metadata
  | .videoStream r => r.metadata
  | .audioStream r => r.metadata
  | .subtitleStream r => r.metadata
  | .chapter r => r.metadata
  | .attachment r => r.metadata

def dropMetadata : MediaRecord → MediaRecord
  | .basicInfo r => .basicInfo { r with metadata := ∅ }
  | .videoStream r => .videoStream { r with metadata := ∅ }
  | .audioStream r => .audioStream { r with metadata := ∅ }
  | .subtitleStream r => .subtitleStream { r with metadata := ∅ }
  | .chapter r => .chapter { r with metadata := ∅ }
  | .attachment r => .attachment { r with metadata := ∅ }

def stored : MediaRecord → MediaRecord
  | .videoStream r => .videoStream { r with
      realFrameBitrate := r.realFrameBitrate.stored, avgFrameBitrate := r.avgFrameBitrate.stored }
  | .chapter r => .chapter { r with
      startTimeSec := r.startTimeSec.stored, endTimeSec := r.endTimeSec.stored }
  | r => r

def NoBackslash : MediaRecord → Prop
  | .basicInfo r => '\\' ∉ r.localPath.value
  | .subtitleStream r => '\\' ∉ r.vttFilePath.value
  | _ => True

instance : (r : MediaRecord) → Decidable r.NoBackslash
  | .basicInfo _ | .subtitleStream _ => inferInstanceAs (Decidable (_ ∉ _))
  | .videoStream _ | .audioStream _ | .chapter _ | .attachment _ => isTrue trivial

theorem exchange_eq (r : MediaRecord) (h : r.NoBackslash) : r.exchange = r.stored.dropMetadata := by
  cases r with
  | basicInfo r =>
    simp [exchange, stored, dropMetadata, MediaBasicInfo.fromJsonObj, MediaBasicInfo.toJsonObj,
      MediaMetadata.toJsonObj, FilePath.fromU8_asUTF8Unsafe h]
  | videoStream r =>
    obtain ⟨_, _, _, _, _, _, _, hdrInfo⟩ := r
    cases hdrInfo with
    | none =>
      simp [exchange, stored, dropMetadata, VideoStream.fromJsonObj, VideoStream.toJsonObj, HDRInfo.fromJsonObj,
        MediaStream.fromJsonObj, MediaStream.toJsonObj, MediaMetadata.toJsonObj]
    | some hdr =>
      simp [exchange, stored, dropMetadata, VideoStream.fromJsonObj, VideoStream.toJsonObj, HDRInfo.fromJsonObj,
        HDRInfo.toJsonObj, MediaStream.fromJsonObj, MediaStream.toJsonObj, MediaMetadata.toJsonObj]
  | audioStream r =>
    simp [exchange, stored, dropMetadata, AudioStream.fromJsonObj, AudioStream.toJsonObj,
      MediaStream.fromJsonObj, MediaStream.toJsonObj, MediaMetadata.toJsonObj]
  | subtitleStream r =>
    simp [exchange, stored, dropMetadata, SubtitleStream.fromJsonObj, SubtitleStream.toJsonObj,
      MediaStream.fromJsonObj, MediaStream.toJsonObj, MediaMetadata.toJsonObj, FilePath.fromU8_asUTF8Unsafe h]
  | chapter r =>
    simp [exchange, stored, dropMetadata, MediaChapter.fromJsonObj, MediaChapter.toJsonObj,
      MediaMetadata.toJsonObj]
  | attachment r =>
    simp [exchange, stored, dropMetadata, MediaAttachment.fromJsonObj, MediaAttachment.toJsonObj,
      MediaMetadata.toJsonObj]

theorem metadata_stored (r : MediaRecord) : r.stored.metadata = r.metadata := by
  cases r <;> rfl

theorem metadata_dropMetadata (r : MediaRecord) : r.dropMetadata.metadata = ∅ := by
  cases r <;> rfl

theorem dropMetadata_of_metadata {r : MediaRecord} (h : r.metadata = ∅) : r.dropMetadata = r := by
  cases r with
  | basicInfo r | chapter r | attachment r =>
    cases r
    subst h
    rfl
  | videoStream r | audioStream r | subtitleStream r =>
    obtain ⟨stream⟩ := r
    cases stream
    subst h
    rfl

/-- A record survives the exchange if and only if it has no metadata. -/
theorem exchange_eq_iff (r : MediaRecord) (h : r.NoBackslash) : r.exchange = r.stored ↔ r.metadata = ∅ := by
  rw [exchange_eq r h]
  constructor
  · intro heq
    rw [← metadata_stored, ← heq, metadata_dropMetadata]
  · intro hnone
    exact dropMetadata_of_metadata ((metadata_stored r).trans hnone)

def film : MediaRecord :=
  .basicInfo {
    localPath := .fromU8 "/data/film.mkv", title := "film", fileSize := 7340032000, mediaContainer := "matroska",
    durationMs := -1, width := 1920, height := 1080, totalBitrate := 8000000, hasSubtitle := true }

theorem exchange_eq_iff_film : film.NoBackslash ∧ film.exchange = film.stored := by
  have hpath : film.NoBackslash := by decide +kernel
  exact ⟨hpath, (exchange_eq_iff film hpath).mpr rfl⟩

def withMetadata (m : MediaMetadata) : List MediaRecord :=
  [.basicInfo { metadata := m }, .videoStream { metadata := m }, .audioStream { metadata := m },
    .subtitleStream { metadata := m }, .chapter { metadata := m }, .attachment { metadata := m }]

theorem withMetadata_lost :
    (withMetadata (MediaMetadata.insert ∅ "language" "eng")).map
        (fun r => (decide r.NoBackslash, r.metadata.entries, decide (r.exchange = r.stored))) =
      List.replicate 6 (true, [("language", "eng")], false) := by
  decide +kernel

end MediaRecord

end Nas.Media
