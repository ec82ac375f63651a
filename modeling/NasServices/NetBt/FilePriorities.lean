import NasServices.Download.Task.CommonDefine

/-!
# The file priorities of an added torrent

`TorrentHelper::AddTorrent` turns the file selection of a request into the priorities
of the torrent's files: for the file `i` it looks for an entry with the index `i`, and
then reads the entry at the position `i` of the list. `filePriorities` is that loop; it
has no value when the read is outside the list.

`filePriorities_iff` says for which selections every file with an entry gets the
priority of its first entry: the files with an entry come first, with no gap, and the
entry at the position of each agrees with it.
-/

namespace Nas.NetBt

open Download (TorrenFileItemSelect)

/-- `BitTorrent::DownloadPriority`, as far as it is made from a `bool`: `Ignored = 0` and
`Normal = 1`. -/
inductive DownloadPriority
  | ignored
  | normal
  deriving DecidableEq

def DownloadPriority.ofBool : Bool → DownloadPriority
  | false => .ignored
  | true => .normal

theorem DownloadPriority.ofBool_inj {a b : Bool} : ofBool a = ofBool b ↔ a = b := by
  cases a <;> cases b <;> decide

/-- The inner loop for the file `i`, from the entry at which it stands: what it pushes, if
anything. -/
def pushPriority (items : List TorrenFileItemSelect) (i : Nat) :
    List TorrenFileItemSelect → Option (Option DownloadPriority)
  | [] => some none
  | item :: rest =>
    if item.index = i then items[i]?.map fun read => some (.ofBool read.isSelected)
    else pushPriority items i rest

def filePriorities (fileCount : Nat) (items : List TorrenFileItemSelect) : Option (List DownloadPriority) :=
  (List.range fileCount).foldlM
    (fun ps i => (pushPriority items i items).map fun p => ps ++ p.toList) []

def firstEntry (items : List TorrenFileItemSelect) (k : Nat) : Option TorrenFileItemSelect :=
  items.find? fun item => item.index = k

variable {items : List TorrenFileItemSelect} {n k : Nat} {ps : List DownloadPriority}

theorem pushPriority_eq (items : List TorrenFileItemSelect) (i : Nat) (rest : List TorrenFileItemSelect) :
    pushPriority items i rest =
      if (firstEntry rest i).isSome then items[i]?.map fun read => some (.ofBool read.isSelected)
      else some none := by
  induction rest with
  | nil => rfl
  | cons item rest ih =>
    by_cases h : item.index = i
    · simp [pushPriority, firstEntry, h]
    · have hskip : firstEntry (item :: rest) i = firstEntry rest i := by simp [firstEntry, h]
      rw [pushPriority, if_neg h, ih, hskip]

theorem filePriorities_succ (n : Nat) (items : List TorrenFileItemSelect) :
    filePriorities (n + 1) items =
      (filePriorities n items).bind fun ps =>
        if (firstEntry items n).isSome then items[n]?.map fun read => ps ++ [.ofBool read.isSelected]
        else some ps := by
  have hstep : ∀ ps : List DownloadPriority,
      (pushPriority items n items).map (fun p => ps ++ p.toList) =
        if (firstEntry items n).isSome then items[n]?.map fun read => ps ++ [.ofBool read.isSelected]
        else some ps := by
    intro ps
    rw [pushPriority_eq]
    split
    · rw [Option.map_map]
      rfl
    · simp
  rw [filePriorities, List.range_succ, List.foldlM_append]
  refine congrArg _ (funext fun ps => ?_)
  simp [hstep]

theorem filePriorities_succ_none (h : firstEntry items n = none) :
    filePriorities (n + 1) items = filePriorities n items := by
  simp [filePriorities_succ, h]

/-- A file with an entry adds the selection that stands at its own position. -/
theorem filePriorities_succ_some (h : (firstEntry items n).isSome) :
    filePriorities (n + 1) items = some ps ↔
      ∃ ps' read, filePriorities n items = some ps' ∧ items[n]? = some read ∧
        ps = ps' ++ [.ofBool read.isSelected] := by
  simp only [filePriorities_succ, h, if_true, Option.bind_eq_some_iff, Option.map_eq_some_iff]
  constructor
  · rintro ⟨ps', hps', read, hread, rfl⟩
    exact ⟨ps', read, hps', hread, rfl⟩
  · rintro ⟨ps', read, hps', hread, rfl⟩
    exact ⟨ps', hps', read, hread, rfl⟩

/-- There is at most one priority per file, and one for each only if each has an entry. -/
theorem filePriorities_length (h : filePriorities n items = some ps) :
    ps.length ≤ n ∧ (ps.length = n → ∀ j < n, (firstEntry items j).isSome) := by
  induction n generalizing ps with
  | zero =>
    obtain rfl : [] = ps := Option.some.inj h
    exact ⟨Nat.le_refl _, fun _ j hj => absurd hj (Nat.not_lt_zero j)⟩
  | succ n ih =>
    cases hn : firstEntry items n with
    | none =>
      rw [filePriorities_succ_none hn] at h
      have hlen := (ih h).1
      exact ⟨by omega, fun heq => by omega⟩
    | some e =>
      have hsome : (firstEntry items n).isSome := by rw [hn]; rfl
      obtain ⟨ps', read, hps', -, rfl⟩ := (filePriorities_succ_some hsome).mp h
      obtain ⟨hle, hall⟩ := ih hps'
      rw [List.length_append, List.length_singleton]
      refine ⟨by omega, fun heq j hj => ?_⟩
      rcases Nat.lt_succ_iff_lt_or_eq.mp hj with hj | rfl
      · exact hall (by omega) j hj
      · exact hsome

theorem filePriorities_full (hall : ∀ j < n, (firstEntry items j).isSome)
    (h : filePriorities n items = some ps) :
    n ≤ items.length ∧ ps = (items.take n).map fun item => .ofBool item.isSelected := by
  induction n generalizing ps with
  | zero =>
    obtain rfl : [] = ps := Option.some.inj h
    exact ⟨Nat.zero_le _, by simp⟩
  | succ n ih =>
    obtain ⟨ps', read, hps', hread, rfl⟩ := (filePriorities_succ_some (hall n (Nat.lt_succ_self n))).mp h
    obtain ⟨-, rfl⟩ := ih (fun j hj => hall j (Nat.lt_succ_of_lt hj)) hps'
    have hlt := (List.getElem?_eq_some_iff.mp hread).1
    refine ⟨hlt, ?_⟩
    rw [List.take_add_one, hread, List.map_append]
    rfl

/-- Every file with an entry has the priority of its first entry: normal at its position when
that entry is selected, ignored when it is not; and nothing outside the list is read. -/
def Selects (fileCount : Nat) (items : List TorrenFileItemSelect) : Prop :=
  ∃ ps, filePriorities fileCount items = some ps ∧
    ∀ k < fileCount, ∀ e, firstEntry items k = some e → ps[k]? = some (.ofBool e.isSelected)

/-- The files with an entry come first, and the entry at the position of each has the selection
of its first entry. -/
def Aligned (fileCount : Nat) (items : List TorrenFileItemSelect) : Prop :=
  ∀ k < fileCount, ∀ e, firstEntry items k = some e →
    (∀ j < k, (firstEntry items j).isSome) ∧ items[k]?.map (·.isSelected) = some e.isSelected

theorem getElem?_selections {items : List TorrenFileItemSelect} (hk : k < n) :
    ((items.take n).map fun item => DownloadPriority.ofBool item.isSelected)[k]? =
      (items[k]?.map (·.isSelected)).map .ofBool := by
  rw [List.getElem?_map, List.getElem?_take_of_lt hk, Option.map_map]
  rfl

theorem Aligned.pred (h : Aligned (n + 1) items) : Aligned n items :=
  fun k hk => h k (Nat.lt_succ_of_lt hk)

theorem Aligned.selects (h : Aligned n items) : Selects n items := by
  induction n with
  | zero => exact ⟨[], rfl, fun k hk => absurd hk (Nat.not_lt_zero k)⟩
  | succ n ih =>
    obtain ⟨ps, hps, hsel⟩ := ih h.pred
    cases hn : firstEntry items n with
    | none =>
      refine ⟨ps, (filePriorities_succ_none hn).trans hps, fun k hk e he => ?_⟩
      rcases Nat.lt_succ_iff_lt_or_eq.mp hk with hk | rfl
      · exact hsel k hk e he
      · rw [hn] at he
        cases he
    | some e₀ =>
      -- no gap below `n`, so the priorities so far are the first `n` selections
      obtain ⟨hall, hread⟩ := h n (Nat.lt_succ_self n) e₀ hn
      obtain ⟨read, hget, -⟩ := Option.map_eq_some_iff.mp hread
      have hsome : (firstEntry items n).isSome := by rw [hn]; rfl
      have hnext := (filePriorities_succ_some hsome).mpr ⟨ps, read, hps, hget, rfl⟩
      refine ⟨_, hnext, fun k hk e he => ?_⟩
      have hfull : ∀ j < n + 1, (firstEntry items j).isSome := fun j hj =>
        (Nat.lt_succ_iff_lt_or_eq.mp hj).elim (hall j) (fun heq => heq ▸ hsome)
      rw [(filePriorities_full hfull hnext).2, getElem?_selections hk, (h k hk e he).2]
      rfl

theorem Selects.aligned (h : Selects n items) : Aligned n items := by
  induction n with
  | zero => exact fun k hk => absurd hk (Nat.not_lt_zero k)
  | succ n ih =>
    obtain ⟨ps, hps, hsel⟩ := h
    cases hn : firstEntry items n with
    | none =>
      have hpred : Aligned n items :=
        ih ⟨ps, (filePriorities_succ_none hn) ▸ hps, fun k hk => hsel k (Nat.lt_succ_of_lt hk)⟩
      intro k hk e he
      rcases Nat.lt_succ_iff_lt_or_eq.mp hk with hk | rfl
      · exact hpred k hk e he
      · rw [hn] at he
        cases he
    | some e₀ =>
      have hsome : (firstEntry items n).isSome := by rw [hn]; rfl
      obtain ⟨ps', read, hps', -, rfl⟩ := (filePriorities_succ_some hsome).mp hps
      -- the last file has a priority at its position, so there is one for each file before it
      have hlast := (List.getElem?_eq_some_iff.mp (hsel n (Nat.lt_succ_self n) e₀ hn)).1
      rw [List.length_append, List.length_singleton] at hlast
      obtain ⟨hle, hentries⟩ := filePriorities_length hps'
      have hall : ∀ j < n, (firstEntry items j).isSome := hentries (by omega)
      have hfull : ∀ j < n + 1, (firstEntry items j).isSome := fun j hj =>
        (Nat.lt_succ_iff_lt_or_eq.mp hj).elim (hall j) (fun heq => heq ▸ hsome)
      intro k hk e he
      refine ⟨fun j hj => hfull j (Nat.lt_trans hj hk), ?_⟩
      have hget := hsel k hk e he
      rw [(filePriorities_full hfull hps).2, getElem?_selections hk] at hget
      obtain ⟨b, hb, heq⟩ := Option.map_eq_some_iff.mp hget
      rw [hb, DownloadPriority.ofBool_inj.mp heq]

/-- For any number of files and any selection, the priorities follow the selection exactly when
the selection is aligned. -/
theorem filePriorities_iff (fileCount : Nat) (items : List TorrenFileItemSelect) :
    Selects fileCount items ↔ Aligned fileCount items :=
  ⟨Selects.aligned, Aligned.selects⟩

/-- A selection that names the second file first downloads the wrong one; one that names only the
last two files of three reads outside the list. -/
theorem filePriorities_misread :
    filePriorities 2 [⟨1, true⟩, ⟨0, false⟩] = some [.normal, .ignored] ∧
      ¬ Selects 2 [⟨1, true⟩, ⟨0, false⟩] ∧
      filePriorities 3 [⟨1, true⟩, ⟨2, false⟩] = none ∧
      ¬ Selects 3 [⟨1, true⟩, ⟨2, false⟩] := by
  have hwrong : filePriorities 2 [⟨1, true⟩, ⟨0, false⟩] = some [.normal, .ignored] := by decide
  have houtside : filePriorities 3 [⟨1, true⟩, ⟨2, false⟩] = none := by decide
  refine ⟨hwrong, ?_, houtside, ?_⟩
  · rintro ⟨ps, hps, hsel⟩
    obtain rfl := Option.some.inj (hwrong.symm.trans hps)
    exact absurd (hsel 0 (by decide) ⟨0, false⟩ (by decide)) (by decide)
  · rintro ⟨ps, hps, -⟩
    rw [houtside] at hps
    cases hps

end Nas.NetBt
