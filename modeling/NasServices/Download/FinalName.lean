import Mathlib.Data.List.AList
import Mathlib.Data.Set.Finite.Basic
import Mathlib.Order.Bounds.Basic
import NasServices.Download.FilePaths
import NasServices.NetCurl.CurlDownloadTaskImpl

/-!
# The name a finished download gets

`RenameTempFile` looks for a name that is free in the save path, the requested one first and
then those with a number before the extension, and moves the temporary file there. The number
is an `int` and the name is copied back into an array of `kMaxPath` bytes.
No name is tried twice (`finalName_injective`), so that in a finite directory one of them is
free. `renameTempFile_reports` says that the engine's model of the call reports the same, and
`finishes_iff` when the file gets the least free name.
-/

namespace Nas.Download

open Lib.LexicalPath CurlDownloadTaskImpl

/-! ## Extensions -/

/-- A name without a dot after its first character has no extension. -/
theorem extension_eq_nil {c : Char} {cs : Text} (h : '.' ∉ cs) : extension (c :: cs) = [] := by
  have hall : ∀ d ∈ cs.reverse, decide (d ≠ '.') = true := by
    intro d hd
    simpa using fun heq : d = '.' => h (heq ▸ List.mem_reverse.mp hd)
  unfold extension
  dsimp only
  refine if_pos (.inr ?_)
  rw [List.reverse_cons, List.takeWhile_append_of_pos hall]
  simp

/-- The extension begins at the last dot, unless the name does. -/
theorem extension_append {start after : Text} (hstart : start ≠ []) (hafter : '.' ∉ after)
    (hdots : start ++ '.' :: after ≠ ['.', '.']) : extension (start ++ '.' :: after) = '.' :: after := by
  have hall : ∀ d ∈ after.reverse, decide (d ≠ '.') = true := by
    intro d hd
    simpa using fun heq : d = '.' => hafter (heq ▸ List.mem_reverse.mp hd)
  have hlast : ((start ++ '.' :: after).reverse.takeWhile (· ≠ '.')).reverse = after := by
    rw [List.reverse_append, List.reverse_cons, List.append_assoc, List.takeWhile_append_of_pos hall]
    simp
  have hpos : 0 < start.length := List.length_pos_iff.mpr hstart
  unfold extension
  dsimp only
  rw [hlast]
  refine if_neg (not_or.mpr ⟨hdots, ?_⟩)
  simp only [List.length_append, List.length_cons]
  omega

theorem exists_last_dot {cs : Text} (h : '.' ∈ cs) :
    ∃ start after, cs = start ++ '.' :: after ∧ '.' ∉ after := by
  induction cs with
  | nil => exact absurd h List.not_mem_nil
  | cons c cs ih =>
    by_cases hcs : '.' ∈ cs
    · obtain ⟨start, after, rfl, hafter⟩ := ih hcs
      exact ⟨c :: start, after, rfl, hafter⟩
    · rcases List.mem_cons.mp h with rfl | h
      · exact ⟨[], cs, rfl, hcs⟩
      · exact absurd h hcs

def numbered (name : Text) (n : Nat) : Text :=
  stem name ++ " (".toList ++ Lib.natText n ++ ")".toList ++ extension name

theorem notMem_number (n : Nat) : '.' ∉ " (".toList ++ Lib.natText n ++ ")".toList := by
  simp only [List.mem_append, not_or]
  exact ⟨⟨by decide, fun hm => absurd (Lib.natText_isDigit _ _ hm) (by decide)⟩, by decide⟩

theorem extension_numbered {name : Text} (hname : IsName name) (n : Nat) :
    extension (numbered name n) = extension name := by
  have hnumber := notMem_number n
  obtain ⟨hne, -, hdots⟩ := hname
  obtain ⟨c, cs, rfl⟩ := List.exists_cons_of_ne_nil hne
  by_cases hcs : '.' ∈ cs
  · obtain ⟨start, after, rfl, hafter⟩ := exists_last_dot hcs
    have hext : extension (c :: start ++ '.' :: after) = '.' :: after :=
      extension_append (List.cons_ne_nil _ _) hafter hdots
    have hstem : stem (c :: start ++ '.' :: after) = c :: start := by
      rw [stem, hext, List.length_append, Nat.add_sub_cancel, List.take_left]
    have hlong : 2 < (numbered (c :: start ++ '.' :: after) n).length := by
      have hopen : " (".toList.length = 2 := by decide
      rw [numbered, hstem, hext]
      simp only [List.length_append, List.length_cons]
      omega
    rw [← List.cons_append, hext]
    rw [numbered, hstem, hext] at hlong ⊢
    refine extension_append (by simp) hafter fun heq => ?_
    rw [heq] at hlong
    exact absurd hlong (by decide)
  · have hext : extension (c :: cs) = [] := extension_eq_nil hcs
    have hstem : stem (c :: cs) = c :: cs := by
      rw [stem, hext]
      exact List.take_length
    have happ : numbered (c :: cs) n = c :: (cs ++ (" (".toList ++ Lib.natText n ++ ")".toList)) := by
      rw [numbered, hstem, hext]
      simp only [List.append_nil, List.append_assoc, List.cons_append]
    rw [happ, hext]
    exact extension_eq_nil fun hm => (List.mem_append.mp hm).elim hcs hnumber

/-! ## The names that are tried -/

theorem finalName_succ {name : Text} (hname : IsName name) (taken : Nat) :
    finalName name (taken + 1) = numbered name (taken + 1) := by
  -- the extension of the name before is that of the name itself
  have hext : extension (finalName name taken) = extension name := by
    induction taken with
    | zero => rfl
    | succ taken ih =>
      have hsucc : finalName name (taken + 1) = numbered name (taken + 1) := by
        rw [finalName, ih, numbered]
      rw [hsucc, extension_numbered hname]
  rw [finalName, hext, numbered]

theorem length_stem_add (name : Text) : (stem name).length + (extension name).length = name.length := by
  have hle : (extension name).length ≤ name.length := by
    unfold extension
    dsimp only
    split
    · exact Nat.zero_le _
    · rename_i h
      rw [List.length_cons]
      omega
  rw [stem, List.length_take]
  omega

theorem numbered_injective (name : Text) : Function.Injective (numbered name) := by
  intro m n h
  have h := List.append_cancel_right (List.append_cancel_right h)
  rw [← Lib.natValue_natText m, List.append_cancel_left h, Lib.natValue_natText]

theorem numbered_ne (name : Text) (n : Nat) : numbered name n ≠ name := by
  intro h
  have hlen := congrArg List.length h
  have hsum := length_stem_add name
  have hopen : " (".toList.length = 2 := by decide
  simp only [numbered, List.length_append] at hlen
  omega

theorem finalName_injective {name : Text} (hname : IsName name) : Function.Injective (finalName name) := by
  intro j k h
  cases j with
  | zero =>
    cases k with
    | zero => rfl
    | succ k => exact absurd ((finalName_succ hname k).symm.trans h.symm) (numbered_ne name _)
  | succ j =>
    cases k with
    | zero => exact absurd ((finalName_succ hname j).symm.trans h) (numbered_ne name _)
    | succ k =>
      rw [finalName_succ hname, finalName_succ hname] at h
      exact numbered_injective name h

/-! ## `RenameTempFile` -/

def kMaxPath : Nat := 1040

structure Finishing (α : Type) where
  files : AList fun _ : Text => α
  savePath : Text
  tmpFilePath : Text
  /-- In `file_base_info_`: a name without slashes. -/
  fileName : Text
  totalProgress : ℚ := 0
  errCode : DownloadErrorCode := .kNormal

namespace Finishing

variable {α : Type}

def filePath (s : Finishing α) (name : Text) : Text := s.savePath ++ '/' :: name

def pathExists (s : Finishing α) (path : Text) : Bool := (s.files.lookup path).isSome

/-- The loop, which can count `left` times more before `name_suffix` is the greatest `int`.
Counting beyond that is undefined. -/
def freeName (s : Finishing α) (u8Stem : Text) : Nat → Nat → Text → Option Text
  | 0, _, name => if s.pathExists (s.filePath name) then none else some name
  | left + 1, nameSuffix, name =>
    if s.pathExists (s.filePath name) then
      freeName s u8Stem left (nameSuffix + 1)
        (u8Stem ++ " (".toList ++ Lib.natText nameSuffix ++ ")".toList ++ extension name)
    else some name

/-- `CurlDownloadTaskImpl::RenameTempFile`, where the rename succeeds or not. There is no result
when the behaviour is undefined: the number overflows, or the name is longer than its array. -/
def renameTempFile (s : Finishing α) (renamed : Bool) : Option (Finishing α) :=
  match s.freeName (stem s.fileName) (2 ^ 31 - 2) 1 s.fileName with
  | none => none
  | some name =>
    match s.files.lookup s.tmpFilePath with
    | none => some { s with errCode := .kRenameTempFileFailed }
    | some file =>
      if s.pathExists (s.filePath name) then some { s with errCode := .kRenameTempFileFailed }
      else if renamed then
        if byteSize name ≤ kMaxPath then
          some { s with
            files := (s.files.erase s.tmpFilePath).insert (s.filePath name) file
            fileName := name
            totalProgress := 100 }
        else none
      else some { s with errCode := .kRenameTempFileFailed }

/-! ## The search -/

def Free (s : Finishing α) (k : Nat) : Prop := s.pathExists (s.filePath (finalName s.fileName k)) = false

theorem filePath_injective (s : Finishing α) : Function.Injective s.filePath :=
  fun _ _ h => (List.cons.inj (List.append_cancel_left h)).2

theorem pathExists_iff (s : Finishing α) (path : Text) : s.pathExists path = true ↔ path ∈ s.files :=
  AList.lookup_isSome

/-- The directory is finite and the names are all different, so that one is free. -/
theorem exists_isLeast_free (s : Finishing α) (hname : IsName s.fileName) :
    ∃ k, IsLeast {k | s.Free k} k := by
  have hinj : Function.Injective fun k => s.filePath (finalName s.fileName k) :=
    s.filePath_injective.comp (finalName_injective hname)
  have hfree : ∃ k, s.Free k := by
    obtain ⟨_, ⟨k, rfl⟩, hk⟩ :=
      (Set.infinite_range_of_injective hinj).exists_notMem_finset s.files.keys.toFinset
    refine ⟨k, Bool.eq_false_iff.mpr fun hexists => hk ?_⟩
    exact List.mem_toFinset.mpr (AList.mem_keys.mpr ((s.pathExists_iff _).mp hexists))
  classical
  exact ⟨Nat.find hfree, Nat.find_spec hfree, fun j hj => Nat.find_min' hfree hj⟩

variable {s : Finishing α} {k taken left : Nat}

/-- The loop stops at the first name that is free. -/
theorem freeName_of_free (hfree : s.Free k) (hmin : ∀ j, taken ≤ j → j < k → ¬ s.Free j)
    (hlow : taken ≤ k) (hhigh : k ≤ taken + left) :
    s.freeName (stem s.fileName) left (taken + 1) (finalName s.fileName taken) =
      some (finalName s.fileName k) := by
  induction left generalizing taken with
  | zero =>
    obtain rfl : taken = k := by omega
    rw [freeName, if_neg (Bool.eq_false_iff.mp hfree)]
  | succ left ih =>
    rw [freeName]
    by_cases heq : taken = k
    · rw [heq, if_neg (Bool.eq_false_iff.mp hfree)]
    · have htaken : ¬ s.Free taken := hmin taken (le_refl _) (by omega)
      rw [if_pos (Bool.not_eq_false _ ▸ htaken)]
      exact ih (fun j hj => hmin j (by omega)) (by omega) (by omega)

/-- The number overflows when as many names are taken as it can count. -/
theorem freeName_of_taken (h : ∀ j, taken ≤ j → j ≤ taken + left → ¬ s.Free j) :
    s.freeName (stem s.fileName) left (taken + 1) (finalName s.fileName taken) = none := by
  have htaken : s.pathExists (s.filePath (finalName s.fileName taken)) = true :=
    Bool.not_eq_false _ ▸ h taken (le_refl _) (by omega)
  induction left generalizing taken with
  | zero => rw [freeName, if_pos htaken]
  | succ left ih =>
    rw [freeName, if_pos htaken]
    exact ih (fun j hlow hhigh => h j (by omega) (by omega))
      (Bool.not_eq_false _ ▸ h (taken + 1) (by omega) (by omega))

/-! ## What a finished download leaves -/

/-- The name is the requested one, or it is taken and the name has the least number that is free. -/
def IsFinal (s : Finishing α) (final : Text) : Prop :=
  s.pathExists (s.filePath final) = false ∧
    (final = s.fileName ∨
      s.pathExists (s.filePath s.fileName) = true ∧
        ∃ n, 1 ≤ n ∧ final = numbered s.fileName n ∧
          ∀ m, 1 ≤ m → m < n → s.pathExists (s.filePath (numbered s.fileName m)) = true)

structure Moved (s s' : Finishing α) (file : α) : Prop where
  named : ∃ final, s.IsFinal final ∧ ∀ path, s'.files.lookup path =
    if path = s.filePath final then some file
    else if path = s.tmpFilePath then none else s.files.lookup path
  totalProgress : s'.totalProgress = 100

structure Unmoved (s s' : Finishing α) : Prop where
  errCode : s'.errCode = .kRenameTempFileFailed
  totalProgress : s'.totalProgress = s.totalProgress
  files : s'.files = s.files

def Finishes (s : Finishing α) (renamed : Bool) : Prop :=
  ∃ s', s.renameTempFile renamed = some s' ∧
    match s.files.lookup s.tmpFilePath, renamed with
    | some file, true => Moved s s' file
    | _, _ => Unmoved s s'

def Fits (s : Finishing α) (renamed : Bool) : Prop :=
  ∃ k, IsLeast {k | s.Free k} k ∧ k ≤ 2 ^ 31 - 2 ∧
    (s.pathExists s.tmpFilePath = true → renamed = true → byteSize (finalName s.fileName k) ≤ kMaxPath)

theorem isFinal_finalName (hname : IsName s.fileName) (hk : IsLeast {k | s.Free k} k) :
    s.IsFinal (finalName s.fileName k) := by
  have htaken : ∀ j < k, s.pathExists (s.filePath (finalName s.fileName j)) = true := by
    intro j hj
    exact Bool.not_eq_false _ ▸ fun hfree => absurd (hk.2 hfree) (Nat.not_le.mpr hj)
  refine ⟨hk.1, ?_⟩
  cases k with
  | zero => exact .inl rfl
  | succ k =>
    refine .inr ⟨htaken 0 (Nat.succ_pos k), k + 1, Nat.succ_pos k, finalName_succ hname k, ?_⟩
    intro m hm hlt
    obtain ⟨j, rfl⟩ : ∃ j, m = j + 1 := ⟨m - 1, by omega⟩
    rw [← finalName_succ hname]
    exact htaken (j + 1) hlt

theorem lookup_rename (s : Finishing α) {path : Text} (file : α) (other : Text) :
    ((s.files.erase s.tmpFilePath).insert path file).lookup other =
      if other = path then some file
      else if other = s.tmpFilePath then none else s.files.lookup other := by
  by_cases hpath : other = path
  · rw [hpath, AList.lookup_insert, if_pos rfl]
  · rw [AList.lookup_insert_ne hpath, if_neg hpath]
    by_cases htmp : other = s.tmpFilePath
    · rw [htmp, AList.lookup_erase, if_pos rfl]
    · rw [AList.lookup_erase_ne htmp, if_neg htmp]

theorem renameTempFile_of_taken (renamed : Bool) (h : ∀ j ≤ 2 ^ 31 - 2, ¬ s.Free j) :
    s.renameTempFile renamed = none := by
  have hloop : s.freeName (stem s.fileName) (2 ^ 31 - 2) 1 s.fileName = none := by
    have htaken : ∀ j, 0 ≤ j → j ≤ 0 + (2 ^ 31 - 2) → ¬ s.Free j := fun j _ hj => h j (by omega)
    exact freeName_of_taken htaken
  rw [renameTempFile, hloop]

/-- The free name is found; the file is moved if it is there and the rename succeeds. -/
theorem renameTempFile_of_isLeast (renamed : Bool) (hk : IsLeast {k | s.Free k} k) (hle : k ≤ 2 ^ 31 - 2) :
    s.renameTempFile renamed =
      match s.files.lookup s.tmpFilePath, renamed with
      | some file, true =>
        if byteSize (finalName s.fileName k) ≤ kMaxPath then
          some { s with
            files := (s.files.erase s.tmpFilePath).insert (s.filePath (finalName s.fileName k)) file
            fileName := finalName s.fileName k
            totalProgress := 100 }
        else none
      | _, _ => some { s with errCode := .kRenameTempFileFailed } := by
  have hloop : s.freeName (stem s.fileName) (2 ^ 31 - 2) 1 s.fileName = some (finalName s.fileName k) := by
    have hmin : ∀ j, 0 ≤ j → j < k → ¬ s.Free j := fun j _ hj hfree => absurd (hk.2 hfree) (Nat.not_le.mpr hj)
    exact freeName_of_free hk.1 hmin (Nat.zero_le k) (by omega)
  have hfree : s.pathExists (s.filePath (finalName s.fileName k)) = false := hk.1
  rw [renameTempFile, hloop]
  dsimp only
  rw [hfree]
  cases s.files.lookup s.tmpFilePath with
  | none => rfl
  | some file => cases renamed <;> rfl

/-- The engine's model of the call, which is only told whether the file was moved, reports the same. -/
theorem renameTempFile_reports {s' : Finishing α} {renamed : Bool} (hname : IsName s.fileName)
    (h : s.renameTempFile renamed = some s') {e : NetCurl.CurlDownloadTaskImpl}
    (hprogress : e.totalProgress = s.totalProgress) (herr : e.errCode = s.errCode) :
    (e.renameTempFile (s.pathExists s.tmpFilePath && renamed)).totalProgress = s'.totalProgress ∧
      (e.renameTempFile (s.pathExists s.tmpFilePath && renamed)).errCode = s'.errCode := by
  obtain ⟨k, hk⟩ := s.exists_isLeast_free hname
  by_cases hle : k ≤ 2 ^ 31 - 2
  · rw [renameTempFile_of_isLeast renamed hk hle] at h
    rw [pathExists]
    cases htmp : s.files.lookup s.tmpFilePath with
    | none =>
      rw [htmp] at h
      obtain rfl := Option.some.inj h
      exact ⟨hprogress, rfl⟩
    | some file =>
      rw [htmp] at h
      cases renamed with
      | false =>
        obtain rfl := Option.some.inj h
        exact ⟨hprogress, rfl⟩
      | true =>
        dsimp only at h
        split at h
        · obtain rfl := Option.some.inj h
          exact ⟨rfl, herr⟩
        · exact absurd h (by simp)
  · rw [renameTempFile_of_taken renamed fun j hj hfree => hle (le_trans (hk.2 hfree) hj)] at h
    exact absurd h (by simp)

/-! ## When the file gets its name -/

/-- A download ends as it should exactly when the free name is found before the number overflows and,
if the file is moved there, the name fits its array. -/
theorem finishes_iff (s : Finishing α) (hname : IsName s.fileName) (renamed : Bool) :
    s.Finishes renamed ↔ s.Fits renamed := by
  obtain ⟨k, hk⟩ := s.exists_isLeast_free hname
  have hunique : s.Fits renamed ↔ k ≤ 2 ^ 31 - 2 ∧ (s.pathExists s.tmpFilePath = true → renamed = true →
      byteSize (finalName s.fileName k) ≤ kMaxPath) := by
    constructor
    · rintro ⟨j, hj, h⟩
      rwa [hk.unique hj]
    · exact fun h => ⟨k, hk, h⟩
  rw [hunique, Finishes, pathExists]
  by_cases hle : k ≤ 2 ^ 31 - 2
  · rw [renameTempFile_of_isLeast renamed hk hle]
    cases htmp : s.files.lookup s.tmpFilePath with
    | none =>
      exact iff_of_true ⟨_, rfl, ⟨rfl, rfl, rfl⟩⟩ ⟨hle, fun h => absurd h Bool.false_ne_true⟩
    | some file =>
      cases renamed with
      | false => exact iff_of_true ⟨_, rfl, ⟨rfl, rfl, rfl⟩⟩ ⟨hle, fun _ h => absurd h Bool.false_ne_true⟩
      | true =>
        dsimp only
        by_cases hfits : byteSize (finalName s.fileName k) ≤ kMaxPath
        · rw [if_pos hfits]
          refine iff_of_true ⟨_, rfl, ⟨_, isFinal_finalName hname hk, s.lookup_rename file⟩, rfl⟩ ?_
          exact ⟨hle, fun _ _ => hfits⟩
        · rw [if_neg hfits]
          refine iff_of_false ?_ fun h => hfits (h.2 rfl rfl)
          rintro ⟨s', h, -⟩
          exact absurd h (by simp)
  · refine iff_of_false ?_ fun h => hle h.1
    rw [renameTempFile_of_taken renamed fun j hj hfree => hle (le_trans (hk.2 hfree) hj)]
    rintro ⟨s', h, -⟩
    exact absurd h (by simp)

def oneTaken : Finishing Nat where
  files := AList.insert "/d/a.txt".toList 1 (AList.insert "/d/a.txt.1.nas.tmp".toList 2 ∅)
  savePath := "/d".toList
  tmpFilePath := "/d/a.txt.1.nas.tmp".toList
  fileName := "a.txt".toList

theorem oneTaken_finishes : IsName oneTaken.fileName ∧ oneTaken.Finishes true := by
  have hname : IsName oneTaken.fileName := by decide
  refine ⟨hname, (finishes_iff oneTaken hname true).mpr ⟨1, ⟨?_, ?_⟩, by decide, fun _ _ => ?_⟩⟩
  · show oneTaken.pathExists _ = false
    decide +kernel
  · intro j hj
    refine Nat.one_le_iff_ne_zero.mpr ?_
    rintro rfl
    exact absurd hj (show ¬ oneTaken.pathExists _ = false by decide +kernel)
  · decide +kernel

def crowd (name : Text) : Nat → AList fun _ : Text => Unit
  | 0 => AList.insert "/d/tmp".toList () ∅
  | n + 1 => AList.insert ("/d/".toList ++ finalName name n) () (crowd name n)

theorem mem_crowd {name : Text} {j n : Nat} (h : j < n) : "/d/".toList ++ finalName name j ∈ crowd name n := by
  induction n with
  | zero => exact absurd h (Nat.not_lt_zero j)
  | succ n ih =>
    rw [crowd, AList.mem_insert]
    rcases Nat.lt_succ_iff_lt_or_eq.mp h with hlt | rfl
    · exact .inr (ih hlt)
    · exact .inl rfl

def crowded (name : Text) (n : Nat) : Finishing Unit where
  files := crowd name n
  savePath := "/d".toList
  tmpFilePath := "/d/tmp".toList
  fileName := name

/-- No number is left for the name when `name_suffix` has counted up to the greatest `int`. -/
theorem renameTempFile_crowded (name : Text) {n : Nat} (hn : 2 ^ 31 - 1 ≤ n) (renamed : Bool) :
    (crowded name n).renameTempFile renamed = none := by
  refine renameTempFile_of_taken renamed fun j hj hfree => ?_
  have hmem : "/d/".toList ++ finalName name j ∈ crowd name n := mem_crowd (by omega)
  have hexists : (crowded name n).pathExists ((crowded name n).filePath (finalName name j)) = true :=
    ((crowded name n).pathExists_iff _).mpr hmem
  exact Bool.eq_false_iff.mp hfree hexists

theorem crowded_undefined :
    (crowded "a.txt".toList (2 ^ 31 - 1)).renameTempFile true = none ∧
      ¬ (crowded "a.txt".toList (2 ^ 31 - 1)).Finishes true := by
  have hnone := renameTempFile_crowded "a.txt".toList (le_refl (2 ^ 31 - 1)) true
  refine ⟨hnone, ?_⟩
  rintro ⟨s', hs, -⟩
  rw [hnone] at hs
  exact absurd hs (by simp)

end Finishing

end Nas.Download
