import NasServices.Download.PathProtected

/-!
# The test for protected paths, by components

`ProtectedPath::IsProtected` and `IsProtectedEx` compare texts by their lengths and by what
they start with. A start is looked for with a slash behind it unless the lengths are the
same, so a directory whose name only begins like a protected one is not found. On Windows
`base::StartsWith` does not tell upper from lower case.

`isProtected_components` says what both compute in terms of the components of the paths,
for all texts.
-/

namespace Nas.PathUnit

open Lib.LexicalPath

inductive Build
  | posix | win
  deriving DecidableEq, Repr

namespace Build

/-- What `base::StartsWith` compares of a character: `SENSITIVE` or `INSENSITIVE_ASCII`. -/
def fold : Build → Char → Char
  | .posix, c => c
  | .win, c => c.toLower

variable (b : Build)

def matchPath (path1 path2 : Text) (fullEqual : Bool) : Bool :=
  if path1.length < path2.length then false
  else if fullEqual = true ∧ path1.length ≠ path2.length then false
  else (path2.map b.fold).isPrefixOf (path1.map b.fold)

def isStartWith (path start : Text) : Bool :=
  if path.length = start.length then b.matchPath path start false else b.matchPath path (start ++ ['/']) false

def isProfilePath (path : Text) (profilePathList : List Text) : Bool :=
  profilePathList.any fun profile => b.matchPath path profile true

def isStartProfilePath (path : Text) (profilePathList : List Text) : Bool :=
  profilePathList.any fun profile => b.isStartWith path profile

def isProtected (protectedPaths profilePathList : List Text) (path : Text) : Bool :=
  if b.isProfilePath path profilePathList then true
  else if b.isStartProfilePath path profilePathList then false
  else protectedPaths.any fun start => b.isStartWith path start

/-- An ancestor of a protected path is protected too. -/
def isProtectedEx (protectedPaths profilePathList : List Text) (path : Text) : Bool :=
  if b.isProtected protectedPaths profilePathList path then true
  else protectedPaths.any fun start => b.isStartWith start path

/-! ## Components -/

def components (path : Text) : List Text := (parts path).map (·.map b.fold)

def Same (path other : Text) : Prop := b.components path = b.components other

def Below (path dir : Text) : Prop :=
  b.components dir <+: b.components path ∧ b.components path ≠ b.components dir

instance (path other : Text) : Decidable (b.Same path other) := inferInstanceAs (Decidable (_ = _))

instance (path dir : Text) : Decidable (b.Below path dir) := inferInstanceAs (Decidable (_ ∧ _))

variable {path start other : Text}

/-- Changing the case makes no slash and removes none. -/
theorem fold_eq_slash (c : Char) : b.fold c = '/' ↔ c = '/' := by
  cases b with
  | posix => rfl
  | win =>
    constructor
    · intro h
      change c.toLower = '/' at h
      unfold Char.toLower at h
      split at h
      · rename_i hupper
        have hlow : 65 ≤ c.val.toNat := hupper.1
        have hhigh : c.val.toNat ≤ 90 := hupper.2
        have hval : (c.val + 32).toNat = 47 := congrArg (fun d : Char => d.val.toNat) h
        rw [UInt32.toNat_add, show (32 : UInt32).toNat = 32 from rfl] at hval
        omega
      · exact h
    · rintro rfl
      decide

theorem components_eq (path : Text) : b.components path = parts (path.map b.fold) :=
  (parts_map b.fold_eq_slash path).symm

/-- The comparison is the one of the folded texts, which have the same lengths. -/
theorem matchPath_eq (path1 path2 : Text) (fullEqual : Bool) :
    b.matchPath path1 path2 fullEqual =
      Download.PathUnit.matchPath (path1.map b.fold) (path2.map b.fold) fullEqual := by
  simp only [matchPath, Download.PathUnit.matchPath, List.length_map]

theorem isStartWith_eq (path start : Text) :
    b.isStartWith path start = Download.PathUnit.isStartWith (path.map b.fold) (start.map b.fold) := by
  have hslash : (start ++ ['/']).map b.fold = start.map b.fold ++ ['/'] := by
    rw [List.map_append, List.map_singleton, (b.fold_eq_slash '/').mpr rfl]
  simp only [isStartWith, Download.PathUnit.isStartWith, matchPath_eq, List.length_map, hslash]

/-- On POSIX this is the test that the download service uses. -/
theorem isProtected_posix (protectedPaths profilePathList : List Text) (path : Text) :
    posix.isProtected protectedPaths profilePathList path =
      Download.PathUnit.isProtected protectedPaths profilePathList path := by
  have hfold : posix.fold = id := rfl
  simp only [isProtected, isProfilePath, isStartProfilePath, isStartWith_eq, matchPath_eq, hfold, List.map_id,
    Download.PathUnit.isProtected, Download.PathUnit.isProfilePath, Download.PathUnit.isStartProfilePath]
  rfl

theorem matchPath_full_iff : b.matchPath path other true = true ↔ b.Same path other := by
  rw [matchPath_eq, Download.PathUnit.matchPath_full, Same, components_eq, components_eq]
  exact ⟨congrArg parts, parts_injective⟩

theorem isStartWith_iff : b.isStartWith path start = true ↔ b.Same path start ∨ b.Below path start := by
  rw [isStartWith_eq, Download.PathUnit.isStartWith_iff, ← components_eq, ← components_eq]
  constructor
  · intro hpre
    by_cases hsame : b.components path = b.components start
    · exact .inl hsame
    · exact .inr ⟨hpre, hsame⟩
  · rintro (hsame | hbelow)
    · rw [hsame]
    · exact hbelow.1

theorem isProfilePath_iff {profiles : List Text} :
    b.isProfilePath path profiles = true ↔ ∃ profile ∈ profiles, b.Same path profile := by
  simp only [isProfilePath, List.any_eq_true, matchPath_full_iff]

theorem isStartProfilePath_iff {profiles : List Text} :
    b.isStartProfilePath path profiles = true ↔
      ∃ profile ∈ profiles, b.Same path profile ∨ b.Below path profile := by
  simp only [isStartProfilePath, List.any_eq_true, isStartWith_iff]

/-- On both builds and for all texts, a path is protected exactly when it is a profile path, or it is
below none and is a protected path or below one. `IsProtectedEx` adds the paths that are a protected
path or have one below them. -/
theorem isProtected_components (b : Build) (protectedPaths profiles : List Text) (path : Text) :
    (b.isProtected protectedPaths profiles path = true ↔
      (∃ profile ∈ profiles, b.Same path profile) ∨
        (∀ profile ∈ profiles, ¬ b.Below path profile) ∧
          ∃ start ∈ protectedPaths, b.Same path start ∨ b.Below path start) ∧
    (b.isProtectedEx protectedPaths profiles path = true ↔
      b.isProtected protectedPaths profiles path = true ∨
        ∃ start ∈ protectedPaths, b.Same start path ∨ b.Below start path) := by
  constructor
  · unfold isProtected
    by_cases hprofile : ∃ profile ∈ profiles, b.Same path profile
    · rw [if_pos (b.isProfilePath_iff.mpr hprofile)]
      exact iff_of_true rfl (.inl hprofile)
    · rw [if_neg fun h => hprofile (b.isProfilePath_iff.mp h), or_iff_right hprofile]
      by_cases hbelow : ∃ profile ∈ profiles, b.Below path profile
      · obtain ⟨profile, hmem, hb⟩ := hbelow
        rw [if_pos (b.isStartProfilePath_iff.mpr ⟨profile, hmem, .inr hb⟩)]
        exact iff_of_false Bool.false_ne_true fun h => h.1 profile hmem hb
      · have hstart : ¬ b.isStartProfilePath path profiles = true := by
          rw [isStartProfilePath_iff]
          rintro ⟨profile, hmem, hsame | hb⟩
          · exact hprofile ⟨profile, hmem, hsame⟩
          · exact hbelow ⟨profile, hmem, hb⟩
        rw [if_neg hstart, List.any_eq_true]
        simp only [isStartWith_iff]
        exact (and_iff_right fun profile hmem hb => hbelow ⟨profile, hmem, hb⟩).symm
  · unfold isProtectedEx
    split
    · rename_i hprotected
      exact iff_of_true rfl (.inl hprotected)
    · rename_i hprotected
      rw [or_iff_right hprotected, List.any_eq_true]
      simp only [isStartWith_iff]

/-- A sibling that begins like a protected directory is not protected; case matters on POSIX only. -/
example :
    posix.isProtected ["/nas/app".toList] [] "/nas/apple".toList = false ∧
    posix.isProtected ["/nas/app".toList] [] "/nas/App".toList = false ∧
    win.isProtected ["/nas/app".toList] [] "/nas/App/x".toList = true ∧
    posix.isProtectedEx ["/nas/app".toList] [] "/nas".toList = true := by
  decide +kernel

end Build

end Nas.PathUnit
