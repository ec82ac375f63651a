import NasServices.Common.ProtectedPath

/-!
# The check of a directory's entries from cached facts

`ProtectedPathCheck` looks a directory up once, when it is made, and answers for the entries
of the directory: below a profile path nothing is protected, below a protected path
everything is, and only otherwise the full check runs.

The second shortcut is right (`isProtected_sub_of_protected`): no profile path lies between a
directory and its entry. The first is not. An entry of a profile path can be a profile path
itself, which `IsProtected` protects, and it can have a protected path below it, which
`IsProtectedEx` protects. `isProtectedSub_agrees_iff` is the exact condition.
-/

namespace Nas.PathUnit

open Lib.LexicalPath

def unifiedSlash (srcPath : Text) : Text := srcPath.map fun c => if c = '\\' then '/' else c

structure ProtectedPathCheck where
  profilePathList : List Text
  rootPath : Text
  rootIsProfile : Bool
  rootIsProtected : Bool
  deriving DecidableEq, Repr

structure SubName where
  text : Text
  single : '/' ∉ text

namespace ProtectedPathCheck

variable (b : Build) (protectedPaths : List Text)

def ofRoot (profiles : List Text) (path : Text) : ProtectedPathCheck :=
  let rootPath := unifiedSlash path
  { profilePathList := profiles, rootPath,
    rootIsProfile := b.isProfilePath rootPath profiles,
    rootIsProtected := b.isProtected protectedPaths profiles rootPath }

variable (check : ProtectedPathCheck)

def isPathProtected (path : Text) : Bool := b.isProtected protectedPaths check.profilePathList path

def isPathProtectedEx (path : Text) : Bool := b.isProtectedEx protectedPaths check.profilePathList path

def answerSub (full : Text → Bool) (subFileName : Text) : Bool :=
  if check.rootIsProfile then false
  else if check.rootIsProtected then true
  else full (check.rootPath ++ '/' :: subFileName)

def isProtectedSub (subFileName : Text) : Bool :=
  check.answerSub (check.isPathProtected b protectedPaths) subFileName

def isProtectedExSub (subFileName : Text) : Bool :=
  check.answerSub (check.isPathProtectedEx b protectedPaths) subFileName

end ProtectedPathCheck

namespace Build

variable (b : Build) {root dir : Text} {protectedPaths profiles : List Text}

theorem components_sub (root : Text) (sub : SubName) :
    b.components (root ++ '/' :: sub.text) = b.components root ++ [sub.text.map b.fold] := by
  rw [components, parts_append, parts_of_notMem sub.single, List.map_append, List.map_singleton]
  rfl

/-- Nothing lies between a directory and its entry. -/
theorem below_sub_iff (sub : SubName) :
    b.Below (root ++ '/' :: sub.text) dir ↔ b.Same root dir ∨ b.Below root dir := by
  have hlonger : ∀ {cs : List Text}, cs <+: b.components root →
      b.components root ++ [sub.text.map b.fold] ≠ cs := by
    intro cs hpre heq
    have hlen := hpre.length_le
    rw [← heq, List.length_append, List.length_singleton] at hlen
    omega
  rw [Below, components_sub, List.prefix_concat_iff]
  constructor
  · rintro ⟨heq | hpre, hne⟩
    · exact absurd heq.symm hne
    · by_cases hsame : b.components root = b.components dir
      · exact .inl hsame
      · exact .inr ⟨hpre, hsame⟩
  · rintro (hsame | hbelow)
    · have hpre : b.components dir <+: b.components root := hsame ▸ List.prefix_rfl
      exact ⟨.inr hpre, hlonger hpre⟩
    · exact ⟨.inr hbelow.1, hlonger hbelow.1⟩

theorem isStartWith_sub_iff (sub : SubName) :
    b.isStartWith (root ++ '/' :: sub.text) dir = true ↔
      b.Same (root ++ '/' :: sub.text) dir ∨ b.isStartWith root dir = true := by
  rw [isStartWith_iff, isStartWith_iff, below_sub_iff]

theorem isProfilePath_of_same {path profile : Text} (hmem : profile ∈ profiles) (h : b.Same path profile) :
    b.isProfilePath path profiles = true :=
  b.isProfilePath_iff.mpr ⟨profile, hmem, h⟩

theorem isProtected_sub_of_protected (sub : SubName) (hprofile : ¬ b.isProfilePath root profiles = true)
    (hprotected : b.isProtected protectedPaths profiles root = true) :
    b.isProtected protectedPaths profiles (root ++ '/' :: sub.text) = true := by
  rw [isProtected, if_neg hprofile] at hprotected
  have hstart : ¬ b.isStartProfilePath root profiles = true := by
    intro h
    rw [if_pos h] at hprotected
    exact Bool.false_ne_true hprotected
  rw [if_neg hstart, List.any_eq_true] at hprotected
  obtain ⟨start, hmem, hroot⟩ := hprotected
  by_cases hsub : b.isProfilePath (root ++ '/' :: sub.text) profiles = true
  · rw [isProtected, if_pos hsub]
  · have hnot : ¬ b.isStartProfilePath (root ++ '/' :: sub.text) profiles = true := by
      intro h
      obtain ⟨profile, hp, hwith⟩ := List.any_eq_true.mp h
      rcases (b.isStartWith_sub_iff sub).mp hwith with hsame | hwith
      · exact hsub (b.isProfilePath_of_same hp hsame)
      · exact hstart (List.any_eq_true.mpr ⟨profile, hp, hwith⟩)
    rw [isProtected, if_neg hsub, if_neg hnot]
    exact List.any_eq_true.mpr ⟨start, hmem, (b.isStartWith_sub_iff sub).mpr (.inr hroot)⟩

theorem isProtectedEx_of_isProtected {path : Text} (h : b.isProtected protectedPaths profiles path = true) :
    b.isProtectedEx protectedPaths profiles path = true := by
  rw [isProtectedEx, if_pos h]

end Build

namespace ProtectedPathCheck

variable (b : Build) (protectedPaths profiles : List Text) (root : Text)

/-- A full check that holds where `isProtected` does: the answer for an entry is that of the full check
below the root as the constructor stores it, unless that root is a profile path. -/
theorem answerSub_eq (sub : SubName) {full : Text → Bool}
    (hfull : ∀ path, b.isProtected protectedPaths profiles path = true → full path = true) :
    (ofRoot b protectedPaths profiles root).answerSub full sub.text =
      (!b.isProfilePath (unifiedSlash root) profiles && full (unifiedSlash root ++ '/' :: sub.text)) := by
  by_cases hprofile : b.isProfilePath (unifiedSlash root) profiles = true
  · simp only [answerSub, ofRoot, hprofile, if_true, Bool.not_true, Bool.false_and]
  · by_cases hprotected : b.isProtected protectedPaths profiles (unifiedSlash root) = true
    · rw [hfull _ (b.isProtected_sub_of_protected sub hprofile hprotected)]
      simp only [answerSub, ofRoot, hprofile, hprotected, if_true, Bool.not_false, Bool.and_self,
        Bool.false_eq_true, if_false]
    · simp only [answerSub, ofRoot, hprofile, hprotected, Bool.false_eq_true, if_false, Bool.not_false,
        Bool.true_and]

/-- Both answers for an entry of `root` are those of the full check of `root/sub`. -/
def Agrees (sub : SubName) : Prop :=
  let check := ofRoot b protectedPaths profiles root
  let path := root ++ '/' :: sub.text
  check.isProtectedSub b protectedPaths sub.text = check.isPathProtected b protectedPaths path ∧
    check.isProtectedExSub b protectedPaths sub.text = check.isPathProtectedEx b protectedPaths path

theorem agrees_of_profile (sub : SubName) (hprofile : b.isProfilePath (unifiedSlash root) profiles = true) :
    Agrees b protectedPaths profiles root sub ↔
      b.isProtectedEx protectedPaths profiles (root ++ '/' :: sub.text) = false := by
  have hsub := answerSub_eq b protectedPaths profiles root sub fun _ h => h
  have hsubEx := answerSub_eq b protectedPaths profiles root sub fun _ => b.isProtectedEx_of_isProtected
  rw [hprofile, Bool.not_true, Bool.false_and] at hsub hsubEx
  constructor
  · rintro ⟨-, hex⟩
    exact hex.symm.trans hsubEx
  · intro hex
    have hprot : b.isProtected protectedPaths profiles (root ++ '/' :: sub.text) = false := by
      by_contra h
      rw [b.isProtectedEx_of_isProtected (Bool.not_eq_false _ ▸ h)] at hex
      exact Bool.false_ne_true hex.symm
    exact ⟨hsub.trans hprot.symm, hsubEx.trans hex.symm⟩

theorem agrees_of_not_profile (sub : SubName)
    (hprofile : b.isProfilePath (unifiedSlash root) profiles = false) :
    Agrees b protectedPaths profiles root sub ↔
      b.isProtected protectedPaths profiles (unifiedSlash root ++ '/' :: sub.text) =
          b.isProtected protectedPaths profiles (root ++ '/' :: sub.text) ∧
        b.isProtectedEx protectedPaths profiles (unifiedSlash root ++ '/' :: sub.text) =
          b.isProtectedEx protectedPaths profiles (root ++ '/' :: sub.text) := by
  have hsub := answerSub_eq b protectedPaths profiles root sub fun _ h => h
  have hsubEx := answerSub_eq b protectedPaths profiles root sub fun _ => b.isProtectedEx_of_isProtected
  rw [hprofile, Bool.not_false, Bool.true_and] at hsub hsubEx
  rw [← hsub, ← hsubEx]
  rfl

end ProtectedPathCheck

end Nas.PathUnit
