import NasServices.Download.UserSelfMgr.Create
import NasServices.Lib.LexicalPath

/-!
# Protected directories

`UserSelfMgr::IsProtectedPath` is the check of `CreateTask` that keeps downloads out of
the directories of the installation. It compares the text of the save path with those
of the protected directories, after turning backslashes into slashes and cutting one
slash from its end. The user profiles below a protected directory stay allowed.

`isProtectedInPath_eq_false_iff` reads the comparisons as comparisons of parts, and
`guarded_iff` says for which save paths the check does what it is for: those whose text
starts with their own normal form, so that the parts after it cancel out.
-/

namespace Nas.Download.PathUnit

open Lib.LexicalPath

/-! ## The check -/

def matchPath (path1 path2 : Text) (fullEqual : Bool) : Bool :=
  if path1.length < path2.length then false
  else if fullEqual = true ∧ path1.length ≠ path2.length then false
  else path2.isPrefixOf path1

def isStartWith (path start : Text) : Bool :=
  if path.length = start.length then matchPath path start false else matchPath path (start ++ ['/']) false

def isProfilePath (path : Text) (profilePathList : List Text) : Bool :=
  profilePathList.any fun profile => matchPath path profile true

def isStartProfilePath (path : Text) (profilePathList : List Text) : Bool :=
  profilePathList.any fun profile => isStartWith path profile

def isProtected (protectedPaths profilePathList : List Text) (path : Text) : Bool :=
  if isProfilePath path profilePathList then true
  else if isStartProfilePath path profilePathList then false
  else protectedPaths.any fun start => isStartWith path start

def isProtectedInPath (protectedPaths profilePathList : List Text) (path : Text) : Bool :=
  if isProfilePath path profilePathList then false else isProtected protectedPaths profilePathList path

def removeLastSlash (path : Text) : Text :=
  if 1 < path.length ∧ (path.getLast? = some '/' ∨ path.getLast? = some '\\') then path.dropLast else path

def isProtectedPath (protectedPaths profilePathList : List Text) (savePath : String) : Bool :=
  isProtectedInPath protectedPaths profilePathList (removeLastSlash (unifiedSlash savePath).toList)

/-! ## What it compares -/

variable {path start : Text} {protectedPaths profiles : List Text}

theorem matchPath_full : matchPath path start true = true ↔ path = start := by
  unfold matchPath
  by_cases hlen : path.length = start.length
  · simp only [hlen, Nat.lt_irrefl, if_false, ne_eq, not_true_eq_false, and_false, List.isPrefixOf_iff_prefix]
    exact ⟨fun h => (h.eq_of_length hlen.symm).symm, fun h => h ▸ List.prefix_rfl⟩
  · refine iff_of_false ?_ fun h => hlen (congrArg _ h)
    simp [hlen]

theorem matchPath_lead : matchPath path start false = true ↔ start <+: path := by
  unfold matchPath
  by_cases hlen : path.length < start.length
  · simp only [hlen, if_true, Bool.false_eq_true, false_iff]
    exact fun h => absurd h.length_le (Nat.not_le.mpr hlen)
  · simp [hlen]

theorem isStartWith_iff : isStartWith path start = true ↔ parts start <+: parts path := by
  rw [isPrefix_parts, isStartWith]
  split
  · rename_i hlen
    rw [matchPath_lead]
    constructor
    · exact fun h => .inl (h.eq_of_length hlen.symm).symm
    · rintro (rfl | ⟨t, rfl⟩)
      · exact List.prefix_rfl
      · simp at hlen
  · rename_i hlen
    rw [matchPath_lead]
    constructor
    · rintro ⟨t, rfl⟩
      exact .inr ⟨t, by simp⟩
    · rintro (rfl | ⟨t, rfl⟩)
      · exact absurd rfl hlen
      · exact ⟨t, by simp⟩

theorem isProtectedInPath_eq_false_iff :
    isProtectedInPath protectedPaths profiles path = false ↔
      (∃ profile ∈ profiles, parts profile <+: parts path) ∨
        ∀ start ∈ protectedPaths, ¬ parts start <+: parts path := by
  have hstart : isStartProfilePath path profiles = true ↔ ∃ profile ∈ profiles, parts profile <+: parts path := by
    simp [isStartProfilePath, isStartWith_iff]
  have hsame : isProfilePath path profiles = true → isStartProfilePath path profiles = true := by
    intro h
    obtain ⟨profile, hmem, heq⟩ := List.any_eq_true.mp h
    rw [matchPath_full] at heq
    exact hstart.mpr ⟨profile, hmem, heq ▸ List.prefix_rfl⟩
  rw [← hstart, isProtectedInPath, isProtected]
  by_cases hp : isProfilePath path profiles = true
  · simp [hp, hsame hp]
  · by_cases hs : isStartProfilePath path profiles = true
    · simp [hp, hs]
    · simp [hp, hs, ← isStartWith_iff]

def readPath (savePath : String) : Text := (unifiedSlash savePath).toList

theorem notMem_readPath (savePath : String) : '\\' ∉ readPath savePath := by
  intro h
  rw [readPath, unifiedSlash, String.toList_ofList] at h
  obtain ⟨c, -, hc⟩ := List.mem_map.mp h
  split at hc
  · exact absurd hc (by decide)
  · rename_i hne
    exact hne hc

/-- Of a path without backslashes at most one slash is cut off. -/
theorem removeLastSlash_cases {q : Text} (h : '\\' ∉ q) :
    removeLastSlash q = q ∨ (removeLastSlash q ≠ [] ∧ q = removeLastSlash q ++ ['/']) := by
  unfold removeLastSlash
  split
  · rename_i hlast
    have hslash : q.getLast? = some '/' := hlast.2.resolve_right fun hb => h (List.mem_of_getLast? hb)
    obtain ⟨init, rfl⟩ := List.getLast?_eq_some_iff.mp hslash
    rw [List.dropLast_concat]
    refine .inr ⟨?_, rfl⟩
    rintro rfl
    exact absurd hlast.1 (by decide)
  · exact .inl rfl

theorem lead_append_empty (xs : List Text) : lead (xs ++ [[]]) = lead xs := by
  induction xs with
  | nil => decide
  | cons x xs ih =>
    by_cases hx : IsName x
    · simp only [lead, List.cons_append, List.takeWhile_cons, decide_eq_true hx, if_true] at ih ⊢
      rw [ih]
    · simp [lead, hx]

/-- The cut changes neither the normal form nor the names with which the path starts. -/
theorem removeLastSlash_normal {q : Text} (h : '\\' ∉ q) :
    normal (removeLastSlash q) = normal q ∧ (removeLastSlash q).head? = q.head? ∧
      lead (parts (removeLastSlash q).tail) = lead (parts q.tail) := by
  rcases removeLastSlash_cases h with heq | ⟨hne, heq⟩
  · rw [heq]
    exact ⟨rfl, rfl, rfl⟩
  · generalize removeLastSlash q = c at hne heq
    subst heq
    obtain ⟨a, cs, rfl⟩ := List.exists_cons_of_ne_nil hne
    refine ⟨(normal_slash hne).symm, rfl, ?_⟩
    show lead (parts cs) = lead (parts (cs ++ '/' :: []))
    rw [parts_append, show parts [] = [[]] from rfl, lead_append_empty]

/-! ## What it is for -/

/-- A save path that the check lets pass is neither a protected directory nor below one, unless
it is a profile or below one. -/
def Guarded (protectedPaths profiles : List AbsPath) (savePath : String) : Prop :=
  isProtectedPath (protectedPaths.map AbsPath.text) (profiles.map AbsPath.text) savePath = false →
    ∀ start ∈ protectedPaths, (normal (readPath savePath)).Within start.normal →
      ∃ profile ∈ profiles, (normal (readPath savePath)).Within profile.normal

/-- The save path is relative, or it is the root, or its text starts with its normal form and the
next part, if any, is not a name. -/
def SpellsNormal (savePath : String) : Prop :=
  (readPath savePath).head? ≠ some '/' ∨ (normal (readPath savePath)).names = [] ∨
    (normal (readPath savePath)).names = lead (parts (readPath savePath).tail)

instance (savePath : String) : Decidable (SpellsNormal savePath) := inferInstanceAs (Decidable (_ ∨ _ ∨ _))

variable {q r : Text}

/-- An absolute path starts with another one when the other's names are among its leading names. -/
theorem isPrefix_text_iff (a : AbsPath) (ha : a.names ≠ []) :
    parts a.text <+: parts ('/' :: r) ↔ a.names <+: lead (parts r) := by
  rw [a.parts_text ha, parts_slash, List.cons_prefix_cons, and_iff_right rfl]
  exact isPrefix_lead fun x hx => (a.resolved x hx).1

/-- For an absolute path that starts with its normal form the check is right. -/
theorem passes_guarded {protectedPaths profiles : List AbsPath} (hroot : ∀ start ∈ protectedPaths, start.names ≠ [])
    (hlead : (normal ('/' :: r)).names = lead (parts r))
    (hpass : isProtectedInPath (protectedPaths.map AbsPath.text) (profiles.map AbsPath.text) ('/' :: r) = false)
    {start : AbsPath} (hstart : start ∈ protectedPaths) (hin : (normal ('/' :: r)).Within start.normal) :
    ∃ profile ∈ profiles, (normal ('/' :: r)).Within profile.normal := by
  rcases isProtectedInPath_eq_false_iff.mp hpass with ⟨text, hmem, hpre⟩ | hnone
  · obtain ⟨profile, hprofile, rfl⟩ := List.mem_map.mp hmem
    refine ⟨profile, hprofile, normal_absolute_iff.mpr rfl, ?_⟩
    by_cases hnil : profile.names = []
    · show profile.names <+: _
      rw [hnil]
      exact List.nil_prefix
    · rw [hlead]
      exact (isPrefix_text_iff profile hnil).mp hpre
  · refine absurd ?_ (hnone start.text (List.mem_map_of_mem hstart))
    rw [isPrefix_text_iff start (hroot start hstart), ← hlead]
    exact hin.2

/-- For an absolute path that does not, there are directories for which it is wrong. -/
theorem exists_not_guarded (hne : (normal ('/' :: r)).names ≠ [])
    (hlead : (normal ('/' :: r)).names ≠ lead (parts r)) :
    ∃ (start : AbsPath) (profiles : List AbsPath), start.names ≠ [] ∧
      isProtectedInPath [start.text] (profiles.map AbsPath.text) ('/' :: r) = false ∧
      (normal ('/' :: r)).Within start.normal ∧
      ¬ ∃ profile ∈ profiles, (normal ('/' :: r)).Within profile.normal := by
  let start : AbsPath := ⟨_, normal_resolved r⟩
  have hin : (normal ('/' :: r)).Within start.normal := ⟨normal_absolute_iff.mpr rfl, List.prefix_rfl⟩
  by_cases hpre : (normal ('/' :: r)).names <+: lead (parts r)
  · -- the leading names go further than the normal form: take them as a profile
    let profile : AbsPath := ⟨_, lead_resolved r⟩
    have hprofile : profile.names ≠ [] := by
      intro hnil
      have : lead (parts r) = [] := hnil
      rw [this] at hpre
      exact hne (List.prefix_nil.mp hpre)
    refine ⟨start, [profile], hne, ?_, hin, ?_⟩
    · refine isProtectedInPath_eq_false_iff.mpr (.inl ⟨profile.text, by simp, ?_⟩)
      exact (isPrefix_text_iff profile hprofile).mpr List.prefix_rfl
    · rintro ⟨profile', hmem, hin'⟩
      obtain rfl := List.mem_singleton.mp hmem
      exact hlead (hpre.eq_of_length_le hin'.2.length_le)
  · refine ⟨start, [], hne, isProtectedInPath_eq_false_iff.mpr (.inr ?_), hin, by simp⟩
    intro text htext
    obtain rfl := List.mem_singleton.mp htext
    rwa [isPrefix_text_iff start hne]

/-- The check keeps a save path out of all lists of protected directories, whatever the profiles,
exactly when the text of the save path starts with its own normal form. The protected
directories are absolute and none is the root. -/
theorem guarded_iff (savePath : String) :
    (∀ protectedPaths profiles : List AbsPath, (∀ start ∈ protectedPaths, start.names ≠ []) →
      Guarded protectedPaths profiles savePath) ↔ SpellsNormal savePath := by
  obtain ⟨hnormal, hhead, hleads⟩ := removeLastSlash_normal (notMem_readPath savePath)
  unfold Guarded SpellsNormal isProtectedPath
  rw [← hnormal, ← hhead, ← hleads]
  show (∀ protectedPaths profiles : List AbsPath, _ →
    isProtectedInPath _ _ (removeLastSlash (readPath savePath)) = false → _) ↔ _
  generalize removeLastSlash (readPath savePath) = c
  constructor
  · intro hall
    by_contra hnot
    simp only [not_or, not_not] at hnot
    obtain ⟨habs, hne, hlead⟩ := hnot
    obtain ⟨r, rfl⟩ := List.head?_eq_some_iff.mp habs
    obtain ⟨start, profiles, hstart, hpass, hin, hno⟩ := exists_not_guarded hne hlead
    exact hno (hall [start] profiles (by simpa using hstart) hpass start List.mem_cons_self hin)
  · intro hspell protectedPaths profiles hroot hpass start hstart hin
    have habs : c.head? = some '/' := normal_absolute_iff.mp hin.1
    rcases hspell with hrel | hnil | hlead
    · exact absurd habs hrel
    · refine absurd ?_ (hroot start hstart)
      have hpre := hin.2
      rw [hnil] at hpre
      exact List.prefix_nil.mp hpre
    · obtain ⟨r, rfl⟩ := List.head?_eq_some_iff.mp habs
      exact passes_guarded hroot hlead hpass hstart hin

/-- Other spellings of a protected directory pass the check. -/
theorem spellings_pass :
    let app : AbsPath := ⟨["nas".toList, "app".toList], by decide⟩
    ∀ savePath ∈ ["/nas//app/x", "/nas/./app", "/home/../nas/app"],
      isProtectedPath [app.text] [] savePath = false ∧ (normal (readPath savePath)).Within app.normal ∧
        ¬ Guarded [app] [] savePath := by
  intro app
  have hpass : ∀ savePath ∈ ["/nas//app/x", "/nas/./app", "/home/../nas/app"],
      isProtectedPath [app.text] [] savePath = false ∧ (normal (readPath savePath)).Within app.normal := by
    decide +kernel
  intro savePath hmem
  obtain ⟨hfalse, hin⟩ := hpass savePath hmem
  refine ⟨hfalse, hin, fun hguard => ?_⟩
  obtain ⟨profile, hprofile, -⟩ := hguard hfalse app List.mem_cons_self hin
  cases hprofile

end Nas.Download.PathUnit
