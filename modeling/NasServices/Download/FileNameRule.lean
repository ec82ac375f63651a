import NasServices.Download.UserSelfMgr.Create
import NasServices.Lib.LexicalPath
import NasServices.Lib.Regex

/-!
# Valid file names on Windows

`IsValidFilename` writes the rule for file names as one regular expression and searches for it
anywhere in the name. For single characters that is right. The reserved device names are only meant as
the whole part before the first dot, but the expression has no anchor in front: it is found wherever
a device name is followed by a dot or by the end of the name, as in `falcon.txt`
(`isValidFilenameWin_iff`, `isValidFilenameWin_agrees_iff`).
-/

namespace Nas.Download

open Lib Lib.Regex
open Lib.LexicalPath (Text)

/-- `<>:"/\|?*`, tab, line feed and carriage return. -/
def forbiddenChars : List Char := ['<', '>', ':', '"', '/', '\\', '|', '?', '*', '\x09', '\x0a', '\x0d']

def nonZeroDigits : List Char := ['1', '2', '3', '4', '5', '6', '7', '8', '9']

/-- `(CON|PRN|AUX|NUL|COM[1-9]|LPT[1-9])`, in upper or lower case. -/
def deviceName : Regex Char :=
  let word (w : String) := Regex.word Char.toLower w.toList
  let digit := one (· ∈ nonZeroDigits)
  alt (word "CON") (alt (word "PRN") (alt (word "AUX") (alt (word "NUL")
    (alt (seq (word "COM") digit) (seq (word "LPT") digit)))))

/-- `(\..*|$)`. -/
def dotOrEnd : Regex Char := alt (seq (one (· = '.')) (star (one fun c => c ∉ ['\n', '\r']))) atEnd

def windowsRule : Regex Char := alt (one (· ∈ forbiddenChars)) (seq deviceName dotOrEnd)

/-- `utils::IsValidFilename` on Windows, which needs a last character. -/
def isValidFilenameWin (fileName : Text) (hne : fileName ≠ []) : Bool :=
  if fileName.getLast hne = ' ' ∨ fileName.getLast hne = '.' then false
  else !windowsRule.search fileName

def posixRule : Regex Char := one (· ∈ ['/', '\x00', '\x20', '\x09', '\x0a'])

theorem isValidFilename_eq (fileName : String) :
    isValidFilename fileName = !posixRule.search fileName.toList := by
  have hchars : "/\x00 \t\n".toList = ['/', '\x00', '\x20', '\x09', '\x0a'] := by decide +kernel
  rw [Bool.eq_iff_iff, isValidFilename, hchars, List.all_eq_true, Bool.not_eq_true', ← Bool.not_eq_true,
    posixRule, search_one_iff]
  simp

/-! ## The rule as it is documented -/

def reservedNames : List Text :=
  ["con".toList, "prn".toList, "aux".toList, "nul".toList] ++ nonZeroDigits.map ("com".toList ++ [·]) ++
    nonZeroDigits.map ("lpt".toList ++ [·])

def IsDevice (name : Text) : Prop := name.map Char.toLower ∈ reservedNames

instance (name : Text) : Decidable (IsDevice name) := inferInstanceAs (Decidable (_ ∈ _))

structure FollowsRule (fileName : Text) : Prop where
  chars : ∀ c ∈ fileName, c ∉ forbiddenChars
  last : fileName.getLast? ≠ some ' ' ∧ fileName.getLast? ≠ some '.'
  stem : ¬ IsDevice (fileName.takeWhile (· ≠ '.'))

instance (fileName : Text) : Decidable (FollowsRule fileName) :=
  decidable_of_iff (fileName.all (· ∉ forbiddenChars) = true ∧
      (fileName.getLast? ≠ some ' ' ∧ fileName.getLast? ≠ some '.') ∧ ¬ IsDevice (fileName.takeWhile (· ≠ '.')))
    ⟨fun h => ⟨fun c hc => of_decide_eq_true (List.all_eq_true.mp h.1 c hc), h.2.1, h.2.2⟩,
      fun h => ⟨List.all_eq_true.mpr fun c hc => decide_eq_true (h.chars c hc), h.last, h.stem⟩⟩

def DeviceBeforeDot (fileName : Text) : Prop :=
  ∃ front device rest, fileName = front ++ (device ++ rest) ∧ IsDevice device ∧
    (rest = [] ∨ rest.head? = some '.')

/-! ## What the expression finds -/

variable {s t : Text}

theorem toLower_digit : ∀ d ∈ nonZeroDigits, d.toLower = d ∧ d.toNat ≤ 57 := by
  have hall : nonZeroDigits.all (fun d => d.toLower = d ∧ d.toNat ≤ 57) = true := by decide
  exact fun d hd => of_decide_eq_true (List.all_eq_true.mp hall d hd)

theorem eq_of_toLower_eq_digit {c d : Char} (hd : d ∈ nonZeroDigits) (h : c.toLower = d) : c = d := by
  have hsmall := (toLower_digit d hd).2
  unfold Char.toLower at h
  split at h
  · -- a letter becomes a letter, which no digit is
    rename_i hupper
    exfalso
    have hge : c.val.toNat ≥ 65 := hupper.1
    have hle : c.val.toNat ≤ 90 := hupper.2
    have hshift : ('a'.val - 'A'.val).toNat = 32 := by decide
    have hval : d.toNat = (c.val + ('a'.val - 'A'.val)).toNat := by
      rw [← h]
      rfl
    rw [UInt32.toNat_add] at hval
    omega
  · exact h

theorem mem_rest_numbered {w : Text} : t ∈ (seq (word Char.toLower w) (one (· ∈ nonZeroDigits))).rest s ↔
    ∃ u, (∃ d ∈ nonZeroDigits, u.map Char.toLower = w.map Char.toLower ++ [d]) ∧ s = u ++ t := by
  rw [mem_rest_seq]
  constructor
  · rintro ⟨v, hv, ht⟩
    obtain ⟨u, hu, rfl⟩ := (mem_rest_word _).mp hv
    obtain ⟨d, hd, rfl⟩ := mem_rest_one.mp ht
    have hd := of_decide_eq_true hd
    exact ⟨u ++ [d], ⟨d, hd, by simp [hu, (toLower_digit d hd).1]⟩, by simp⟩
  · rintro ⟨u, ⟨d, hd, hu⟩, rfl⟩
    obtain ⟨v, last, rfl, hv, hlast⟩ := List.map_eq_append_iff.mp hu
    obtain ⟨c, rfl, hc⟩ := List.map_eq_singleton_iff.mp hlast
    obtain rfl := eq_of_toLower_eq_digit hd hc
    exact ⟨c :: t, (mem_rest_word _).mpr ⟨v, hv, by simp⟩, mem_rest_one.mpr ⟨c, decide_eq_true hd, rfl⟩⟩

theorem mem_rest_deviceName : t ∈ deviceName.rest s ↔ ∃ u, IsDevice u ∧ s = u ++ t := by
  have hlower : "CON".toList.map Char.toLower = "con".toList ∧ "PRN".toList.map Char.toLower = "prn".toList ∧
      "AUX".toList.map Char.toLower = "aux".toList ∧ "NUL".toList.map Char.toLower = "nul".toList ∧
      "COM".toList.map Char.toLower = "com".toList ∧ "LPT".toList.map Char.toLower = "lpt".toList := by
    decide +kernel
  obtain ⟨hcon, hprn, haux, hnul, hcom, hlpt⟩ := hlower
  simp only [deviceName, mem_rest_alt, mem_rest_word, mem_rest_numbered, hcon, hprn, haux, hnul, hcom, hlpt]
  simp only [IsDevice, reservedNames, List.mem_append, List.mem_cons, List.not_mem_nil, or_false, List.mem_map,
    or_assoc, or_and_right, exists_or, eq_comm]

theorem exists_mem_rest_dotOrEnd : (∃ t, t ∈ dotOrEnd.rest s) ↔ s = [] ∨ s.head? = some '.' := by
  simp only [dotOrEnd, mem_rest_alt, mem_rest_seq, mem_rest_one, mem_rest_atEnd]
  constructor
  · rintro ⟨t, ⟨u, ⟨c, hc, rfl⟩, -⟩ | ⟨rfl, -⟩⟩
    · rw [of_decide_eq_true hc]
      exact .inr rfl
    · exact .inl rfl
  · rintro (rfl | hdot)
    · exact ⟨[], .inr ⟨rfl, rfl⟩⟩
    · obtain ⟨u, rfl⟩ := List.head?_eq_some_iff.mp hdot
      exact ⟨u, .inl ⟨u, ⟨'.', by decide, rfl⟩, self_mem_rest_star _ u⟩⟩

theorem search_windowsRule_iff {fileName : Text} :
    windowsRule.search fileName = true ↔ (∃ c ∈ fileName, c ∈ forbiddenChars) ∨ DeviceBeforeDot fileName := by
  rw [windowsRule, search_alt_iff, search_one_iff]
  refine or_congr (by simp) ?_
  rw [search_iff]
  constructor
  · rintro ⟨front, back, t, rfl, ht⟩
    obtain ⟨rest, hrest, hend⟩ := mem_rest_seq.mp ht
    obtain ⟨device, hdevice, rfl⟩ := mem_rest_deviceName.mp hrest
    exact ⟨front, device, rest, rfl, hdevice, exists_mem_rest_dotOrEnd.mp ⟨t, hend⟩⟩
  · rintro ⟨front, device, rest, rfl, hdevice, hrest⟩
    obtain ⟨t, ht⟩ := exists_mem_rest_dotOrEnd.mpr hrest
    exact ⟨front, device ++ rest, t, rfl,
      mem_rest_seq.mpr ⟨rest, mem_rest_deviceName.mpr ⟨device, hdevice, rfl⟩, ht⟩⟩

theorem isValidFilenameWin_iff {fileName : Text} (hne : fileName ≠ []) :
    isValidFilenameWin fileName hne = true ↔ (∀ c ∈ fileName, c ∉ forbiddenChars) ∧
      (fileName.getLast? ≠ some ' ' ∧ fileName.getLast? ≠ some '.') ∧ ¬ DeviceBeforeDot fileName := by
  have hlast : ∀ c, fileName.getLast? = some c ↔ fileName.getLast hne = c := by
    intro c
    rw [List.getLast?_eq_some_getLast hne, Option.some_inj]
  rw [Ne, Ne, hlast, hlast]
  unfold isValidFilenameWin
  split
  · rename_i hbad
    refine iff_of_false Bool.false_ne_true ?_
    rintro ⟨-, hgood, -⟩
    exact hbad.elim hgood.1 hgood.2
  · rename_i hgood
    rw [Bool.not_eq_true', ← Bool.not_eq_true, search_windowsRule_iff, not_or, not_exists]
    rw [not_or] at hgood
    simp [hgood]

/-- A reserved name before the first dot is one that the expression finds. -/
theorem deviceBeforeDot_of_stem {fileName : Text} (h : IsDevice (fileName.takeWhile (· ≠ '.'))) :
    DeviceBeforeDot fileName := by
  refine ⟨[], _, fileName.dropWhile (· ≠ '.'), List.takeWhile_append_dropWhile.symm, h, ?_⟩
  cases hrest : fileName.dropWhile (· ≠ '.') with
  | nil => exact .inl rfl
  | cons c rest =>
    have hnot := List.head?_dropWhile_not (· ≠ '.') fileName
    rw [hrest] at hnot
    exact .inr (congrArg some (by simpa using hnot))

/-- For every name that is not empty, the function follows the documented rule exactly if the name breaks
the rule or has no device name before a dot or at its end. -/
theorem isValidFilenameWin_agrees_iff (fileName : Text) (hne : fileName ≠ []) :
    (isValidFilenameWin fileName hne = true ↔ FollowsRule fileName) ↔
      ¬ FollowsRule fileName ∨ ¬ DeviceBeforeDot fileName := by
  rw [isValidFilenameWin_iff]
  constructor
  · intro h
    by_cases hfollows : FollowsRule fileName
    · exact .inr (h.mpr hfollows).2.2
    · exact .inl hfollows
  · intro h
    constructor
    · rintro ⟨hchars, hlast, hnone⟩
      exact ⟨hchars, hlast, fun hstem => hnone (deviceBeforeDot_of_stem hstem)⟩
    · intro hfollows
      exact ⟨hfollows.chars, hfollows.last, h.resolve_left (not_not_intro hfollows)⟩

/-- An ordinary name is accepted. -/
theorem isValidFilenameWin_agrees_film :
    isValidFilenameWin "film.mp4".toList (by decide +kernel) = true ∧ FollowsRule "film.mp4".toList := by
  have hfollows : FollowsRule "film.mp4".toList := by decide +kernel
  have hsearch : ¬ windowsRule.search "film.mp4".toList = true := by decide +kernel
  have hnone : ¬ DeviceBeforeDot "film.mp4".toList := fun h => hsearch (search_windowsRule_iff.mpr (.inr h))
  have hagrees := (isValidFilenameWin_agrees_iff "film.mp4".toList (by decide +kernel)).mpr (.inr hnone)
  exact ⟨hagrees.mpr hfollows, hfollows⟩

/-- A name that only ends like a device name before its extension is refused. -/
theorem falcon_refused :
    isValidFilenameWin "falcon.txt".toList (by decide +kernel) = false ∧ FollowsRule "falcon.txt".toList := by
  decide +kernel

end Nas.Download
