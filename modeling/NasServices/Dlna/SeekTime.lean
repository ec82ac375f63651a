import NasServices.Dlna.ScreenCastingMgr
import NasServices.Lib.CNumbers

/-!
# The position of a seek as text

`SeekTask` sends the requested second to the renderer as hours, minutes and seconds, written by
`SecondsFormatTime`. The number is an `int64_t` in the request, a `double` as the argument, an `int` in
the divisions, and its text goes through a buffer of nine characters. The double is exact up to
`2 ^ 53`. From `2 ^ 31` seconds on the cast to `int` has no result, and already from a hundred hours on
the text needs nine characters, of which the buffer keeps eight (`seek_exact_iff`).
-/

namespace Nas.Dlna

open Lib

def secondsText (seconds : ℚ) : Checked (List Char) := do
  let total ← intOfDouble seconds
  let hours := total.tdiv 3600
  let minutes := (total.tmod 3600).tdiv 60
  let remainingSeconds := total.tmod 60
  return paddedText 2 hours ++ ':' :: (paddedText 2 minutes ++ ':' :: paddedText 2 remainingSeconds)

def secondsFormatTime (seconds : ℚ) : Checked (List Char) := do
  let text ← secondsText seconds
  return snprintf 9 text

/-- The target of a `Seek` by `REL_TIME`, sent to the renderer of the task if there is one. -/
def ScreenCastingMgr.seekTask (s : ScreenCastingMgr) (id : Nat) (position : Int) :
    Option (Device × Checked (List Char)) :=
  (s.findTask id).map fun t => (t.mediaRenderes, secondsFormatTime (doubleOfInt position))

def readClock (text : List Char) : Option Nat :=
  match text.splitOn ':' with
  | [h, m, s] =>
    if (h ++ m ++ s).all Char.isDigit && !h.isEmpty && !m.isEmpty && !s.isEmpty then
      some (3600 * natValue h + 60 * natValue m + natValue s)
    else none
  | _ => none

/-- The text sent for a position is what was printed, and stands for that position. -/
def SeeksExactly (position : Nat) : Prop :=
  ∃ text, secondsFormatTime (doubleOfInt position) = .ok text ∧
    secondsText (doubleOfInt position) = .ok text ∧ readClock text = some position

def clockText (h m s : Nat) : List Char :=
  paddedText 2 h ++ ':' :: (paddedText 2 m ++ ':' :: paddedText 2 s)

theorem colon_notMem_paddedText (k n : Nat) : ':' ∉ paddedText k (n : Int) := by
  intro h
  exact absurd (paddedText_isDigit k n ':' h) (by decide)

theorem readClock_clockText (h m s : Nat) : readClock (clockText h m s) = some (3600 * h + 60 * m + s) := by
  have hsplit : (clockText h m s).splitOn ':' = [paddedText 2 h, paddedText 2 m, paddedText 2 s] := by
    have hcons : ∀ a b : List Char, ':' ∉ a → (a ++ ':' :: b).splitOn ':' = a :: b.splitOn ':' := by
      intro a b ha
      have happ : (a ++ ':' :: b).splitOn ':' = a.splitOn ':' ++ b.splitOn ':' :=
        List.splitOnP_append_cons a b (by simp)
      rw [happ, List.splitOn_eq_singleton ha, List.singleton_append]
    rw [clockText, hcons _ _ (colon_notMem_paddedText 2 h), hcons _ _ (colon_notMem_paddedText 2 m),
      List.splitOn_eq_singleton (colon_notMem_paddedText 2 s)]
  have hdigits : (paddedText 2 h ++ paddedText 2 m ++ paddedText 2 s).all Char.isDigit = true := by
    rw [List.all_append, List.all_append, Bool.and_eq_true, Bool.and_eq_true]
    exact ⟨⟨List.all_eq_true.mpr (paddedText_isDigit 2 h), List.all_eq_true.mpr (paddedText_isDigit 2 m)⟩,
      List.all_eq_true.mpr (paddedText_isDigit 2 s)⟩
  have hne : ∀ n : Nat, (paddedText 2 (n : Int)).isEmpty = false := by
    intro n
    apply List.isEmpty_eq_false_iff.mpr
    apply List.ne_nil_of_length_pos
    rw [length_paddedText]
    omega
  simp only [readClock, hsplit, hdigits, hne, Bool.not_false, Bool.and_self, if_true, natValue_paddedText]

theorem length_clockText (h m s : Nat) :
    (clockText h m s).length = max 2 (natText h).length + max 2 (natText m).length + max 2 (natText s).length + 2 := by
  simp only [clockText, List.length_append, List.length_cons, length_paddedText]
  omega

theorem secondsText_doubleOfInt {position : Nat} (h : position ≤ 2 ^ 53) :
    secondsText (doubleOfInt position) =
      if position < 2 ^ 31 then .ok (clockText (position / 3600) (position % 3600 / 60) (position % 60))
      else .error .overflow := by
  have hexact : doubleOfInt (position : Int) = ((position : Int) : ℚ) := by
    apply doubleOfInt_eq
    rw [Int.natAbs_natCast]
    exact h
  rw [secondsText, hexact, intOfDouble_intCast]
  by_cases hint : position < 2 ^ 31
  · rw [Checked.int_eq (by omega) (by omega), if_pos hint]
    have hh : ((position : Int).tdiv 3600) = ((position / 3600 : Nat) : Int) := by
      rw [Int.tdiv_eq_ediv_of_nonneg (by omega)]
      omega
    have hm : (((position : Int).tmod 3600).tdiv 60) = ((position % 3600 / 60 : Nat) : Int) := by
      rw [Int.tmod_eq_emod_of_nonneg (by omega), Int.tdiv_eq_ediv_of_nonneg (by omega)]
      omega
    have hs : ((position : Int).tmod 60) = ((position % 60 : Nat) : Int) := by
      rw [Int.tmod_eq_emod_of_nonneg (by omega)]
      omega
    show Except.ok _ = _
    rw [hh, hm, hs]
    rfl
  · rw [Checked.int, if_neg (by omega), if_neg hint]
    rfl

/-- Up to a hundred hours the text fits the buffer, and from there on it never does. -/
theorem length_clockText_le_iff (position : Nat) :
    (clockText (position / 3600) (position % 3600 / 60) (position % 60)).length ≤ 8 ↔ position < 360000 := by
  have hh := length_natText_le_iff (n := position / 3600) (k := 2) (by decide)
  have hm := (length_natText_le_iff (n := position % 3600 / 60) (k := 2) (by decide)).mpr (by omega)
  have hs := (length_natText_le_iff (n := position % 60) (k := 2) (by decide)).mpr (by omega)
  rw [length_clockText]
  omega

/-- For every position up to `2 ^ 53`: the text sent is whole, without an overflow on the way, and stands for
the position, exactly when the position is below a hundred hours. -/
theorem seek_exact_iff (position : Nat) (h : position ≤ 2 ^ 53) : SeeksExactly position ↔ position < 360000 := by
  have htext := secondsText_doubleOfInt h
  constructor
  · intro hex
    obtain ⟨text, hformat, hwhole, -⟩ := hex
    have hint : position < 2 ^ 31 := by
      by_contra hbig
      rw [hwhole, if_neg hbig] at htext
      exact absurd htext (by simp)
    rw [secondsFormatTime, hwhole] at hformat
    have hcut : text.take 8 = text := Except.ok.inj hformat
    rw [hwhole, if_pos hint] at htext
    rw [← length_clockText_le_iff, ← Except.ok.inj htext, ← hcut, List.length_take]
    omega
  · intro hlt
    rw [if_pos (by omega)] at htext
    refine ⟨_, ?_, htext, ?_⟩
    · rw [secondsFormatTime, htext]
      show Except.ok (List.take 8 _) = _
      rw [List.take_of_length_le ((length_clockText_le_iff position).mpr hlt)]
    · rw [readClock_clockText]
      congr 1
      omega

/-- The last second before a hundred hours. -/
theorem seek_exact_lastSecond : SeeksExactly 359999 ∧ 359999 ≤ 2 ^ 53 :=
  ⟨(seek_exact_iff 359999 (by decide)).mpr (by decide), by decide⟩

/-- At a hundred hours and ten seconds the renderer is sent to a hundred hours and one second; at `2 ^ 31`
seconds the cast to `int` has no result. -/
theorem seek_truncated :
    secondsFormatTime (doubleOfInt 360010) = .ok "100:00:1".toList ∧
    readClock "100:00:1".toList = some 360001 ∧
    secondsFormatTime (doubleOfInt (2 ^ 31)) = .error .overflow := by
  decide +kernel

end Nas.Dlna
