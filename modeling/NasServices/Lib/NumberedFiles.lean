import Mathlib.Logic.Function.Basic

/-!
# Files that can be told apart

A file system as far as it matters which file is found under which path: a file has a number, and
keeps it when it is renamed. What the system permits is given to each call, which reports whether it
has succeeded; a call that fails changes nothing.
-/

namespace Nas.Lib

abbrev NumberedFiles (P : Type*) := P → Option Nat

namespace NumberedFiles

variable {P : Type*} [DecidableEq P] {fs : NumberedFiles P} {p q src dst : P} {n : Nat} {permitted : Bool}

def rename (permitted : Bool) (fs : NumberedFiles P) (src dst : P) : NumberedFiles P × Bool :=
  match permitted, fs src with
  | true, some n => (Function.update (Function.update fs src none) dst (some n), true)
  | _, _ => (fs, false)

def remove (permitted : Bool) (fs : NumberedFiles P) (p : P) : NumberedFiles P × Bool :=
  match permitted, fs p with
  | true, some _ => (Function.update fs p none, true)
  | _, _ => (fs, false)

theorem rename_of_some (hsrc : fs src = some n) :
    rename true fs src dst = (Function.update (Function.update fs src none) dst (some n), true) := by
  simp only [rename, hsrc]

theorem rename_of_not (h : ¬ (permitted = true ∧ (fs src).isSome = true)) :
    rename permitted fs src dst = (fs, false) := by
  unfold rename
  split
  · rename_i hsrc
    exact absurd ⟨rfl, by rw [hsrc]; rfl⟩ h
  · rfl

/-- Whatever a renaming does, a file that is newly found at a path is found at the target. -/
theorem eq_of_rename (hp : (rename permitted fs src dst).1 p = some n) (hnew : fs p ≠ some n) : p = dst := by
  unfold rename at hp
  split at hp
  · by_contra hne
    dsimp only at hp
    rw [Function.update_of_ne hne] at hp
    by_cases hsrc : p = src
    · rw [hsrc, Function.update_self] at hp
      cases hp
    · rw [Function.update_of_ne hsrc] at hp
      exact hnew hp
  · exact absurd hp hnew

theorem remove_of_ne (h : p ≠ q) : (remove permitted fs q).1 p = fs p := by
  unfold remove
  split
  · exact Function.update_of_ne h _ _
  · rfl

theorem of_remove (h : (remove permitted fs q).1 p = some n) : fs p = some n := by
  unfold remove at h
  split at h
  · dsimp only at h
    by_cases hpq : p = q
    · rw [hpq, Function.update_self] at h
      cases h
    · rwa [Function.update_of_ne hpq] at h
  · exact h

theorem remove_self (fs : NumberedFiles P) (p : P) : (remove true fs p).1 p = none := by
  unfold remove
  split
  · exact Function.update_self _ _ _
  · rename_i h
    exact Option.eq_none_iff_forall_not_mem.mpr fun n hn => h n rfl hn

theorem remove_eq_none (h : fs p = none) : (remove permitted fs q).1 p = none := by
  cases hr : (remove permitted fs q).1 p with
  | none => rfl
  | some n => rw [of_remove hr] at h; cases h

theorem remove_true_of_isSome (h : (fs p).isSome = true) : (remove true fs p).2 = true := by
  obtain ⟨n, hn⟩ := Option.isSome_iff_exists.mp h
  simp only [remove, hn]

end NumberedFiles

end Nas.Lib
