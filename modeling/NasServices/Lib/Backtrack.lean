import Mathlib.Data.List.Infix
import Mathlib.Data.List.TakeWhile
import Mathlib.Tactic.Common

/-!
# Matching with backtracking

A `Matcher` lists what can be left of a text when it matches at the beginning, in the order in which a
backtracking matcher tries: a greedy repetition takes as much as it can at first, and an optional part
is tried before it is left out. The first element for which the rest of the expression matches
is the match.
-/

namespace Nas.Lib

abbrev Matcher (α : Type) := List α → List (List α)

namespace Matcher

variable {α : Type} {p q : α → Bool} {P : α → Prop} {f g : Matcher α} {s t : List α}

def one (p : α → Bool) : Matcher α
  | [] => []
  | c :: s => if p c then [s] else []

def many (p : α → Bool) : Matcher α
  | [] => [[]]
  | c :: s => if p c then many p s ++ [c :: s] else [c :: s]

def seq (f g : Matcher α) : Matcher α := fun s => (f s).flatMap g

def optional (f : Matcher α) : Matcher α := fun s => f s ++ [s]

theorem eq_cons_of_mem_one (h : t ∈ one p s) : ∃ c, p c = true ∧ s = c :: t := by
  cases s with
  | nil => cases h
  | cons c s =>
    rw [one] at h
    split at h
    · rename_i hc
      exact ⟨c, hc, by rw [List.mem_singleton.mp h]⟩
    · cases h

theorem exists_many_eq (p : α → Bool) (s : List α) : ∃ more, many p s = s.dropWhile p :: more := by
  induction s with
  | nil => exact ⟨[], rfl⟩
  | cons c s ih =>
    rw [many, List.dropWhile_cons]
    split
    · obtain ⟨more, hmore⟩ := ih
      exact ⟨more ++ [c :: s], by rw [hmore, List.cons_append]⟩
    · exact ⟨[], rfl⟩

/-- What is not in the class of the repetition can only follow all that it can take. -/
theorem many_seq_one (h : ∀ c, p c = true → q c = false) (s : List α) :
    (many p).seq (one q) s = one q (s.dropWhile p) := by
  induction s with
  | nil => rfl
  | cons c s ih =>
    rw [seq, many, List.dropWhile_cons]
    split
    · rename_i hc
      have hnone : one q (c :: s) = [] := by simp [one, h c hc]
      rw [List.flatMap_append, List.flatMap_singleton, hnone, List.append_nil]
      exact ih
    · rw [List.flatMap_singleton]

/-! ## What is taken -/

def Takes (P : α → Prop) (f : Matcher α) : Prop := ∀ s, ∀ t ∈ f s, ∃ u, s = u ++ t ∧ ∀ c ∈ u, P c

theorem takes_one (hP : ∀ c, p c = true → P c) : Takes P (one p) := by
  intro s t ht
  obtain ⟨c, hc, rfl⟩ := eq_cons_of_mem_one ht
  exact ⟨[c], rfl, by simpa using hP c hc⟩

theorem takes_many (hP : ∀ c, p c = true → P c) : Takes P (many p) := by
  intro s t ht
  induction s with
  | nil => exact ⟨[], (List.mem_singleton.mp ht).symm, by simp⟩
  | cons c s ih =>
    by_cases hc : p c = true
    · rw [many, if_pos hc, List.mem_append, List.mem_singleton] at ht
      rcases ht with ht | rfl
      · obtain ⟨u, rfl, hu⟩ := ih ht
        exact ⟨c :: u, rfl, List.forall_mem_cons.mpr ⟨hP c hc, hu⟩⟩
      · exact ⟨[], rfl, by simp⟩
    · rw [many, if_neg hc, List.mem_singleton] at ht
      exact ⟨[], ht.symm, by simp⟩

theorem Takes.seq (hf : Takes P f) (hg : Takes P g) : Takes P (f.seq g) := by
  intro s t ht
  obtain ⟨v, hv, ht'⟩ := List.mem_flatMap.mp ht
  obtain ⟨u, rfl, hu⟩ := hf s v hv
  obtain ⟨u', rfl, hu'⟩ := hg v t ht'
  exact ⟨u ++ u', (List.append_assoc ..).symm, List.forall_mem_append.mpr ⟨hu, hu'⟩⟩

theorem Takes.optional (hf : Takes P f) : Takes P f.optional := by
  intro s t ht
  rcases List.mem_append.mp ht with ht | ht
  · exact hf s t ht
  · exact ⟨[], (List.mem_singleton.mp ht).symm, by simp⟩

end Matcher

end Nas.Lib
