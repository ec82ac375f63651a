import Mathlib.Data.List.Sort
import Mathlib.Order.RelClasses

/-!
# Sorting with a comparator

`SortedBy lt l out` is what sorting `l` with the comparator `lt` promises of its result, when `lt` is a strict
weak order: the same elements, none before a smaller one. The order of equivalent elements is
open. A comparator that compares a key (`ComparesKey`) is such an order, and the keys of the result ascend.
-/

namespace Nas.Lib.StdSort

variable {α κ : Type*} {lt : α → α → Bool} {l out : List α}

structure SortedBy (lt : α → α → Bool) (l out : List α) : Prop where
  perm : out.Perm l
  pairwise : out.Pairwise fun a b => lt b a = false

def ComparesKey [LT κ] (lt : α → α → Bool) (key : α → κ) : Prop := ∀ a b, lt a b = true ↔ key a < key b

section

variable [LinearOrder κ] {key : α → κ}

theorem ComparesKey.isStrictWeakOrder (h : ComparesKey lt key) :
    IsStrictWeakOrder α fun a b => lt a b = true := by
  have heq : (fun a b => lt a b = true) = Order.Preimage key (· < ·) := by
    funext a b
    exact propext (h a b)
  have hkey : IsStrictWeakOrder κ (· < ·) := isStrictWeakOrder_of_isOrderConnected
  rw [heq]
  infer_instance

theorem ComparesKey.eq_false_iff (h : ComparesKey lt key) (a b : α) : lt b a = false ↔ key a ≤ key b := by
  rw [← Bool.not_eq_true, h b a, not_lt]

theorem ComparesKey.pairwise (h : ComparesKey lt key) (hs : SortedBy lt l out) :
    out.Pairwise fun a b => key a ≤ key b :=
  hs.pairwise.imp fun {a b} hab => (h.eq_false_iff a b).mp hab

theorem ComparesKey.sortedBy_mergeSort (h : ComparesKey lt key) (l : List α) :
    SortedBy lt l (l.mergeSort fun a b => !lt b a) := by
  have hle : ∀ a b, (!lt b a) = true ↔ key a ≤ key b := by
    intro a b
    rw [Bool.not_eq_true', h.eq_false_iff]
  refine ⟨List.mergeSort_perm l _, ?_⟩
  have htotal : ∀ a b, ((!lt b a) || (!lt a b)) = true := by
    intro a b
    rw [Bool.or_eq_true, hle, hle]
    exact le_total (key a) (key b)
  have hsorted : (l.mergeSort fun a b => !lt b a).Pairwise fun a b => (!lt b a) = true :=
    List.pairwise_mergeSort
      (fun a b c hab hbc => (hle a c).mpr (((hle a b).mp hab).trans ((hle b c).mp hbc))) htotal l
  exact hsorted.imp fun {a b} hab => Bool.not_eq_true' _ ▸ hab

end

/-- A list in which what satisfies `p` comes first. -/
theorem eq_filter_append_filter (p : α → Bool) (h : out.Pairwise fun a b => p b = true → p a = true) :
    out = out.filter p ++ out.filter fun a => !p a := by
  induction out with
  | nil => rfl
  | cons a out ih =>
    rw [List.pairwise_cons] at h
    by_cases ha : p a = true
    · rw [List.filter_cons_of_pos ha, List.filter_cons_of_neg (by simp [ha]), List.cons_append, ← ih h.2]
    · -- nothing behind `a` satisfies `p` either
      have hnone : ∀ b ∈ a :: out, ¬ p b = true := by
        intro b hb
        rcases List.mem_cons.mp hb with rfl | hb
        · exact ha
        · exact fun hpb => ha (h.1 b hb hpb)
      rw [List.filter_eq_nil_iff.mpr hnone, List.nil_append]
      refine (List.filter_eq_self.mpr fun b hb => ?_).symm
      rw [Bool.not_eq_true', ← Bool.not_eq_true]
      exact hnone b hb

end Nas.Lib.StdSort
