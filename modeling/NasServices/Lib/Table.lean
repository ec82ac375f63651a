import Mathlib.Data.List.AList
import Mathlib.Algebra.BigOperators.Group.List.Basic
import Mathlib.Algebra.GroupWithZero.Nat

/-!
# Sums over a table

`sumBy f t` adds `f` over the entries of an association list. An insertion or
an erasure changes it by the value of the one entry it touches
(`sumBy_insert`, `sumBy_erase`), which is all that a proof about a count over
a table of records needs: no statement here depends on the order of the
entries.
-/

namespace Nas.Lib

variable {K V : Type*} [DecidableEq K]

def sumBy (f : K → V → Nat) (t : AList fun _ : K => V) : Nat :=
  (t.entries.map fun e => f e.1 e.2).sum

variable {f : K → V → Nat} {t : AList fun _ : K => V} {k : K} {v w : V}

theorem mem_entries_iff : (⟨k, v⟩ : Sigma fun _ : K => V) ∈ t.entries ↔ t.lookup k = some v :=
  (List.mem_dlookup_iff t.nodupKeys).symm

theorem sumBy_erase (h : t.lookup k = some v) : sumBy f (t.erase k) + f k v = sumBy f t := by
  have hk : k ∈ t.entries.keys := AList.lookup_isSome.mp (by rw [h]; rfl)
  obtain ⟨w, l₁, l₂, -, hl, he⟩ := List.exists_of_kerase hk
  have hw : t.lookup k = some w := mem_entries_iff.mp (by rw [hl]; simp)
  obtain rfl : v = w := Option.some.inj (h.symm.trans hw)
  unfold sumBy
  rw [show (t.erase k).entries = l₁ ++ l₂ from he, hl]
  simp only [List.map_append, List.map_cons, List.sum_append, List.sum_cons]
  omega

theorem sumBy_erase_of_notMem (h : t.lookup k = none) : sumBy f (t.erase k) = sumBy f t := by
  unfold sumBy
  have hk : k ∉ t.entries.keys := AList.lookup_eq_none.mp h
  rw [show (t.erase k).entries = t.entries from List.kerase_of_notMem_keys hk]

/-- The value of one entry is part of the sum. -/
theorem le_sumBy (h : t.lookup k = some v) : f k v ≤ sumBy f t := by
  rw [← sumBy_erase h]
  exact Nat.le_add_left ..

theorem sumBy_insert : sumBy f (t.insert k v) = f k v + sumBy f (t.erase k) := by
  unfold sumBy
  rw [AList.entries_insert, List.map_cons, List.sum_cons]
  rfl

theorem sumBy_insert_of_notMem (h : t.lookup k = none) :
    sumBy f (t.insert k v) = f k v + sumBy f t := by
  unfold sumBy
  rw [AList.entries_insert_of_notMem (AList.lookup_eq_none.mp h), List.map_cons, List.sum_cons]

/-- Replacing `w` by `v` exchanges their values in the sum. -/
theorem sumBy_replace (h : t.lookup k = some w) :
    sumBy f (t.insert k v) + f k w = sumBy f t + f k v := by
  rw [sumBy_insert, ← sumBy_erase h]
  omega

/-- The sum over the entries is the sum over the keys of what they hold. -/
theorem sumBy_eq_keys (t : AList fun _ : K => V) (f : K → V → Nat) :
    sumBy f t = (t.keys.map fun k => (t.lookup k).elim 0 (f k)).sum := by
  unfold sumBy
  rw [AList.keys, List.keys, List.map_map]
  congr 1
  refine List.map_congr_left fun e he => ?_
  have : t.lookup e.1 = some e.2 := mem_entries_iff.mp he
  simp only [Function.comp_apply, this, Option.elim_some]

theorem sumBy_congr {t t' : AList fun _ : K => V} (hk : ∀ k, k ∈ t' ↔ k ∈ t)
    (h : ∀ k, (t'.lookup k).elim 0 (f k) = (t.lookup k).elim 0 (f k)) : sumBy f t' = sumBy f t := by
  have hperm : t'.keys.Perm t.keys := (List.perm_ext_iff_of_nodup t'.keys_nodup t.keys_nodup).mpr hk
  rw [sumBy_eq_keys, sumBy_eq_keys, List.map_congr_left fun k _ => h k]
  exact (hperm.map _).sum_eq

end Nas.Lib
