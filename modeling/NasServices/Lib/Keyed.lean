import Mathlib.Data.List.Nodup
import Mathlib.Data.List.Perm.Subperm
import Mathlib.Logic.Function.Basic

/-!
# Rows with a key

A table is a list of rows, in the order in which they were added, and a key
function. `find` is the row with a key. `add`, `modify` and `delete` are the
exact insert, update-if-present and delete of one row; each has a lemma for its
own key and one for every other key, and keeps the keys distinct.
-/

namespace Nas.Lib.Keyed

variable {R K : Type*} [DecidableEq K] (key : R → K)

def find (rows : List R) (k : K) : Option R := rows.find? fun r => key r = k

/-- A row whose key is taken is not added. -/
def add (rows : List R) (r : R) : List R :=
  if (find key rows (key r)).isSome then rows else rows ++ [r]

def modify (rows : List R) (k : K) (f : R → R) : List R := rows.map fun r => if key r = k then f r else r

def delete (rows : List R) (k : K) : List R := rows.filter fun r => key r ≠ k

variable {key} {rows : List R} {k j : K} {r : R} {f : R → R}

theorem mem_of_find (h : find key rows k = some r) : r ∈ rows := List.mem_of_find?_eq_some h

theorem find_isSome_iff : (find key rows k).isSome ↔ ∃ r ∈ rows, key r = k := by
  simp [find, List.find?_isSome]

theorem find_add_self (rows : List R) (r : R) :
    find key (add key rows r) (key r) = some ((find key rows (key r)).getD r) := by
  unfold add
  cases h : find key rows (key r) with
  | some r' => simp [h]
  | none =>
    have hnone : rows.find? (fun x => key x = key r) = none := h
    simp [find, List.find?_append, hnone]

theorem find_add_ne (rows : List R) (h : j ≠ key r) : find key (add key rows r) j = find key rows j := by
  unfold add
  split
  · rfl
  · simp [find, List.find?_append, Ne.symm h]

theorem find_cons (x : R) (rows : List R) (k : K) :
    find key (x :: rows) k = if key x = k then some x else find key rows k := by
  by_cases hx : key x = k <;> simp [find, hx]

theorem modify_cons (x : R) (rows : List R) (k : K) (f : R → R) :
    modify key (x :: rows) k f = (if key x = k then f x else x) :: modify key rows k f := rfl

theorem modify_modify {g : R → R} (hf : ∀ r, key (f r) = key r) (rows : List R) (k : K) :
    modify key (modify key rows k f) k g = modify key rows k (g ∘ f) := by
  simp only [modify, List.map_map]
  refine List.map_congr_left fun r _ => ?_
  by_cases hr : key r = k <;> simp [hr, hf]

theorem modify_id (rows : List R) (k : K) : modify key rows k (fun r => r) = rows := by
  simp [modify]

theorem mem_modify (h : r ∈ modify key rows k f) : ∃ x ∈ rows, r = x ∨ (key x = k ∧ r = f x) := by
  obtain ⟨x, hx, rfl⟩ := List.mem_map.mp h
  refine ⟨x, hx, ?_⟩
  split
  · rename_i hk
    exact .inr ⟨hk, rfl⟩
  · exact .inl rfl

theorem mem_add {x : R} (h : r ∈ add key rows x) : r ∈ rows ∨ r = x := by
  unfold add at h
  split at h
  · exact .inl h
  · simpa using h

theorem mem_add_of_mem (h : r ∈ rows) (x : R) : r ∈ add key rows x := by
  unfold add
  split
  · exact h
  · exact List.mem_append_left _ h

theorem mem_delete : r ∈ delete key rows k ↔ r ∈ rows ∧ key r ≠ k := by simp [delete]

theorem key_of_find (h : find key rows k = some r) : key r = k := by
  simpa using List.find?_some h

theorem find_modify_self (hf : ∀ r, key (f r) = key r) (rows : List R) (k : K) :
    find key (modify key rows k f) k = (find key rows k).map f := by
  induction rows with
  | nil => rfl
  | cons x rows ih =>
    rw [modify_cons, find_cons, find_cons, ih]
    by_cases hx : key x = k <;> simp [hx, hf]

theorem find_modify_ne (hf : ∀ r, key (f r) = key r) (rows : List R) (h : j ≠ k) :
    find key (modify key rows k f) j = find key rows j := by
  induction rows with
  | nil => rfl
  | cons x rows ih =>
    rw [modify_cons, find_cons, find_cons, ih]
    by_cases hx : key x = k
    · simp [hx, hf, Ne.symm h]
    · simp [hx]

theorem find_delete_self (rows : List R) (k : K) : find key (delete key rows k) k = none := by
  simp [find, delete]

theorem find_delete_ne (rows : List R) (h : j ≠ k) : find key (delete key rows k) j = find key rows j := by
  induction rows with
  | nil => rfl
  | cons x rows ih =>
    by_cases hx : key x = k
    · rw [delete, List.filter_cons_of_neg (by simpa using hx), find_cons, if_neg (hx ▸ Ne.symm h)]
      exact ih
    · rw [delete, List.filter_cons_of_pos (by simpa using hx), find_cons, find_cons]
      exact congrArg _ ih

/-! ## Counting -/

variable {p : R → Bool}

theorem countP_modify (hf : ∀ r, p (f r) = p r) (rows : List R) (k : K) :
    (modify key rows k f).countP p = rows.countP p := by
  rw [modify, List.countP_map]
  refine List.countP_congr fun r _ => ?_
  by_cases hr : key r = k <;> simp [hr, hf]

variable (key) in
/-- An update after which `p` fails takes the row it changes off the count. -/
theorem countP_modify_clear (hf : ∀ r, p (f r) = false) (rows : List R) (k : K) :
    (modify key rows k f).countP p + (if (find key rows k).any p then 1 else 0) ≤ rows.countP p := by
  induction rows with
  | nil => simp [modify, find]
  | cons x rows ih =>
    have hle : (modify key rows k f).countP p ≤ rows.countP p := by omega
    rw [modify_cons, find_cons]
    by_cases hx : key x = k
    · rw [if_pos hx, if_pos hx, List.countP_cons, List.countP_cons, hf x]
      simp only [Option.any_some, Bool.false_eq_true, if_false]
      omega
    · rw [if_neg hx, if_neg hx, List.countP_cons, List.countP_cons]
      omega

theorem countP_delete_le (rows : List R) (k : K) : (delete key rows k).countP p ≤ rows.countP p :=
  List.Sublist.countP_le List.filter_sublist

theorem countP_add (h : find key rows (key r) = none) :
    (add key rows r).countP p = rows.countP p + if p r then 1 else 0 := by
  rw [add, h]
  simp [List.countP_append, List.countP_singleton]

/-! ## Distinct keys -/

theorem find_of_mem (h : (rows.map key).Nodup) (hr : r ∈ rows) : find key rows (key r) = some r := by
  induction rows with
  | nil => cases hr
  | cons x rows ih =>
    rw [List.map_cons, List.nodup_cons] at h
    rw [find_cons]
    rcases List.mem_cons.mp hr with rfl | hr
    · rw [if_pos rfl]
    · have hne : key x ≠ key r := fun heq => h.1 (heq ▸ List.mem_map_of_mem hr)
      rw [if_neg hne, ih h.2 hr]

theorem modify_of_forall_ne (h : ∀ x ∈ rows, key x ≠ k) (f : R → R) : modify key rows k f = rows := by
  rw [modify, List.map_congr_left fun x hx => if_neg (h x hx), List.map_id']

/-- With distinct keys an update changes one place of the list. -/
theorem exists_modify_eq (h : (rows.map key).Nodup) (hr : find key rows k = some r) (f : R → R) :
    ∃ before after, rows = before ++ r :: after ∧ modify key rows k f = before ++ f r :: after := by
  have hkey := key_of_find hr
  obtain ⟨before, after, rfl⟩ := List.append_of_mem (mem_of_find hr)
  rw [List.map_append, List.map_cons, List.nodup_append, List.nodup_cons] at h
  obtain ⟨-, ⟨hafter, -⟩, hbefore⟩ := h
  have hsplit : modify key (before ++ r :: after) k f =
      modify key before k f ++ f r :: modify key after k f := by
    rw [modify, List.map_append, List.map_cons, if_pos hkey]
    rfl
  refine ⟨before, after, rfl, ?_⟩
  rw [hsplit, modify_of_forall_ne, modify_of_forall_ne]
  · intro x hx heq
    exact hafter (hkey.trans heq.symm ▸ List.mem_map_of_mem hx)
  · intro x hx heq
    exact hbefore _ (List.mem_map_of_mem hx) _ List.mem_cons_self (heq.trans hkey.symm)

theorem getElem?_findIdx (rows : List R) (k : K) : rows[rows.findIdx fun r => key r = k]? = find key rows k := by
  induction rows with
  | nil => rfl
  | cons x rows ih =>
    rw [List.findIdx_cons, find_cons]
    by_cases hx : key x = k
    · simp [hx]
    · simpa [hx] using ih

theorem findIdx_add (rows : List R) (r : R) :
    ((add key rows r).findIdx fun x => key x = key r) = rows.findIdx fun x => key x = key r := by
  unfold add
  split
  · rfl
  · rename_i hnone
    rw [find_isSome_iff] at hnone
    have hlength : (rows.findIdx fun x => key x = key r) = rows.length :=
      List.findIdx_eq_length.mpr (by simpa using hnone)
    rw [List.findIdx_append, hlength]
    simp

/-- With distinct keys, writing the place of the first row with a key updates that row. -/
theorem set_findIdx (h : (rows.map key).Nodup) (hr : find key rows k = some r) (f : R → R) :
    rows.set (rows.findIdx fun r => key r = k) (f r) = modify key rows k f := by
  induction rows with
  | nil => rfl
  | cons y rows ih =>
    rw [List.map_cons, List.nodup_cons] at h
    rw [List.findIdx_cons, modify_cons]
    rw [find_cons] at hr
    by_cases hy : key y = k
    · have hrest : ∀ z ∈ rows, key z ≠ k := fun z hz heq =>
        h.1 (hy.trans heq.symm ▸ List.mem_map_of_mem hz)
      rw [if_pos hy] at hr
      obtain rfl := Option.some.inj hr
      simp [hy, modify_of_forall_ne hrest]
    · rw [if_neg hy] at hr
      simp [hy, ih h.2 hr]

theorem foldl_update {V : Type*} (h : (rows.map key).Nodup) (val : R → V) (m : K → Option V) (k : K) :
    rows.foldl (fun m r => Function.update m (key r) (some (val r))) m k =
      ((find key rows k).map val).or (m k) := by
  induction rows generalizing m with
  | nil => rfl
  | cons x rows ih =>
    rw [List.map_cons, List.nodup_cons] at h
    rw [List.foldl_cons, ih h.2, find_cons]
    by_cases hx : key x = k
    · -- no later row has this key
      have hnone : find key rows k = none := by
        rw [← Option.not_isSome_iff_eq_none, find_isSome_iff]
        rintro ⟨r, hr, heq⟩
        exact h.1 (hx.trans heq.symm ▸ List.mem_map_of_mem hr)
      subst hx
      simp [hnone]
    · rw [if_neg hx, Function.update_of_ne (Ne.symm hx)]

theorem nodup_add (h : (rows.map key).Nodup) (r : R) : ((add key rows r).map key).Nodup := by
  unfold add
  split
  · exact h
  · rename_i hnone
    rw [List.map_append, List.nodup_append]
    refine ⟨h, List.nodup_singleton _, fun k hk k' hk' heq => hnone (find_isSome_iff.mpr ?_)⟩
    obtain ⟨x, hx, rfl⟩ := List.mem_map.mp hk
    exact ⟨x, hx, heq.trans (List.mem_singleton.mp hk')⟩

theorem nodup_modify (hf : ∀ r, key (f r) = key r) (h : (rows.map key).Nodup) (k : K) :
    ((modify key rows k f).map key).Nodup := by
  have hkeys : (modify key rows k f).map key = rows.map key := by
    rw [modify, List.map_map]
    refine List.map_congr_left fun r _ => ?_
    show key (if key r = k then f r else r) = key r
    split
    · exact hf r
    · rfl
  rwa [hkeys]

theorem nodup_delete (h : (rows.map key).Nodup) (k : K) : ((delete key rows k).map key).Nodup :=
  h.sublist (List.filter_sublist.map key)

omit [DecidableEq K] in
theorem countP_le_one_iff {p : R → Bool} (h : (rows.map key).Nodup) (hr : r ∈ rows) (hp : p r = true) :
    rows.countP p ≤ 1 ↔ ∀ x ∈ rows, p x = true → key x = key r := by
  rw [List.countP_eq_length_filter]
  have hmem : r ∈ rows.filter p := List.mem_filter.mpr ⟨hr, hp⟩
  constructor
  · intro hle x hx hpx
    obtain ⟨y, hy⟩ := List.length_eq_one_iff.mp (Nat.le_antisymm hle (List.length_pos_of_mem hmem))
    rw [hy] at hmem
    have hxy : x ∈ rows.filter p := List.mem_filter.mpr ⟨hx, hpx⟩
    rw [hy] at hxy
    rw [List.mem_singleton.mp hxy, List.mem_singleton.mp hmem]
  · intro hall
    have hnodup : ((rows.filter p).map key).Nodup := h.sublist (List.filter_sublist.map key)
    have hsub : (rows.filter p).map key ⊆ [key r] := by
      intro k hk
      obtain ⟨x, hx, rfl⟩ := List.mem_map.mp hk
      obtain ⟨hx, hpx⟩ := List.mem_filter.mp hx
      exact List.mem_singleton.mpr (hall x hx hpx)
    have := (List.subperm_of_subset hnodup hsub).length_le
    rwa [List.length_map] at this

end Nas.Lib.Keyed
