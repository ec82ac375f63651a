import Mathlib.Data.List.Basic
import Mathlib.Order.Lattice

/-!
# Maps as lists sorted by their keys

The entries of a map in the order in which a loop meets them. `setKey` replaces the
value of a key that is there, `insertKey` keeps it. Entries that come in the order
of their keys are put one behind the other (`foldl_setKey`, `foldl_insertKey`), so
that copying a map by a loop gives it back.
-/

namespace Nas.Lib

variable {K V W : Type*} [LinearOrder K]

def findKey (k : K) : List (K × V) → Option V
  | [] => none
  | e :: es => if k = e.1 then some e.2 else findKey k es

def setKey (k : K) (v : V) : List (K × V) → List (K × V)
  | [] => [(k, v)]
  | e :: es => if k < e.1 then (k, v) :: e :: es else if k = e.1 then (k, v) :: es else e :: setKey k v es

def insertKey (k : K) (v : V) : List (K × V) → List (K × V)
  | [] => [(k, v)]
  | e :: es => if k < e.1 then (k, v) :: e :: es else if k = e.1 then e :: es else e :: insertKey k v es

theorem findKey_setKey (k k' : K) (v : V) (es : List (K × V)) :
    findKey k' (setKey k v es) = if k' = k then some v else findKey k' es := by
  induction es with
  | nil => rfl
  | cons e es ih =>
    rw [setKey]
    split
    case isTrue => rw [findKey]
    case isFalse =>
      split
      case isTrue heq =>
        subst heq
        rw [findKey, findKey]
        split <;> rfl
      case isFalse hne =>
        rw [findKey, findKey, ih]
        by_cases hk : k' = k
        · rw [if_pos hk, if_pos hk, if_neg (hk ▸ hne)]
        · rw [if_neg hk, if_neg hk]

/-! ## Sorted entries -/

def Sorted (es : List (K × V)) : Prop := es.Pairwise fun e e' => e.1 < e'.1

instance (es : List (K × V)) : Decidable (Sorted es) := inferInstanceAs (Decidable (es.Pairwise _))

theorem mem_insertKey {k : K} {v : V} {es : List (K × V)} {e : K × V} (h : e ∈ insertKey k v es) :
    e.1 = k ∨ e ∈ es := by
  induction es with
  | nil =>
    rw [List.mem_singleton.mp h]
    exact .inl rfl
  | cons e' es ih =>
    rw [insertKey] at h
    split_ifs at h with hlt heq
    · rcases List.mem_cons.mp h with rfl | h
      · exact .inl rfl
      · exact .inr h
    · exact .inr h
    · rcases List.mem_cons.mp h with rfl | h
      · exact .inr List.mem_cons_self
      · exact (ih h).imp_right (List.mem_cons_of_mem _)

theorem Sorted.insertKey {es : List (K × V)} (h : Sorted es) (k : K) (v : V) : Sorted (insertKey k v es) := by
  induction es with
  | nil => exact List.pairwise_singleton ..
  | cons e es ih =>
    obtain ⟨hfirst, hrest⟩ := List.pairwise_cons.mp h
    rw [Lib.insertKey]
    split_ifs with hlt heq
    · refine List.pairwise_cons.mpr ⟨fun e' he' => ?_, h⟩
      rcases List.mem_cons.mp he' with rfl | he'
      · exact hlt
      · exact lt_trans hlt (hfirst e' he')
    · exact h
    · refine List.pairwise_cons.mpr ⟨fun e' he' => ?_, ih hrest⟩
      rcases mem_insertKey he' with hk | he'
      · rw [hk]
        exact lt_of_le_of_ne (not_lt.mp hlt) (Ne.symm heq)
      · exact hfirst e' he'

/-! ## Copying -/

theorem setKey_of_lt {k : K} {v : V} {es : List (K × V)} (h : ∀ e ∈ es, e.1 < k) :
    setKey k v es = es ++ [(k, v)] := by
  induction es with
  | nil => rfl
  | cons e es ih =>
    have he := h e List.mem_cons_self
    rw [setKey, if_neg (not_lt_of_gt he), if_neg he.ne', ih fun e' he' => h e' (List.mem_cons_of_mem _ he')]
    rfl

theorem insertKey_of_lt {k : K} {v : V} {es : List (K × V)} (h : ∀ e ∈ es, e.1 < k) :
    insertKey k v es = es ++ [(k, v)] := by
  induction es with
  | nil => rfl
  | cons e es ih =>
    have he := h e List.mem_cons_self
    rw [insertKey, if_neg (not_lt_of_gt he), if_neg he.ne', ih fun e' he' => h e' (List.mem_cons_of_mem _ he')]
    rfl

/-- A loop that appends each entry whose key is above those before. -/
theorem foldl_append_sorted {add : List (K × W) → K × V → List (K × W)} {f : K × V → K × W}
    (hadd : ∀ acc e, (∀ e' ∈ acc, e'.1 < e.1) → add acc e = acc ++ [f e]) (hf : ∀ e, (f e).1 = e.1)
    {es : List (K × V)} (h : Sorted es) {acc : List (K × W)} (hacc : ∀ e' ∈ acc, ∀ e ∈ es, e'.1 < e.1) :
    es.foldl add acc = acc ++ es.map f := by
  induction es generalizing acc with
  | nil => exact (List.append_nil acc).symm
  | cons e es ih =>
    obtain ⟨hfirst, hrest⟩ := List.pairwise_cons.mp h
    rw [List.foldl_cons, hadd acc e fun e' he' => hacc e' he' e List.mem_cons_self, ih hrest]
    · rw [List.append_assoc, List.map_cons, List.singleton_append]
    · intro e' he' e'' he''
      rcases List.mem_append.mp he' with he' | he'
      · exact hacc e' he' e'' (List.mem_cons_of_mem _ he'')
      · rw [List.mem_singleton.mp he', hf]
        exact hfirst e'' he''

theorem foldl_setKey (g : K × V → W) {es : List (K × V)} (h : Sorted es) :
    es.foldl (fun acc e => setKey e.1 (g e) acc) [] = es.map fun e => (e.1, g e) :=
  foldl_append_sorted (f := fun e => (e.1, g e)) (fun _ _ he => setKey_of_lt he) (fun _ => rfl) h
    fun _ he' => absurd he' List.not_mem_nil

theorem foldl_insertKey {es : List (K × V)} (h : Sorted es) :
    es.foldl (fun acc e => insertKey e.1 e.2 acc) [] = es := by
  have hfold : es.foldl (fun acc e => insertKey e.1 e.2 acc) [] = [] ++ es.map fun e => e :=
    foldl_append_sorted (f := fun e => e) (fun _ e he => insertKey_of_lt (v := e.2) he) (fun _ => rfl) h
      fun _ he' => absurd he' List.not_mem_nil
  rwa [List.nil_append, List.map_id'] at hfold

end Nas.Lib
