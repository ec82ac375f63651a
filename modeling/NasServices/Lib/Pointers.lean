import Mathlib.Data.List.AList

/-!
# Tables of pointers

A map from keys to shared objects, where it matters which object a key refers to and not only
what is in it. `Pointers` keeps the objects by their numbers and the number for each key; no two
keys refer to the same object. `set` writes an object in place, `add` makes a new one under a
key that is not listed. `view` is the table of values that is seen through the pointers.

No operation here redirects a key: `lookup_set` and `lookup_add_of_ne`.
-/

namespace Nas.Lib

structure Pointers (K V : Type*) [DecidableEq K] where
  objects : List V
  slots : AList fun _ : K => Nat
  lt : ∀ {k n}, slots.lookup k = some n → n < objects.length
  inj : ∀ {j k n}, slots.lookup j = some n → slots.lookup k = some n → j = k

namespace Pointers

variable {K V : Type*} [DecidableEq K] {p : Pointers K V} {j k : K} {n : Nat} {v : V}

def find (p : Pointers K V) (k : K) : Option V := (p.slots.lookup k).bind (p.objects[·]?)

def values (p : Pointers K V) : List K → AList fun _ : K => V
  | [] => ∅
  | k :: ks =>
    match p.find k with
    | none => p.values ks
    | some v => (p.values ks).insert k v

def view (p : Pointers K V) : AList fun _ : K => V := p.values p.slots.keys

theorem lookup_values (p : Pointers K V) (ks : List K) (k : K) :
    (p.values ks).lookup k = if k ∈ ks then p.find k else none := by
  induction ks with
  | nil => rfl
  | cons j ks ih =>
    rw [values]
    by_cases hj : k = j
    · subst hj
      cases hfind : p.find k with
      | none => simp [ih, hfind]
      | some v => simp
    · have hmem : k ∈ j :: ks ↔ k ∈ ks := by simp [hj]
      cases p.find j with
      | none => simp only [ih, hmem]
      | some v => simp only [AList.lookup_insert_ne hj, ih, hmem]

@[simp] theorem lookup_view (p : Pointers K V) (k : K) : p.view.lookup k = p.find k := by
  rw [view, lookup_values]
  split
  · rfl
  · rename_i hk
    have hnone : p.slots.lookup k = none := AList.lookup_eq_none.mpr fun hmem => hk (AList.mem_keys.mp hmem)
    rw [find, hnone]
    rfl

theorem find_eq_get (h : p.slots.lookup k = some n) : p.find k = p.objects[n]? := by
  rw [find, h]
  rfl

theorem exists_get (h : p.slots.lookup k = some n) : ∃ v, p.objects[n]? = some v :=
  ⟨_, List.getElem?_eq_getElem (p.lt h)⟩

theorem isSome_find (p : Pointers K V) (k : K) : (p.find k).isSome = (p.slots.lookup k).isSome := by
  cases h : p.slots.lookup k with
  | none =>
    rw [find, h]
    rfl
  | some n =>
    obtain ⟨v, hv⟩ := exists_get h
    rw [find_eq_get h, hv]
    rfl

/-! ## Writing an object -/

def set (p : Pointers K V) (n : Nat) (v : V) : Pointers K V where
  objects := p.objects.set n v
  slots := p.slots
  lt h := by simpa using p.lt h
  inj := p.inj

@[simp] theorem lookup_set (p : Pointers K V) (n : Nat) (v : V) (k : K) :
    (p.set n v).slots.lookup k = p.slots.lookup k := rfl

theorem find_set (h : p.slots.lookup k = some n) (v : V) : (p.set n v).find k = some v := by
  rw [find_eq_get (p := p.set n v) h]
  exact List.getElem?_set_self (p.lt h)

theorem find_set_of_ne (h : p.slots.lookup k = some n) (hne : j ≠ k) (v : V) : (p.set n v).find j = p.find j := by
  cases hj : p.slots.lookup j with
  | none =>
    rw [find, find, lookup_set, hj]
    rfl
  | some i =>
    have hi : n ≠ i := fun heq => hne (p.inj hj (heq ▸ h))
    rw [find_eq_get (p := p.set n v) hj, find_eq_get hj]
    exact List.getElem?_set_ne hi

/-! ## A new object -/

def add (p : Pointers K V) (k : K) (v : V) : Pointers K V where
  objects := p.objects ++ [v]
  slots := p.slots.insert k p.objects.length
  lt {j n} h := by
    rw [List.length_append, List.length_singleton]
    by_cases hj : j = k
    · rw [hj, AList.lookup_insert] at h
      have := Option.some.inj h
      omega
    · rw [AList.lookup_insert_ne hj] at h
      exact Nat.lt_succ_of_lt (p.lt h)
  inj {i j n} hi hj := by
    by_cases hik : i = k
    · by_cases hjk : j = k
      · rw [hik, hjk]
      · rw [hik, AList.lookup_insert] at hi
        rw [AList.lookup_insert_ne hjk] at hj
        have := p.lt hj
        have := Option.some.inj hi
        omega
    · rw [AList.lookup_insert_ne hik] at hi
      by_cases hjk : j = k
      · rw [hjk, AList.lookup_insert] at hj
        have := p.lt hi
        have := Option.some.inj hj
        omega
      · rw [AList.lookup_insert_ne hjk] at hj
        exact p.inj hi hj

@[simp] theorem lookup_add (p : Pointers K V) (k : K) (v : V) :
    (p.add k v).slots.lookup k = some p.objects.length := AList.lookup_insert _

theorem lookup_add_of_ne (p : Pointers K V) (v : V) (h : j ≠ k) :
    (p.add k v).slots.lookup j = p.slots.lookup j := AList.lookup_insert_ne h

theorem find_add (p : Pointers K V) (k : K) (v : V) : (p.add k v).find k = some v := by
  rw [find_eq_get (p.lookup_add k v)]
  exact List.getElem?_concat_length

theorem find_add_of_ne (p : Pointers K V) (v : V) (h : j ≠ k) : (p.add k v).find j = p.find j := by
  have hlookup := p.lookup_add_of_ne v h
  cases hj : p.slots.lookup j with
  | none =>
    rw [find, find, hlookup, hj]
    rfl
  | some i =>
    rw [find_eq_get (hlookup.trans hj), find_eq_get hj]
    exact List.getElem?_append_left (p.lt hj)

end Pointers

end Nas.Lib
