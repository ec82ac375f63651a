import Mathlib.Data.List.Infix

/-!
# Regular expressions that are searched for in a text

`rest r s` are the texts that can be left of `s` when `r` matches at its beginning, by any choice of the
alternatives; an iteration of a star has to take something. `search` looks for a match at every position. Each
constructor has a lemma for what can be left.
-/

namespace Nas.Lib

inductive Regex (α : Type*)
  | empty
  | one (p : α → Bool)
  | seq (r₁ r₂ : Regex α)
  | alt (r₁ r₂ : Regex α)
  | star (r : Regex α)
  | atEnd

namespace Regex

variable {α : Type*}

/-- At most `n` iterations of something with these rests. -/
def iterate (f : List α → List (List α)) : Nat → List α → List (List α)
  | 0, s => [s]
  | n + 1, s => s :: ((f s).filter (·.length < s.length)).flatMap (iterate f n)

def rest : Regex α → List α → List (List α)
  | empty, s => [s]
  | one _, [] => []
  | one p, c :: s => if p c then [s] else []
  | seq r₁ r₂, s => (r₁.rest s).flatMap r₂.rest
  | alt r₁ r₂, s => r₁.rest s ++ r₂.rest s
  | star r, s => iterate r.rest s.length s
  | atEnd, s => if s.isEmpty then [[]] else []

def search (r : Regex α) (s : List α) : Bool := s.tails.any fun t => !(r.rest t).isEmpty

variable {p : α → Bool} {r r₁ r₂ : Regex α} {s t : List α}

@[simp] theorem mem_rest_empty : t ∈ (empty : Regex α).rest s ↔ t = s := by
  rw [rest, List.mem_singleton]

@[simp] theorem mem_rest_one : t ∈ (one p).rest s ↔ ∃ c, p c = true ∧ s = c :: t := by
  cases s with
  | nil => simp [rest]
  | cons c s =>
    rw [rest]
    split
    · rename_i hc
      simp only [List.mem_singleton, List.cons.injEq]
      constructor
      · rintro rfl
        exact ⟨c, hc, rfl, rfl⟩
      · rintro ⟨-, -, -, rfl⟩
        rfl
    · rename_i hc
      simp only [List.not_mem_nil, List.cons.injEq, false_iff]
      rintro ⟨d, hd, rfl, -⟩
      exact hc hd

@[simp] theorem mem_rest_seq : t ∈ (seq r₁ r₂).rest s ↔ ∃ u ∈ r₁.rest s, t ∈ r₂.rest u := by
  rw [rest, List.mem_flatMap]

@[simp] theorem mem_rest_alt : t ∈ (alt r₁ r₂).rest s ↔ t ∈ r₁.rest s ∨ t ∈ r₂.rest s := by
  rw [rest, List.mem_append]

@[simp] theorem mem_rest_atEnd : t ∈ (atEnd : Regex α).rest s ↔ s = [] ∧ t = [] := by
  cases s <;> simp [rest]

/-- A star can take nothing. -/
theorem self_mem_rest_star (r : Regex α) (s : List α) : s ∈ (star r).rest s := by
  rw [rest]
  cases s.length <;> simp [iterate]

theorem search_iff : r.search s = true ↔ ∃ front back t, s = front ++ back ∧ t ∈ r.rest back := by
  rw [search, List.any_eq_true]
  constructor
  · rintro ⟨back, hback, hne⟩
    obtain ⟨front, rfl⟩ := (List.mem_tails _ _).mp hback
    obtain ⟨t, ht⟩ := List.exists_mem_of_ne_nil (r.rest back) (by simpa using hne)
    exact ⟨front, back, t, rfl, ht⟩
  · rintro ⟨front, back, t, rfl, ht⟩
    refine ⟨back, (List.mem_tails _ _).mpr (List.suffix_append _ _), ?_⟩
    have hne := List.ne_nil_of_mem ht
    simpa using hne

theorem search_one_iff : (one p).search s = true ↔ ∃ c ∈ s, p c = true := by
  rw [search_iff]
  constructor
  · rintro ⟨front, back, t, rfl, ht⟩
    obtain ⟨c, hc, rfl⟩ := mem_rest_one.mp ht
    exact ⟨c, by simp, hc⟩
  · rintro ⟨c, hmem, hc⟩
    obtain ⟨front, back, rfl⟩ := List.append_of_mem hmem
    exact ⟨front, c :: back, back, rfl, mem_rest_one.mpr ⟨c, hc, rfl⟩⟩

theorem search_alt_iff : (alt r₁ r₂).search s = true ↔ r₁.search s = true ∨ r₂.search s = true := by
  simp only [search_iff, mem_rest_alt, and_or_left, exists_or]

variable {β : Type*} [DecidableEq β] (fold : α → β)

def word : List α → Regex α
  | [] => empty
  | c :: w => seq (one fun d => fold d = fold c) (word w)

theorem mem_rest_word {w : List α} : t ∈ (word fold w).rest s ↔ ∃ u, u.map fold = w.map fold ∧ s = u ++ t := by
  induction w generalizing s with
  | nil => simp [word, eq_comm]
  | cons c w ih =>
    rw [word, mem_rest_seq]
    constructor
    · rintro ⟨v, hv, ht⟩
      obtain ⟨d, hd, rfl⟩ := mem_rest_one.mp hv
      obtain ⟨u, hu, rfl⟩ := ih.mp ht
      exact ⟨d :: u, by simp [hu, of_decide_eq_true hd], rfl⟩
    · rintro ⟨u, hu, rfl⟩
      obtain ⟨d, u, rfl, hd, hu⟩ := List.map_eq_cons_iff.mp hu
      exact ⟨u ++ t, mem_rest_one.mpr ⟨d, decide_eq_true hd, rfl⟩, ih.mpr ⟨u, hu, rfl⟩⟩

end Regex

end Nas.Lib
