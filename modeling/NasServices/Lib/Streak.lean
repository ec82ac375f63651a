import Mathlib.Data.List.TakeDrop
import Mathlib.Data.List.Count
import Mathlib.Data.List.Infix

/-!
# Counted hits and hits in a row

A counter that is never reset counts all hits of a list, one that is reset by every miss
counts the hits at the end of it. The two reach `n + 1` at the same element exactly when
the first `n + 1` hits come one after the other (`endsIn_nth_hit_iff`).
-/

namespace Nas.Lib.Streak

variable {α : Type*} (p : α → Bool)

def EndsIn (n : Nat) (l : List α) : Prop := n ≤ l.length ∧ ∀ a ∈ l.drop (l.length - n), p a = true

/-- From the first hit on, `n` elements are hits, or as many as there are. -/
def FirstInARow (n : Nat) (l : List α) : Prop := ∀ a ∈ (l.dropWhile fun a => !p a).take n, p a = true

instance (n : Nat) (l : List α) : Decidable (EndsIn p n l) := inferInstanceAs (Decidable (_ ∧ _))

instance (n : Nat) (l : List α) : Decidable (FirstInARow p n l) :=
  inferInstanceAs (Decidable (∀ a ∈ (l.dropWhile fun a => !p a).take n, p a = true))

variable {p} {n k : Nat} {l : List α} {a : α}

theorem endsIn_append (front : List α) {last : List α} (hlast : ∀ a ∈ last, p a = true) :
    EndsIn p last.length (front ++ last) := by
  refine ⟨by rw [List.length_append]; omega, ?_⟩
  rw [List.length_append, Nat.add_sub_cancel, List.drop_left]
  exact hlast

theorem EndsIn.split (h : EndsIn p n l) : ∃ front last, l = front ++ last ∧ last.length = n ∧
    ∀ a ∈ last, p a = true :=
  ⟨l.take (l.length - n), l.drop (l.length - n), (List.take_append_drop _ l).symm,
    by rw [List.length_drop]; have := h.1; omega, h.2⟩

theorem countP_take_succ (h : l[k]? = some a) (ha : p a = true) :
    (l.take (k + 1)).countP p = (l.take k).countP p + 1 := by
  rw [List.take_add_one, h, Option.toList_some, List.countP_append, List.countP_singleton, if_pos ha]

theorem countP_take_le (l : List α) (k : Nat) : (l.take k).countP p ≤ l.countP p :=
  (List.take_sublist k l).countP_le

/-- The `n + 1`-st hit, if there are as many. -/
theorem exists_nth_hit (h : n < l.countP p) :
    ∃ k a, l[k]? = some a ∧ p a = true ∧ (l.take k).countP p = n := by
  induction l generalizing n with
  | nil => exact absurd h (Nat.not_lt_zero n)
  | cons b l ih =>
    rw [List.countP_cons] at h
    by_cases hb : p b = true
    · cases n with
      | zero => exact ⟨0, b, rfl, hb, rfl⟩
      | succ n =>
        rw [if_pos hb] at h
        obtain ⟨k, a, hk, ha, hcount⟩ := ih (n := n) (by omega)
        exact ⟨k + 1, a, hk, ha, by rw [List.take_succ_cons, List.countP_cons, if_pos hb, hcount]⟩
    · rw [if_neg hb] at h
      obtain ⟨k, a, hk, ha, hcount⟩ := ih h
      exact ⟨k + 1, a, hk, ha, by rw [List.take_succ_cons, List.countP_cons, if_neg hb, hcount, Nat.add_zero]⟩

/-- Misses, then hits in a row: the hits are what follows the first miss-free point. -/
theorem firstInARow_append {front last : List α} (rest : List α) (hfront : front.countP p = 0)
    (hlast : ∀ a ∈ last, p a = true) (hne : last ≠ []) : FirstInARow p last.length (front ++ last ++ rest) := by
  obtain ⟨b, last', rfl⟩ := List.exists_cons_of_ne_nil hne
  have hmiss : ∀ a ∈ front, (!p a) = true := by
    intro a ha
    rw [Bool.not_eq_true', ← Bool.not_eq_true]
    exact List.countP_eq_zero.mp hfront a ha
  have hb : (!p b) = false := by rw [hlast b List.mem_cons_self]; rfl
  intro a ha
  rw [List.append_assoc, List.dropWhile_append_of_pos hmiss, List.cons_append, List.dropWhile_cons, hb] at ha
  rw [if_neg Bool.false_ne_true, ← List.cons_append, List.take_left] at ha
  exact hlast a ha

theorem EndsIn.cons (b : α) (h : EndsIn p n l) : EndsIn p n (b :: l) := by
  obtain ⟨front, last, rfl, rfl, hlast⟩ := h.split
  exact endsIn_append (b :: front) hlast

/-- If a list begins with `n + 1` hits, its `n + 1`-st hit is at `n`. -/
theorem nth_hit_eq (h : ∀ b ∈ l.take (n + 1), p b = true) (hk : k < l.length)
    (hcount : (l.take k).countP p = n) : k = n := by
  have hle : n ≤ k := by
    rw [← hcount]
    exact List.countP_le_length.trans (List.length_take_le k l)
  rcases hle.lt_or_eq with hlt | heq
  · have hfirst : ((l.take k).take (n + 1)).countP p = n + 1 := by
      rw [List.take_take, min_eq_left hlt, List.countP_eq_length.mpr h, List.length_take]
      omega
    have hbound := countP_take_le (p := p) (l.take k) (n + 1)
    omega
  · exact heq.symm

/-- The `n + 1`-st hit is the last of the first `n + 1`, which are hits in a row. -/
theorem FirstInARow.endsIn (h : FirstInARow p (n + 1) l) (hk : l[k]? = some a) (ha : p a = true)
    (hcount : (l.take k).countP p = n) : EndsIn p (n + 1) (l.take (k + 1)) := by
  induction l generalizing k with
  | nil => exact absurd hk (by simp)
  | cons b l ih =>
    by_cases hb : p b = true
    · -- the row begins here
      have hrow : ∀ c ∈ (b :: l).take (n + 1), p c = true := by
        simpa only [FirstInARow, List.dropWhile_cons, hb, Bool.not_true, Bool.false_eq_true, if_false] using h
      have hlen : k < (b :: l).length := (List.getElem?_eq_some_iff.mp hk).1
      obtain rfl := nth_hit_eq hrow hlen hcount
      have hends := endsIn_append [] hrow
      rwa [List.nil_append, List.length_take, min_eq_left hlen] at hends
    · cases k with
      | zero => exact absurd ha (by simpa [← Option.some.inj hk] using hb)
      | succ k =>
        rw [List.take_succ_cons, List.countP_cons_of_neg hb] at hcount
        have hrow : FirstInARow p (n + 1) l := by
          rw [Bool.not_eq_true] at hb
          simpa only [FirstInARow, List.dropWhile_cons, hb, Bool.not_false, if_true] using h
        exact (ih hrow hk hcount).cons b

/-- The hit that a counter of all hits sees as number `n + 1` always ends `n + 1` hits in a row, exactly
when there are not so many or the first of them come in a row. -/
theorem endsIn_nth_hit_iff (n : Nat) (l : List α) :
    (∀ k a, l[k]? = some a → p a = true → (l.take k).countP p = n → EndsIn p (n + 1) (l.take (k + 1))) ↔
      l.countP p ≤ n ∨ FirstInARow p (n + 1) l := by
  constructor
  · intro h
    rcases Nat.lt_or_ge n (l.countP p) with hlt | hle
    · obtain ⟨k, a, hk, ha, hcount⟩ := exists_nth_hit hlt
      obtain ⟨front, last, hsplit, hlen, hlast⟩ := (h k a hk ha hcount).split
      have hfront : front.countP p = 0 := by
        have hsucc := countP_take_succ hk ha
        rw [hcount, hsplit, List.countP_append, List.countP_eq_length.mpr hlast, hlen] at hsucc
        omega
      have hne : last ≠ [] := by
        rintro rfl
        exact absurd hlen (Nat.succ_ne_zero n).symm
      have hrow := firstInARow_append (l.drop (k + 1)) hfront hlast hne
      rw [← hsplit, List.take_append_drop, hlen] at hrow
      exact .inr hrow
    · exact .inl hle
  · rintro (hle | hrow) k a hk ha hcount
    · have hsucc := countP_take_succ hk ha
      have hbound := countP_take_le (p := p) l (k + 1)
      omega
    · exact hrow.endsIn hk ha hcount

end Nas.Lib.Streak
