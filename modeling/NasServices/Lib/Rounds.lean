import Mathlib.Data.List.Sort
import NasServices.Lib.Run

/-!
# The rounds of a loop

A loop over a list (`forEach`) that works on one item in each round does to an item only what
the rounds on this item do: `answersTo x xs ω` are the answers that these rounds are given, and
`forEach_steps` makes one step for each of them.

`iterate` is a loop over an ordered map which may change the map: after each round the iterator
goes to the next key of the map as the round has left it. If a round lists and unlists nothing but
its own key, the loop ends after at most as many rounds as there are keys, and does what a loop over
the keys it starts with does (`iterate_eq_forEach`).
-/

namespace Nas.Lib

variable {S A R V : Type*}

section Steps

variable {body : S → A → R → S} {I : S → Prop} {f : S → V} {x : A}

/-- Rounds on other items do not change the view `f`. -/
theorem forEach_view (hI : ∀ s y a, I s → I (body s y a))
    (hother : ∀ s y a, I s → y ≠ x → f (body s y a) = f s) {s : S} (hs : I s) {xs : List A} (hx : x ∉ xs)
    (ω : Nat → R) : f (forEach body s xs ω) = f s := by
  refine (forEach_keep (I := fun t => I t ∧ f t = f s) (fun t y a hy ht => ?_) ⟨hs, rfl⟩ ω).2
  have hne : y ≠ x := fun heq => hx (heq ▸ hy)
  exact ⟨hI t y a ht.1, (hother t y a ht.1 hne).trans ht.2⟩

theorem eq_take_append_drop {xs : List A} {k : Nat} (hk : xs[k]? = some x) :
    xs = xs.take k ++ x :: xs.drop (k + 1) := by
  obtain ⟨hlt, hx⟩ := List.getElem?_eq_some_iff.mp hk
  rw [← hx, List.getElem_cons_drop, List.take_append_drop]

variable [DecidableEq A]

/-- The answers that the rounds on `x` are given. -/
def answersTo (x : A) : List A → (Nat → R) → List R
  | [], _ => []
  | y :: ys, ω => if y = x then ω 0 :: answersTo x ys (fun k => ω (k + 1)) else answersTo x ys (fun k => ω (k + 1))

theorem length_answersTo (x : A) (xs : List A) (ω : Nat → R) : (answersTo x xs ω).length = xs.count x := by
  induction xs generalizing ω with
  | nil => rfl
  | cons y ys ih =>
    unfold answersTo
    split
    · rename_i heq
      rw [heq, List.count_cons_self, List.length_cons, ih]
    · rename_i hne
      rw [List.count_cons_of_ne hne, ih]

theorem answersTo_ne_nil_iff {x : A} {xs : List A} {ω : Nat → R} : answersTo x xs ω ≠ [] ↔ x ∈ xs := by
  rw [← List.length_pos_iff, length_answersTo, List.count_pos_iff]

theorem mem_answersTo_iff {x : A} {xs : List A} {ω : Nat → R} {a : R} :
    a ∈ answersTo x xs ω ↔ ∃ k, xs[k]? = some x ∧ ω k = a := by
  induction xs generalizing ω with
  | nil => simp [answersTo]
  | cons y ys ih =>
    have hsplit : (∃ k, (y :: ys)[k]? = some x ∧ ω k = a) ↔
        (y = x ∧ ω 0 = a) ∨ ∃ k, ys[k]? = some x ∧ ω (k + 1) = a := by
      constructor
      · rintro ⟨k, hk, ha⟩
        cases k with
        | zero => exact .inl ⟨Option.some.inj hk, ha⟩
        | succ k => exact .inr ⟨k, by rwa [List.getElem?_cons_succ] at hk, ha⟩
      · rintro (⟨hy, ha⟩ | ⟨k, hk, ha⟩)
        · exact ⟨0, congrArg some hy, ha⟩
        · exact ⟨k + 1, by rwa [List.getElem?_cons_succ], ha⟩
    rw [hsplit, answersTo]
    split
    · rename_i heq
      rw [List.mem_cons, ih]
      simp [heq, eq_comm]
    · rename_i hne
      rw [ih]
      simp [hne]

/-- What comes before the first `x` in a list, and what comes after. -/
theorem eq_takeWhile_append {x : A} {xs : List A} (hx : x ∈ xs) :
    ∃ ys, xs = xs.takeWhile (· != x) ++ x :: ys ∧ x ∉ xs.takeWhile (· != x) := by
  induction xs with
  | nil => cases hx
  | cons y xs ih =>
    by_cases heq : y = x
    · subst heq
      exact ⟨xs, by simp, by simp⟩
    · obtain ⟨ys, hxs, hnot⟩ := ih ((List.mem_cons.mp hx).resolve_left (Ne.symm heq))
      refine ⟨ys, ?_, ?_⟩
      · rw [List.takeWhile_cons_of_pos (by simpa using heq), List.cons_append, ← hxs]
      · rw [List.takeWhile_cons_of_pos (by simpa using heq), List.mem_cons, not_or]
        exact ⟨Ne.symm heq, hnot⟩

/-- What is in a list at most once is not before or after the place where it is. -/
theorem not_mem_take_drop {xs : List A} (hcount : xs.count x ≤ 1) {k : Nat} (hk : xs[k]? = some x) :
    x ∉ xs.take k ∧ x ∉ xs.drop (k + 1) := by
  rw [eq_take_append_drop hk, List.count_append, List.count_cons_self] at hcount
  constructor
  · apply List.count_eq_zero.mp
    omega
  · apply List.count_eq_zero.mp
    omega

/-- The only round on `x` finds the view as it was, and decides what it is in the end. -/
theorem forEach_once (hI : ∀ s y a, I s → I (body s y a))
    (hother : ∀ s y a, I s → y ≠ x → f (body s y a) = f s) {s : S} (hs : I s) {xs : List A}
    (hcount : xs.count x ≤ 1) {k : Nat} (hk : xs[k]? = some x) (ω : Nat → R) :
    f (forEach body s (xs.take k) ω) = f s ∧
      f (forEach body s xs ω) = f (body (forEach body s (xs.take k) ω) x (ω k)) := by
  obtain ⟨hbefore, hafter⟩ := not_mem_take_drop hcount hk
  have hround : I (forEach body s (xs.take k) ω) := forEach_keep (fun s y a _ => hI s y a) hs ω
  have hlength : (xs.take k).length = k :=
    List.length_take_of_le (List.getElem?_eq_some_iff.mp hk).1.le
  refine ⟨forEach_view hI hother hs hbefore ω, ?_⟩
  conv_lhs => rw [eq_take_append_drop hk, forEach_append, forEach_cons, hlength]
  exact forEach_view hI hother (hI _ _ _ hround) hafter _

theorem exists_mem_answersTo_iff {x : A} {xs : List A} {ω : Nat → R} {P : R → Prop} :
    (∃ a ∈ answersTo x xs ω, P a) ↔ ∃ k, xs[k]? = some x ∧ P (ω k) := by
  simp only [mem_answersTo_iff]
  constructor
  · rintro ⟨a, ⟨k, hk, rfl⟩, ha⟩
    exact ⟨k, hk, ha⟩
  · rintro ⟨k, hk, ha⟩
    exact ⟨ω k, ⟨k, hk, rfl⟩, ha⟩

inductive Steps (rel : V → R → V → Prop) : V → List R → V → Prop
  | nil (v : V) : Steps rel v [] v
  | cons {v v' v'' : V} {a : R} {as : List R} : rel v a v' → Steps rel v' as v'' → Steps rel v (a :: as) v''

theorem Steps.keep {rel : V → R → V → Prop} {P : V → Prop} (hP : ∀ v a v', P v → rel v a v' → P v') {v v' : V}
    {as : List R} (h : Steps rel v as v') (hv : P v) : P v' := by
  induction h with
  | nil => exact hv
  | cons hrel _ ih => exact ih (hP _ _ _ hv hrel)

/-- The view makes a step in each round on `x` and none in the others. -/
theorem forEach_steps {rel : V → R → V → Prop} (hI : ∀ s y a, I s → I (body s y a))
    (hown : ∀ s a, I s → rel (f s) a (f (body s x a)))
    (hother : ∀ s y a, I s → y ≠ x → f (body s y a) = f s) {s : S} (hs : I s) (xs : List A) (ω : Nat → R) :
    Steps rel (f s) (answersTo x xs ω) (f (forEach body s xs ω)) := by
  induction xs generalizing s ω with
  | nil => exact .nil (f s)
  | cons y ys ih =>
    have hrest := ih (hI s y (ω 0) hs) (fun k => ω (k + 1))
    rw [forEach_cons, answersTo]
    split
    · rename_i heq
      subst heq
      exact .cons (hown s (ω 0) hs) hrest
    · rename_i hne
      rwa [hother s y (ω 0) hs hne] at hrest

theorem Steps.add {c v v' : Nat} {as : List R} (h : Steps (fun v _ v' => v' = v + c) v as v') :
    v' = v + c * as.length := by
  induction h with
  | nil v => simp
  | cons hrel _ ih =>
    rw [ih, hrel, List.length_cons, Nat.mul_add, Nat.mul_one, Nat.add_assoc, Nat.add_comm c]

/-- A number that each round on `x` raises by `c`. -/
theorem forEach_add {f : S → Nat} {c : Nat} (hI : ∀ s y a, I s → I (body s y a))
    (hown : ∀ s a, I s → f (body s x a) = f s + c)
    (hother : ∀ s y a, I s → y ≠ x → f (body s y a) = f s) {s : S} (hs : I s) (xs : List A) (ω : Nat → R) :
    f (forEach body s xs ω) = f s + c * xs.count x := by
  rw [← length_answersTo x xs ω]
  exact (forEach_steps hI hown hother hs xs ω).add

end Steps

section Iterate

variable {K : Type*} [LinearOrder K]

/-- A loop over an ordered map, from the key `iter` on; `none` if it is not over after so many
rounds. -/
def iterate (keys : S → List K) (body : S → K → R → S) : Nat → S → Option K → (Nat → R) → Option S
  | _, s, none, _ => some s
  | 0, _, some _, _ => none
  | fuel + 1, s, some x, ω =>
    let s := body s x (ω 0)
    iterate keys body fuel s ((keys s).find? (x < ·)) (fun k => ω (k + 1))

variable {keys : S → List K} {body : S → K → R → S} {I : S → Prop}

/-- Ordered lists that differ in `x` at most agree beyond `x`. -/
theorem filter_lt_eq {xs ys : List K} {x : K} (hxs : xs.Pairwise (· < ·)) (hys : ys.Pairwise (· < ·))
    (h : ∀ y, y ≠ x → (y ∈ ys ↔ y ∈ xs)) : ys.filter (x < ·) = xs.filter (x < ·) := by
  apply List.Pairwise.eq_of_mem_iff (hys.filter _) (hxs.filter _)
  intro y
  simp only [List.mem_filter, decide_eq_true_eq]
  constructor
  · rintro ⟨hy, hlt⟩
    exact ⟨(h y hlt.ne').mp hy, hlt⟩
  · rintro ⟨hy, hlt⟩
    exact ⟨(h y hlt.ne').mpr hy, hlt⟩

/-- What comes after the head of an ordered list is what is greater. -/
theorem filter_lt_cons {x : K} {xs : List K} (h : (x :: xs).Pairwise (· < ·)) :
    (x :: xs).filter (x < ·) = xs := by
  rw [List.filter_cons_of_neg (by simp), List.filter_eq_self]
  intro y hy
  exact decide_eq_true (List.rel_of_pairwise_cons h hy)

/-- The loop goes through the keys that are left, `x` and those beyond it. -/
theorem iterate_cons_eq (hsorted : ∀ s, I s → (keys s).Pairwise (· < ·)) (hI : ∀ s x a, I s → I (body s x a))
    (hkeys : ∀ s x a, I s → ∀ y, y ≠ x → (y ∈ keys (body s x a) ↔ y ∈ keys s)) {s : S} (hs : I s) {x : K}
    {xs : List K} (hxs : xs = (keys s).filter (x < ·)) {fuel : Nat} (hfuel : xs.length < fuel) (ω : Nat → R) :
    iterate keys body fuel s (some x) ω = some (forEach body s (x :: xs) ω) := by
  induction xs generalizing s x fuel ω with
  | nil =>
    obtain ⟨fuel, rfl⟩ : ∃ n, fuel = n + 1 := ⟨fuel - 1, by omega⟩
    have hnext : (keys (body s x (ω 0))).find? (x < ·) = none := by
      rw [← List.head?_filter, filter_lt_eq (hsorted s hs) (hsorted _ (hI s x _ hs)) (hkeys s x _ hs), ← hxs]
      rfl
    rw [iterate, hnext, iterate]
    rfl
  | cons y ys ih =>
    obtain ⟨fuel, rfl⟩ : ∃ n, fuel = n + 1 := ⟨fuel - 1, by omega⟩
    have hs' := hI s x (ω 0) hs
    have hbeyond : (keys (body s x (ω 0))).filter (x < ·) = y :: ys := by
      rw [filter_lt_eq (hsorted s hs) (hsorted _ hs') (hkeys s x _ hs), ← hxs]
    have hnext : (keys (body s x (ω 0))).find? (x < ·) = some y := by
      rw [← List.head?_filter, hbeyond]
      rfl
    have hxy : x < y := by
      have hmem : y ∈ (keys (body s x (ω 0))).filter (x < ·) := hbeyond ▸ List.mem_cons_self
      simpa using (List.mem_filter.mp hmem).2
    have hpairwise : (y :: ys).Pairwise (· < ·) := hbeyond ▸ (hsorted _ hs').filter _
    -- the keys beyond `y` are found among those beyond `x`
    have hys : ys = (keys (body s x (ω 0))).filter (y < ·) := by
      calc ys = (y :: ys).filter (y < ·) := (filter_lt_cons hpairwise).symm
        _ = ((keys (body s x (ω 0))).filter (x < ·)).filter (y < ·) := by rw [hbeyond]
        _ = (keys (body s x (ω 0))).filter (y < ·) := by
          rw [List.filter_filter]
          apply List.filter_congr
          intro z _
          simpa using fun hyz => hxy.trans hyz
    rw [iterate, hnext, forEach_cons]
    exact ih hs' hys (by simpa using hfuel) _

/-- The loop ends after as many rounds as the map has keys, and does what a loop over these does. -/
theorem iterate_eq_forEach (hsorted : ∀ s, I s → (keys s).Pairwise (· < ·)) (hI : ∀ s x a, I s → I (body s x a))
    (hkeys : ∀ s x a, I s → ∀ y, y ≠ x → (y ∈ keys (body s x a) ↔ y ∈ keys s)) {s : S} (hs : I s)
    {fuel : Nat} (hfuel : (keys s).length ≤ fuel) (ω : Nat → R) :
    iterate keys body fuel s (keys s).head? ω = some (forEach body s (keys s) ω) := by
  rcases hk : keys s with _ | ⟨x, xs⟩
  · cases fuel <;> rfl
  · have hxs : xs = (keys s).filter (x < ·) := by
      rw [hk, filter_lt_cons (hk ▸ hsorted s hs)]
    rw [hk, List.length_cons] at hfuel
    exact iterate_cons_eq hsorted hI hkeys hs hxs hfuel ω

end Iterate

end Nas.Lib
