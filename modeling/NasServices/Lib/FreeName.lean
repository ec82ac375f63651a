import Mathlib.Data.Finset.Card
import Mathlib.Data.Finset.Image
import Mathlib.Data.Nat.Find
import Mathlib.Logic.Function.Iterate

/-!
# Looking for a free name

A loop goes through names until it finds one that is not used. `loopWhile` is such a loop with a
bound on its rounds; `loopWhile_eq_some` says which round is its last one. When the names repeat
only finitely often and finitely many are used, a free one comes (`exists_first_free`), so the loop
ends at the first of them (`loopWhile_first_free`).
-/

namespace Nas.Lib.FreeName

section Loop

variable {S : Type*}

def loopWhile (busy : S → Bool) (body : S → S) : Nat → S → Option S
  | 0, s => if busy s then none else some s
  | fuel + 1, s => if busy s then loopWhile busy body fuel (body s) else some s

variable {busy : S → Bool} {body : S → S}

theorem loopWhile_of_free {s : S} (h : busy s = false) (fuel : Nat) :
    loopWhile busy body fuel s = some s := by
  cases fuel <;> simp [loopWhile, h]

/-- The loop ends before the first round in which it is not busy. -/
theorem loopWhile_eq_some {k fuel : Nat} {s : S} (hfuel : k ≤ fuel)
    (hbusy : ∀ j < k, busy (body^[j] s) = true) (hfree : busy (body^[k] s) = false) :
    loopWhile busy body fuel s = some (body^[k] s) := by
  induction k generalizing fuel s with
  | zero => exact loopWhile_of_free hfree fuel
  | succ k ih =>
    obtain ⟨fuel, rfl⟩ : ∃ n, fuel = n + 1 := ⟨fuel - 1, by omega⟩
    have hs : busy s = true := hbusy 0 (Nat.succ_pos k)
    rw [loopWhile, if_pos hs, Function.iterate_succ_apply]
    exact ih (by omega) (fun j hj => hbusy (j + 1) (by omega)) hfree

end Loop

variable {α : Type*} [DecidableEq α] (used : Finset α) {name : Nat → α} {a : Nat}

theorem exists_free (hinj : Function.Injective fun i => name (a + i)) :
    ∃ k ≤ a + used.card, name k ∉ used := by
  let tried := (Finset.range (used.card + 1)).image fun i => name (a + i)
  have hcard : used.card < tried.card := by
    rw [Finset.card_image_of_injective _ hinj, Finset.card_range]
    exact Nat.lt_succ_self _
  obtain ⟨_, htried, hfree⟩ := Finset.exists_mem_notMem_of_card_lt_card hcard
  obtain ⟨i, hi, rfl⟩ := Finset.mem_image.mp htried
  have := Finset.mem_range.mp hi
  exact ⟨a + i, by omega, hfree⟩

theorem exists_first_free (hinj : Function.Injective fun i => name (a + i)) :
    ∃ k ≤ a + used.card, name k ∉ used ∧ ∀ j < k, name j ∈ used := by
  obtain ⟨n, hn, hfree⟩ := exists_free used hinj
  have hex : ∃ k, name k ∉ used := ⟨n, hfree⟩
  refine ⟨Nat.find hex, (Nat.find_min' hex hfree).trans hn, Nat.find_spec hex, fun j hj => ?_⟩
  exact not_not.mp (Nat.find_min hex hj)

/-- A loop that looks at one name after the other ends at the first free one. -/
theorem loopWhile_first_free {S : Type*} {body : S → S} {look : S → α} {s : S}
    (hname : ∀ k, look (body^[k] s) = name k) (hinj : Function.Injective fun i => name (a + i)) :
    ∃ k ≤ a + used.card, name k ∉ used ∧ (∀ j < k, name j ∈ used) ∧
      ∀ fuel ≥ k, (loopWhile (fun s => decide (look s ∈ used)) body fuel s).map look = some (name k) := by
  obtain ⟨k, hk, hfree, hused⟩ := exists_first_free used hinj
  refine ⟨k, hk, hfree, hused, fun fuel hfuel => ?_⟩
  have hbusy : ∀ j < k, decide (look (body^[j] s) ∈ used) = true := by
    intro j hj
    rw [hname]
    exact decide_eq_true (hused j hj)
  have hlast : decide (look (body^[k] s) ∈ used) = false := by
    rw [hname]
    exact decide_eq_false hfree
  rw [loopWhile_eq_some hfuel hbusy hlast, Option.map_some, hname]

end Nas.Lib.FreeName
