import Mathlib.Data.List.TakeWhile
import Mathlib.Tactic.Common

/-!
# Character arrays of a fixed size

`CBuffer n` is an array of `n` bytes. `memcpy` writes bytes at its start, and has no
value when that writes outside the array. `Terminated` says that the array holds a
NUL, and `text` is the string that a reader up to the first NUL sees.

An array that was cleared ends in a zero byte, and a copy of fewer than `n` bytes
keeps that (`EndsInZero.memcpy`), whatever was copied before. `memcpy_zeroed_iff` is
the exact condition for a copy to a cleared array to be inside and terminated.
-/

namespace Nas.Lib

structure CBuffer (n : Nat) where
  bytes : List UInt8
  length_eq : bytes.length = n

namespace CBuffer

variable {n : Nat} {b b' : CBuffer n} {src : List UInt8}

@[ext] theorem ext (h : b.bytes = b'.bytes) : b = b' := by
  cases b
  cases b'
  cases h
  rfl

def zeroed (n : Nat) : CBuffer n := ⟨List.replicate n 0, List.length_replicate⟩

def memcpy (b : CBuffer n) (src : List UInt8) : Option (CBuffer n) :=
  if h : src.length ≤ n then
    some ⟨src ++ b.bytes.drop src.length, by rw [List.length_append, List.length_drop, b.length_eq]; omega⟩
  else none

def text (b : CBuffer n) : List UInt8 := b.bytes.takeWhile (· ≠ 0)

def Terminated (b : CBuffer n) : Prop := 0 ∈ b.bytes

instance (b : CBuffer n) : Decidable b.Terminated := inferInstanceAs (Decidable (_ ∈ _))

def EndsInZero (b : CBuffer n) : Prop := b.bytes.getLast? = some 0

theorem memcpy_eq_some_iff :
    b.memcpy src = some b' ↔ src.length ≤ n ∧ b'.bytes = src ++ b.bytes.drop src.length := by
  unfold memcpy
  split
  · rename_i h
    rw [Option.some.injEq]
    constructor
    · rintro rfl
      exact ⟨h, rfl⟩
    · rintro ⟨-, hbytes⟩
      exact (CBuffer.ext hbytes).symm
  · rename_i h
    exact iff_of_false nofun fun heq => h heq.1

theorem memcpy_isSome (b : CBuffer n) (h : src.length ≤ n) : ∃ b', b.memcpy src = some b' :=
  ⟨_, dif_pos h⟩

theorem EndsInZero.terminated (h : b.EndsInZero) : b.Terminated := List.mem_of_getLast? h

theorem zeroed_endsInZero (hn : 0 < n) : (zeroed n).EndsInZero := by
  show (List.replicate n 0).getLast? = some 0
  rw [List.getLast?_replicate, if_neg (by omega)]

theorem EndsInZero.memcpy (hb : b.EndsInZero) (h : b.memcpy src = some b') (hlt : src.length < n) :
    b'.EndsInZero := by
  obtain ⟨-, hbytes⟩ := memcpy_eq_some_iff.mp h
  show b'.bytes.getLast? = some 0
  rw [hbytes, List.getLast?_append, List.getLast?_drop, if_neg (by rw [b.length_eq]; omega),
    show b.bytes.getLast? = some 0 from hb]
  rfl

theorem memcpy_full (h : b.memcpy src = some b') (hlen : src.length = n) : b'.bytes = src := by
  obtain ⟨-, hbytes⟩ := memcpy_eq_some_iff.mp h
  rw [hbytes, List.drop_eq_nil_of_le (by rw [b.length_eq, hlen]), List.append_nil]

theorem memcpy_zeroed_iff (hn : 0 < n) :
    (∃ b, (zeroed n).memcpy src = some b ∧ b.Terminated) ↔
      src.length < n ∨ (src.length = n ∧ 0 ∈ src) := by
  constructor
  · rintro ⟨b, hb, hterm⟩
    rcases Nat.lt_or_eq_of_le (memcpy_eq_some_iff.mp hb).1 with hlt | heq
    · exact .inl hlt
    · exact .inr ⟨heq, memcpy_full hb heq ▸ hterm⟩
  · rintro (hlt | ⟨heq, hmem⟩)
    · obtain ⟨b, hb⟩ := memcpy_isSome (zeroed n) hlt.le
      exact ⟨b, hb, ((zeroed_endsInZero hn).memcpy hb hlt).terminated⟩
    · obtain ⟨b, hb⟩ := memcpy_isSome (zeroed n) heq.le
      refine ⟨b, hb, ?_⟩
      show 0 ∈ b.bytes
      rwa [memcpy_full hb heq]

/-- Copying back the string that the array holds changes nothing. -/
theorem memcpy_text (b : CBuffer n) : b.memcpy b.text = some b := by
  obtain ⟨rest, hrest⟩ : b.text <+: b.bytes := List.takeWhile_prefix _
  have hlen : b.text.length ≤ n := by
    have := congrArg List.length hrest
    rw [List.length_append, b.length_eq] at this
    omega
  refine memcpy_eq_some_iff.mpr ⟨hlen, ?_⟩
  rw [← hrest, List.drop_left]

/-- Without a NUL the string is the whole array. -/
theorem text_of_not_terminated (h : ¬ b.Terminated) : b.text = b.bytes := by
  refine List.takeWhile_eq_self_iff.mpr fun x hx => decide_eq_true fun h0 => h ?_
  rw [h0] at hx
  exact hx

theorem length_text_lt (h : b.Terminated) : b.text.length < n := by
  have hstart : b.text <+: b.bytes := List.takeWhile_prefix _
  refine lt_of_le_of_ne (hstart.length_le.trans_eq b.length_eq) fun hfull => ?_
  have hall : b.text = b.bytes := hstart.eq_of_length (hfull.trans b.length_eq.symm)
  have hzero : 0 ∈ b.text := by
    rw [hall]
    exact h
  have hne := List.mem_takeWhile_imp hzero
  simp at hne

/-! ## Comparing the strings of two arrays -/

theorem takeWhile_ne_zero_ne_iff {l m : List UInt8} (hlen : l.length = m.length) :
    l.takeWhile (· ≠ 0) ≠ m.takeWhile (· ≠ 0) ↔
      ∃ i : Nat, l[i]? ≠ m[i]? ∧ ∀ j < i, l[j]? = m[j]? ∧ l[j]? ≠ some 0 := by
  induction l generalizing m with
  | nil =>
    obtain rfl := List.length_eq_zero_iff.mp hlen.symm
    simp
  | cons a l ih =>
    obtain ⟨b, m, rfl⟩ := List.exists_cons_of_length_eq_add_one hlen.symm
    by_cases hab : a = b
    · subst hab
      by_cases ha : a = 0
      · -- Both strings are empty, and a difference has a NUL before it.
        refine iff_of_false (by simp [ha]) ?_
        rintro ⟨_ | i, hi, hbefore⟩
        · exact hi rfl
        · exact (hbefore 0 (Nat.succ_pos i)).2 (by simp [ha])
      · have htail := ih (Nat.succ.inj hlen)
        simp only [List.takeWhile_cons, ne_eq, ha, not_false_eq_true, decide_true, if_true,
          List.cons.injEq, true_and] at htail ⊢
        rw [htail]
        constructor
        · rintro ⟨i, hi, hbefore⟩
          refine ⟨i + 1, by simpa using hi, fun j hj => ?_⟩
          cases j with
          | zero => simp [ha]
          | succ j => simpa using hbefore j (by omega)
        · rintro ⟨_ | i, hi, hbefore⟩
          · exact absurd rfl hi
          · exact ⟨i, by simpa using hi, fun j hj => by simpa using hbefore (j + 1) (by omega)⟩
    · refine iff_of_true (fun h => hab ?_) ⟨0, by simpa using hab, fun j hj => absurd hj (Nat.not_lt_zero j)⟩
      by_cases ha : a = 0 <;> by_cases hb : b = 0 <;> simp_all

def DiffersBeforeNul (b b' : CBuffer n) : Prop :=
  ∃ i : Nat, b.bytes[i]? ≠ b'.bytes[i]? ∧ ∀ j < i, b.bytes[j]? = b'.bytes[j]? ∧ b.bytes[j]? ≠ some 0

theorem text_ne_iff : b.text ≠ b'.text ↔ b.DiffersBeforeNul b' :=
  takeWhile_ne_zero_ne_iff (b.length_eq.trans b'.length_eq.symm)

end CBuffer

end Nas.Lib
