import NasServices.Lib.Checked
import NasServices.Lib.Decimal
import Mathlib.Data.Nat.Digits.Lemmas

/-!
# Numbers as C converts and prints them

`doubleOfInt` is the double that an integer becomes, the nearest one with 53 binary digits; up
to `2 ^ 53` that is the integer itself (`doubleOfInt_eq`). `intOfDouble` is the cast back to an `int`, which
drops the decimals and has no result outside of the type. `paddedText` is `%0kd`, and `snprintf` keeps
what a buffer has room for.
-/

namespace Nas.Lib

/-- The nearest number with 53 binary digits, and of two the even one. -/
def doubleOfInt (n : Int) : ℚ :=
  let s := n.natAbs.log2 - 52
  (roundHalfEven ((n : ℚ) / 2 ^ s) : ℚ) * 2 ^ s

def intOfDouble (x : ℚ) : Checked Int := Checked.int (if 0 ≤ x then ⌊x⌋ else ⌈x⌉)

def paddedText (k : Nat) (n : Int) : List Char :=
  let sign := if n < 0 then ['-'] else []
  let digits := natText n.natAbs
  sign ++ List.replicate (k - (sign.length + digits.length)) '0' ++ digits

/-- What `snprintf` leaves in a buffer of `size` characters, the last of which is a NUL. -/
def snprintf (size : Nat) (text : List Char) : List Char := text.take (size - 1)

theorem roundHalfEven_intCast (n : Int) : roundHalfEven (n : ℚ) = n := by
  rw [roundHalfEven, Int.floor_intCast, sub_self, if_pos (by norm_num)]

/-- An integer with at most 53 binary digits is a double. -/
theorem doubleOfInt_eq {n : Int} (h : n.natAbs ≤ 2 ^ 53) : doubleOfInt n = n := by
  have hlog : n.natAbs.log2 - 52 = 0 ∨ n.natAbs = 2 ^ 53 := by
    rcases Nat.lt_or_eq_of_le h with hlt | heq
    · left
      by_cases h0 : n.natAbs = 0
      · rw [h0]
        rfl
      · have := (Nat.log2_lt h0).mpr hlt
        omega
    · exact .inr heq
  rcases hlog with hzero | hmax
  · rw [doubleOfInt, hzero, pow_zero, div_one, mul_one, roundHalfEven_intCast]
  · have hs : n.natAbs.log2 - 52 = 1 := by rw [hmax, Nat.log2_two_pow]
    obtain ⟨m, hm⟩ : ∃ m : Int, n = m * 2 := ⟨n / 2, by omega⟩
    have hhalf : (n : ℚ) / 2 ^ 1 = (m : ℚ) := by
      rw [hm]
      push_cast
      ring
    rw [doubleOfInt, hs, hhalf, roundHalfEven_intCast, hm]
    push_cast
    ring

theorem intOfDouble_intCast (n : Int) : intOfDouble (n : ℚ) = Checked.int n := by
  rw [intOfDouble, Int.floor_intCast, Int.ceil_intCast, ite_self]

/-! ## Padded numbers -/

theorem paddedText_natCast (k n : Nat) :
    paddedText k (n : Int) = List.replicate (k - (natText n).length) '0' ++ natText n := by
  rw [paddedText, if_neg (by omega)]
  simp only [Int.natAbs_natCast, List.length_nil, Nat.zero_add, List.nil_append]

theorem length_paddedText (k n : Nat) : (paddedText k (n : Int)).length = max k (natText n).length := by
  rw [paddedText_natCast, List.length_append, List.length_replicate]
  omega

theorem paddedText_isDigit (k n : Nat) : ∀ c ∈ paddedText k (n : Int), c.isDigit = true := by
  rw [paddedText_natCast]
  intro c hc
  rcases List.mem_append.mp hc with hc | hc
  · rw [List.eq_of_mem_replicate hc]
    rfl
  · exact natText_isDigit n c hc

theorem natValue_zeros_append (j : Nat) (cs : List Char) : natValue (List.replicate j '0' ++ cs) = natValue cs := by
  induction j with
  | zero => rfl
  | succ j ih => exact ih

theorem natValue_paddedText (k n : Nat) : natValue (paddedText k (n : Int)) = n := by
  rw [paddedText_natCast, natValue_zeros_append, natValue_natText]

theorem length_natText_le_iff {n k : Nat} (hk : 0 < k) : (natText n).length ≤ k ↔ n < 10 ^ k := by
  unfold natText
  split
  · rename_i hn
    have : 0 < 10 ^ k := Nat.pow_pos (by decide)
    simp only [List.length_singleton]
    omega
  · rw [List.length_reverse, List.length_map, Nat.digits_length_le_iff (by decide)]

end Nas.Lib
