import Mathlib.Data.List.GetD

/-!
# Bytes and words

A word of 32 bits by its four bytes (`aword`), as the `aword` union of the source has them.
-/

namespace Nas.Encrypt

abbrev Byte := BitVec 8
abbrev Word := BitVec 32

def wbyte (x : Word) (i : Fin 4) : Byte := x.extractLsb' (24 - 8 * i) 8

def aword (b0 b1 b2 b3 : Byte) : Word := b0 ++ b1 ++ b2 ++ b3

section Words

open BitVec

variable (b0 b1 b2 b3 : Byte)

@[simp] theorem extract_0_aword : (aword b0 b1 b2 b3).extractLsb' 0 8 = b3 := extractLsb'_append_eq_right

@[simp] theorem extract_8_aword : (aword b0 b1 b2 b3).extractLsb' 8 8 = b2 := by
  rw [aword, extractLsb'_append_eq_of_le (by decide)]
  exact extractLsb'_append_eq_right

@[simp] theorem extract_16_aword : (aword b0 b1 b2 b3).extractLsb' 16 8 = b1 := by
  rw [aword, extractLsb'_append_eq_of_le (by decide), extractLsb'_append_eq_of_le (by decide)]
  exact extractLsb'_append_eq_right

@[simp] theorem extract_24_aword : (aword b0 b1 b2 b3).extractLsb' 24 8 = b0 := by
  rw [aword, extractLsb'_append_eq_of_le (by decide), extractLsb'_append_eq_of_le (by decide)]
  exact extractLsb'_append_eq_left

theorem aword_or (c0 c1 c2 c3 : Byte) :
    aword b0 b1 b2 b3 ||| aword c0 c1 c2 c3 = aword (b0 ||| c0) (b1 ||| c1) (b2 ||| c2) (b3 ||| c3) := by
  rw [aword, aword, aword, or_append, or_append, or_append]

@[simp] theorem aword_extract (x : Word) :
    aword (x.extractLsb' 24 8) (x.extractLsb' 16 8) (x.extractLsb' 8 8) (x.extractLsb' 0 8) = x := by
  rw [aword, extractLsb'_append_extractLsb'_eq_extractLsb' (by decide),
    extractLsb'_append_extractLsb'_eq_extractLsb' (by decide),
    extractLsb'_append_extractLsb'_eq_extractLsb' (by decide)]
  exact extractLsb'_eq_self

end Words

end Nas.Encrypt
