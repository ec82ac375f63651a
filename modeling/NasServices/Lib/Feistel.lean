import Mathlib.Data.List.Basic

/-!
# Feistel networks

A block is two halves. A round adds a function of one half, and a key, to the other, which is
then the first. The rounds with the keys in the opposite order undo each other, whatever
the function is (`rounds_reverse`).
-/

namespace Nas.Lib.Feistel

variable {w : Nat} (f : BitVec w → BitVec w)

def round (s : BitVec w × BitVec w) (k : BitVec w) : BitVec w × BitVec w := (s.2 ^^^ (f s.1 ^^^ k), s.1)

def rounds (s : BitVec w × BitVec w) (ks : List (BitVec w)) : BitVec w × BitVec w := ks.foldl (round f) s

theorem xor_xor_cancel (a b : BitVec w) : a ^^^ b ^^^ b = a := by
  rw [BitVec.xor_assoc, BitVec.xor_self, BitVec.xor_zero]

theorem round_swap_round (s : BitVec w × BitVec w) (k : BitVec w) : round f (round f s k).swap k = s.swap := by
  simp only [round, Prod.swap_prod_mk, xor_xor_cancel]
  rfl

theorem rounds_reverse (s : BitVec w × BitVec w) (ks : List (BitVec w)) :
    rounds f (rounds f s ks).swap ks.reverse = s.swap := by
  induction ks generalizing s with
  | nil => rfl
  | cons k ks ih =>
    rw [List.reverse_cons, rounds, List.foldl_append]
    show round f (rounds f (rounds f (round f s k) ks).swap ks.reverse) k = s.swap
    rw [ih, round_swap_round]

end Nas.Lib.Feistel
