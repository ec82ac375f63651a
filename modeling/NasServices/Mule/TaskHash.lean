import NasServices.Lib.CBuffer

/-!
# The hash of an ed2k task

A file is known by a key of 16 bytes. `MuleDownloadTaskImpl::GetTaskHash` makes a string of it: it takes
the key for a C string, which it ends at the first zero byte, in the key or behind it. Two keys can
have the same string then, and the string can have bytes that are not of the key.
`getTaskHash_identifies_iff` says exactly for which keys the string does what it is for.
-/

namespace Nas.Mule

open Lib

structure LinkMemory where
  hashKey : CBuffer 16
  behind : List UInt8

namespace LinkMemory

variable (x y : LinkMemory)

def bytes : List UInt8 := x.hashKey.bytes ++ x.behind

def strlen (bytes : List UInt8) : Option Nat :=
  if 0 ∈ bytes then some (bytes.takeWhile (· ≠ 0)).length else none

def getTaskHash : Option (List UInt8) := (strlen x.bytes).map fun length => x.bytes.take length

def bytesRead : Option Nat := (strlen x.bytes).map (· + 1)

/-- What `IsTaskExisted` compares of two tasks with different urls. -/
def isSameHash (hash hash' : List UInt8) : Bool := !hash.isEmpty && !hash'.isEmpty && hash == hash'

/-- Only the keys are read, and the strings are the same for the same file only. -/
structure Identifies : Prop where
  readsKey : (∃ n ∈ x.bytesRead, n ≤ 16) ∧ ∃ n ∈ y.bytesRead, n ≤ 16
  hash_eq_iff : x.getTaskHash = y.getTaskHash ↔ x.hashKey = y.hashKey
  isTaskExisted : ∀ h ∈ x.getTaskHash, ∀ h' ∈ y.getTaskHash, isSameHash h h' = true → x.hashKey = y.hashKey

variable {x y}

theorem strlen_bytes (h : x.hashKey.Terminated) : strlen x.bytes = some x.hashKey.text.length := by
  have hmem : 0 ∈ x.bytes := List.mem_append_left _ h
  have hstop : ¬ x.hashKey.text.length = x.hashKey.bytes.length := by
    rw [x.hashKey.length_eq]
    exact (CBuffer.length_text_lt h).ne
  rw [strlen, if_pos hmem, bytes, List.takeWhile_append]
  exact congrArg (fun l => some (List.length l)) (if_neg hstop)

theorem getTaskHash_of_terminated (h : x.hashKey.Terminated) : x.getTaskHash = some x.hashKey.text := by
  have hstart : x.hashKey.text <+: x.bytes :=
    (List.takeWhile_prefix _).trans (List.prefix_append x.hashKey.bytes x.behind)
  rw [getTaskHash, strlen_bytes h, Option.map_some, ← List.prefix_iff_eq_take.mp hstart]

/-- Without a zero in the key, `strlen` reads on. -/
theorem le_strlen (h : ¬ x.hashKey.Terminated) {length : Nat} (hlength : length ∈ strlen x.bytes) :
    16 ≤ length := by
  have hall : x.hashKey.bytes.takeWhile (· ≠ 0) = x.hashKey.bytes := CBuffer.text_of_not_terminated h
  unfold strlen at hlength
  split at hlength
  · rw [← Option.some.inj hlength, bytes, List.takeWhile_append, if_pos (by rw [hall]), List.length_append,
      x.hashKey.length_eq]
    exact Nat.le_add_right _ _
  · cases hlength

theorem readsKey_iff : (∃ n ∈ x.bytesRead, n ≤ 16) ↔ x.hashKey.Terminated := by
  constructor
  · rintro ⟨n, hn, hle⟩
    obtain ⟨length, hlength, rfl⟩ := Option.map_eq_some_iff.mp hn
    by_contra hterm
    have := le_strlen hterm hlength
    omega
  · intro hterm
    refine ⟨x.hashKey.text.length + 1, ?_, CBuffer.length_text_lt hterm⟩
    rw [bytesRead, strlen_bytes hterm]
    rfl

theorem getTaskHash_identifies_iff (x y : LinkMemory) :
    Identifies x y ↔ x.hashKey.Terminated ∧ y.hashKey.Terminated ∧
      (x.hashKey = y.hashKey ∨ x.hashKey.DiffersBeforeNul y.hashKey) := by
  constructor
  · rintro ⟨⟨hx, hy⟩, heq, -⟩
    have hx := readsKey_iff.mp hx
    have hy := readsKey_iff.mp hy
    refine ⟨hx, hy, or_iff_not_imp_left.mpr fun hne => CBuffer.text_ne_iff.mp fun htext => hne ?_⟩
    apply heq.mp
    rw [getTaskHash_of_terminated hx, getTaskHash_of_terminated hy, htext]
  · rintro ⟨hx, hy, hkeys⟩
    have hhash : x.getTaskHash = y.getTaskHash ↔ x.hashKey = y.hashKey := by
      rw [getTaskHash_of_terminated hx, getTaskHash_of_terminated hy, Option.some.injEq]
      refine ⟨fun htext => hkeys.resolve_right fun hdiff => ?_, fun h => by rw [h]⟩
      exact CBuffer.text_ne_iff.mpr hdiff htext
    refine ⟨⟨readsKey_iff.mpr hx, readsKey_iff.mpr hy⟩, hhash, fun h hh h' hh' hsame => hhash.mp ?_⟩
    have heq : h = h' := by
      simp only [isSameHash, Bool.and_eq_true, beq_iff_eq] at hsame
      exact hsame.2
    rw [show x.getTaskHash = some h from hh, show y.getTaskHash = some h' from hh', heq]

/-- Two files that are taken for one, and a key from which `strlen` reads 18 bytes. -/
theorem different_keys_same_hash :
    let key (b : UInt8) : CBuffer 16 := ⟨[7, 0, b, 0, 0, 0, 0, 0, 0, 0, 0, 0, 0, 0, 0, 0], rfl⟩
    let full : CBuffer 16 := ⟨List.replicate 16 7, rfl⟩
    key 1 ≠ key 2 ∧
    (getTaskHash ⟨key 1, []⟩ = some [7] ∧ getTaskHash ⟨key 2, []⟩ = some [7] ∧ isSameHash [7] [7] = true) ∧
    bytesRead ⟨full, [1, 0]⟩ = some 18 := by
  refine ⟨fun h => ?_, ⟨by decide, by decide, by decide⟩, by decide⟩
  have hbytes := congrArg CBuffer.bytes h
  simp at hbytes

end LinkMemory

end Nas.Mule
