import Mathlib.Data.List.GetD
import Mathlib.Data.Vector.Basic
import Mathlib.Tactic.Common

/-!
# Code that can fault

`Checked α` is the result of code that reads and writes arrays and counts in an `int`: a value, or
the fault that ends it. A buffer is a list of fixed length; `read`, `readN` and `writeN` fault outside
it, `getAt` and `setAt` outside an array, `int` when a number is not an `int`, and `rem` when it
divides by zero.

`Returns r post` says that the code returns, with a value that has a property. `Returns.bind` takes
code step by step and `returns_foldlM_range` is the rule for a counting loop. Each primitive
has an equation for the case that it does not fault.
-/

namespace Nas.Lib

inductive Fault
  | outOfBounds
  | divisionByZero
  | overflow
  deriving DecidableEq, Repr

abbrev Checked (α : Type) := Except Fault α

namespace Checked

variable {α β σ : Type}

/-! ## Code that returns -/

def Returns (r : Checked α) (post : α → Prop) : Prop := ∃ a, r = .ok a ∧ post a

@[simp] theorem ok_bind (a : α) (f : α → Checked β) : ((.ok a : Checked α) >>= f) = f a := rfl

theorem bind_eq_ok_iff {r : Checked α} {f : α → Checked β} {b : β} :
    (r >>= f) = .ok b ↔ ∃ a, r = .ok a ∧ f a = .ok b := by
  cases r with
  | error e => exact iff_of_false nofun fun ⟨_, h, _⟩ => nomatch h
  | ok a => simp

theorem returns_ok {a : α} {post : α → Prop} (h : post a) : Returns (.ok a) post := ⟨a, rfl, h⟩

theorem Returns.bind {r : Checked α} {f : α → Checked β} {mid : α → Prop} {post : β → Prop}
    (hr : Returns r mid) (hf : ∀ a, mid a → Returns (f a) post) : Returns (r >>= f) post := by
  obtain ⟨a, rfl, ha⟩ := hr
  exact hf a ha

theorem Returns.mono {r : Checked α} {post post' : α → Prop} (hr : Returns r post)
    (h : ∀ a, post a → post' a) : Returns r post' := by
  obtain ⟨a, hra, ha⟩ := hr
  exact ⟨a, hra, h a ha⟩

/-- A counting loop keeps what each round keeps, which may speak of the number of rounds. -/
theorem returns_foldlM_range {f : σ → Nat → Checked σ} (inv : Nat → σ → Prop) {n : Nat} {s : σ}
    (h0 : inv 0 s) (hstep : ∀ k < n, ∀ t, inv k t → Returns (f t k) (inv (k + 1))) :
    Returns ((List.range n).foldlM f s) (inv n) := by
  induction n with
  | zero => exact returns_ok h0
  | succ n ih =>
    rw [List.range_succ, List.foldlM_append]
    refine (ih fun k hk => hstep k (by omega)).bind fun t ht => ?_
    rw [List.foldlM_cons]
    exact (hstep n (by omega) t ht).bind fun u hu => returns_ok hu

/-- A loop whose rounds do not fault does what the loop without checks does. -/
theorem foldlM_eq_foldl {f : σ → α → Checked σ} {g : σ → α → σ} {l : List α}
    (h : ∀ s, ∀ a ∈ l, f s a = .ok (g s a)) (s : σ) : l.foldlM f s = .ok (l.foldl g s) := by
  induction l generalizing s with
  | nil => rfl
  | cons a l ih =>
    rw [List.foldlM_cons, h s a List.mem_cons_self, ok_bind, List.foldl_cons]
    exact ih (fun t b hb => h t b (List.mem_cons_of_mem a hb)) _

/-! ## Numbers -/

def int (n : Int) : Checked Int := if -2 ^ 31 ≤ n ∧ n < 2 ^ 31 then .ok n else .error .overflow

def rem (a b : Int) : Checked Int :=
  if b = 0 then .error .divisionByZero
  else if a = -2 ^ 31 ∧ b = -1 then .error .overflow
  else .ok (a.tmod b)

theorem int_eq {n : Int} (hlo : -2 ^ 31 ≤ n) (hhi : n < 2 ^ 31) : int n = .ok n := if_pos ⟨hlo, hhi⟩

theorem rem_eq {a b : Int} (ha : 0 ≤ a) (hb : b ≠ 0) : rem a b = .ok (a.tmod b) := by
  rw [rem, if_neg hb, if_neg (by omega)]

/-! ## Buffers -/

def read (buf : List α) (i : Nat) : Checked α :=
  match buf[i]? with
  | some a => .ok a
  | none => .error .outOfBounds

def readInt (buf : List α) (i : Int) : Checked α := if i < 0 then .error .outOfBounds else read buf i.toNat

def readN (buf : List α) (i n : Nat) : Checked (List α) :=
  if i + n ≤ buf.length then .ok ((buf.drop i).take n) else .error .outOfBounds

def writeN (buf : List α) (i : Nat) (src : List α) : Checked (List α) :=
  if i + src.length ≤ buf.length then .ok (buf.take i ++ src ++ buf.drop (i + src.length))
  else .error .outOfBounds

theorem read_eq (d : α) {buf : List α} {i : Nat} (h : i < buf.length) : read buf i = .ok (buf.getD i d) := by
  rw [read, List.getElem?_eq_getElem h, List.getD_eq_getElem _ _ h]

theorem readInt_eq (d : α) {buf : List α} {i : Int} (h0 : 0 ≤ i) (h : i < buf.length) :
    readInt buf i = .ok (buf.getD i.toNat d) := by
  rw [readInt, if_neg (by omega), read_eq d (by omega)]

theorem readN_eq {buf : List α} {i n : Nat} (h : i + n ≤ buf.length) :
    readN buf i n = .ok ((buf.drop i).take n) := if_pos h

theorem writeN_eq {buf src : List α} {i : Nat} (h : i + src.length ≤ buf.length) :
    writeN buf i src = .ok (buf.take i ++ src ++ buf.drop (i + src.length)) := if_pos h

theorem length_overwrite {buf src : List α} {i : Nat} (h : i + src.length ≤ buf.length) :
    (buf.take i ++ src ++ buf.drop (i + src.length)).length = buf.length := by
  rw [List.length_append, List.length_append, List.length_take, List.length_drop]
  omega

/-- What is before the overwritten part and the part of it up to `k`. -/
theorem take_overwrite {buf src : List α} {i : Nat} (h : i + src.length ≤ buf.length) {k : Nat}
    (hk : k ≤ src.length) :
    (buf.take i ++ src ++ buf.drop (i + src.length)).take (i + k) = buf.take i ++ src.take k := by
  have hi : (buf.take i).length = i := by
    rw [List.length_take]
    omega
  rw [List.append_assoc, List.take_append, hi, List.take_of_length_le (by omega), Nat.add_sub_cancel_left,
    List.take_append_of_le_length hk]

section Segments

variable {i : Nat} {front mid post : List α}

theorem read_append (hi : front.length = i) (a : α) : read (front ++ a :: post) i = .ok a := by
  rw [read, ← hi, List.getElem?_append_right (Nat.le_refl _), Nat.sub_self]
  rfl

theorem writeN_append (hi : front.length = i) {src : List α} (hlen : src.length = mid.length) :
    writeN (front ++ (mid ++ post)) i src = .ok (front ++ (src ++ post)) := by
  have hle : i + src.length ≤ (front ++ (mid ++ post)).length := by
    rw [List.length_append, List.length_append]
    omega
  rw [writeN_eq hle, ← hi, List.take_left, hlen, ← List.drop_drop, List.drop_left, List.drop_left,
    List.append_assoc]

end Segments

/-! ## Arrays -/

section Arrays

variable {n : Nat}

def getAt (v : Vector α n) (i : Nat) : Checked α := if h : i < n then .ok (v.get ⟨i, h⟩) else .error .outOfBounds

def setAt (v : Vector α n) (i : Nat) (a : α) : Checked (Vector α n) :=
  if h : i < n then .ok (v.set i a h) else .error .outOfBounds

theorem getAt_eq (v : Vector α n) {i : Nat} (h : i < n) : getAt v i = .ok (v.get ⟨i, h⟩) := dif_pos h

theorem setAt_eq (v : Vector α n) {i : Nat} (h : i < n) (a : α) : setAt v i a = .ok (v.setIfInBounds i a) := by
  rw [setAt, dif_pos h]
  exact congrArg _ (Vector.ext fun j hj => by simp [Vector.getElem_set, Vector.getElem_setIfInBounds])

end Arrays

end Checked

end Nas.Lib
