import Mathlib.Data.List.AList

/-!
# Reference counts of shared downloads

`TaskRefCount` counts, for every task hash, the tasks of all users that share
one download. `release` runs its callback with `true` when the count reaches
zero. The entry is removed only if that callback succeeds, but the count has
been taken down before it runs.
-/

namespace Nas.Download

abbrev TaskRefCount := AList fun _ : String => Int

namespace TaskRefCount

def addRef (r : TaskRefCount) (taskHash : String) : TaskRefCount :=
  match r.lookup taskHash with
  | some n => r.insert taskHash (n + 1)
  | none => r.insert taskHash 1

/-- `Release`. The callback is told whether this was the last reference, and
returns what it did along with its success. -/
def release {α : Type*} (r : TaskRefCount) (taskHash : String) (callback : Bool → α × Bool) :
    TaskRefCount × α × Bool :=
  match r.lookup taskHash with
  | some n =>
    let r := r.insert taskHash (n - 1)
    if n - 1 ≤ 0 then
      let (x, ret) := callback true
      (if ret then r.erase taskHash else r, x, ret)
    else (r, callback false)
  | none => (r, callback false)

def count (r : TaskRefCount) (taskHash : String) : Int := (r.lookup taskHash).getD 0

def isLast (r : TaskRefCount) (taskHash : String) : Bool :=
  match r.lookup taskHash with
  | some n => decide (n - 1 ≤ 0)
  | none => false

/-! ## Exact counts -/

def tally (n : Nat) : Option Int := if n = 0 then none else some n

@[simp] theorem tally_zero : tally 0 = none := rfl

theorem tally_of_pos {n : Nat} (h : 0 < n) : tally n = some (n : Int) := if_neg (by omega)

theorem count_of_tally {r : TaskRefCount} {taskHash : String} {n : Nat}
    (h : r.lookup taskHash = tally n) : r.count taskHash = n := by
  unfold count
  rw [h]
  rcases Nat.eq_zero_or_pos n with rfl | hn
  · rfl
  · rw [tally_of_pos hn]
    rfl

theorem lookup_addRef {r : TaskRefCount} {taskHash : String} {n : Nat}
    (h : r.lookup taskHash = tally n) : (r.addRef taskHash).lookup taskHash = tally (n + 1) := by
  unfold addRef
  rcases Nat.eq_zero_or_pos n with rfl | hn
  · rw [h, tally_zero]
    exact AList.lookup_insert _
  · rw [h, tally_of_pos hn, tally_of_pos (Nat.succ_pos n)]
    dsimp only
    rw [AList.lookup_insert]
    push_cast
    rfl

theorem lookup_addRef_ne (r : TaskRefCount) {taskHash k : String} (hk : k ≠ taskHash) :
    (r.addRef taskHash).lookup k = r.lookup k := by
  unfold addRef
  split <;> exact AList.lookup_insert_ne hk

section release

variable {α : Type*} {r : TaskRefCount} {taskHash : String} (callback : Bool → α × Bool)

theorem release_snd_eq (r : TaskRefCount) (taskHash : String) :
    (r.release taskHash callback).2 = callback (r.isLast taskHash) := by
  unfold release isLast
  rcases r.lookup taskHash with _ | n
  · rfl
  · dsimp only
    split
    · rename_i hlast
      rw [decide_eq_true hlast]
    · rename_i hlast
      rw [decide_eq_false hlast]

theorem release_snd (r : TaskRefCount) (taskHash : String) :
    ∃ realDelete, (r.release taskHash callback).2 = callback realDelete := ⟨_, release_snd_eq callback r taskHash⟩

/-- The last reference: the entry goes if the callback succeeds. -/
theorem release_last (h : r.lookup taskHash = tally 1) (hret : (callback true).2 = true) :
    r.release taskHash callback = ((r.insert taskHash 0).erase taskHash, callback true) := by
  rcases hcb : callback true with ⟨x, ret⟩
  rw [hcb] at hret
  obtain rfl : ret = true := hret
  unfold release
  rw [h, tally_of_pos Nat.one_pos]
  simp [hcb]

/-- A shared hash loses one reference and the callback is told that others remain. -/
theorem release_shared {n : Nat} (h : r.lookup taskHash = tally n) (hn : 1 < n) :
    r.release taskHash callback = (r.insert taskHash ((n - 1 : Nat) : Int), callback false) := by
  unfold release
  rw [h, tally_of_pos (by omega)]
  dsimp only
  have hcast : ((n - 1 : Nat) : Int) = (n : Int) - 1 := by omega
  rw [if_neg (by omega), hcast]

end release

end TaskRefCount

end Nas.Download
