import Mathlib.Logic.Function.Basic
import Mathlib.Data.List.Basic

/-!
# Files and directories

A file system as far as it matters which nodes exist: a node is absent, a directory or a file.
The operations are given what the system permits at each node, and report whether they have
succeeded.

`Adds made fs fs'` says that the nodes `made` have come into being and nothing else has changed.
There is one lemma for each operation that makes nodes (`mkdirs_adds`, `createFile_adds`,
`createFile_removeNode_adds`) and `Adds.trans` for one after the other; `foldl_removeNode` says what
is left after deletions.
-/

namespace Nas.Lib.FileTree

inductive Kind
  | dir
  | file
  deriving DecidableEq, Repr

end FileTree

abbrev FileTree (N : Type*) := N → Option FileTree.Kind

namespace FileTree

variable {N : Type*} [DecidableEq N] {may : N → Bool} {fs fs' fs'' : FileTree N} {n : N} {made made' : List N}

/-- Make the missing directories of a path, given from the top, and stop at the first that cannot be
made: it is not permitted, or there is a file in its place. -/
def mkdirs (may : N → Bool) : FileTree N → List N → FileTree N × Bool
  | fs, [] => (fs, true)
  | fs, p :: ps =>
    match fs p with
    | some .dir => mkdirs may fs ps
    | some .file => (fs, false)
    | none => if may p then mkdirs may (Function.update fs p (some .dir)) ps else (fs, false)

def madeDirs (may : N → Bool) : FileTree N → List N → List N
  | _, [] => []
  | fs, p :: ps =>
    match fs p with
    | some .dir => madeDirs may fs ps
    | some .file => []
    | none => if may p then p :: madeDirs may (Function.update fs p (some .dir)) ps else []

def createFile (may : N → Bool) (fs : FileTree N) (n : N) : FileTree N × Bool :=
  match fs n with
  | some .dir => (fs, false)
  | some .file => (fs, may n)
  | none => if may n then (Function.update fs n (some .file), true) else (fs, false)

def removeNode (may : N → Bool) (fs : FileTree N) (n : N) : FileTree N :=
  if (fs n).isSome ∧ may n then Function.update fs n none else fs

/-! ## Nodes that are added -/

structure Adds (made : List N) (fs fs' : FileTree N) : Prop where
  none_iff : ∀ n, fs' n = none ↔ fs n = none ∧ n ∉ made
  kept : ∀ n k, fs n = some k → fs' n = some k
  absent : ∀ n ∈ made, fs n = none

omit [DecidableEq N] in
theorem Adds.refl (fs : FileTree N) : Adds [] fs fs where
  none_iff _ := (and_iff_left List.not_mem_nil).symm
  kept _ _ h := h
  absent _ h := nomatch h

omit [DecidableEq N] in
theorem Adds.trans (h : Adds made fs fs') (h' : Adds made' fs' fs'') : Adds (made ++ made') fs fs'' where
  none_iff n := by rw [h'.none_iff, h.none_iff, List.mem_append, not_or, and_assoc]
  kept n k hk := h'.kept n k (h.kept n k hk)
  absent n hn := by
    rcases List.mem_append.mp hn with hn | hn
    · exact h.absent n hn
    · exact ((h.none_iff n).mp (h'.absent n hn)).1

theorem adds_update (hn : fs n = none) (k : Kind) : Adds [n] fs (Function.update fs n (some k)) where
  none_iff j := by
    by_cases hj : j = n
    · subst hj
      simp
    · simp [hj]
  kept j i hi := by
    have hj : j ≠ n := by
      rintro rfl
      rw [hn] at hi
      cases hi
    rwa [Function.update_of_ne hj]
  absent j hj := List.mem_singleton.mp hj ▸ hn

theorem mkdirs_adds (may : N → Bool) (fs : FileTree N) (ps : List N) :
    Adds (madeDirs may fs ps) fs (mkdirs may fs ps).1 := by
  induction ps generalizing fs with
  | nil => exact .refl fs
  | cons p ps ih =>
    unfold mkdirs madeDirs
    cases hp : fs p with
    | none =>
      by_cases hmay : may p = true
      · rw [if_pos hmay, if_pos hmay]
        exact (adds_update hp .dir).trans (ih _)
      · rw [if_neg hmay, if_neg hmay]
        exact .refl fs
    | some k =>
      cases k with
      | dir => exact ih fs
      | file => exact .refl fs

theorem madeDirs_subset (may : N → Bool) (fs : FileTree N) (ps : List N) : madeDirs may fs ps ⊆ ps := by
  induction ps generalizing fs with
  | nil => exact List.nil_subset _
  | cons p ps ih =>
    unfold madeDirs
    split
    · exact List.Subset.trans (ih fs) (List.subset_cons_self p ps)
    · exact List.nil_subset _
    · split
      · exact List.cons_subset_cons p (ih _)
      · exact List.nil_subset _

theorem createFile_adds (may : N → Bool) (hn : fs n = none) :
    (createFile may fs n).2 = may n ∧ Adds (if may n then [n] else []) fs (createFile may fs n).1 := by
  unfold createFile
  rw [hn]
  cases may n with
  | false => exact ⟨rfl, .refl fs⟩
  | true => exact ⟨rfl, adds_update hn .file⟩

/-- A file that is made and deleted again is left only if it may not be deleted. -/
theorem createFile_removeNode_adds (mayCreate mayRemove : N → Bool) (hn : fs n = none) :
    Adds (if mayCreate n && !mayRemove n then [n] else []) fs
      (removeNode mayRemove (createFile mayCreate fs n).1 n) := by
  unfold createFile
  rw [hn]
  cases hcreate : mayCreate n with
  | false =>
    have hsame : removeNode mayRemove fs n = fs := by simp [removeNode, hn]
    simpa [hsame] using Adds.refl fs
  | true =>
    cases hremove : mayRemove n with
    | false =>
      have hsame : removeNode mayRemove (Function.update fs n (some .file)) n =
          Function.update fs n (some .file) := by simp [removeNode, hremove]
      simpa [hsame] using adds_update hn .file
    | true =>
      have hback : removeNode mayRemove (Function.update fs n (some .file)) n = fs := by
        simp [removeNode, hremove, Function.update_idem, ← hn, Function.update_eq_self]
      simpa [hback] using Adds.refl fs

theorem removeNode_apply (may : N → Bool) (fs : FileTree N) (n j : N) :
    removeNode may fs n j = if j = n ∧ may n = true then none else fs j := by
  unfold removeNode
  by_cases hj : j = n
  · subst hj
    cases hfs : fs j with
    | none => simp [hfs]
    | some k =>
      cases may j <;> simp [hfs]
  · split <;> simp [hj]

theorem foldl_removeNode (may : N → Bool) (ns : List N) (fs : FileTree N) (j : N) :
    ns.foldl (removeNode may) fs j = if j ∈ ns ∧ may j = true then none else fs j := by
  induction ns generalizing fs with
  | nil => simp
  | cons n ns ih =>
    rw [List.foldl_cons, ih, removeNode_apply]
    by_cases hj : j = n
    · subst hj
      cases may j <;> simp
    · simp [hj]

end FileTree

end Nas.Lib
