import NasServices.NetBt.FileListTree

/-!
# The sizes of the directories of a file tree

Each insertion adds the size of the file to every directory on its path, through the
sizes that `AddToFileListTree` returns (`sizeAt_inserted`). After all files the size of
a node is the sum over the files whose path goes through it (`size_of_mem_nodes`),
also for the directories of empty files, which are not kept.
-/

namespace Nas.NetBt

open Lib LexicalPath

def sizeAt (p : List Text) (ts : List FileNode) : Int := ((NamedTree.lookup p ts).map (·.size)).getD 0

section

variable {e : FileItem} {name k : Text} {rest path p : List Text} {ts : List FileNode}

@[simp] theorem sizeAt_nil (p : List Text) : sizeAt p [] = 0 := by
  rw [sizeAt, NamedTree.lookup_nil]
  rfl

/-- A directory that is not there counts as a new one. -/
theorem sizeAt_cons (name : Text) (p : List Text) (ts : List FileNode) :
    sizeAt (name :: p) ts =
      if p = [] then (directoryAt ts name).label.size else sizeAt p (directoryAt ts name).children := by
  rw [sizeAt, NamedTree.lookup_cons, directoryAt]
  cases Keyed.find NamedTree.name ts name with
  | none => simp [directoryNode]
  | some t => by_cases hp : p = [] <;> simp [hp, sizeAt]

theorem directoryAt_inserted_ne (h : k ≠ name) :
    directoryAt (inserted e (name :: rest) ts) k = directoryAt ts k := by
  rw [directoryAt, find_inserted_ne h, directoryAt]

theorem directoryAt_inserted_self (hrest : rest ≠ []) :
    directoryAt (inserted e (name :: rest) ts) name =
      if 0 < e.fileSize then
        grown (inserted e rest (directoryAt ts name).children) e.fileSize (directoryAt ts name)
      else directoryAt ts name := by
  rw [directoryAt, find_inserted_self hrest, Option.getD_some]

theorem directoryAt_inserted_leaf (h : Fits [name] ts) :
    directoryAt ts name = directoryNode name ∧ directoryAt (inserted e [name] ts) name = e.node name := by
  have hnone := h.find_eq_none
  have hself : Keyed.find NamedTree.name (inserted e [name] ts) name =
      some ((Keyed.find NamedTree.name ts name).getD (e.node name)) :=
    Keyed.find_add_self ts (e.node name)
  rw [hnone] at hself
  rw [directoryAt, hnone, directoryAt, hself]
  exact ⟨rfl, rfl⟩

def HasRoom (ts : List FileNode) (size : Int) : Prop :=
  ∀ p, 0 ≤ sizeAt p ts ∧ sizeAt p ts + size < 2 ^ 63

theorem HasRoom.directoryAt (h : HasRoom ts e.fileSize) (name : Text) :
    HasRoom (directoryAt ts name).children e.fileSize := by
  intro p
  by_cases hp : p = []
  · subst hp
    exact h []
  · have hcons := h (name :: p)
    rwa [sizeAt_cons, if_neg hp] at hcons

theorem sizeAt_inserted (hsize : 0 ≤ e.fileSize) (hroom : HasRoom ts e.fileSize) (h : Fits path ts)
    (hp : p ≠ []) :
    sizeAt p (inserted e path ts) = sizeAt p ts + if p <+: path then e.fileSize else 0 := by
  induction path generalizing p ts with
  | nil => simp [inserted, hp]
  | cons name rest ih =>
    obtain ⟨k, p, rfl⟩ := List.exists_cons_of_ne_nil hp
    by_cases hk : k = name
    · subst hk
      rw [sizeAt_cons, sizeAt_cons, if_congr (List.prefix_cons_inj k) rfl rfl]
      by_cases hrest : rest = []
      · subst hrest
        obtain ⟨hold, hnew⟩ := directoryAt_inserted_leaf (e := e) h
        rw [hold, hnew]
        by_cases hp : p = [] <;> simp [hp, FileItem.node, FileItem.object, directoryNode]
      · rw [directoryAt_inserted_self hrest]
        by_cases hpos : 0 < e.fileSize
        · rw [if_pos hpos]
          by_cases hp : p = []
          · -- no overflow, since all files together have room
            have hdir := hroom [k]
            rw [sizeAt_cons, if_pos rfl] at hdir
            subst hp
            rw [if_pos rfl, if_pos rfl, if_pos List.nil_prefix]
            exact Int.bmod_eq_of_le_mul_two (by omega) (by omega)
          · rw [if_neg hp, if_neg hp]
            exact ih (hroom.directoryAt k) h.directoryAt.2 hp
        · have hzero : e.fileSize = 0 := by omega
          rw [if_neg hpos, hzero]
          simp
    · have hstart : ¬ k :: p <+: name :: rest := by simp [List.cons_prefix_cons, hk]
      rw [sizeAt_cons, sizeAt_cons, directoryAt_inserted_ne hk, if_neg hstart, Int.add_zero]

end

/-! ## All files -/

section

variable {getFileType : Text → Int} {handle : Option TorrentHandle} {ts : List FileNode}
  {fs : List TorrentFile} {p : List Text}

def sizeThrough (p : List Text) (fs : List TorrentFile) : Int :=
  ((fs.filter fun f => p <+: pathParts f.path).map (·.size)).sum

theorem sizeThrough_cons (p : List Text) (f : TorrentFile) (fs : List TorrentFile) :
    sizeThrough p (f :: fs) = (if p <+: pathParts f.path then f.size else 0) + sizeThrough p fs := by
  by_cases hf : p <+: pathParts f.path <;> simp [sizeThrough, hf]

theorem sum_sizes_nonneg (h : ∀ f ∈ fs, 0 ≤ f.size) : 0 ≤ (fs.map (·.size)).sum := by
  induction fs with
  | nil => simp
  | cons f fs ih =>
    rw [List.forall_mem_cons] at h
    rw [List.map_cons, List.sum_cons]
    have := ih h.2
    omega

theorem sizeAt_addFiles (h : Ready ts fs) (hsizes : ∀ f ∈ fs, 0 ≤ f.size)
    (hroom : HasRoom ts (fs.map (·.size)).sum) (hp : p ≠ []) (i : Nat) :
    sizeAt p (addFiles getFileType handle ts i fs) = sizeAt p ts + sizeThrough p fs := by
  induction fs generalizing ts i with
  | nil => simp [addFiles, sizeThrough]
  | cons f fs ih =>
    rw [List.forall_mem_cons] at hsizes
    have hrest := sum_sizes_nonneg hsizes.2
    simp only [List.map_cons, List.sum_cons] at hroom
    have hone : HasRoom ts f.size := fun q => ⟨(hroom q).1, by have := (hroom q).2; omega⟩
    have hstep {q : List Text} (hq : q ≠ []) :
        sizeAt q (inserted (fileItem getFileType handle i f) (pathParts f.path) ts) =
          sizeAt q ts + if q <+: pathParts f.path then f.size else 0 :=
      sizeAt_inserted hsizes.1 hone (h.fits f List.mem_cons_self) hq
    have hnext : HasRoom (inserted (fileItem getFileType handle i f) (pathParts f.path) ts)
        (fs.map (·.size)).sum := by
      intro q
      have hq := hroom q
      by_cases hnil : q = []
      · subst hnil
        have hzero (us : List FileNode) : sizeAt [] us = 0 := rfl
        rw [hzero] at hq ⊢
        omega
      · rw [hstep hnil]
        split <;> omega
    rw [addFiles_cons h, ih (h.step _) hsizes.2 hnext, hstep hp, sizeThrough_cons, Int.add_assoc]

end

/-- The size at every node, directory or file, is the sum over the files whose path goes through
it. -/
theorem size_of_mem_nodes (getFileType : Text → Int) (handle : Option TorrentHandle)
    {fs : List TorrentFile} (hfree : PrefixFree fs) (hsizes : ∀ f ∈ fs, 0 ≤ f.size)
    (htotal : (fs.map (·.size)).sum < 2 ^ 63) {p : List Text} {l : ChildObject}
    (h : (p, l) ∈ NamedTree.nodes (addFiles getFileType handle [] 0 fs)) : l.size = sizeThrough p fs := by
  have hready : Ready (addFiles getFileType handle [] 0 fs) [] := ready_addFiles (ready_nil hfree) 0
  have hroom : HasRoom [] (fs.map (·.size)).sum := fun q => by
    rw [sizeAt_nil]
    omega
  have hlookup : sizeAt p (addFiles getFileType handle [] 0 fs) = l.size := by
    rw [sizeAt, NamedTree.lookup_of_mem_nodes hready.distinct h]
    rfl
  rw [← hlookup, sizeAt_addFiles (ready_nil hfree) hsizes hroom (NamedTree.ne_nil_of_mem_nodes h),
    sizeAt_nil, Int.zero_add]

/-- Two files in a folder and one beside it. -/
theorem size_of_mem_nodes_folder :
    let fs : List TorrentFile := [⟨"d/a".toList, 3⟩, ⟨"e".toList, 4⟩, ⟨"d/b".toList, 5⟩]
    (["d".toList], (⟨-1, 8, none, true⟩ : ChildObject)) ∈ NamedTree.nodes (addFiles (fun _ => 0) none [] 0 fs) ∧
      (8 : Int) = sizeThrough ["d".toList] fs := by
  have hmem : (["d".toList], (⟨-1, 8, none, true⟩ : ChildObject)) ∈ NamedTree.nodes
      (addFiles (fun _ => 0) none [] 0 [⟨"d/a".toList, 3⟩, ⟨"e".toList, 4⟩, ⟨"d/b".toList, 5⟩]) := by
    decide +kernel
  refine ⟨hmem, size_of_mem_nodes (fun _ => 0) none ?_ (by decide +kernel) (by decide +kernel) hmem⟩
  unfold PrefixFree Incompatible
  decide +kernel

end Nas.NetBt
