import Mathlib.Algebra.Order.Ring.Int
import Mathlib.Data.List.Pairwise
import Mathlib.Data.Rat.Defs
import NasServices.Lib.LexicalPath
import NasServices.Lib.NamedTree

/-!
# The file tree of a torrent

`TorrentHelper::GetTorrentList` puts the files of a torrent one after the other into a
tree, along the components of their paths. `AddToFileListTree` works on a copy of the
children of a directory, and writes it back only if the file is not empty: below the
top level an empty file is lost.

For a path that meets no file of the tree on its way (`Fits`) an insertion is the
abstract `inserted`, which adds one leaf, or none if the file is lost.
-/

namespace Nas.NetBt

open Lib LexicalPath

structure TorrentFile where
  path : Text
  size : Int
  deriving DecidableEq

structure TorrentHandle where
  progress : ℚ
  filePriorities : List Int
  filesProgress : List ℚ

structure FileItem where
  index : Int
  fileSize : Int
  fileType : Int
  isSelected : Bool
  progress : ℚ
  deriving DecidableEq

/-- The keys of an object of the tree other than its name. The numbers that are kept as text are
numbers here; the children stand in the tree. -/
structure ChildObject where
  index : Int
  size : Int
  /-- The type, the selection and the progress, of a file. -/
  file : Option (Int × Bool × ℚ)
  hasChildren : Bool
  deriving DecidableEq

abbrev FileNode := NamedTree Text ChildObject

def FileItem.object (e : FileItem) : ChildObject :=
  { index := e.index, size := e.fileSize, file := some (e.fileType, e.isSelected, e.progress)
    hasChildren := false }

def FileItem.node (e : FileItem) (name : Text) : FileNode := .node name e.object []

def directoryNode (name : Text) : FileNode :=
  .node name { index := -1, size := 0, file := none, hasChildren := true } []

/-- The object with other children, and with their size added to its own; `qint64` is signed. -/
def grown (children : List FileNode) (size : Int) (t : FileNode) : FileNode :=
  .node t.name { t.label with size := (t.label.size + size).bmod (2 ^ 64), hasChildren := true } children

def addToFileListTree (e : FileItem) : List Text → List FileNode → List FileNode × Int
  | [], parentArray => (parentArray, 0)
  | currentName :: rest, parentArray =>
    let i := parentArray.findIdx fun t => t.name = currentName
    let found := i < parentArray.length
    let array := if found then parentArray
      else parentArray ++ [if rest = [] then e.node currentName else directoryNode currentName]
    if rest = [] then (array, if found then 0 else e.fileSize)
    else
      let childObject := array[i]?.getD (directoryNode currentName)
      let (childArray, currentSize) := addToFileListTree e rest childObject.children
      -- the copy of the children is only kept here
      if 0 < currentSize then (array.set i (grown childArray currentSize childObject), currentSize)
      else (array, currentSize)

def pathParts (path : Text) : List Text := (parts path).filter (· ≠ [])

/-- The values that `GetTorrentList` passes on for the file `i`. -/
def fileItem (getFileType : Text → Int) (handle : Option TorrentHandle) (i : Nat) (f : TorrentFile) :
    FileItem :=
  { index := i, fileSize := f.size
    fileType := getFileType ((parts f.path).getLast?.getD [])
    isSelected := ((handle.bind (·.filePriorities[i]?)).map fun p => decide (0 < p)).getD true
    progress := ((handle.bind (·.filesProgress[i]?)).map (· * 100)).getD 0 }

def addFiles (getFileType : Text → Int) (handle : Option TorrentHandle) :
    List FileNode → Nat → List TorrentFile → List FileNode
  | array, _, [] => array
  | array, i, f :: fs =>
    addFiles getFileType handle
      (addToFileListTree (fileItem getFileType handle i f) (pathParts f.path) array).1 (i + 1) fs

def withoutRoot : List FileNode → List FileNode
  | [single] =>
    if single.label.hasChildren ∧ single.children ≠ [] then single.children else [single]
  | array => array

/-- The object that `GetTorrentList` writes as JSON. -/
structure TorrentList where
  taskName : Text
  taskSize : Int
  taskProgress : ℚ
  children : List FileNode

structure TorrentContent where
  fileName : Text
  hasRootFolder : Bool
  rootFolder : Text
  name : Text
  totalSize : Int
  files : List TorrentFile
  handle : Option TorrentHandle

def getTorrentList (getFileType : Text → Int) (c : TorrentContent) : TorrentList :=
  { taskName := if c.fileName ≠ [] then c.fileName else if c.hasRootFolder then c.rootFolder else c.name
    taskSize := c.totalSize
    taskProgress := (c.handle.map (·.progress)).getD 0
    children := withoutRoot (addFiles getFileType c.handle [] 0 c.files) }

/-! ## The abstract insertion -/

def inserted (e : FileItem) : List Text → List FileNode → List FileNode
  | [], ts => ts
  | name :: rest, ts =>
    if rest = [] then Keyed.add NamedTree.name ts (e.node name)
    else
      let ts := Keyed.add NamedTree.name ts (directoryNode name)
      if 0 < e.fileSize then
        Keyed.modify NamedTree.name ts name fun t => grown (inserted e rest t.children) e.fileSize t
      else ts

def Fits : List Text → List FileNode → Prop
  | [], _ => True
  | name :: rest, ts => ∀ t, Keyed.find NamedTree.name ts name = some t →
      rest ≠ [] ∧ t.label.hasChildren = true ∧ Fits rest t.children

theorem fits_nil (path : List Text) : Fits path [] := by
  cases path with
  | nil => trivial
  | cons name rest =>
    intro t ht
    cases ht

section

variable {e : FileItem} {name k : Text} {rest path : List Text} {ts : List FileNode}

@[simp] theorem name_node (e : FileItem) (name : Text) : (e.node name).name = name := rfl

@[simp] theorem name_directoryNode (name : Text) : (directoryNode name).name = name := rfl

def directoryAt (ts : List FileNode) (name : Text) : FileNode :=
  (Keyed.find NamedTree.name ts name).getD (directoryNode name)

@[simp] theorem name_directoryAt (ts : List FileNode) (name : Text) : (directoryAt ts name).name = name := by
  unfold directoryAt
  cases hfind : Keyed.find NamedTree.name ts name with
  | none => rfl
  | some t => exact Keyed.key_of_find hfind

theorem find_add_directoryNode (ts : List FileNode) (name : Text) :
    Keyed.find NamedTree.name (Keyed.add NamedTree.name ts (directoryNode name)) name =
      some (directoryAt ts name) :=
  Keyed.find_add_self ts (directoryNode name)

theorem Fits.find_eq_none (h : Fits [name] ts) : Keyed.find NamedTree.name ts name = none := by
  rw [Option.eq_none_iff_forall_ne_some]
  exact fun t ht => (h t ht).1 rfl

theorem Fits.directoryAt (h : Fits (name :: rest) ts) :
    (directoryAt ts name).label.hasChildren = true ∧ Fits rest (directoryAt ts name).children := by
  unfold NetBt.directoryAt
  cases hfind : Keyed.find NamedTree.name ts name with
  | none => exact ⟨rfl, fits_nil rest⟩
  | some t => exact (h t hfind).2

theorem distinct_directoryAt (h : NamedTree.Distinct ts) (name : Text) :
    NamedTree.Distinct (directoryAt ts name).children := by
  unfold NetBt.directoryAt
  cases hfind : Keyed.find NamedTree.name ts name with
  | none => exact .nil
  | some t => exact h.child (Keyed.mem_of_find hfind)

theorem findIdx_lt_length_iff (ts : List FileNode) (name : Text) :
    (ts.findIdx fun t => t.name = name) < ts.length ↔
      (Keyed.find NamedTree.name ts name).isSome = true := by
  rw [List.findIdx_lt_length, Keyed.find_isSome_iff]
  simp

theorem array_eq (ts : List FileNode) {t : FileNode} (ht : t.name = name) :
    (if (ts.findIdx fun t => t.name = name) < ts.length then ts else ts ++ [t]) =
      Keyed.add NamedTree.name ts t := by
  subst ht
  rw [Keyed.add]
  exact if_congr (findIdx_lt_length_iff ts t.name) rfl rfl

theorem distinct_inserted (hts : NamedTree.Distinct ts) : NamedTree.Distinct (inserted e path ts) := by
  induction path generalizing ts with
  | nil => exact hts
  | cons name rest ih =>
    have hdir : NamedTree.Distinct (Keyed.add NamedTree.name ts (directoryNode name)) := hts.add .nil
    rw [inserted]
    split
    · exact hts.add .nil
    · split
      · exact hdir.modify (f := fun t => grown (inserted e rest t.children) e.fileSize t) (fun _ => rfl)
          (fun t ht => ih (hdir.child ht)) name
      · exact hdir

theorem addToFileListTree_eq (hts : NamedTree.Distinct ts) (hpath : path ≠ []) (h : Fits path ts) :
    addToFileListTree e path ts = (inserted e path ts, e.fileSize) := by
  induction path generalizing ts with
  | nil => exact absurd rfl hpath
  | cons name rest ih =>
    by_cases hrest : rest = []
    · subst hrest
      have hnone := h.find_eq_none
      have hfound : ¬ (ts.findIdx fun t => t.name = name) < ts.length := by
        rw [findIdx_lt_length_iff, hnone]
        simp
      simp only [addToFileListTree, inserted, if_pos, if_neg hfound]
      rw [Keyed.add, name_node, hnone]
      rfl
    · have hnew : (if rest = [] then e.node name else directoryNode name) = directoryNode name :=
        if_neg hrest
      have hidx : (ts.findIdx fun t => t.name = name) =
          (Keyed.add NamedTree.name ts (directoryNode name)).findIdx fun t => t.name = name :=
        (Keyed.findIdx_add ts (directoryNode name)).symm
      have hfind := find_add_directoryNode ts name
      have hdir : NamedTree.Distinct (Keyed.add NamedTree.name ts (directoryNode name)) := hts.add .nil
      have hrec := ih (distinct_directoryAt hts name) hrest h.directoryAt.2
      simp only [addToFileListTree, hnew, array_eq ts (name_directoryNode name), if_neg hrest, inserted]
      simp only [hidx, Keyed.getElem?_findIdx, hfind, Option.getD_some, hrec]
      split
      · rw [← Keyed.set_findIdx hdir.nodup hfind]
      · rfl

theorem fst_addToFileListTree (hts : NamedTree.Distinct ts) (h : Fits path ts) :
    (addToFileListTree e path ts).1 = inserted e path ts := by
  by_cases hpath : path = []
  · subst hpath
    rfl
  · rw [addToFileListTree_eq hts hpath h]

/-! ### The nodes at the top -/

theorem find_inserted_ne (h : k ≠ name) :
    Keyed.find NamedTree.name (inserted e (name :: rest) ts) k = Keyed.find NamedTree.name ts k := by
  rw [inserted]
  split
  · exact Keyed.find_add_ne ts h
  · split
    · exact (Keyed.find_modify_ne (f := fun t => grown (inserted e rest t.children) e.fileSize t)
        (fun _ => rfl) _ h).trans (Keyed.find_add_ne ts h)
    · exact Keyed.find_add_ne ts h

theorem find_inserted_self (hrest : rest ≠ []) :
    Keyed.find NamedTree.name (inserted e (name :: rest) ts) name =
      some (if 0 < e.fileSize then
        grown (inserted e rest (directoryAt ts name).children) e.fileSize (directoryAt ts name)
      else directoryAt ts name) := by
  rw [inserted, if_neg hrest]
  split
  · refine (Keyed.find_modify_self (f := fun t => grown (inserted e rest t.children) e.fileSize t)
      (fun _ => rfl) _ name).trans ?_
    rw [find_add_directoryNode]
    rfl
  · exact find_add_directoryNode ts name

theorem mem_names_inserted :
    (∃ t ∈ inserted e (name :: rest) ts, t.name = k) ↔ k = name ∨ ∃ t ∈ ts, t.name = k := by
  rw [← Keyed.find_isSome_iff, ← Keyed.find_isSome_iff]
  by_cases hk : k = name
  · subst hk
    by_cases hrest : rest = []
    · subst hrest
      have hself : Keyed.find NamedTree.name (inserted e [k] ts) k =
          some ((Keyed.find NamedTree.name ts k).getD (e.node k)) :=
        Keyed.find_add_self ts (e.node k)
      simp [hself]
    · simp [find_inserted_self hrest]
  · rw [find_inserted_ne hk]
    simp [hk]

/-- A path keeps fitting after a file at a path that neither begins it nor begins with it. -/
theorem Fits.inserted {p q : List Text} (hpq : ¬ p <+: q) (hqp : ¬ q <+: p) (h : Fits q ts) :
    Fits q (inserted e p ts) := by
  induction p generalizing q ts with
  | nil => exact absurd (List.nil_prefix) hpq
  | cons name rest ih =>
    cases q with
    | nil => trivial
    | cons k rest' =>
      by_cases hk : k = name
      · subst hk
        rw [List.prefix_cons_inj] at hpq hqp
        have hrest : rest ≠ [] := fun hnil => hpq (hnil ▸ List.nil_prefix)
        have hrest' : rest' ≠ [] := fun hnil => hqp (hnil ▸ List.nil_prefix)
        have hdir := h.directoryAt
        intro t ht
        rw [find_inserted_self hrest] at ht
        obtain rfl := Option.some.inj ht
        refine ⟨hrest', ?_⟩
        split
        · exact ⟨rfl, ih hpq hqp hdir.2⟩
        · exact hdir
      · intro t ht
        rw [find_inserted_ne hk] at ht
        exact h t ht

/-! ### The leaves -/

def leaves (ts : List FileNode) : List (List Text × ChildObject) :=
  (NamedTree.nodes ts).filter fun x => !x.2.hasChildren

theorem leaves_append (ts us : List FileNode) : leaves (ts ++ us) = leaves ts ++ leaves us := by
  rw [leaves, NamedTree.nodes_append, List.filter_append]
  rfl

theorem leaves_cons (t : FileNode) (ts : List FileNode) : leaves (t :: ts) = leaves [t] ++ leaves ts :=
  leaves_append [t] ts

theorem leaves_singleton (t : FileNode) :
    leaves [t] = (if t.label.hasChildren then [] else [([t.name], t.label)]) ++
      (leaves t.children).map fun x => (t.name :: x.1, x.2) := by
  rw [leaves, NamedTree.nodes_cons, NamedTree.nodes_nil, List.append_nil, NamedTree.nodesOf_eq,
    List.filter_cons, List.filter_map]
  cases t.label.hasChildren <;> simp [leaves, Function.comp_def]

theorem leaves_directory {t : FileNode} (h : t.label.hasChildren = true) :
    leaves [t] = (leaves t.children).map fun x => (t.name :: x.1, x.2) := by
  rw [leaves_singleton, if_pos h, List.nil_append]

theorem leaves_grown (children : List FileNode) (size : Int) (t : FileNode) :
    leaves [grown children size t] = (leaves children).map fun x => (t.name :: x.1, x.2) :=
  leaves_directory rfl

theorem leaves_add_directoryNode (ts : List FileNode) (name : Text) :
    leaves (Keyed.add NamedTree.name ts (directoryNode name)) = leaves ts := by
  have hdir : leaves [directoryNode name] = [] := by
    rw [leaves_singleton]
    simp [directoryNode, leaves]
  rw [Keyed.add]
  split
  · rfl
  · rw [leaves_append, hdir, List.append_nil]

def Kept (path : List Text) (size : Int) : Prop := path.length = 1 ∨ (1 < path.length ∧ 0 < size)

instance (path : List Text) (size : Int) : Decidable (Kept path size) :=
  inferInstanceAs (Decidable (_ ∨ _))

theorem leaves_inserted_leaf (h : Fits [name] ts) :
    leaves (inserted e [name] ts) = leaves ts ++ [([name], e.object)] := by
  have hleaf : leaves [e.node name] = [([name], e.object)] := by
    rw [leaves_singleton]
    simp [FileItem.node, FileItem.object, leaves]
  rw [inserted, if_pos rfl, Keyed.add, name_node, h.find_eq_none]
  exact (leaves_append ts [e.node name]).trans (congrArg _ hleaf)

theorem leaves_inserted_below (hts : NamedTree.Distinct ts) (h : Fits (name :: rest) ts) (hrest : rest ≠ [])
    (hsize : 0 < e.fileSize)
    (hchild : (leaves (inserted e rest (directoryAt ts name).children)).Perm
      ((rest, e.object) :: leaves (directoryAt ts name).children)) :
    (leaves (inserted e (name :: rest) ts)).Perm ((name :: rest, e.object) :: leaves ts) := by
  have hdir : NamedTree.Distinct (Keyed.add NamedTree.name ts (directoryNode name)) := hts.add .nil
  obtain ⟨before, after, hbefore, hafter⟩ := Keyed.exists_modify_eq hdir.nodup
    (find_add_directoryNode ts name) fun t => grown (inserted e rest t.children) e.fileSize t
  have hbelow : (leaves [grown (inserted e rest (directoryAt ts name).children) e.fileSize
      (directoryAt ts name)]).Perm ((name :: rest, e.object) :: leaves [directoryAt ts name]) := by
    rw [leaves_grown, leaves_directory h.directoryAt.1, name_directoryAt]
    exact hchild.map _
  rw [inserted, if_neg hrest, if_pos hsize, hafter, leaves_append, leaves_cons,
    ← leaves_add_directoryNode ts name, hbefore, leaves_append, leaves_cons _ after]
  exact ((hbelow.append_right _).append_left _).trans List.perm_middle

theorem kept_cons_iff (hrest : rest ≠ []) (size : Int) : Kept (name :: rest) size ↔ 0 < size := by
  have := List.length_pos_iff.mpr hrest
  simp only [Kept, List.length_cons]
  omega

theorem kept_of_pos (hpath : path ≠ []) {size : Int} (h : 0 < size) : Kept path size := by
  have := List.length_pos_iff.mpr hpath
  simp only [Kept]
  omega

theorem leaves_inserted (hts : NamedTree.Distinct ts) (h : Fits path ts) :
    (leaves (inserted e path ts)).Perm
      ((if Kept path e.fileSize then [(path, e.object)] else []) ++ leaves ts) := by
  induction path generalizing ts with
  | nil => simp [inserted, Kept]
  | cons name rest ih =>
    by_cases hrest : rest = []
    · subst hrest
      rw [leaves_inserted_leaf h, if_pos (.inl rfl)]
      exact List.perm_append_comm
    by_cases hsize : 0 < e.fileSize
    · have hchild := ih (distinct_directoryAt hts name) h.directoryAt.2
      rw [if_pos (kept_of_pos hrest hsize)] at hchild
      rw [if_pos ((kept_cons_iff hrest _).mpr hsize)]
      exact leaves_inserted_below hts h hrest hsize hchild
    · -- the copy is dropped, and a new directory has no leaf
      rw [inserted, if_neg hrest, if_neg hsize, if_neg fun hk => hsize ((kept_cons_iff hrest _).mp hk),
        leaves_add_directoryNode]
      rfl

def FilesBare (ts : List FileNode) : Prop := ∀ t ∈ ts, t.label.hasChildren = false → t.children = []

theorem FilesBare.inserted (h : FilesBare ts) : FilesBare (inserted e path ts) := by
  cases path with
  | nil => exact h
  | cons name rest =>
    have hadd {t : FileNode} (ht : t.children = []) : FilesBare (Keyed.add NamedTree.name ts t) := by
      intro u hu hfile
      rcases Keyed.mem_add hu with hu | rfl
      · exact h u hu hfile
      · exact ht
    rw [NetBt.inserted]
    split
    · exact hadd rfl
    · split
      · intro u hu hfile
        obtain ⟨t, ht, rfl | ⟨-, rfl⟩⟩ := Keyed.mem_modify hu
        · exact hadd rfl _ ht hfile
        · cases hfile
      · exact hadd rfl

end

/-! ## All files -/

section

variable {getFileType : Text → Int} {handle : Option TorrentHandle} {ts : List FileNode} {i : Nat}
  {f : TorrentFile} {fs : List TorrentFile}

def Incompatible (f g : TorrentFile) : Prop :=
  ¬ pathParts f.path <+: pathParts g.path ∧ ¬ pathParts g.path <+: pathParts f.path

instance : Std.Symm Incompatible := ⟨fun _ _ h => ⟨h.2, h.1⟩⟩

/-- The paths are distinct and none begins with another. -/
def PrefixFree (fs : List TorrentFile) : Prop := fs.Pairwise Incompatible

structure Ready (ts : List FileNode) (fs : List TorrentFile) : Prop where
  distinct : NamedTree.Distinct ts
  bare : FilesBare ts
  fits : ∀ f ∈ fs, Fits (pathParts f.path) ts
  prefixFree : PrefixFree fs

theorem ready_nil (h : PrefixFree fs) : Ready [] fs :=
  ⟨.nil, by simp [FilesBare], fun f _ => fits_nil _, h⟩

theorem Ready.step (h : Ready ts (f :: fs)) (e : FileItem) :
    Ready (inserted e (pathParts f.path) ts) fs := by
  have hfree := List.pairwise_cons.mp h.prefixFree
  refine ⟨distinct_inserted h.distinct, h.bare.inserted, fun g hg => ?_, hfree.2⟩
  exact (h.fits g (List.mem_cons_of_mem f hg)).inserted (hfree.1 g hg).1 (hfree.1 g hg).2

theorem addFiles_cons (h : Ready ts (f :: fs)) (i : Nat) :
    addFiles getFileType handle ts i (f :: fs) =
      addFiles getFileType handle
        (inserted (fileItem getFileType handle i f) (pathParts f.path) ts) (i + 1) fs := by
  rw [addFiles, fst_addToFileListTree h.distinct (h.fits f List.mem_cons_self)]

theorem ready_addFiles (h : Ready ts fs) (i : Nat) : Ready (addFiles getFileType handle ts i fs) [] := by
  induction fs generalizing ts i with
  | nil => exact h
  | cons f fs ih =>
    rw [addFiles_cons h]
    exact ih (h.step _) (i + 1)

def keptLeaves (getFileType : Text → Int) (handle : Option TorrentHandle) (i : Nat) (fs : List TorrentFile) :
    List (List Text × ChildObject) :=
  ((fs.zipIdx i).filter fun x => Kept (pathParts x.1.path) x.1.size).map fun x =>
    (pathParts x.1.path, (fileItem getFileType handle x.2 x.1).object)

theorem leaves_addFiles (h : Ready ts fs) (i : Nat) :
    (leaves (addFiles getFileType handle ts i fs)).Perm
      (keptLeaves getFileType handle i fs ++ leaves ts) := by
  induction fs generalizing ts i with
  | nil => exact List.Perm.refl _
  | cons f fs ih =>
    have hleaf := leaves_inserted (e := fileItem getFileType handle i f) h.distinct
      (h.fits f List.mem_cons_self)
    have hkept : keptLeaves getFileType handle i (f :: fs) =
        (if Kept (pathParts f.path) f.size then
          [(pathParts f.path, (fileItem getFileType handle i f).object)] else []) ++
          keptLeaves getFileType handle (i + 1) fs := by
      by_cases hk : Kept (pathParts f.path) f.size <;> simp [keptLeaves, List.zipIdx_cons, hk]
    rw [addFiles_cons h, hkept]
    refine (ih (h.step _) (i + 1)).trans ((hleaf.append_left _).trans ?_)
    rw [← List.append_assoc]
    exact List.perm_append_comm.append_right _

theorem mem_names_addFiles (h : Ready ts fs) (i : Nat) (k : Text) :
    (∃ t ∈ addFiles getFileType handle ts i fs, t.name = k) ↔
      (∃ f ∈ fs, (pathParts f.path).head? = some k) ∨ ∃ t ∈ ts, t.name = k := by
  induction fs generalizing ts i with
  | nil => simp [addFiles]
  | cons f fs ih =>
    rw [addFiles_cons h, ih (h.step _) (i + 1)]
    cases hpath : pathParts f.path with
    | nil => simp [inserted, hpath]
    | cons name rest =>
      have hhead : (∃ g ∈ f :: fs, (pathParts g.path).head? = some k) ↔
          k = name ∨ ∃ g ∈ fs, (pathParts g.path).head? = some k := by
        simp [hpath, eq_comm]
      rw [mem_names_inserted, hhead, or_left_comm, or_assoc]

/-! ## The root folder -/

def RootTaken (ts : List FileNode) : Prop :=
  ∃ t, ts = [t] ∧ t.label.hasChildren = true ∧ t.children ≠ []

theorem leaves_withoutRoot (h : RootTaken ts) :
    leaves (withoutRoot ts) = (leaves ts).map fun x => (x.1.tail, x.2) := by
  obtain ⟨t, rfl, hdir, hne⟩ := h
  rw [withoutRoot, if_pos ⟨hdir, hne⟩, leaves_directory hdir, List.map_map]
  exact (List.map_id' _).symm

/-- The root changes the positions and not the objects. -/
theorem filter_leaves_withoutRoot (h : RootTaken ts) (i : Nat) :
    ((leaves (withoutRoot ts)).filter fun x => x.2.index = (i : Int)) =
      ((leaves ts).filter fun x => x.2.index = (i : Int)).map fun x => (x.1.tail, x.2) := by
  rw [leaves_withoutRoot h, List.filter_map]
  rfl

theorem withoutRoot_eq (h : ¬ RootTaken ts) : withoutRoot ts = ts := by
  unfold withoutRoot
  split
  · rename_i t
    rw [if_neg fun hroot => h ⟨t, rfl, hroot⟩]
  · rfl

def HasCommonRoot (fs : List TorrentFile) : Prop :=
  ∀ f ∈ fs, 1 < (pathParts f.path).length ∧
    ∀ g ∈ fs, (pathParts g.path).head? = (pathParts f.path).head?

instance (fs : List TorrentFile) : Decidable (HasCommonRoot fs) :=
  inferInstanceAs (Decidable (∀ f ∈ fs, _ ∧ ∀ g ∈ fs, _))

def NamesOf (ts : List FileNode) (fs : List TorrentFile) : Prop :=
  ∀ k, (∃ t ∈ ts, t.name = k) ↔ ∃ f ∈ fs, (pathParts f.path).head? = some k

theorem hasCommonRoot_of_rootTaken (hfree : PrefixFree fs) (hnames : NamesOf ts fs) (hf : f ∈ fs)
    {l : ChildObject} (hleaf : (pathParts f.path, l) ∈ leaves ts) (h : RootTaken ts) :
    HasCommonRoot fs := by
  obtain ⟨t, rfl, hdir, -⟩ := h
  rw [leaves_directory hdir, List.mem_map] at hleaf
  obtain ⟨⟨p, m⟩, hp, heq⟩ := hleaf
  have hpath : t.name :: p = pathParts f.path := congrArg Prod.fst heq
  have hne : p ≠ [] := NamedTree.ne_nil_of_mem_nodes (List.mem_filter.mp hp).1
  have hlong : ∀ g ∈ fs, 1 < (pathParts g.path).length ∧ (pathParts g.path).head? = some t.name := by
    intro g hg
    by_cases hgf : g = f
    · rw [hgf, ← hpath]
      have := List.length_pos_iff.mpr hne
      exact ⟨by rw [List.length_cons]; omega, rfl⟩
    -- a path of one component would begin the path of `f`
    have hinc : Incompatible g f := hfree.forall hg hf hgf
    unfold Incompatible at hinc
    rw [← hpath] at hinc
    cases hparts : pathParts g.path with
    | nil => simp [hparts] at hinc
    | cons k rest =>
      obtain ⟨u, hu, rfl⟩ := (hnames k).mpr ⟨g, hg, by rw [hparts]; rfl⟩
      obtain rfl := List.mem_singleton.mp hu
      rw [hparts, List.prefix_cons_inj] at hinc
      have hrest : rest ≠ [] := fun hnil => hinc.1 (hnil ▸ List.nil_prefix)
      have := List.length_pos_iff.mpr hrest
      exact ⟨by rw [List.length_cons]; omega, rfl⟩
  exact fun g hg => ⟨(hlong g hg).1, fun g' hg' => (hlong g' hg').2.trans (hlong g hg).2.symm⟩

theorem rootTaken_of_hasCommonRoot (hready : Ready ts []) (hnames : NamesOf ts fs) (hf : f ∈ fs)
    {l : ChildObject} (hleaf : (pathParts f.path, l) ∈ leaves ts) (h : HasCommonRoot fs) :
    RootTaken ts := by
  obtain ⟨hlong, hhead⟩ := h f hf
  obtain ⟨r, hr⟩ : ∃ r, (pathParts f.path).head? = some r :=
    Option.isSome_iff_exists.mp (by rw [List.isSome_head?]; exact List.ne_nil_of_length_pos (by omega))
  have hname : ∀ t ∈ ts, t.name = r := by
    intro t ht
    obtain ⟨g, hg, hgt⟩ := (hnames t.name).mp ⟨t, ht, rfl⟩
    rw [hhead g hg, hr] at hgt
    exact (Option.some.inj hgt).symm
  obtain ⟨t, ht, -⟩ := (hnames r).mpr ⟨f, hf, hr⟩
  obtain rfl : ts = [t] := by
    have hlength : ts.length ≤ 1 := by
      have hnodup := hready.distinct.nodup
      rw [List.map_congr_left hname, List.map_const', List.nodup_replicate] at hnodup
      exact hnodup
    obtain ⟨u, rfl⟩ := List.length_eq_one_iff.mp
      (Nat.le_antisymm hlength (List.length_pos_of_mem ht))
    rw [List.mem_singleton.mp ht]
  cases hdir : t.label.hasChildren with
  | false =>
    rw [leaves_singleton, hdir, hready.bare t ht hdir] at hleaf
    obtain ⟨hpath, -⟩ : pathParts f.path = [t.name] ∧ l = t.label := by simpa [leaves] using hleaf
    simp [hpath] at hlong
  | true =>
    refine ⟨t, rfl, hdir, fun hnil => ?_⟩
    rw [leaves_directory hdir, hnil] at hleaf
    simp [leaves] at hleaf

/-! ## The files shown -/

theorem filter_zipIdx (hf : fs[i]? = some f) (n : Nat) :
    ((fs.zipIdx n).filter fun x => x.2 = i + n) = [(f, i + n)] := by
  induction fs generalizing i n with
  | nil => cases hf
  | cons g fs ih =>
    rw [List.zipIdx_cons]
    cases i with
    | zero =>
      obtain rfl : g = f := by simpa using hf
      have hrest : ((fs.zipIdx (n + 1)).filter fun x => x.2 = 0 + n) = [] := by
        refine List.filter_eq_nil_iff.mpr fun x hx => ?_
        have := List.le_snd_of_mem_zipIdx hx
        rw [decide_eq_true_eq]
        omega
      rw [List.filter_cons_of_pos (by simp), hrest, Nat.zero_add]
    | succ i =>
      have hne : n ≠ i + 1 + n := by omega
      have hi : i + 1 + n = i + (n + 1) := by omega
      have hrec := ih (i := i) (by simpa using hf) (n + 1)
      rw [List.filter_cons_of_neg (by rw [decide_eq_true_eq]; exact hne), hi, hrec]

theorem filter_keptLeaves (hf : fs[i]? = some f) :
    ((keptLeaves getFileType handle 0 fs).filter fun x => x.2.index = (i : Int)) =
      if Kept (pathParts f.path) f.size then [(pathParts f.path, (fileItem getFileType handle i f).object)]
      else [] := by
  have hidx : fs.zipIdx.filter ((fun x : List Text × ChildObject => decide (x.2.index = (i : Int))) ∘
      fun x => (pathParts x.1.path, (fileItem getFileType handle x.2 x.1).object)) = [(f, i)] := by
    refine Eq.trans (List.filter_congr fun x _ => ?_) (filter_zipIdx hf 0)
    simp [fileItem, FileItem.object]
  rw [keptLeaves, List.filter_map, List.filter_comm, hidx]
  by_cases hk : Kept (pathParts f.path) f.size <;> simp [hk]

def position (fs : List TorrentFile) (f : TorrentFile) : List Text :=
  if HasCommonRoot fs then (pathParts f.path).tail else pathParts f.path

/-- The tree has one leaf with the index of the file, at its position and with its size. -/
def ShowsFile (children : List FileNode) (fs : List TorrentFile) (i : Nat) (f : TorrentFile) : Prop :=
  ((leaves children).filter fun x => x.2.index = (i : Int)).map (fun x => (x.1, x.2.size)) =
    [(position fs f, f.size)]

theorem filter_leaves (hfree : PrefixFree fs) (hf : fs[i]? = some f) :
    ((leaves (addFiles getFileType handle [] 0 fs)).filter fun x => x.2.index = (i : Int)) =
      if Kept (pathParts f.path) f.size then [(pathParts f.path, (fileItem getFileType handle i f).object)]
      else [] := by
  have hperm : (leaves (addFiles getFileType handle [] 0 fs)).Perm (keptLeaves getFileType handle 0 fs) := by
    simpa [leaves] using leaves_addFiles (ready_nil hfree) 0
  have hfilter := hperm.filter fun x => decide (x.2.index = (i : Int))
  rw [filter_keptLeaves hf] at hfilter
  split
  · rename_i hkept
    exact List.perm_singleton.mp (by rwa [if_pos hkept] at hfilter)
  · rename_i hkept
    exact List.perm_nil.mp (by rwa [if_neg hkept] at hfilter)

/-- Where one file is kept, the code takes the root if and only if the files have one. -/
theorem rootTaken_iff (hfree : PrefixFree fs) (hf : fs[i]? = some f) (hkept : Kept (pathParts f.path) f.size) :
    RootTaken (addFiles getFileType handle [] 0 fs) ↔ HasCommonRoot fs := by
  have hready : Ready (addFiles getFileType handle [] 0 fs) [] := ready_addFiles (ready_nil hfree) 0
  have hnames : NamesOf (addFiles getFileType handle [] 0 fs) fs := by
    intro k
    simpa using mem_names_addFiles (ready_nil hfree) 0 k
  have hleaf : (pathParts f.path, (fileItem getFileType handle i f).object) ∈
      leaves (addFiles getFileType handle [] 0 fs) := by
    refine List.mem_of_mem_filter (p := fun x => decide (x.2.index = (i : Int))) ?_
    rw [filter_leaves hfree hf, if_pos hkept]
    exact List.mem_singleton_self _
  have hmem : f ∈ fs := List.mem_of_getElem? hf
  exact ⟨hasCommonRoot_of_rootTaken hfree hnames hmem hleaf,
    rootTaken_of_hasCommonRoot hready hnames hmem hleaf⟩

theorem showsFile_iff (hfree : PrefixFree fs) (hf : fs[i]? = some f) :
    ShowsFile (withoutRoot (addFiles getFileType handle [] 0 fs)) fs i f ↔ Kept (pathParts f.path) f.size := by
  have hleaves : ((leaves (addFiles getFileType handle [] 0 fs)).filter fun x => x.2.index = (i : Int)) = _ :=
    filter_leaves hfree hf
  unfold ShowsFile
  by_cases hkept : Kept (pathParts f.path) f.size
  · rw [if_pos hkept] at hleaves
    refine iff_of_true ?_ hkept
    have hiff : RootTaken (addFiles getFileType handle [] 0 fs) ↔ HasCommonRoot fs :=
      rootTaken_iff hfree hf hkept
    by_cases hroot : HasCommonRoot fs
    · rw [filter_leaves_withoutRoot (hiff.mpr hroot), hleaves, position, if_pos hroot]
      rfl
    · rw [withoutRoot_eq fun h => hroot (hiff.mp h), hleaves, position, if_neg hroot]
      rfl
  · rw [if_neg hkept] at hleaves
    refine iff_of_false ?_ hkept
    by_cases hroot : RootTaken (addFiles getFileType handle [] 0 fs)
    · rw [filter_leaves_withoutRoot hroot, hleaves]
      simp
    · rw [withoutRoot_eq hroot, hleaves]
      simp

def ShowsEveryFile (getFileType : Text → Int) (c : TorrentContent) : Prop :=
  ∀ i f, c.files[i]? = some f → ShowsFile (getTorrentList getFileType c).children c.files i f

end

/-- The tree shows every file if and only if every file has one component in its path, or more
than one and is not empty. -/
theorem showsEveryFile_iff (getFileType : Text → Int) {c : TorrentContent} (hfree : PrefixFree c.files) :
    ShowsEveryFile getFileType c ↔ ∀ f ∈ c.files, Kept (pathParts f.path) f.size := by
  constructor
  · intro h f hf
    obtain ⟨i, hi⟩ := List.mem_iff_getElem?.mp hf
    exact (showsFile_iff hfree hi).mp (h i f hi)
  · intro h i f hf
    exact (showsFile_iff hfree hf).mpr (h f (List.mem_of_getElem? hf))

def contentOf (files : List TorrentFile) : TorrentContent :=
  { fileName := [], hasRootFolder := false, rootFolder := [], name := "t".toList
    totalSize := (files.map (·.size)).sum, files, handle := none }

/-- Two files in a folder and its subfolder. -/
theorem showsEveryFile_nested :
    ShowsEveryFile (fun _ => 0) (contentOf [⟨"r/a".toList, 1⟩, ⟨"r/d/b".toList, 2⟩]) := by
  refine (showsEveryFile_iff _ ?_).mpr ?_
  · unfold PrefixFree Incompatible
    decide +kernel
  · decide +kernel

/-- An empty file in a folder has no leaf, and its own folder is not there either. -/
theorem empty_file_not_shown :
    let c := contentOf [⟨"r/a".toList, 1⟩, ⟨"r/d/b".toList, 0⟩]
    PrefixFree c.files ∧ ¬ ShowsEveryFile (fun _ => 0) c ∧
      NamedTree.nodes (getTorrentList (fun _ => 0) c).children =
        [(["a".toList], ⟨0, 1, some (0, true, 0), false⟩)] := by
  refine ⟨?_, fun h => ?_, ?_⟩
  · unfold PrefixFree Incompatible
    decide +kernel
  · have hshown := h 1 ⟨"r/d/b".toList, 0⟩ rfl
    revert hshown
    unfold ShowsFile
    decide +kernel
  · decide +kernel

end Nas.NetBt
