import NasServices.Lib.TreeWalk

/-!
# Walking a directory

`GetFilesA` and `GetFilesW` list a directory, call a functor for each entry and call themselves for the
subdirectories. They have one text, for two types of characters; `FindApi` is the part of the Windows API
that it uses. When the functor sets `stop`, the call that is running leaves its loop and returns, and the call
that has made it goes on: nothing says that the walk has been stopped.

`Lists` is a directory tree as the API lists it. The functor is called after it has asked to stop exactly if
it has asked in a subdirectory and a directory above has an entry after that (`getFiles_obeys_iff`).
-/

namespace Nas.FileUtils

open Lib (Forest Log)

structure FindData (C : Type) where
  cFileName : List C
  dwFileAttributes : BitVec 32
  deriving DecidableEq, Repr

def FindData.isDirectory {C : Type} (findData : FindData C) : Bool := findData.dwFileAttributes &&& 0x10 ≠ 0

def maxPath : Nat := 260

structure FindApi (C : Type) where
  literal : List Char → List C
  /-- What `FindFirstFile` and `FindNextFile` find; nothing if `FindFirstFile` fails. -/
  findFiles : List C → List (FindData C)
  stringCchCopy : Nat → List C → List C
  pathAppend : List C → List C → List C

abbrev Calls (C : Type) := Log (FindData C)

abbrev FileInfoFunctor (C : Type) := Calls C → FindData C → Bool

namespace FindApi

variable {C : Type} [DecidableEq C] (api : FindApi C) (functor : Option (FileInfoFunctor C)) (subDir : Bool)

def entries (dir : List C) : List (FindData C) := api.findFiles (dir ++ api.literal ['/', '*', '.', '*'])

def isDot (findData : FindData C) : Bool :=
  findData.cFileName = api.literal ['.'] ∨ findData.cFileName = api.literal ['.', '.']

def subPath (dir : List C) (findData : FindData C) : List C :=
  api.pathAppend (api.stringCchCopy maxPath dir) findData.cFileName

def loop (dir : List C) (getFiles : List C → Calls C → Option (Calls C)) :
    List (FindData C) → Calls C → Option (Calls C)
  | [], calls => some calls
  | findData :: next, calls =>
    if api.isDot findData then loop dir getFiles next calls
    else
      let stop := functor.map fun f => f calls findData
      let calls := calls ++ (stop.map (findData, ·)).toList
      if stop = some true then some calls
      else if subDir && findData.isDirectory then
        (getFiles (api.subPath dir findData) calls).bind (loop dir getFiles next)
      else loop dir getFiles next calls

def getFiles : Nat → List C → Calls C → Option (Calls C)
  | 0, _, _ => none
  | depth + 1, dir, calls => api.loop functor subDir dir (getFiles depth) (api.entries dir) calls

end FindApi

abbrev getFilesA (api : FindApi UInt8) := api.getFiles

abbrev getFilesW (api : FindApi UInt16) := api.getFiles

namespace FindApi

variable {C : Type} [DecidableEq C] {api : FindApi C} {fullPath : List C → List C → List C}

structure Documented (api : FindApi C) (fullPath : List C → List C → List C) : Prop where
  stringCchCopy_eq {dir : List C} : dir.length < maxPath → api.stringCchCopy maxPath dir = dir
  pathAppend_eq {dir name : List C} :
    (fullPath dir name).length < maxPath → api.pathAppend dir name = fullPath dir name

/-- What is found in the directory `dir`, and below it, are the entries of a finite tree; the paths of the
directories fit. -/
inductive Lists (api : FindApi C) (fullPath : List C → List C → List C) :
    List C → List (FindData C) → Forest (FindData C) → Prop
  | nil {dir} : Lists api fullPath dir [] .empty
  | dot {dir d next f} : api.isDot d = true → Lists api fullPath dir next f → Lists api fullPath dir (d :: next) f
  | file {dir d next after} : api.isDot d = false → d.isDirectory = false →
      Lists api fullPath dir next after → Lists api fullPath dir (d :: next) (.node d .empty after)
  | directory {dir d next below after} : api.isDot d = false → d.isDirectory = true →
      dir.length < maxPath → (fullPath dir d.cFileName).length < maxPath →
      Lists api fullPath (fullPath dir d.cFileName) (api.entries (fullPath dir d.cFileName)) below →
      Lists api fullPath dir next after → Lists api fullPath dir (d :: next) (.node d below after)

section Loop

variable (f : FileInfoFunctor C) {dir : List C} {d : FindData C} {next : List (FindData C)}
  {tree : Forest (FindData C)}

theorem loop_cons (hdot : api.isDot d = false)
    (getFiles : List C → Calls C → Option (Calls C)) (calls : Calls C) :
    api.loop (some f) true dir getFiles (d :: next) calls =
      if f calls d then some (calls ++ [(d, true)])
      else if d.isDirectory then
        (getFiles (api.subPath dir d) (calls ++ [(d, false)])).bind (api.loop (some f) true dir getFiles next)
      else api.loop (some f) true dir getFiles next (calls ++ [(d, false)]) := by
  rw [loop, if_neg (by rw [hdot]; decide)]
  cases hstop : f calls d <;> simp [hstop]

theorem loop_eq_walk (hapi : api.Documented fullPath) (h : Lists api fullPath dir next tree) :
    ∃ depth, ∀ n ≥ depth, ∀ calls,
      api.loop (some f) true dir (api.getFiles (some f) true n) next calls = some (tree.walk f calls) := by
  induction h with
  | nil => exact ⟨0, fun _ _ _ => rfl⟩
  | dot hdot _ ih =>
    obtain ⟨depth, hloop⟩ := ih
    refine ⟨depth, fun n hn calls => ?_⟩
    rw [loop, if_pos hdot, hloop n hn]
  | file hdot hfile _ ih =>
    obtain ⟨depth, hloop⟩ := ih
    refine ⟨depth, fun n hn calls => ?_⟩
    rw [loop_cons f hdot, hfile, if_neg Bool.false_ne_true, hloop n hn, Forest.walk, Forest.walk]
    split <;> rfl
  | @directory dir d _ _ _ hdot hdir hfits hpath _ _ ihb iha =>
    obtain ⟨below, hbelow⟩ := ihb
    obtain ⟨after, hafter⟩ := iha
    -- one more for the call itself
    refine ⟨max (below + 1) after, fun n hn calls => ?_⟩
    obtain ⟨m, rfl⟩ : ∃ m, n = m + 1 := ⟨n - 1, by omega⟩
    have hcall : ∀ calls, api.getFiles (some f) true (m + 1) (fullPath dir d.cFileName) calls = _ :=
      hbelow m (by omega)
    rw [loop_cons f hdot, hdir, if_pos rfl, subPath, hapi.stringCchCopy_eq hfits, hapi.pathAppend_eq hpath,
      hcall, Option.bind_some, hafter (m + 1) (by omega), Forest.walk]
    split <;> rfl

/-- A walk with `sub_dir` over a finite tree returns. -/
theorem getFiles_eq_walk (hapi : api.Documented fullPath) (h : Lists api fullPath dir (api.entries dir) tree) :
    ∃ depth, ∀ n ≥ depth, ∀ calls, api.getFiles (some f) true n dir calls = some (tree.walk f calls) := by
  obtain ⟨depth, hloop⟩ := loop_eq_walk f hapi h
  refine ⟨depth + 1, fun n hn calls => ?_⟩
  obtain ⟨m, rfl⟩ : ∃ m, n = m + 1 := ⟨n - 1, by omega⟩
  exact hloop m (by omega) calls

end Loop

/-- For both types of characters, every finite tree and every functor: the walk returns, and its calls are as
they should be exactly if the first entry at which the functor asks to stop, if there is one, has no directory
above it with an entry still to come. -/
theorem getFiles_obeys_iff (api : FindApi C) (fullPath : List C → List C → List C)
    (hapi : api.Documented fullPath) (dir : List C) (tree : Forest (FindData C))
    (h : Lists api fullPath dir (api.entries dir) tree) (f : FileInfoFunctor C) :
    ∃ calls depth, (∀ n ≥ depth, api.getFiles (some f) true n dir [] = some calls) ∧
      (Forest.Obeys tree.flatten calls ↔ Forest.stopsAt f tree.visits [] ≠ some true) := by
  obtain ⟨depth, hwalk⟩ := getFiles_eq_walk f hapi h
  exact ⟨tree.walk f [], depth, fun n hn => hwalk n hn [], (Forest.ends_walk f tree []).obeys_iff⟩

end FindApi

def wide (text : List Char) : List UInt16 := text.map fun c => c.toNat.toUInt16

def joined (dir name : List UInt16) : List UInt16 := dir ++ wide ['\\'] ++ name

def subdirectory : FindData UInt16 := ⟨wide ['d'], 0x10⟩

def file (c : Char) : FindData UInt16 := ⟨wide [c], 0x20⟩

def nested : FindApi UInt16 where
  literal := wide
  findFiles pattern :=
    if pattern = wide ['r', '/', '*', '.', '*'] then [⟨wide ['.'], 0x10⟩, subdirectory, file 'y']
    else if pattern = wide ['r', '\\', 'd', '/', '*', '.', '*'] then [file 'x']
    else []
  stringCchCopy n src := src.take (n - 1)
  pathAppend := joined

def nestedTree : Forest (FindData UInt16) :=
  .node subdirectory (.node (file 'x') .empty .empty) (.node (file 'y') .empty .empty)

theorem nested_documented : nested.Documented joined where
  stringCchCopy_eq h := List.take_of_length_le (Nat.le_sub_one_of_lt h)
  pathAppend_eq _ := rfl

theorem nested_lists : nested.Lists joined (wide ['r']) (nested.entries (wide ['r'])) nestedTree := by
  have hd : nested.entries (joined (wide ['r']) (wide ['d'])) = [file 'x'] := by decide +kernel
  have hr : nested.entries (wide ['r']) = [⟨wide ['.'], 0x10⟩, subdirectory, file 'y'] := by decide +kernel
  have hbelow : nested.Lists joined (joined (wide ['r']) (wide ['d'])) [file 'x'] (.node (file 'x') .empty .empty) :=
    .file (by decide +kernel) (by decide +kernel) .nil
  rw [hr]
  exact .dot (by decide +kernel) (.directory (by decide +kernel) (by decide +kernel) (by decide +kernel)
    (by decide +kernel) (hd ▸ hbelow) (.file (by decide +kernel) (by decide +kernel) .nil))

def stopAt (name : List UInt16) : FileInfoFunctor UInt16 := fun _ d => d.cFileName = name

/-- The functor asks to stop at the last entry. -/
theorem getFilesW_obeys_stopAtY :
    ∃ calls depth, (∀ n ≥ depth, getFilesW nested (some (stopAt (wide ['y']))) true n (wide ['r']) [] = some calls) ∧
      Forest.Obeys nestedTree.flatten calls := by
  obtain ⟨calls, depth, hcalls, hiff⟩ :=
    FindApi.getFiles_obeys_iff nested joined nested_documented _ nestedTree nested_lists (stopAt (wide ['y']))
  exact ⟨calls, depth, hcalls, hiff.mpr (by decide +kernel)⟩

/-- The functor asks to stop at `r\d\x`, and is called for `r\y` after that. -/
theorem getFilesW_goes_on :
    getFilesW nested (some (stopAt (wide ['x']))) true 2 (wide ['r']) [] =
        some [(subdirectory, false), (file 'x', true), (file 'y', false)] ∧
      nested.Lists joined (wide ['r']) (nested.entries (wide ['r'])) nestedTree ∧
      ¬ Forest.Obeys nestedTree.flatten [(subdirectory, false), (file 'x', true), (file 'y', false)] := by
  refine ⟨by decide +kernel, nested_lists, fun h => ?_⟩
  exact List.cons_ne_nil _ _ (h.stopped [(subdirectory, false)] (file 'x', true) [(file 'y', false)] rfl rfl)

end Nas.FileUtils
