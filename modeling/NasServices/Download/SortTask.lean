import Mathlib.Data.Prod.Lex
import NasServices.Download.Db.DownloadInfoStore
import NasServices.Lib.StdSort

/-!
# The order of the tasks

`SortTask` sorts the tasks of a user by a function for the style of sorting, or with `TaskComparator`
when small tasks go first. The comparator compares sizes or times of creation, depending on both
arguments. It compares one key all the same (`taskComparator_comparesKey`): on which side of the
threshold a task is, and then its size or its time.
-/

namespace Nas.Download

open Lib.StdSort

inductive SortStyle
  | kUnknown | kCreateTime | kFinishedTime | kDeletedTime | kTaskName | kTaskSize
  deriving DecidableEq, Repr

def ascendingByCreateTime (left right : TaskInfo) : Bool := left.task.createTime < right.task.createTime

def decendingByCreateTime (left right : TaskInfo) : Bool := left.task.createTime > right.task.createTime

def ascendingByTaskSise (left right : TaskInfo) : Bool :=
  if left.fileSize ≠ right.fileSize then left.fileSize < right.fileSize
  else left.task.createTime < right.task.createTime

def taskComparator (threshold : Int) (left right : TaskInfo) : Bool :=
  if left.fileSize < threshold ∧ right.fileSize < threshold then left.fileSize < right.fileSize
  else if left.fileSize ≥ threshold ∧ right.fileSize ≥ threshold then
    left.task.createTime < right.task.createTime
  else left.fileSize < right.fileSize

def getOrderFunc (style : SortStyle) (asc : Bool) : TaskInfo → TaskInfo → Bool :=
  if asc then
    match style with
    | .kTaskSize => ascendingByTaskSise
    | _ => ascendingByCreateTime
  else
    match style with
    | .kCreateTime => decendingByCreateTime
    | _ => ascendingByCreateTime

def sortOrder (smallTaskSize : Option Int) (sortStyle : SortStyle) (isAscending : Bool) :
    TaskInfo → TaskInfo → Bool :=
  match smallTaskSize with
  | some size => taskComparator (size * 1024)
  | none => getOrderFunc sortStyle isAscending

def sortTask (smallTaskSize : Option Int) (sortStyle : SortStyle) (isAscending : Bool) (tasks : List TaskInfo) :
    List TaskInfo :=
  tasks.mergeSort fun a b => !sortOrder smallTaskSize sortStyle isAscending b a

/-! ## The keys -/

/-- The side of the threshold, and then the size of a small task or the time of another one. -/
def TaskInfo.rank (threshold : Int) (t : TaskInfo) : Bool ×ₗ Int :=
  toLex (decide (threshold ≤ t.fileSize), if threshold ≤ t.fileSize then t.task.createTime else t.fileSize)

theorem TaskInfo.rank_of_small {threshold : Int} {t : TaskInfo} (h : t.fileSize < threshold) :
    t.rank threshold = toLex (false, t.fileSize) := by
  simp [rank, Int.not_le.mpr h]

theorem TaskInfo.rank_of_large {threshold : Int} {t : TaskInfo} (h : threshold ≤ t.fileSize) :
    t.rank threshold = toLex (true, t.task.createTime) := by
  simp [rank, h]

theorem taskComparator_comparesKey (threshold : Int) :
    ComparesKey (taskComparator threshold) (TaskInfo.rank threshold) := by
  intro l r
  rw [taskComparator]
  rcases Int.lt_or_le l.fileSize threshold with hl | hl <;> rcases Int.lt_or_le r.fileSize threshold with hr | hr
  · rw [if_pos ⟨hl, hr⟩, TaskInfo.rank_of_small hl, TaskInfo.rank_of_small hr, Prod.Lex.toLex_lt_toLex]
    simp
  · -- a small task is before a large one, and smaller
    rw [if_neg (by omega), if_neg (by omega), TaskInfo.rank_of_small hl, TaskInfo.rank_of_large hr]
    exact iff_of_true (decide_eq_true (by omega)) (Prod.Lex.toLex_lt_toLex.mpr (.inl Bool.false_lt_true))
  · rw [if_neg (by omega), if_neg (by omega), TaskInfo.rank_of_large hl, TaskInfo.rank_of_small hr,
      Prod.Lex.toLex_lt_toLex]
    have hnot : ¬ l.fileSize < r.fileSize := by omega
    simp [hnot]
  · rw [if_neg (by omega), if_pos ⟨hl, hr⟩, TaskInfo.rank_of_large hl, TaskInfo.rank_of_large hr,
      Prod.Lex.toLex_lt_toLex]
    simp

/-! The other orders compare keys as well, so `SortTask` is defined for every setting. -/

theorem ascendingByCreateTime_comparesKey : ComparesKey ascendingByCreateTime (·.task.createTime) :=
  fun _ _ => decide_eq_true_iff

theorem decendingByCreateTime_comparesKey :
    ComparesKey decendingByCreateTime fun t => OrderDual.toDual t.task.createTime :=
  fun _ _ => decide_eq_true_iff

theorem ascendingByTaskSise_comparesKey :
    ComparesKey ascendingByTaskSise fun t => toLex (t.fileSize, t.task.createTime) := by
  intro l r
  rw [ascendingByTaskSise, Prod.Lex.toLex_lt_toLex]
  by_cases h : l.fileSize = r.fileSize <;> simp [h]

theorem sortedBy_sortTask (smallTaskSize : Option Int) (sortStyle : SortStyle) (isAscending : Bool)
    (tasks : List TaskInfo) :
    SortedBy (sortOrder smallTaskSize sortStyle isAscending) tasks
      (sortTask smallTaskSize sortStyle isAscending tasks) := by
  unfold sortTask sortOrder
  cases smallTaskSize with
  | some size => exact (taskComparator_comparesKey (size * 1024)).sortedBy_mergeSort tasks
  | none =>
    dsimp only
    unfold getOrderFunc
    split
    · split
      · exact ascendingByTaskSise_comparesKey.sortedBy_mergeSort tasks
      · exact ascendingByCreateTime_comparesKey.sortedBy_mergeSort tasks
    · split
      · exact decendingByCreateTime_comparesKey.sortedBy_mergeSort tasks
      · exact ascendingByCreateTime_comparesKey.sortedBy_mergeSort tasks

/-! ## Small tasks first -/

/-- Whatever sorting with the comparator returns: the small tasks come first, by size, and then the others, by
time of creation. -/
theorem sortedBy_taskComparator {threshold : Int} {tasks out : List TaskInfo}
    (h : SortedBy (taskComparator threshold) tasks out) :
    ∃ small others, out = small ++ others ∧ (∀ t ∈ small, t.fileSize < threshold) ∧
      (∀ t ∈ others, threshold ≤ t.fileSize) ∧ small.Pairwise (fun a b => a.fileSize ≤ b.fileSize) ∧
      others.Pairwise (fun a b => a.task.createTime ≤ b.task.createTime) := by
  have hkeys := (taskComparator_comparesKey threshold).pairwise h
  have hfirst : out.Pairwise fun a b =>
      decide (b.fileSize < threshold) = true → decide (a.fileSize < threshold) = true := by
    refine hkeys.imp fun {a b} hab hb => ?_
    have hb : b.fileSize < threshold := of_decide_eq_true hb
    refine decide_eq_true (Int.not_le.mp fun ha => ?_)
    rw [TaskInfo.rank_of_large ha, TaskInfo.rank_of_small hb, Prod.Lex.toLex_le_toLex] at hab
    simp at hab
    exact absurd hab (by decide)
  have hsmall : ∀ t ∈ out.filter (fun t => decide (t.fileSize < threshold)), t.fileSize < threshold :=
    fun t ht => of_decide_eq_true (List.mem_filter.mp ht).2
  have hothers : ∀ t ∈ out.filter (fun t => !decide (t.fileSize < threshold)), threshold ≤ t.fileSize := by
    intro t ht
    simpa using (List.mem_filter.mp ht).2
  refine ⟨_, _, eq_filter_append_filter _ hfirst, hsmall, hothers, ?_, ?_⟩
  · refine (hkeys.filter _).imp_of_mem fun {a b} ha hb hab => ?_
    rw [TaskInfo.rank_of_small (hsmall a ha), TaskInfo.rank_of_small (hsmall b hb),
      Prod.Lex.toLex_le_toLex] at hab
    simpa using hab
  · refine (hkeys.filter _).imp_of_mem fun {a b} ha hb hab => ?_
    rw [TaskInfo.rank_of_large (hothers a ha), TaskInfo.rank_of_large (hothers b hb),
      Prod.Lex.toLex_le_toLex] at hab
    simpa using hab

/-- For every threshold the comparator is a strict weak order, so that sorting with it is defined, and every list
that sorting can give has the small tasks first, by size, and then the others, by time of creation. -/
theorem taskComparator_sorts (threshold : Int) :
    IsStrictWeakOrder TaskInfo (fun left right => taskComparator threshold left right = true) ∧
      ∀ tasks out, SortedBy (taskComparator threshold) tasks out →
        ∃ small others, out = small ++ others ∧ (∀ t ∈ small, t.fileSize < threshold) ∧
          (∀ t ∈ others, threshold ≤ t.fileSize) ∧ small.Pairwise (fun a b => a.fileSize ≤ b.fileSize) ∧
          others.Pairwise (fun a b => a.task.createTime ≤ b.task.createTime) :=
  ⟨(taskComparator_comparesKey threshold).isStrictWeakOrder, fun _ _ h => sortedBy_taskComparator h⟩

/-- Tasks of 700, 5000 and 600 bytes, with small tasks of up to 1 kilobyte first. -/
theorem taskComparator_sorts_three :
    let task (size createTime : Int) : TaskInfo :=
      { task := { param := { id := "a", url := "http://a/b" }, createTime := createTime }, fileSize := size }
    let tasks := [task 700 3, task 5000 1, task 600 2]
    ∃ small others, sortTask (some 1) .kCreateTime true tasks = small ++ others ∧
      (∀ t ∈ small, t.fileSize < 1024) ∧ small.Pairwise (fun a b => a.fileSize ≤ b.fileSize) := by
  intro task tasks
  obtain ⟨small, others, hout, hsmall, -, hsorted, -⟩ :=
    (taskComparator_sorts 1024).2 tasks _ (sortedBy_sortTask (some 1) .kCreateTime true tasks)
  exact ⟨small, others, hout, hsmall, hsorted⟩

end Nas.Download
