import Mathlib.Data.List.Dedup
import Mathlib.Data.List.DropRight
import Mathlib.Data.List.Infix
import Mathlib.Data.List.Nodup
import Mathlib.Logic.Function.Basic

/-!
# Linked lists, iterators and the last distinct elements

A linked list is its nodes in order, each with a number that an iterator to it holds. A number
is given once, so an iterator to a node that was taken out dangles for good and erasing
through it is undefined (`none`). `Indexes` says that a table holds an iterator for exactly the elements.

`recent n l` are the last `n` distinct elements of `l`, and `touch n` is what one more element
does to them (`recent_concat`).
-/

namespace Nas.Lib

structure LinkedList (α : Type*) where
  nodes : List (Nat × α)
  next : Nat
  fresh : ∀ n ∈ nodes, n.1 < next
  distinct : (nodes.map Prod.fst).Nodup

namespace LinkedList

variable {α : Type*}

def empty : LinkedList α := ⟨[], 0, by simp, List.nodup_nil⟩

def elements (l : LinkedList α) : List α := l.nodes.map Prod.snd

def size (l : LinkedList α) : Nat := l.nodes.length

def front (l : LinkedList α) : Option α := l.elements.head?

def last (l : LinkedList α) : Option Nat := (l.nodes.getLast?).map Prod.fst

def pushBack (l : LinkedList α) (a : α) : LinkedList α where
  nodes := l.nodes ++ [(l.next, a)]
  next := l.next + 1
  fresh := by
    intro n hn
    rcases List.mem_append.mp hn with h | h
    · exact Nat.lt_succ_of_lt (l.fresh n h)
    · rw [List.mem_singleton.mp h]
      exact Nat.lt_succ_self _
  distinct := by
    rw [List.map_append, List.nodup_append]
    refine ⟨l.distinct, List.nodup_singleton _, ?_⟩
    intro i hi j hj heq
    obtain ⟨n, hn, rfl⟩ := List.mem_map.mp hi
    have hlt := l.fresh n hn
    rw [heq, List.mem_singleton.mp hj] at hlt
    exact Nat.lt_irrefl _ hlt

def sub (l : LinkedList α) (nodes : List (Nat × α)) (h : nodes.Sublist l.nodes) : LinkedList α where
  nodes := nodes
  next := l.next
  fresh n hn := l.fresh n (h.subset hn)
  distinct := l.distinct.sublist (h.map _)

def erase (l : LinkedList α) (i : Nat) : Option (LinkedList α) :=
  if i ∈ l.nodes.map Prod.fst then some (l.sub (l.nodes.filter (·.1 ≠ i)) List.filter_sublist) else none

def popFront (l : LinkedList α) : Option (LinkedList α) :=
  if l.nodes = [] then none else some (l.sub l.nodes.tail (List.tail_sublist _))

variable {l : LinkedList α} {a b : α} {i : Nat}

@[simp] theorem nodes_sub (l : LinkedList α) {nodes : List (Nat × α)} (h : nodes.Sublist l.nodes) :
    (l.sub nodes h).nodes = nodes := rfl

@[simp] theorem elements_pushBack (l : LinkedList α) (a : α) : (l.pushBack a).elements = l.elements ++ [a] := by
  simp [elements, pushBack]

@[simp] theorem last_pushBack (l : LinkedList α) (a : α) : (l.pushBack a).last = some l.next := by
  simp [last, pushBack]

theorem length_elements (l : LinkedList α) : l.elements.length = l.size := List.length_map _

theorem mem_elements : a ∈ l.elements ↔ ∃ i, (i, a) ∈ l.nodes := by
  simp [elements]

theorem eq_of_mem (ha : (i, a) ∈ l.nodes) (hb : (i, b) ∈ l.nodes) : a = b :=
  congrArg Prod.snd (List.inj_on_of_nodup_map l.distinct ha hb rfl)

/-! ## A table of iterators -/

/-- The table has an iterator to its own node for each element, but may hold anything for `a`, which is no
element. -/
structure IndexesBut (a : α) (table : α → Option Nat) (l : LinkedList α) : Prop where
  notMem : a ∉ l.elements
  iff : ∀ b ≠ a, ∀ i, table b = some i ↔ (i, b) ∈ l.nodes

/-- The table has an iterator for exactly the elements, each to its own node. -/
def Indexes (table : α → Option Nat) (l : LinkedList α) : Prop := ∀ a i, table a = some i ↔ (i, a) ∈ l.nodes

variable {table : α → Option Nat}

theorem Indexes.nodup (h : Indexes table l) : l.elements.Nodup := by
  have hinj : ∀ m ∈ l.nodes, ∀ n ∈ l.nodes, m.2 = n.2 → m = n := by
    rintro ⟨i, a⟩ hm ⟨j, b⟩ hn (rfl : a = b)
    have hij : some i = some j := ((h a i).mpr hm).symm.trans ((h a j).mpr hn)
    rw [Option.some.inj hij]
  exact (List.nodup_map_iff_inj_on l.distinct.of_map).mpr hinj

theorem Indexes.of_notMem (h : Indexes table l) (ha : a ∉ l.elements) : IndexesBut a table l :=
  ⟨ha, fun b _ i => h b i⟩

theorem Indexes.eq_none_iff (h : Indexes table l) : table a = none ↔ a ∉ l.elements := by
  rw [mem_elements, Option.eq_none_iff_forall_ne_some, not_exists]
  exact forall_congr' fun i => not_congr (h a i)

theorem Indexes.erase [DecidableEq α] (h : Indexes table l) (ha : table a = some i) :
    ∃ l', l.erase i = some l' ∧ IndexesBut a table l' ∧ l'.elements = l.elements.filter (· ≠ a) := by
  have hmem := (h a i).mp ha
  -- a node has the erased number exactly if it has the erased element
  have hsame : ∀ n ∈ l.nodes, (n.1 ≠ i ↔ n.2 ≠ a) := by
    rintro ⟨j, b⟩ hn
    refine not_congr ⟨?_, ?_⟩
    · rintro rfl
      exact eq_of_mem hn hmem
    · rintro rfl
      exact Option.some.inj (((h b j).mpr hn).symm.trans ha)
  have hfilter : l.nodes.filter (·.1 ≠ i) = l.nodes.filter (·.2 ≠ a) :=
    List.filter_congr fun n hn => decide_eq_decide.mpr (hsame n hn)
  refine ⟨_, if_pos (List.mem_map_of_mem hmem), ⟨?_, ?_⟩, ?_⟩
  · rw [mem_elements]
    rintro ⟨j, hj⟩
    rw [nodes_sub, hfilter] at hj
    simp at hj
  · intro b hb j
    rw [h b j, nodes_sub, hfilter]
    simp [hb]
  · rw [elements, nodes_sub, hfilter, elements, List.filter_map]
    rfl

theorem IndexesBut.popFront [DecidableEq α] (h : IndexesBut a table l) (hne : l.elements ≠ []) :
    ∃ b l', l.front = some b ∧ l.popFront = some l' ∧ IndexesBut a (Function.update table b none) l' ∧
      l'.elements = l.elements.tail := by
  obtain ⟨⟨i, b⟩, rest, hnodes⟩ := List.exists_cons_of_ne_nil (fun heq => hne (List.map_eq_nil_iff.mpr heq))
  have htail : l.elements.tail = (l.sub l.nodes.tail (List.tail_sublist _)).elements := by
    simp only [elements, nodes_sub, List.map_tail]
  refine ⟨b, _, ?_, if_neg (by simp [hnodes]), ⟨?_, ?_⟩, htail.symm⟩
  · simp [front, elements, hnodes]
  · rw [← htail]
    exact fun hmem => h.notMem (List.mem_of_mem_tail hmem)
  · intro c hc j
    have hrest : (j, c) ∈ l.nodes.tail ↔ (j, c) ∈ l.nodes ∧ c ≠ b := by
      rw [hnodes, List.tail_cons, List.mem_cons]
      constructor
      · intro hmem
        refine ⟨.inr hmem, ?_⟩
        rintro rfl
        have hi := (h.iff c hc i).mpr (hnodes ▸ List.mem_cons_self)
        have hj := (h.iff c hc j).mpr (hnodes ▸ List.mem_cons_of_mem _ hmem)
        obtain rfl := Option.some.inj (hi.symm.trans hj)
        have hdistinct := l.distinct
        rw [hnodes, List.map_cons, List.nodup_cons] at hdistinct
        exact hdistinct.1 (List.mem_map_of_mem hmem)
      · rintro ⟨heq | hmem, hne⟩
        · exact absurd (congrArg Prod.snd heq) hne
        · exact hmem
    rw [nodes_sub, hrest, ← h.iff c hc j, Function.update_apply]
    by_cases hcb : c = b <;> simp [hcb]

theorem IndexesBut.pushBack [DecidableEq α] (h : IndexesBut a table l) :
    Indexes (Function.update table a (l.pushBack a).last) (l.pushBack a) := by
  intro b j
  have hnode : (j, b) ∈ (l.pushBack a).nodes ↔ (j, b) ∈ l.nodes ∨ (j = l.next ∧ b = a) := by
    simp [LinkedList.pushBack]
  rw [hnode, last_pushBack, Function.update_apply]
  by_cases hb : b = a
  · subst hb
    have hnot : (j, b) ∉ l.nodes := fun hmem => h.notMem (mem_elements.mpr ⟨j, hmem⟩)
    simp [hnot, eq_comm]
  · simp [hb, h.iff b hb j]

end LinkedList

/-! ## The last distinct elements -/

section Recent

variable {α : Type*}

theorem rtake_eq_of_suffix {s l : List α} {n : Nat} (h : s <:+ l) (hlen : s.length = min n l.length) :
    l.rtake n = s := by
  obtain ⟨front, rfl⟩ := h
  rw [List.length_append] at hlen
  rw [List.rtake, List.length_append, List.drop_append]
  rcases Nat.le_total (front.length + s.length) n with hle | hle
  · have hfront : front = [] := List.eq_nil_of_length_eq_zero (by omega)
    simp [hfront, show s.length - n = 0 by omega]
  · have hdrop : front.length + s.length - n - front.length = 0 := by omega
    rw [List.drop_of_length_le (by omega), List.nil_append, hdrop, List.drop_zero]

theorem rtake_suffix (l : List α) (n : Nat) : l.rtake n <:+ l := List.drop_suffix _ _

theorem length_rtake (l : List α) (n : Nat) : (l.rtake n).length = min n l.length := by
  rw [List.rtake, List.length_drop]
  omega

variable [DecidableEq α]

/-- The last `n` distinct elements, each at its last occurrence. -/
def recent (n : Nat) (l : List α) : List α := l.dedup.rtake n

def touch (n : Nat) (l : List α) (a : α) : List α :=
  let rest := l.filter (· ≠ a)
  (if rest.length = n then rest.tail else rest) ++ [a]

theorem dedup_concat (l : List α) (a : α) : (l ++ [a]).dedup = l.dedup.filter (· ≠ a) ++ [a] := by
  induction l with
  | nil => rfl
  | cons b l ih =>
    rw [List.cons_append]
    by_cases hb : b ∈ l
    · rw [List.dedup_cons_of_mem hb, List.dedup_cons_of_mem (List.mem_append_left _ hb), ih]
    · rw [List.dedup_cons_of_notMem hb]
      by_cases hba : b = a
      · rw [List.dedup_cons_of_mem (by simp [hba]), ih, List.filter_cons_of_neg (by simp [hba])]
      · rw [List.dedup_cons_of_notMem (by simp [hb, hba]), ih, List.filter_cons_of_pos (by simp [hba]),
          List.cons_append]

theorem nodup_recent (n : Nat) (l : List α) : (recent n l).Nodup :=
  (List.nodup_dedup l).sublist (rtake_suffix _ n).sublist

theorem length_recent_le (n : Nat) (l : List α) : (recent n l).length ≤ n := by
  rw [recent, length_rtake]
  exact min_le_left _ _

theorem mem_of_mem_recent {n : Nat} {l : List α} {a : α} (h : a ∈ recent n l) : a ∈ l :=
  List.mem_dedup.mp ((rtake_suffix _ n).subset h)

/-- A short list of distinct elements is its own list of recent elements. -/
theorem recent_eq_self {n : Nat} {l : List α} (hnodup : l.Nodup) (hlen : l.length ≤ n) : recent n l = l := by
  rw [recent, hnodup.dedup]
  exact rtake_eq_of_suffix List.suffix_rfl (min_eq_right hlen).symm

theorem length_filter_ne {l : List α} (h : l.Nodup) (a : α) :
    (l.filter (· ≠ a)).length = if a ∈ l then l.length - 1 else l.length := by
  have herase : l.filter (· ≠ a) = l.erase a := by
    rw [h.erase_eq_filter]
    exact List.filter_congr fun x _ => by rw [Bool.eq_iff_iff, bne_iff_ne, decide_eq_true_iff]
  rw [herase, List.length_erase]

/-- One more element, on the recent elements alone. -/
theorem recent_concat {n : Nat} (hn : 1 ≤ n) (l : List α) (a : α) :
    recent n (l ++ [a]) = touch n (recent n l) a := by
  obtain ⟨m, rfl⟩ := Nat.exists_eq_add_of_le' hn
  rw [recent, dedup_concat, List.rtake_concat_succ, touch]
  congr 1
  have hnodup := List.nodup_dedup l
  have hsuffix := rtake_suffix l.dedup (m + 1)
  have hlen := length_rtake l.dedup (m + 1)
  have hall := length_filter_ne hnodup a
  have hkept := length_filter_ne (nodup_recent (m + 1) l) a
  have hfilter : (recent (m + 1) l).filter (· ≠ a) <:+ l.dedup.filter (· ≠ a) := hsuffix.filter _
  split
  · rename_i hfull
    refine rtake_eq_of_suffix ((List.tail_suffix _).trans hfilter) ?_
    have hle := hfilter.length_le
    rw [List.length_tail, hfull]
    omega
  · rename_i hroom
    refine rtake_eq_of_suffix hfilter ?_
    rw [hkept] at hroom ⊢
    rw [hall]
    by_cases hmem : a ∈ recent (m + 1) l
    · have hmem' : a ∈ l.dedup := hsuffix.subset hmem
      have hpos : 0 < (recent (m + 1) l).length := List.length_pos_of_mem hmem
      rw [if_pos hmem, if_pos hmem']
      rw [recent] at hpos ⊢
      omega
    · -- with room left nothing was dropped, so `a` was never added
      rw [if_neg hmem] at hroom ⊢
      have hshort : l.dedup.length ≤ m := by
        rw [recent] at hroom
        omega
      have hself : recent (m + 1) l = l.dedup :=
        rtake_eq_of_suffix List.suffix_rfl (by omega)
      rw [hself] at hmem ⊢
      rw [if_neg hmem]
      omega

end Recent

end Nas.Lib
