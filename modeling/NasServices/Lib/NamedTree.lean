import NasServices.Lib.Keyed

/-!
# Trees of named nodes

A node has a name, a label and a list of children; a forest is a list of nodes. The
position of a node is the list of the names on the way to it. `nodes` lists
the nodes of a forest with their positions, and `lookup` finds the label at a
position, through the first node of each name. Where the names of siblings are
distinct (`Distinct`) both agree (`lookup_of_mem_nodes`).

The children of one node are rows with their name as key (`Keyed`).
-/

namespace Nas.Lib

inductive NamedTree (K L : Type*)
  | node (name : K) (label : L) (children : List (NamedTree K L))

namespace NamedTree

variable {K L : Type*}

def name : NamedTree K L → K
  | node k _ _ => k

def label : NamedTree K L → L
  | node _ l _ => l

def children : NamedTree K L → List (NamedTree K L)
  | node _ _ ts => ts

@[simp] theorem name_node (k : K) (l : L) (ts : List (NamedTree K L)) : (node k l ts).name = k := rfl

@[simp] theorem label_node (k : K) (l : L) (ts : List (NamedTree K L)) : (node k l ts).label = l := rfl

@[simp] theorem children_node (k : K) (l : L) (ts : List (NamedTree K L)) :
    (node k l ts).children = ts := rfl

mutual

def nodesOf : NamedTree K L → List (List K × L)
  | node k l ts => ([k], l) :: (nodes ts).map fun x => (k :: x.1, x.2)

def nodes : List (NamedTree K L) → List (List K × L)
  | [] => []
  | t :: ts => nodesOf t ++ nodes ts

end

theorem nodesOf_eq (t : NamedTree K L) :
    nodesOf t = ([t.name], t.label) :: (nodes t.children).map fun x => (t.name :: x.1, x.2) := by
  cases t
  rw [nodesOf]
  rfl

@[simp] theorem nodes_nil : nodes ([] : List (NamedTree K L)) = [] := by rw [nodes]

theorem nodes_cons (t : NamedTree K L) (ts : List (NamedTree K L)) :
    nodes (t :: ts) = nodesOf t ++ nodes ts := by rw [nodes]

theorem nodes_append (ts us : List (NamedTree K L)) : nodes (ts ++ us) = nodes ts ++ nodes us := by
  induction ts with
  | nil => simp
  | cons t ts ih => rw [List.cons_append, nodes_cons, ih, nodes_cons, List.append_assoc]

theorem mem_nodes_iff {ts : List (NamedTree K L)} {p : List K} {l : L} :
    (p, l) ∈ nodes ts ↔ ∃ t ∈ ts, (p, l) ∈ nodesOf t := by
  induction ts with
  | nil => simp
  | cons t ts ih => simp [nodes_cons, ih]

theorem ne_nil_of_mem_nodesOf {t : NamedTree K L} {p : List K} {l : L} (h : (p, l) ∈ nodesOf t) :
    p ≠ [] := by
  rw [nodesOf_eq] at h
  rintro rfl
  simp at h

theorem ne_nil_of_mem_nodes {ts : List (NamedTree K L)} {p : List K} {l : L} (h : (p, l) ∈ nodes ts) :
    p ≠ [] := by
  obtain ⟨t, -, ht⟩ := mem_nodes_iff.mp h
  exact ne_nil_of_mem_nodesOf ht

inductive Distinct : List (NamedTree K L) → Prop
  | intro {ts : List (NamedTree K L)} : (ts.map name).Nodup → (∀ t ∈ ts, Distinct t.children) → Distinct ts

theorem Distinct.nodup {ts : List (NamedTree K L)} : Distinct ts → (ts.map name).Nodup
  | .intro h _ => h

theorem Distinct.child {ts : List (NamedTree K L)} {t : NamedTree K L} :
    Distinct ts → t ∈ ts → Distinct t.children
  | .intro _ h, ht => h t ht

theorem Distinct.nil : Distinct ([] : List (NamedTree K L)) := .intro List.nodup_nil (by simp)

variable [DecidableEq K]

theorem Distinct.add {ts : List (NamedTree K L)} {t : NamedTree K L} (h : Distinct ts)
    (ht : Distinct t.children) : Distinct (Keyed.add name ts t) := by
  refine .intro (Keyed.nodup_add h.nodup t) fun u hu => ?_
  rcases Keyed.mem_add hu with hu | rfl
  · exact h.child hu
  · exact ht

theorem Distinct.modify {ts : List (NamedTree K L)} {f : NamedTree K L → NamedTree K L} (h : Distinct ts)
    (hname : ∀ t, (f t).name = t.name) (hf : ∀ t ∈ ts, Distinct (f t).children) (k : K) :
    Distinct (Keyed.modify name ts k f) := by
  refine .intro (Keyed.nodup_modify hname h.nodup k) fun u hu => ?_
  obtain ⟨t, ht, rfl | ⟨-, rfl⟩⟩ := Keyed.mem_modify hu
  · exact h.child ht
  · exact hf t ht

def lookup : List K → List (NamedTree K L) → Option L
  | [], _ => none
  | k :: p, ts => (Keyed.find name ts k).bind fun t =>
      if p = [] then some t.label else lookup p t.children

theorem lookup_cons (k : K) (p : List K) (ts : List (NamedTree K L)) :
    lookup (k :: p) ts = (Keyed.find name ts k).bind fun t =>
      if p = [] then some t.label else lookup p t.children := rfl

@[simp] theorem lookup_nil (p : List K) : lookup p ([] : List (NamedTree K L)) = none := by
  cases p <;> rfl

theorem lookup_of_mem_nodes {p : List K} {ts : List (NamedTree K L)} (hts : Distinct ts) {l : L}
    (h : (p, l) ∈ nodes ts) : lookup p ts = some l := by
  induction p generalizing ts with
  | nil => exact absurd rfl (ne_nil_of_mem_nodes h)
  | cons k p ih =>
    obtain ⟨t, ht, hmem⟩ := mem_nodes_iff.mp h
    rw [nodesOf_eq, List.mem_cons, List.mem_map] at hmem
    rcases hmem with heq | ⟨⟨q, m⟩, hq, heq⟩
    · obtain ⟨⟨rfl, rfl⟩, rfl⟩ := by simpa using heq
      rw [lookup_cons, Keyed.find_of_mem hts.nodup ht]
      rfl
    · obtain ⟨⟨rfl, rfl⟩, rfl⟩ := by simpa using heq
      rw [lookup_cons, Keyed.find_of_mem hts.nodup ht, Option.bind_some, if_neg (ne_nil_of_mem_nodes hq)]
      exact ih (hts.child ht) hq

end NamedTree

end Nas.Lib
