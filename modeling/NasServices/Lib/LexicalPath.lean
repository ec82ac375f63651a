import Mathlib.Data.List.Infix
import Mathlib.Data.List.TakeWhile
import Mathlib.Tactic.Common
import NasServices.Lib.Delimited

/-!
# Lexical normal forms of paths

A path is a text; `parts` are the texts between its slashes. `normal` reads the parts
from the left: an empty part and `.` do nothing, `..` takes the last name away, any
other part is a name. The result says whether the path is absolute and lists its
names; no file system is asked.

`normal_append` is the normal form of a path below another one, and `isChild_walk` says
when such a path is a direct child. `AbsPath` is an absolute path that is in normal
form by construction, and `isPrefix_parts` compares the text of one with any path.
-/

namespace Nas.Lib.LexicalPath

abbrev Text := List Char

def parts (p : Text) : List Text := p.splitOn '/'

def IsName (x : Text) : Prop := x ≠ [] ∧ x ≠ ['.'] ∧ x ≠ ['.', '.']

instance (x : Text) : Decidable (IsName x) := inferInstanceAs (Decidable (_ ∧ _ ∧ _))

theorem isName_of_length {x : Text} (h : 2 < x.length) : IsName x := by
  refine ⟨?_, ?_, ?_⟩ <;> rintro rfl <;> simp at h

structure Normal where
  absolute : Bool
  names : List Text
  deriving DecidableEq

namespace Normal

def child (n : Normal) (x : Text) : Normal := { n with names := n.names ++ [x] }

def up (n : Normal) : Normal :=
  match n.names.getLast? with
  | none => if n.absolute then n else n.child ['.', '.']
  | some x => if x = ['.', '.'] then n.child ['.', '.'] else { n with names := n.names.dropLast }

def step (n : Normal) (x : Text) : Normal :=
  if x = [] ∨ x = ['.'] then n else if x = ['.', '.'] then n.up else n.child x

def walk (n : Normal) (xs : List Text) : Normal := xs.foldl step n

def IsChild (n m : Normal) : Prop := ∃ x, IsName x ∧ m = n.child x

instance (n m : Normal) : Decidable (n.IsChild m) :=
  decidable_of_iff (∃ x ∈ m.names, IsName x ∧ m = n.child x)
    ⟨fun ⟨x, _, h⟩ => ⟨x, h⟩, fun ⟨x, h, hm⟩ => ⟨x, by simp [hm, child], h, hm⟩⟩

def Within (n m : Normal) : Prop := n.absolute = m.absolute ∧ m.names <+: n.names

instance (n m : Normal) : Decidable (n.Within m) := inferInstanceAs (Decidable (_ ∧ _))

end Normal

def root : Normal := ⟨true, []⟩

def normal (p : Text) : Normal := Normal.walk ⟨p.head? = some '/', []⟩ (parts p)

open Normal

variable {n m : Normal} {x : Text} {xs ys : List Text} {p : Text}

/-! ## Parts -/

theorem parts_append (p q : Text) : parts (p ++ '/' :: q) = parts p ++ parts q :=
  List.splitOnP_append_cons p q (by simp)

theorem parts_of_notMem (h : '/' ∉ x) : parts x = [x] := List.splitOn_eq_singleton h

theorem parts_slash (q : Text) : parts ('/' :: q) = [] :: parts q := parts_append [] q

theorem parts_ne_nil (p : Text) : parts p ≠ [] := List.splitOn_ne_nil _ _

theorem parts_cons {c : Char} (h : c ≠ '/') (p : Text) : parts (c :: p) = (parts p).modifyHead (c :: ·) := by
  show List.splitOnP (· == '/') (c :: p) = _
  rw [List.splitOnP_cons_eq_if_modifyHead, if_neg (by simpa using h)]
  rfl

theorem intercalate_parts (p : Text) : ['/'].intercalate (parts p) = p := List.intercalate_splitOn '/'

theorem parts_intercalate (hxs : xs ≠ []) (h : ∀ x ∈ xs, '/' ∉ x) : parts (['/'].intercalate xs) = xs :=
  List.splitOn_intercalate '/' h hxs

theorem parts_injective {p q : Text} (h : parts p = parts q) : p = q := by
  rw [← intercalate_parts p, h, intercalate_parts]

/-- A change of characters that neither makes nor removes a slash changes each part. -/
theorem parts_map {f : Char → Char} (hf : ∀ c, f c = '/' ↔ c = '/') (p : Text) :
    parts (p.map f) = (parts p).map (·.map f) := by
  induction p with
  | nil => rfl
  | cons c p ih =>
    rw [List.map_cons]
    by_cases hc : c = '/'
    · rw [(hf c).mpr hc, hc, parts_slash, parts_slash, ih]
      rfl
    · rw [parts_cons fun h => hc ((hf c).mp h), parts_cons hc, ih]
      cases parts p <;> rfl

theorem parts_append_text (p : Text) {t : Text} (ht : '/' ∉ t) :
    ∃ init last, parts p = init ++ [last] ∧ parts (p ++ t) = init ++ [last ++ t] := by
  induction p with
  | nil => exact ⟨[], [], rfl, parts_of_notMem ht⟩
  | cons c p ih =>
    obtain ⟨init, last, hp, hpt⟩ := ih
    by_cases hc : c = '/'
    · subst hc
      rw [List.cons_append, parts_slash, parts_slash, hp, hpt]
      exact ⟨[] :: init, last, rfl, rfl⟩
    · rw [List.cons_append, parts_cons hc, parts_cons hc, hp, hpt]
      cases init with
      | nil => exact ⟨[], c :: last, rfl, rfl⟩
      | cons x init => exact ⟨(c :: x) :: init, last, rfl, rfl⟩

theorem notMem_parts (h : x ∈ parts p) : '/' ∉ x := Delimited.notMem_of_mem_splitOn h

/-! ## Walks -/

theorem walk_append (n : Normal) (xs ys : List Text) : n.walk (xs ++ ys) = (n.walk xs).walk ys :=
  List.foldl_append

@[simp] theorem walk_nil (n : Normal) : n.walk [] = n := rfl

@[simp] theorem walk_cons (n : Normal) (x : Text) (xs : List Text) : n.walk (x :: xs) = (n.step x).walk xs :=
  rfl

@[simp] theorem step_empty (n : Normal) : n.step [] = n := rfl

theorem step_absolute (n : Normal) (x : Text) : (n.step x).absolute = n.absolute := by
  unfold Normal.step Normal.up
  split <;> [rfl; split] <;> [skip; rfl]
  split <;> split <;> rfl

theorem walk_absolute (n : Normal) (xs : List Text) : (n.walk xs).absolute = n.absolute := by
  induction xs generalizing n with
  | nil => rfl
  | cons x xs ih => rw [walk_cons, ih, step_absolute]

theorem normal_absolute_iff : (normal p).absolute = true ↔ p.head? = some '/' := by
  rw [normal, walk_absolute]
  exact decide_eq_true_iff

theorem step_name (h : IsName x) : n.step x = n.child x := by
  rw [Normal.step, if_neg (fun hx => hx.elim h.1 h.2.1), if_neg h.2.2]

theorem child_injective {x y : Text} (h : n.child x = m.child y) : n = m ∧ x = y := by
  obtain ⟨a, ns⟩ := n
  obtain ⟨b, ms⟩ := m
  simp only [Normal.child, Normal.mk.injEq] at h
  obtain ⟨rfl, hx⟩ := List.append_inj' h.2 rfl |>.imp_right List.singleton_inj.mp
  exact ⟨by rw [h.1], hx⟩

/-- A walk that ends in a name is a child of `n` exactly when the parts before it lead to `n`. -/
theorem isChild_walk (h : IsName x) : n.IsChild (m.walk (xs ++ [x])) ↔ m.walk xs = n := by
  rw [walk_append, walk_cons, step_name h, walk_nil]
  constructor
  · rintro ⟨y, -, hy⟩
    exact (child_injective hy).1
  · rintro rfl
    exact ⟨x, h, rfl⟩

theorem not_isChild_self (n : Normal) : ¬ n.IsChild n := by
  rintro ⟨y, -, heq⟩
  have := congrArg (fun n => n.names.length) heq
  simp [Normal.child] at this

theorem not_isChild_up (n : Normal) : ¬ n.IsChild n.up := by
  have hpush {y : Text} (hy : IsName y) : n.child ['.', '.'] ≠ n.child y :=
    fun heq => hy.2.2 (child_injective heq).2.symm
  unfold Normal.up
  split
  · split
    · exact not_isChild_self n
    · rintro ⟨y, hy, heq⟩
      exact hpush hy heq
  · split
    · rintro ⟨y, hy, heq⟩
      exact hpush hy heq
    · rintro ⟨y, -, heq⟩
      have := congrArg (fun n => n.names.length) heq
      simp only [Normal.child, List.length_dropLast, List.length_append, List.length_singleton] at this
      omega

/-- Nothing but a name leads to a child. -/
theorem isName_of_isChild_step (h : n.IsChild (n.step x)) : IsName x := by
  unfold Normal.step at h
  split at h
  · exact absurd h (not_isChild_self n)
  · rename_i hdot
    split at h
    · exact absurd h (not_isChild_up n)
    · rename_i hup
      exact ⟨fun hnil => hdot (.inl hnil), fun hone => hdot (.inr hone), hup⟩

/-- The directory that a path with a slash after it starts in. -/
theorem normal_append (p x : Text) : normal (p ++ '/' :: x) = (normal (p ++ ['/'])).walk (parts x) := by
  have hhead : (p ++ '/' :: x).head? = (p ++ ['/']).head? := by
    cases p <;> rfl
  have hslash : parts (p ++ ['/']) = parts p ++ [[]] := parts_append p []
  rw [normal, normal, hhead, parts_append, hslash, walk_append, walk_append]
  rfl

theorem normal_slash (h : p ≠ []) : normal (p ++ ['/']) = normal p := by
  have hhead : (p ++ ['/']).head? = p.head? := by
    obtain ⟨c, cs, rfl⟩ := List.exists_cons_of_ne_nil h
    rfl
  rw [normal, normal, hhead, parts_append p [], walk_append]
  rfl

/-! ## Absolute paths -/

def Resolved (names : List Text) : Prop := ∀ x ∈ names, IsName x ∧ '/' ∉ x

instance (names : List Text) : Decidable (Resolved names) :=
  inferInstanceAs (Decidable (∀ x ∈ names, IsName x ∧ '/' ∉ x))

theorem Resolved.step (hn : n.absolute = true) (h : Resolved n.names) (hx : '/' ∉ x) :
    Resolved (n.step x).names := by
  unfold Normal.step
  split
  · exact h
  · rename_i hdot
    split
    · unfold Normal.up
      split
      · rw [if_pos hn]
        exact h
      · rename_i y hy
        rw [if_neg (h y (List.mem_of_getLast? hy)).1.2.2]
        exact fun z hz => h z (List.dropLast_subset _ hz)
    · rename_i hup
      intro z hz
      rcases List.mem_append.mp hz with hz | hz
      · exact h z hz
      · obtain rfl := List.mem_singleton.mp hz
        exact ⟨⟨fun hnil => hdot (.inl hnil), fun hone => hdot (.inr hone), hup⟩, hx⟩

theorem Resolved.walk (hn : n.absolute = true) (h : Resolved n.names) (hxs : ∀ x ∈ xs, '/' ∉ x) :
    Resolved (n.walk xs).names := by
  induction xs generalizing n with
  | nil => exact h
  | cons x xs ih =>
    exact ih ((step_absolute n x).trans hn) (h.step hn (hxs x List.mem_cons_self)) fun y hy =>
      hxs y (List.mem_cons_of_mem _ hy)

theorem normal_resolved (r : Text) : Resolved (normal ('/' :: r)).names :=
  Resolved.walk (n := root) rfl (fun _ hx => nomatch hx) fun _ hx => notMem_parts hx

structure AbsPath where
  names : List Text
  resolved : Resolved names

def AbsPath.text (a : AbsPath) : Text := '/' :: ['/'].intercalate a.names

def AbsPath.normal (a : AbsPath) : Normal := ⟨true, a.names⟩

theorem AbsPath.parts_text (a : AbsPath) (h : a.names ≠ []) : parts a.text = [] :: a.names := by
  rw [AbsPath.text, parts_slash, parts_intercalate h fun x hx => (a.resolved x hx).2]

/-- One path starts with the parts of another exactly when it is the same or goes on with a slash. -/
theorem isPrefix_parts {p q : Text} : parts p <+: parts q ↔ q = p ∨ ∃ t, q = p ++ '/' :: t := by
  constructor
  · rintro ⟨rest, hrest⟩
    by_cases hnil : rest = []
    · rw [hnil, List.append_nil] at hrest
      exact .inl (parts_injective hrest.symm)
    · refine .inr ⟨['/'].intercalate rest, parts_injective ?_⟩
      have hsep : ∀ x ∈ rest, '/' ∉ x := fun x hx =>
        notMem_parts (hrest ▸ List.mem_append_right _ hx : x ∈ parts q)
      rw [parts_append, parts_intercalate hnil hsep, hrest]
  · rintro (rfl | ⟨t, rfl⟩)
    · exact List.prefix_rfl
    · exact ⟨parts t, (parts_append p t).symm⟩

def lead (xs : List Text) : List Text := xs.takeWhile fun x => IsName x

theorem isPrefix_lead (h : ∀ x ∈ xs, IsName x) : xs <+: ys ↔ xs <+: lead ys := by
  constructor
  · rintro ⟨rest, rfl⟩
    rw [lead, List.takeWhile_append_of_pos (by simpa using h)]
    exact List.prefix_append _ _
  · exact fun hlead => hlead.trans (List.takeWhile_prefix _)

theorem lead_resolved (p : Text) : Resolved (lead (parts p)) := by
  intro x hx
  refine ⟨by simpa using List.mem_takeWhile_imp hx, notMem_parts ((List.takeWhile_prefix _).subset hx)⟩

end Nas.Lib.LexicalPath
