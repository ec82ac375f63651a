import Mathlib.Data.List.Basic
import Mathlib.Tactic.Common

/-!
# Walking a tree with a request to stop

A `Forest` is the first entry of a directory with what is below it, and the entries after it. `walk`
calls a function for each entry before those below it, and the request to stop ends only the loop over the
entries of one directory: the loop of the directory above goes on. `visits` lists the entries in the order
of the walk, each with whether a loop that encloses its own has an entry to come. `stopsAt` is that mark at
the first entry where the function asks to stop, and `ends_walk` says what the calls are, by that mark.
-/

namespace Nas.Lib

inductive Forest (α : Type)
  | empty
  | node (entry : α) (below after : Forest α)

abbrev Log (α : Type) := List (α × Bool)

namespace Forest

variable {α : Type} {ask : Log α → α → Bool} {f : Forest α} {log log' : Log α}

def flatten : Forest α → List α
  | empty => []
  | node a below after => a :: (below.flatten ++ after.flatten)

/-- Each call is logged, and `ask` may look at the log. -/
def walk (ask : Log α → α → Bool) : Forest α → Log α → Log α
  | empty, log => log
  | node a below after, log =>
    if ask log a then log ++ [(a, true)] else after.walk ask (below.walk ask (log ++ [(a, false)]))

def visits : Forest α → List (α × Bool)
  | empty => []
  | node a below empty => (a, false) :: below.visits
  | node a below after => (a, false) :: (below.flatten.map (·, true) ++ after.visits)

def stopsAt (ask : Log α → α → Bool) : List (α × Bool) → Log α → Option Bool
  | [], _ => none
  | (a, mark) :: xs, log => if ask log a then some mark else stopsAt ask xs (log ++ [(a, false)])

theorem stopsAt_append (xs ys : List (α × Bool)) : stopsAt ask (xs ++ ys) log =
    (stopsAt ask xs log).or (stopsAt ask ys (log ++ xs.map fun x => (x.1, false))) := by
  induction xs generalizing log with
  | nil => simp [stopsAt]
  | cons x xs ih =>
    rw [List.cons_append, stopsAt, stopsAt]
    split
    · rfl
    · rw [ih, List.map_cons, List.append_assoc, List.singleton_append]

/-- Where `ask` asks to stop does not depend on the marks. -/
theorem stopsAt_mark (xs : List (α × Bool)) :
    stopsAt ask (xs.map fun x => (x.1, true)) log = (stopsAt ask xs log).map fun _ => true := by
  induction xs generalizing log with
  | nil => rfl
  | cons x xs ih =>
    rw [List.map_cons, stopsAt, stopsAt]
    split
    · rfl
    · exact ih

theorem map_visits (f : Forest α) : f.visits.map Prod.fst = f.flatten := by
  induction f with
  | empty => rfl
  | node a below after ihb iha =>
    cases after with
    | empty => simp [visits, flatten, ihb]
    | node b below' after' => simp [visits, flatten, iha, Function.comp_def]

theorem stopsAt_flatten : stopsAt ask (f.flatten.map (·, true)) log =
    (stopsAt ask f.visits log).map fun _ => true := by
  rw [← stopsAt_mark, ← map_visits, List.map_map]
  rfl

/-- The entries below come first. Their mark is kept if nothing is after them. -/
theorem stopsAt_node {a : α} (hask : ¬ ask log a = true) (below after : Forest α) :
    stopsAt ask (node a below after).visits log =
      ((stopsAt ask below.visits (log ++ [(a, false)])).map fun mark =>
          match after with
          | empty => mark
          | node .. => true).or
        (stopsAt ask after.visits (log ++ (a :: below.flatten).map (·, false))) := by
  cases after with
  | empty => simp [visits, stopsAt, hask]
  | node b below' after' =>
    rw [visits, stopsAt, if_neg hask, stopsAt_append, stopsAt_flatten]
    · simp [Function.comp_def]
    · intro h
      cases h

/-- The log of a walk over `entries`, by the mark at the first request to stop: there is none and all are
logged; or the walk logs something after it exactly if the mark is set. -/
def Ends (log : Log α) (entries : List α) (log' : Log α) : Option Bool → Prop
  | none => log' = log ++ entries.map (·, false)
  | some mark => ∃ (pre : List α) (a : α) (post : Log α),
      log' = log ++ (pre.map (·, false) ++ (a, true) :: post) ∧ (mark = true ↔ post ≠ [])

/-- Entries that have not asked to stop come before. -/
theorem Ends.append {entries : List α} {mark : Option Bool} (before : List α)
    (h : Ends (log ++ before.map (·, false)) entries log' mark) : Ends log (before ++ entries) log' mark := by
  cases mark with
  | none => exact h.trans (by simp)
  | some mark =>
    obtain ⟨pre, a, post, hlog, hmark⟩ := h
    exact ⟨before ++ pre, a, post, by simp [hlog], hmark⟩

theorem exists_walk_eq (ask : Log α → α → Bool) (f : Forest α) (log : Log α) :
    ∃ more, f.walk ask log = log ++ more ∧ (f ≠ empty → more ≠ []) := by
  induction f generalizing log with
  | empty => exact ⟨[], by simp [walk]⟩
  | node a below after ihb iha =>
    rw [walk]
    split
    · exact ⟨[(a, true)], rfl, by simp⟩
    · obtain ⟨more, hmore, -⟩ := ihb (log ++ [(a, false)])
      obtain ⟨more', hmore', -⟩ := iha (log ++ [(a, false)] ++ more)
      exact ⟨(a, false) :: (more ++ more'), by rw [hmore, hmore']; simp, by simp⟩

/-- An entry below has asked to stop; the loop above it goes on with the entries after. -/
theorem Ends.walk_of_ne_empty {entries entries' : List α} {mark : Bool}
    (h : Ends log entries log' (some mark)) (hne : f ≠ empty) :
    Ends log entries' (f.walk ask log') (some true) := by
  obtain ⟨pre, a, post, rfl, -⟩ := h
  obtain ⟨more, hmore, hadds⟩ := exists_walk_eq ask f (log ++ (pre.map (·, false) ++ (a, true) :: post))
  exact ⟨pre, a, post ++ more, by simp [hmore], by simp [hadds hne]⟩

theorem ends_walk (ask : Log α → α → Bool) (f : Forest α) (log : Log α) :
    Ends log f.flatten (f.walk ask log) (stopsAt ask f.visits log) := by
  induction f generalizing log with
  | empty => exact (List.append_nil log).symm
  | node a below after ihb iha =>
    by_cases hask : ask log a = true
    · have hstop : stopsAt ask (node a below after).visits log = some false := by
        cases after <;> simp [visits, stopsAt, hask]
      rw [hstop, walk, if_pos hask]
      exact ⟨[], a, [], rfl, by simp⟩
    · have hbelow := ihb (log ++ [(a, false)])
      rw [walk, if_neg hask, stopsAt_node hask]
      cases hmark : stopsAt ask below.visits (log ++ [(a, false)]) with
      | none =>
        rw [hmark] at hbelow
        have hlog : below.walk ask (log ++ [(a, false)]) = log ++ (a :: below.flatten).map (·, false) :=
          hbelow.trans (by simp)
        rw [hlog]
        exact Ends.append _ (iha _)
      | some mark =>
        rw [hmark] at hbelow
        have hend : Ends log (node a below after).flatten (below.walk ask (log ++ [(a, false)])) (some mark) :=
          Ends.append [a] hbelow
        cases after with
        | empty => exact hend
        | node b below' after' => exact hend.walk_of_ne_empty (by simp)

/-- The calls are one for each entry if none has asked to stop, and there is none after one that has. -/
structure Obeys (entries : List α) (log : Log α) : Prop where
  complete : (∀ call ∈ log, call.2 = false) → log.map Prod.fst = entries
  stopped : ∀ pre call post, log = pre ++ call :: post → call.2 = true → post = []

theorem snd_of_mem_map {xs : List α} {call : α × Bool} (h : call ∈ xs.map (·, false)) : call.2 = false := by
  obtain ⟨a, -, rfl⟩ := List.mem_map.mp h
  rfl

theorem obeys_map (entries : List α) : Obeys entries (entries.map (·, false)) where
  complete _ := by simp [Function.comp_def]
  stopped pre call post hlog hstop := by
    have hcall : call ∈ entries.map (·, false) := by simp [hlog]
    rw [snd_of_mem_map hcall] at hstop
    cases hstop

theorem obeys_concat (entries pre : List α) (a : α) : Obeys entries (pre.map (·, false) ++ [(a, true)]) where
  complete h := absurd (h (a, true) (by simp)) (by simp)
  stopped pre' call post hlog hstop := by
    rcases List.eq_nil_or_concat post with hnil | ⟨rest, last, rfl⟩
    · exact hnil
    · have hlog' : pre.map (·, false) ++ [(a, true)] = (pre' ++ call :: rest) ++ [last] := by
        simpa using hlog
      have hcall : call ∈ pre.map (·, false) := by simp [(List.append_inj' hlog' rfl).1]
      rw [snd_of_mem_map hcall] at hstop
      cases hstop

theorem Ends.obeys_iff {entries : List α} {mark : Option Bool} (h : Ends [] entries log mark) :
    Obeys entries log ↔ mark ≠ some true := by
  cases mark with
  | none =>
    subst h
    simpa using obeys_map entries
  | some mark =>
    obtain ⟨pre, a, post, rfl, hmark⟩ := h
    constructor
    · intro hobeys htrue
      exact hmark.mp (Option.some.inj htrue) (hobeys.stopped _ (a, true) post rfl rfl)
    · intro hfalse
      have hpost : post = [] := not_not.mp fun hne => hfalse (congrArg some (hmark.mpr hne))
      subst hpost
      exact obeys_concat entries pre a

end Forest

end Nas.Lib
