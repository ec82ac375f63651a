import Mathlib.Data.List.Basic

/-!
# Runs of a state machine, and loops that ask their surroundings

A machine is a total function `step : S → E → S`; an event that is not
possible in a state leaves it as it is. `run step s es` is the state after
the events `es`, and `Along step P s es` says that `P` holds of every step
of that run, taken at the state the step starts in.

`run_keep` is the invariant rule for runs, and `Along.run` the one for runs
whose steps all satisfy a condition. `Along.imp` derives a property of every
step from the invariant. `run_iff_along` is for a property that is never regained.

`forEach` is a loop over a list whose `k`-th round is given the `k`-th answer
of an oracle, so that a theorem about every oracle is a theorem about every
behaviour of what the loop calls. `forEach_keep` is its invariant rule, and
`forEachLog` is what the rounds of a loop write down.
-/

namespace Nas.Lib

section Run

variable {S E : Type*}

/-- The state after the events `es`, in order, from `s`. -/
def run (step : S → E → S) (s : S) (es : List E) : S := es.foldl step s

/-- `P` holds of every step of the run of `es` from `s`. -/
def Along (step : S → E → S) (P : S → E → Prop) : S → List E → Prop
  | _, [] => True
  | s, e :: es => P s e ∧ Along step P (step s e) es

variable {step : S → E → S} {P Q : S → E → Prop}

@[simp] theorem run_nil (s : S) : run step s [] = s := rfl

@[simp] theorem run_cons (s : S) (e : E) (es : List E) :
    run step s (e :: es) = run step (step s e) es := rfl

theorem run_append (s : S) (es fs : List E) :
    run step s (es ++ fs) = run step (run step s es) fs := List.foldl_append ..

theorem run_keep {I : S → Prop} (hstep : ∀ s e, I s → I (step s e)) {s : S} (hs : I s)
    (es : List E) : I (run step s es) := by
  induction es generalizing s with
  | nil => exact hs
  | cons e es ih => exact ih (hstep s e hs)

@[simp] theorem along_nil (s : S) : Along step P s [] := trivial

@[simp] theorem along_cons (s : S) (e : E) (es : List E) :
    Along step P s (e :: es) ↔ P s e ∧ Along step P (step s e) es := Iff.rfl

instance Along.decidable [∀ s e, Decidable (P s e)] :
    ∀ (s : S) (es : List E), Decidable (Along step P s es)
  | _, [] => isTrue trivial
  | s, e :: es =>
    have := Along.decidable (step s e) es
    inferInstanceAs (Decidable (P s e ∧ Along step P (step s e) es))

theorem along_of_forall {es : List E} (h : ∀ s, ∀ e ∈ es, P s e) (s : S) : Along step P s es := by
  induction es generalizing s with
  | nil => trivial
  | cons e es ih => exact ⟨h s e List.mem_cons_self, ih (fun s f hf => h s f (List.mem_cons_of_mem _ hf)) _⟩

/-- A run whose steps all satisfy `P` keeps what every step that satisfies
`P` keeps. -/
theorem Along.run {I : S → Prop} (hstep : ∀ s e, I s → P s e → I (step s e)) {s : S} {es : List E}
    (h : Along step P s es) (hs : I s) : I (Lib.run step s es) := by
  induction es generalizing s with
  | nil => exact hs
  | cons e es ih => exact ih h.2 (hstep s e hs h.1)

/-- What follows for one step from the invariant and `P` holds of every step
of a run whose steps all satisfy `P`. -/
theorem Along.imp {I : S → Prop} (hstep : ∀ s e, I s → P s e → I (step s e))
    (hQ : ∀ s e, I s → P s e → Q s e) {s : S} {es : List E}
    (h : Along step P s es) (hs : I s) : Along step Q s es := by
  induction es generalizing s with
  | nil => trivial
  | cons e es ih => exact ⟨hQ s e hs h.1, ih h.2 (hstep s e hs h.1)⟩

/-- What no step brings back holds at the end of a run when every step has kept it. -/
theorem run_iff_along {I : S → Prop} (hback : ∀ s e, I (step s e) → I s)
    (hstep : ∀ s e, I s → (I (step s e) ↔ P s e)) {s : S} (hs : I s) (es : List E) :
    I (Lib.run step s es) ↔ Along step P s es := by
  have hstart : ∀ (es : List E) {s : S}, I (Lib.run step s es) → I s := by
    intro es
    induction es with
    | nil => exact fun h => h
    | cons e es ih => exact fun {s} h => hback s e (ih h)
  induction es generalizing s with
  | nil => exact iff_of_true hs trivial
  | cons e es ih =>
    rw [along_cons, run_cons]
    constructor
    · intro h
      have hnext := hstart es h
      exact ⟨(hstep s e hs).mp hnext, (ih hnext).mp h⟩
    · rintro ⟨he, h⟩
      exact (ih ((hstep s e hs).mpr he)).mpr h

theorem along_append {s : S} {es fs : List E} :
    Along step P s (es ++ fs) ↔ Along step P s es ∧ Along step P (Lib.run step s es) fs := by
  induction es generalizing s with
  | nil => exact (and_iff_right trivial).symm
  | cons e es ih => simp only [List.cons_append, along_cons, run_cons, ih, and_assoc]

theorem Along.and {s : S} {es : List E} (h : Along step P s es) (h' : Along step Q s es) :
    Along step (fun s e => P s e ∧ Q s e) s es := by
  induction es generalizing s with
  | nil => trivial
  | cons e es ih => exact ⟨⟨h.1, h'.1⟩, ih h.2 h'.2⟩

end Run

section ForEach

variable {S A R : Type*}

/-- A loop over a list; the `k`-th round runs `body` with the `k`-th answer of `ω`. -/
def forEach (body : S → A → R → S) : S → List A → (Nat → R) → S
  | s, [], _ => s
  | s, x :: xs, ω => forEach body (body s x (ω 0)) xs (fun k => ω (k + 1))

variable {body : S → A → R → S}

@[simp] theorem forEach_nil (s : S) (ω : Nat → R) : forEach body s [] ω = s := rfl

@[simp] theorem forEach_cons (s : S) (x : A) (xs : List A) (ω : Nat → R) :
    forEach body s (x :: xs) ω = forEach body (body s x (ω 0)) xs (fun k => ω (k + 1)) := rfl

theorem forEach_append (s : S) (xs ys : List A) (ω : Nat → R) :
    forEach body s (xs ++ ys) ω =
      forEach body (forEach body s xs ω) ys (fun k => ω (xs.length + k)) := by
  induction xs generalizing s ω with
  | nil => simp
  | cons x xs ih =>
    simp only [List.cons_append, forEach_cons, ih, List.length_cons, Nat.add_right_comm _ 1]

theorem forEach_keep {I : S → Prop} {xs : List A} (hbody : ∀ s x a, x ∈ xs → I s → I (body s x a))
    {s : S} (hs : I s) (ω : Nat → R) : I (forEach body s xs ω) := by
  induction xs generalizing s ω with
  | nil => exact hs
  | cons x xs ih =>
    exact ih (fun s y a hy => hbody s y a (List.mem_cons_of_mem _ hy))
      (hbody s x (ω 0) List.mem_cons_self hs) _

/-- A loop keeps what each of its rounds keeps, given the answer of that round. -/
theorem forEach_keep_get {I : S → Prop} {xs : List A} {ω : Nat → R}
    (hbody : ∀ s k x, xs[k]? = some x → I s → I (body s x (ω k))) {s : S} (hs : I s) :
    I (forEach body s xs ω) := by
  induction xs generalizing s ω with
  | nil => exact hs
  | cons x xs ih =>
    refine ih (fun s k y hy => hbody s (k + 1) y ?_) (hbody s 0 x rfl hs)
    rwa [List.getElem?_cons_succ]

/-- An invariant of the state and of the part of the list still to come holds after
every part of the loop. -/
theorem forEach_scan {I : S → List A → Prop} {ω : Nat → R}
    (hbody : ∀ s x xs k, I s (x :: xs) → I (body s x (ω k)) xs) {s : S} {xs ys : List A}
    (hs : I s (xs ++ ys)) : I (forEach body s xs ω) ys := by
  induction xs generalizing s ω with
  | nil => exact hs
  | cons x xs ih =>
    exact ih (fun s y ys k => hbody s y ys (k + 1)) (hbody s x (xs ++ ys) 0 hs)

theorem forEach_scan_all {I : S → List A → Prop} {ω : Nat → R}
    (hbody : ∀ s x xs k, I s (x :: xs) → I (body s x (ω k)) xs) {s : S} {xs : List A} (hs : I s xs) :
    I (forEach body s xs ω) [] :=
  forEach_scan hbody (by rwa [List.append_nil])

variable {P : Type*}

/-- What the rounds of the loop write down, each at the state it starts in. -/
def forEachLog (body : S → A → R → S) (log : S → A → R → List P) : S → List A → (Nat → R) → List P
  | _, [], _ => []
  | s, x :: xs, ω => log s x (ω 0) ++ forEachLog body log (body s x (ω 0)) xs (fun k => ω (k + 1))

/-- An entry of the log is written by a round, at the state in which the rounds before leave it. -/
theorem mem_forEachLog_get {log : S → A → R → List P} {s : S} {xs : List A} {ω : Nat → R} {p : P}
    (h : p ∈ forEachLog body log s xs ω) :
    ∃ k x, xs[k]? = some x ∧ p ∈ log (forEach body s (xs.take k) ω) x (ω k) := by
  induction xs generalizing s ω with
  | nil => cases h
  | cons x xs ih =>
    rcases List.mem_append.mp h with h | h
    · exact ⟨0, x, rfl, h⟩
    · obtain ⟨k, y, hy, hp⟩ := ih h
      exact ⟨k + 1, y, hy, hp⟩

theorem mem_forEachLog {log : S → A → R → List P} {s : S} {xs : List A} {ω : Nat → R} {p : P}
    (h : p ∈ forEachLog body log s xs ω) : ∃ s x a, p ∈ log s x a := by
  obtain ⟨k, x, -, hp⟩ := mem_forEachLog_get h
  exact ⟨_, x, ω k, hp⟩

/-- Every entry of the log is as the rounds allow, given what they keep and their answers. -/
theorem forEachLog_keep_get {I : S → Prop} {Q : P → Prop} {log : S → A → R → List P} {xs : List A}
    {ω : Nat → R} (hbody : ∀ s k x, xs[k]? = some x → I s → I (body s x (ω k)) ∧ ∀ p ∈ log s x (ω k), Q p)
    {s : S} (hs : I s) : ∀ p ∈ forEachLog body log s xs ω, Q p := by
  induction xs generalizing s ω with
  | nil => exact nofun
  | cons x xs ih =>
    intro p hp
    obtain ⟨hs', hx⟩ := hbody s 0 x rfl hs
    rcases List.mem_append.mp hp with hp | hp
    · exact hx p hp
    · refine ih (fun s k y hy => hbody s (k + 1) y ?_) hs' p hp
      rwa [List.getElem?_cons_succ]

end ForEach

end Nas.Lib
