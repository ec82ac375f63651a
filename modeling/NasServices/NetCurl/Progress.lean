import Mathlib.Tactic.Linarith
import Mathlib.Tactic.FieldSimp
import NasServices.NetCurl.CurlDownloadTaskImpl

/-!
# The percentage that a transfer reports

`UpdateProgress` divides what is on disk and what has come by `file_total_size_`, which it sets at
the first call with a total and never again. The members belong to the task object, so the transfers
that it makes one after the other share it: a redirect with a body and what it leads to, the attempts
of `Perform`, and those after a `Reset`.

A `Phase` is a stretch in which the total does not change. `percentages_iff` says for which sequences
of phases the percentage is right at every call. `SetFileSize` takes the result of
`file_size` as it is, and that is `2 ^ 64 - 1` after an error; the arithmetic is that of
`unsigned long long`.
-/

namespace Nas.NetCurl

/-- What the members are when a total has been announced: the size of the temporary file when
`SetFileSize` asked for it, if there was one, and the `dltotal` of the progress calls. -/
structure Phase where
  fileSize : Option Nat
  dltotal : Nat
  fileSize_lt : fileSize.getD 0 < 2 ^ 63
  dltotal_lt : dltotal < 2 ^ 63

namespace Phase

def onDisk (p : Phase) : Nat := p.fileSize.getD 0

def size (p : Phase) : Nat := p.onDisk + p.dltotal

end Phase

namespace HttpDownloadTask

def setFileSize (h : HttpDownloadTask) (fileSize : Option Nat) : HttpDownloadTask :=
  { h with fileInitSize := fileSize.getD (2 ^ 64 - 1) }

def updatePercent (h : HttpDownloadTask) (dltotal dlnow : Nat) : HttpDownloadTask × ℚ :=
  if dltotal = 0 then (h, 0)
  else
    let total := if h.firstHasTotalValue then (dltotal + h.fileInitSize) % 2 ^ 64 else h.fileTotalSize
    let total := if total = 0 then dltotal else total
    ({ h with firstHasTotalValue := false, fileTotalSize := total },
      (((dlnow + h.fileInitSize) % 2 ^ 64 : Nat) * 100 : ℚ) / total)

end HttpDownloadTask

/-- The members of the task object, and the phase it is in. -/
structure Reporting where
  task : HttpDownloadTask := {}
  phase : Option Phase := none

/-- A new phase, a call of the progress callback, or `NetworkTask::Reset`, which sets none of the
members that `UpdateProgress` uses. -/
inductive Report
  | phase (p : Phase)
  | progress (dlnow : Nat)
  | reset

namespace Report

def phase? : Report → Option Phase
  | .phase p => some p
  | _ => none

end Report

namespace Reporting

def step (s : Reporting) : Report → Reporting
  | .phase p => { task := s.task.setFileSize p.fileSize, phase := some p }
  | .progress dlnow =>
    match s.phase with
    | none => s
    | some p => { s with task := (s.task.updatePercent p.dltotal dlnow).1 }
  | .reset => s

/-- The percentage of a call in phase `p` is in bounds, and 100 only for the whole resource. -/
def Percentage (p : Phase) (dlnow : Nat) (percent : ℚ) : Prop :=
  0 ≤ percent ∧ percent ≤ 100 ∧ (percent = 100 ↔ p.onDisk + dlnow = p.size)

def Right (s : Reporting) : Report → Prop
  | .progress dlnow => ∀ p, s.phase = some p → 0 < p.dltotal → dlnow ≤ p.dltotal →
      Percentage p dlnow (s.task.updatePercent p.dltotal dlnow).2
  | _ => True

structure SameSize (ps : List Phase) : Prop where
  readable : ∀ p ∈ ps, 0 < p.dltotal → p.fileSize.isSome = true
  same : ∀ p ∈ ps, ∀ q ∈ ps, 0 < p.dltotal → 0 < q.dltotal → p.size = q.size

theorem percentage_div {p : Phase} (hp : 0 < p.dltotal) {dlnow : Nat} (hnow : dlnow ≤ p.dltotal) :
    Percentage p dlnow (((dlnow + p.onDisk : Nat) * 100 : ℚ) / p.size) := by
  have hpos : (0 : ℚ) < p.size := by
    rw [Nat.cast_pos, Phase.size]
    omega
  have hle : ((dlnow + p.onDisk : Nat) : ℚ) ≤ p.size := by
    rw [Nat.cast_le, Phase.size]
    omega
  refine ⟨div_nonneg (mul_nonneg (Nat.cast_nonneg _) (by norm_num)) (Nat.cast_nonneg _), ?_, ?_⟩
  · rw [div_le_iff₀ hpos]
    linarith
  · rw [div_eq_iff hpos.ne', Nat.add_comm p.onDisk, ← Nat.cast_inj (R := ℚ)]
    constructor
    · intro h
      linarith
    · intro h
      rw [h, mul_comm]

/-! ## Phases of one size -/

variable {s : Reporting} {p q : Phase} {ps : List Phase}

structure Latched (n : Nat) (s : Reporting) : Prop where
  init : ∀ p, s.phase = some p → 0 < p.dltotal → p.size = n ∧ s.task.fileInitSize = p.onDisk
  total : s.task.firstHasTotalValue = false → s.task.fileTotalSize = n

/-- While the total is that of the resource, the percentage is right and the total stays. -/
theorem Latched.progress {n : Nat} (h : Latched n s) (hs : s.phase = some p) (hp : 0 < p.dltotal) (dlnow : Nat) :
    Latched n { s with task := (s.task.updatePercent p.dltotal dlnow).1 } ∧
      (dlnow ≤ p.dltotal → Percentage p dlnow (s.task.updatePercent p.dltotal dlnow).2) := by
  obtain ⟨hsize, hinit⟩ := h.init p hs hp
  have hdisk := p.fileSize_lt
  have hdltotal := p.dltotal_lt
  have hlt : p.dltotal + p.onDisk < 2 ^ 64 := by
    rw [Phase.onDisk]
    omega
  have htotal : (if s.task.firstHasTotalValue then (p.dltotal + s.task.fileInitSize) % 2 ^ 64
      else s.task.fileTotalSize) = n := by
    cases hfirst : s.task.firstHasTotalValue with
    | true => rw [if_pos rfl, hinit, Nat.mod_eq_of_lt hlt, Nat.add_comm, ← hsize, Phase.size]
    | false => rw [if_neg Bool.false_ne_true, h.total hfirst]
  have hn : n ≠ 0 := by
    rw [← hsize, Phase.size]
    omega
  simp only [HttpDownloadTask.updatePercent, if_neg hp.ne', htotal, if_neg hn]
  refine ⟨⟨fun q hq hq0 => ?_, fun _ => rfl⟩, fun hnow => ?_⟩
  · exact h.init q hq hq0
  · rw [hinit, Nat.mod_eq_of_lt (by omega), ← hsize]
    exact percentage_div hp hnow

theorem Latched.of_total_zero {n : Nat} (h : Latched n s) (hp : p.dltotal = 0) (dlnow : Nat) :
    Latched n { s with task := (s.task.updatePercent p.dltotal dlnow).1 } := by
  rw [HttpDownloadTask.updatePercent, if_pos hp]
  exact h

/-- All calls are right if the phases to come are of the size that has been set. -/
theorem right_of_latched {n : Nat} (es : List Report) (h : Latched n s)
    (hread : ∀ p ∈ es.filterMap Report.phase?, 0 < p.dltotal → p.fileSize.isSome = true ∧ p.size = n) :
    Lib.Along step Right s es := by
  induction es generalizing s with
  | nil => trivial
  | cons e es ih =>
    cases e with
    | phase p =>
      refine ⟨trivial, ih ⟨fun q hq hq0 => ?_, h.total⟩ fun q hq => hread q (List.mem_cons_of_mem _ hq)⟩
      obtain rfl : p = q := Option.some.inj hq
      obtain ⟨hsome, hsize⟩ := hread p List.mem_cons_self hq0
      obtain ⟨m, hm⟩ := Option.isSome_iff_exists.mp hsome
      refine ⟨hsize, ?_⟩
      show p.fileSize.getD (2 ^ 64 - 1) = p.fileSize.getD 0
      rw [hm]
      rfl
    | progress dlnow =>
      refine ⟨fun p hs hp hnow => (h.progress hs hp dlnow).2 hnow, ?_⟩
      refine ih ?_ hread
      rcases hs : s.phase with _ | p
      · have hstep : s.step (.progress dlnow) = s := by simp only [step, hs]
        rw [hstep]
        exact h
      · have hstep : s.step (.progress dlnow) = { s with task := (s.task.updatePercent p.dltotal dlnow).1 } := by
          simp only [step, hs]
        rw [hstep]
        rcases Nat.eq_zero_or_pos p.dltotal with hp | hp
        · exact h.of_total_zero hp dlnow
        · exact (h.progress hs hp dlnow).1
    | reset => exact ⟨trivial, ih h hread⟩

/-! ## Phases of different sizes -/

/-- Phases without progress calls leave the total alone. -/
theorem run_phases (s : Reporting) (ps : List Phase) :
    (Lib.run step s (ps.map .phase)).task.firstHasTotalValue = s.task.firstHasTotalValue ∧
      (Lib.run step s (ps.map .phase)).task.fileTotalSize = s.task.fileTotalSize := by
  induction ps generalizing s with
  | nil => exact ⟨rfl, rfl⟩
  | cons p ps ih => exact ih (s.step (.phase p))

/-- A call that is right in phase `p` can be the first only if the size could be read, and then sets
the total to that of the resource. -/
theorem first_call (hfirst : s.task.firstHasTotalValue = true) (hp : 0 < p.dltotal)
    (hright : Percentage p 0 ((s.task.setFileSize p.fileSize).updatePercent p.dltotal 0).2) :
    p.fileSize.isSome = true ∧
      ((s.task.setFileSize p.fileSize).updatePercent p.dltotal 0).1.firstHasTotalValue = false ∧
      ((s.task.setFileSize p.fileSize).updatePercent p.dltotal 0).1.fileTotalSize = p.size := by
  have hdltotal := p.dltotal_lt
  have hdisk := p.fileSize_lt
  rcases hsize : p.fileSize with _ | m
  · -- the percentage of `2 ^ 64 - 1` bytes
    exfalso
    obtain ⟨-, hle, -⟩ := hright
    simp only [HttpDownloadTask.updatePercent, HttpDownloadTask.setFileSize, hsize, Option.getD_none, if_neg hp.ne',
      if_pos hfirst] at hle
    have htotal : (p.dltotal + (2 ^ 64 - 1)) % 2 ^ 64 = p.dltotal - 1 := by omega
    rw [htotal] at hle
    generalize htot : (if p.dltotal - 1 = 0 then p.dltotal else p.dltotal - 1) = t at hle
    have hpos : 0 < t := by
      rw [← htot]
      split <;> omega
    have hsmall : t < 2 ^ 63 := by
      rw [← htot]
      split <;> omega
    have hcast : ((t : Nat) : ℚ) < 2 ^ 63 := by exact_mod_cast hsmall
    rw [div_le_iff₀ (by exact_mod_cast hpos)] at hle
    norm_num at hle
    linarith
  · refine ⟨rfl, ?_⟩
    rw [hsize, Option.getD_some] at hdisk
    have hmod : (p.dltotal + m) % 2 ^ 64 = p.dltotal + m := Nat.mod_eq_of_lt (by omega)
    have hne : ¬ p.dltotal + m = 0 := by omega
    simp only [HttpDownloadTask.updatePercent, HttpDownloadTask.setFileSize, Option.getD_some, if_neg hp.ne',
      if_pos hfirst, hmod, if_neg hne, true_and]
    rw [Phase.size, Phase.onDisk, hsize, Option.getD_some, Nat.add_comm]

/-- With the total set, the last call of a phase is right only if the resource has that size. -/
theorem last_call {n : Nat} (hfirst : s.task.firstHasTotalValue = false) (htotal : s.task.fileTotalSize = n)
    (hn : 0 < n) (hq : 0 < q.dltotal) (hread : q.fileSize.isSome = true)
    (hright : Percentage q q.dltotal ((s.task.setFileSize q.fileSize).updatePercent q.dltotal q.dltotal).2) :
    q.size = n := by
  have hdltotal := q.dltotal_lt
  have hdisk := q.fileSize_lt
  obtain ⟨m, hm⟩ := Option.isSome_iff_exists.mp hread
  have hfull := hright.2.2.mpr rfl
  rw [hm, Option.getD_some] at hdisk
  have hmod : (q.dltotal + m) % 2 ^ 64 = q.dltotal + m := Nat.mod_eq_of_lt (by omega)
  simp only [HttpDownloadTask.updatePercent, HttpDownloadTask.setFileSize, hm, Option.getD_some, if_neg hq.ne',
    hfirst, if_neg Bool.false_ne_true, htotal, if_neg hn.ne', hmod] at hfull
  have hne : (n : ℚ) ≠ 0 := Nat.cast_ne_zero.mpr hn.ne'
  rw [div_eq_iff hne] at hfull
  have hcast : ((q.dltotal + m : Nat) : ℚ) = n := by linarith
  rw [Phase.size, Phase.onDisk, hm, Option.getD_some, Nat.add_comm]
  exact_mod_cast hcast

theorem filterMap_phases (ps : List Phase) : (ps.map Report.phase).filterMap Report.phase? = ps := by
  rw [List.filterMap_map]
  exact List.filterMap_some

/-- If all calls are right the phases are of one size: call once in an earlier one, and at the end of
a later one. -/
theorem sameSize_of_right (hfirst : s.task.firstHasTotalValue = true)
    (h : ∀ es : List Report, es.filterMap Report.phase? = ps → Lib.Along step Right s es) : SameSize ps := by
  induction ps generalizing s with
  | nil => exact ⟨nofun, nofun⟩
  | cons p ps ih =>
    have hrest : SameSize ps := by
      refine ih (s := s.step (.phase p)) hfirst fun es hes => ?_
      exact (h (.phase p :: es) (congrArg (p :: ·) hes)).2
    have hcall : ∀ es : List Report, es.filterMap Report.phase? = ps → 0 < p.dltotal →
        Percentage p 0 ((s.task.setFileSize p.fileSize).updatePercent p.dltotal 0).2 ∧
          Lib.Along step Right ((s.step (.phase p)).step (.progress 0)) es := by
      intro es hes hp
      obtain ⟨-, hright, hafter⟩ := h (.phase p :: .progress 0 :: es) (congrArg (p :: ·) hes)
      exact ⟨hright p rfl hp (Nat.zero_le _), hafter⟩
    have hread (hp : 0 < p.dltotal) := first_call hfirst hp (hcall _ (filterMap_phases ps) hp).1
    have hlater : ∀ q ∈ ps, 0 < p.dltotal → 0 < q.dltotal → p.size = q.size := by
      intro q hq hp hq0
      obtain ⟨before, after, rfl⟩ := List.append_of_mem hq
      have hes : (before.map Report.phase ++ .phase q :: .progress q.dltotal :: after.map Report.phase).filterMap
          Report.phase? = before ++ q :: after := by
        rw [List.filterMap_append, filterMap_phases]
        exact congrArg (before ++ q :: ·) (filterMap_phases after)
      obtain ⟨-, hright, -⟩ := (Lib.along_append.mp (hcall _ hes hp).2).2
      obtain ⟨hflag, htotal⟩ := run_phases ((s.step (.phase p)).step (.progress 0)) before
      refine (last_call (hflag.trans (hread hp).2.1) (htotal.trans (hread hp).2.2) ?_ hq0
        (hrest.readable q hq hq0) (hright q rfl hq0 (Nat.le_refl _))).symm
      rw [Phase.size]
      omega
    refine ⟨fun q hq hq0 => ?_, fun q hq r hr hq0 hr0 => ?_⟩
    · rcases List.mem_cons.mp hq with rfl | hq
      · exact (hread hq0).1
      · exact hrest.readable q hq hq0
    · rcases List.mem_cons.mp hq with rfl | hqs <;> rcases List.mem_cons.mp hr with rfl | hrs
      · rfl
      · exact hlater r hrs hq0 hr0
      · exact (hlater q hqs hr0 hq0).symm
      · exact hrest.same q hqs r hrs hq0 hr0

/-- The percentage is right at every call, whichever calls are made, exactly when the phases are all
of one size and the size of the temporary file could be read. -/
theorem percentages_iff (ps : List Phase) :
    (∀ es : List Report, es.filterMap Report.phase? = ps → Lib.Along step Right {} es) ↔ SameSize ps := by
  constructor
  · exact sameSize_of_right rfl
  · rintro ⟨hread, hsame⟩ es rfl
    -- the size is that of any phase with a total
    by_cases hany : ∃ p ∈ es.filterMap Report.phase?, 0 < p.dltotal
    · obtain ⟨p, hp, hp0⟩ := hany
      exact right_of_latched (n := p.size) es ⟨nofun, nofun⟩
        fun q hq hq0 => ⟨hread q hq hq0, hsame q hq p hp hq0 hp0⟩
    · refine right_of_latched (n := 0) es ⟨nofun, nofun⟩ fun q hq hq0 => ?_
      exact absurd ⟨q, hq, hq0⟩ hany

/-- A redirect with a body of ten bytes leads to a resource of a thousand: at its end the percentage
is 10000. -/
theorem redirect_percentage :
    let redirect : Phase := ⟨some 0, 10, by decide, by decide⟩
    let resource : Phase := ⟨some 0, 1000, by decide, by decide⟩
    let es := [Report.phase redirect, .progress 10, .phase resource, .progress 1000]
    ((Lib.run step {} es.dropLast).task.updatePercent 1000 1000).2 = 10000 ∧
      ¬ Lib.Along step Right {} es := by
  intro redirect resource es
  have hpercent : ((Lib.run step {} es.dropLast).task.updatePercent 1000 1000).2 = 10000 := by decide +kernel
  refine ⟨hpercent, ?_⟩
  rintro ⟨-, -, -, hright, -⟩
  have hle := (hright resource rfl (by decide) (by decide)).2.1
  rw [show ((((Reporting.step {} (.phase redirect)).step (.progress 10)).step (.phase resource)).task.updatePercent
    resource.dltotal 1000).2 = 10000 from hpercent] at hle
  norm_num at hle

end Reporting

end Nas.NetCurl
