import NasServices.Download.Task.TaskBase
import NasServices.Lib.Checked

/-!
# The limits of seeding

`CheckSeedingLimits` compares the share ratio and the seeding time of a torrent with the configured
limits. The time limit is in minutes and is multiplied by 60 as an `int` before it is compared with a
64-bit number of seconds, so a limit of 35791395 minutes or more overflows
(`checkSeedingLimits_exact_iff`).
-/

namespace Nas.Download

open Lib

structure SystemCloudConfig where
  btShareRatioLimitValue : Int := 0
  btSeedingTimeLimitValue : Int := 0
  deriving DecidableEq, Repr

def SystemCloudConfig.isShareRatioLimit (c : SystemCloudConfig) : Bool := c.btShareRatioLimitValue ≠ 0

def SystemCloudConfig.isSeedingTimeLimit (c : SystemCloudConfig) : Bool := c.btSeedingTimeLimitValue ≠ 0

structure SeedingState where
  torrentShareRatio : Int := 0
  seedingTime : Int := 0
  deriving DecidableEq, Repr

variable (c : SystemCloudConfig) (s : SeedingState)

def reachLimit : Checked Bool := do
  let byRatio := c.isShareRatioLimit && decide (s.torrentShareRatio ≥ c.btShareRatioLimitValue)
  if c.isSeedingTimeLimit then
    let limit ← Checked.int (c.btSeedingTimeLimitValue * 60)
    return byRatio || decide (s.seedingTime ≥ limit)
  else return byRatio

def TaskBase.checkSeedingLimitsOf (t : TaskBase) (a : Answer) : Checked (TaskBase × Bool) := do
  let reached ← reachLimit c s
  return t.checkSeedingLimits { a with reachLimit := reached }

def LimitReached : Prop :=
  (c.isSeedingTimeLimit = true ∧ 60 * c.btSeedingTimeLimitValue ≤ s.seedingTime) ∨
    (c.isShareRatioLimit = true ∧ c.btShareRatioLimitValue ≤ s.torrentShareRatio)

variable {c s}

theorem reachLimit_eq_ok
    (h : -2 ^ 31 ≤ c.btSeedingTimeLimitValue * 60 ∧ c.btSeedingTimeLimitValue * 60 < 2 ^ 31) :
    ∃ reached, reachLimit c s = .ok reached ∧ (reached = true ↔ LimitReached c s) := by
  unfold reachLimit LimitReached
  dsimp only
  split
  · rename_i hon
    rw [Checked.int_eq h.1 h.2]
    refine ⟨_, rfl, ?_⟩
    rw [Bool.or_eq_true, Bool.and_eq_true, decide_eq_true_iff, decide_eq_true_iff, ge_iff_le, ge_iff_le,
      Int.mul_comm, or_comm]
    simp [hon]
  · rename_i hoff
    refine ⟨_, rfl, ?_⟩
    rw [Bool.and_eq_true, decide_eq_true_iff, ge_iff_le]
    simp [hoff]

theorem reachLimit_overflow (h : 2 ^ 31 ≤ c.btSeedingTimeLimitValue * 60) :
    reachLimit c s = .error .overflow := by
  have hon : c.isSeedingTimeLimit = true := decide_eq_true (by omega)
  rw [reachLimit, if_pos hon, Checked.int, if_neg (by omega)]
  rfl

theorem checkSeedingLimits_taskStatus {t : TaskBase} (ht : t.taskStatus ≠ .kFinished) (a : Answer) :
    (t.checkSeedingLimits a).1.taskStatus = .kFinished ↔ a.reachLimit = true ∧ a.pause = true := by
  unfold TaskBase.checkSeedingLimits
  rw [← Bool.and_eq_true]
  split
  · rename_i h
    exact iff_of_true rfl h
  · rename_i h
    exact iff_of_false ht h

/-- For every limit in minutes that is an `int`, every seeding time, ratio and ratio limit, every task
that is not finished and every answer of the engine: the call reports exactly what the integers say and
finishes the task exactly if a limit was reached and the engine paused, if and only if the limit in
seconds is an `int` as well. -/
theorem checkSeedingLimits_exact_iff (c : SystemCloudConfig) (hpos : 0 < c.btSeedingTimeLimitValue)
    (s : SeedingState) (t : TaskBase) (ht : t.taskStatus ≠ .kFinished) (a : Answer) :
    (∃ t' reached, t.checkSeedingLimitsOf c s a = .ok (t', reached) ∧ (reached = true ↔ LimitReached c s) ∧
        (t'.taskStatus = .kFinished ↔ LimitReached c s ∧ a.pause = true)) ↔
      60 * c.btSeedingTimeLimitValue < 2 ^ 31 := by
  constructor
  · rintro ⟨t', reached, hok, -⟩
    by_contra hge
    rw [TaskBase.checkSeedingLimitsOf, reachLimit_overflow (by omega)] at hok
    cases hok
  · intro hlt
    obtain ⟨reached, hok, hreached⟩ := reachLimit_eq_ok (c := c) (s := s) (by omega)
    have hstatus := checkSeedingLimits_taskStatus ht { a with reachLimit := reached }
    refine ⟨_, reached, ?_, hreached, hstatus.trans (and_congr_left' hreached)⟩
    rw [TaskBase.checkSeedingLimitsOf, hok]
    rfl

/-- A torrent that seeds for an hour with a limit of an hour, and an engine that pauses it. -/
theorem checkSeedingLimits_exact_hour :
    let t : TaskBase := { param := { id := "a", url := "magnet:a", type := .kMagnet }, taskStatus := .kSeeding }
    ∃ t' reached, t.checkSeedingLimitsOf { btSeedingTimeLimitValue := 60 } { seedingTime := 3600 } {} =
      .ok (t', reached) ∧ reached = true ∧ t'.taskStatus = .kFinished := by
  intro t
  obtain ⟨t', reached, hok, hreached, hstatus⟩ :=
    (checkSeedingLimits_exact_iff { btSeedingTimeLimitValue := 60 } (by decide) { seedingTime := 3600 } t
      (by decide) {}).mpr (by decide)
  have hlimit : LimitReached { btSeedingTimeLimitValue := 60 } { seedingTime := 3600 } :=
    .inl ⟨by decide, by decide⟩
  exact ⟨t', reached, hok, hreached.mpr hlimit, hstatus.mpr ⟨hlimit, rfl⟩⟩

/-- With a limit of 35791395 minutes the check of a torrent that has just begun to seed overflows. -/
theorem long_limit_overflows :
    let t : TaskBase := { param := { id := "a", url := "magnet:a", type := .kMagnet }, taskStatus := .kSeeding }
    t.checkSeedingLimitsOf { btSeedingTimeLimitValue := 35791395 } { seedingTime := 0 } {} = .error .overflow ∧
      ¬ LimitReached { btSeedingTimeLimitValue := 35791395 } { seedingTime := 0 } := by
  intro t
  refine ⟨rfl, ?_⟩
  rintro (⟨-, htime⟩ | ⟨hratio, -⟩)
  · exact absurd htime (by decide)
  · exact absurd hratio (by decide)

end Nas.Download
