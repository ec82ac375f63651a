import NasServices.NetCurl.CurlDownloadTaskImpl

/-!
# A run of the transfer thread

`HttpDownloadTask::Perform` from its start to its return. It tries up to three times, closes the
file and delivers a result to its listener. What libcurl returns for each attempt and what `cancel_`
is when it is read after it are a `Transfers`; what can be seen of the run is its log.

The loop has one exit that is not its end: `return` for `CURLE_PARTIAL_FILE`. `performs_iff` says
that a run ends as it should unless it takes that exit (`Transfers.Breaks`).
-/

namespace Nas.NetCurl

/-- What libcurl returns for each attempt, the response code it then has, and what `cancel_` is when
`Perform` reads it after the attempt. -/
structure Transfers where
  curlCode : Nat → Nat
  responseCode : Nat → Nat := fun _ => 200
  cancel : Nat → Bool := fun _ => false

inductive Status
  | kNormal | kRunning | kSuccess | kFail
  deriving DecidableEq, Repr

structure TaskResult where
  httpCode : Nat
  curlCode : Nat
  deriving DecidableEq, Repr

inductive Action
  | attempt (curlCode : Nat)
  | fclose
  | taskUpdate (status : Status) (result : TaskResult)
  deriving DecidableEq, Repr

/-- The members that `Perform` works on, and what it has done so far. `curl_code_` is at first
`CURLE_FAILED_INIT`. -/
structure Performing where
  task : HttpDownloadTask
  status : Status := .kNormal
  curlCode : Nat := 2
  responseCode : Nat := 0
  log : List Action := []

namespace Performing

def closeFile (s : Performing) : Performing :=
  if s.task.isFileOpen then
    { s with task := { s.task with isFileOpen := false }, log := s.log ++ [.fclose] }
  else s

def updateResult (s : Performing) : TaskResult :=
  { httpCode := s.task.httpCode { curlCode := s.curlCode, responseCode := s.responseCode }
    curlCode := s.curlCode }

/-- The loop of `Perform` from attempt `k` on, and whether it is left at its end and not by `return`. -/
def attempts (w : Transfers) : Nat → Nat → Performing → Performing × Bool
  | 0, _, s => (s, true)
  | retryCount + 1, k, s =>
    let s := { s with
      curlCode := w.curlCode k
      responseCode := w.responseCode k
      log := s.log ++ [.attempt (w.curlCode k)] }
    match CurlTask.next (retryCount + 1) (w.cancel k) (.ofCode (w.curlCode k)) with
    | .leave => (s, true)
    | .quit => (s, false)
    | .again => attempts w retryCount (k + 1) s

end Performing

def HttpDownloadTask.perform (h : HttpDownloadTask) (listener : Bool) (w : Transfers) : Performing :=
  match Performing.attempts w setparamRetryCount 0 { task := h } with
  | (s, false) => s
  | (s, true) =>
    let s := { s with status := if s.curlCode = 0 then .kSuccess else .kFail : Performing }.closeFile
    if listener then { s with log := s.log ++ [.taskUpdate s.status s.updateResult] } else s

namespace Action

def code? : Action → Option Nat
  | .attempt curlCode => some curlCode
  | _ => none

def result? : Action → Option TaskResult
  | .taskUpdate _ result => some result
  | _ => none

end Action

def Performing.codes (s : Performing) : List Nat := s.log.filterMap Action.code?

/-- The run makes one to three attempts, and another one only after a failure that is no abort, with
`cancel_` not set. On return the file is closed, and a listener has been given one result, which has
the code of the last attempt and came after the file was closed. -/
structure HttpDownloadTask.Performs (h : HttpDownloadTask) (listener : Bool) (w : Transfers) : Prop where
  codes : (h.perform listener w).codes = (List.range (h.perform listener w).codes.length).map w.curlCode
  some : 1 ≤ (h.perform listener w).codes.length
  three : (h.perform listener w).codes.length ≤ 3
  stops : ∀ k, k + 1 < (h.perform listener w).codes.length →
    w.curlCode k ≠ 0 ∧ w.curlCode k ≠ 42 ∧ w.cancel k = false
  closed : (h.perform listener w).task.isFileOpen = false
  delivered : listener = true → ∃ before status result,
    (h.perform listener w).log = before ++ [.taskUpdate status result] ∧
      before.filterMap Action.result? = [] ∧ (h.isFileOpen = true → .fclose ∈ before) ∧
      (h.perform listener w).codes.getLast? = Option.some result.curlCode

namespace Transfers

variable (w : Transfers)

def GoesOn (k : Nat) : Prop :=
  w.curlCode k ≠ 0 ∧ w.curlCode k ≠ 42 ∧ w.curlCode k ≠ 18 ∧ w.cancel k = false

def Partial (k : Nat) : Prop := w.curlCode k = 18 ∧ w.cancel k = false

/-- One of the three attempts returns `CURLE_PARTIAL_FILE`, and up to then none has succeeded or was
aborted and nobody has cancelled. -/
def Breaks : Prop :=
  ∃ k < 3, w.curlCode k = 18 ∧ ∀ j ≤ k, w.curlCode j ≠ 0 ∧ w.curlCode j ≠ 42 ∧ w.cancel j = false

instance (k : Nat) : Decidable (w.GoesOn k) := inferInstanceAs (Decidable (_ ∧ _ ∧ _ ∧ _))

instance (k : Nat) : Decidable (w.Partial k) := inferInstanceAs (Decidable (_ ∧ _))

end Transfers

variable {w : Transfers} {k n : Nat}

theorem CurlCode.ofCode_eq (code : Nat) :
    CurlCode.ofCode code =
      if code = 0 then .ok else if code = 18 then .partialFile else if code = 42 then .abortedByCallback
      else .other := by
  unfold CurlCode.ofCode
  split
  · rfl
  · rfl
  · rfl
  · rename_i h0 h18 h42
    rw [if_neg h0, if_neg h18, if_neg h42]

/-- How the loop goes on after attempt `k`. -/
theorem next_eq (w : Transfers) (n k : Nat) :
    CurlTask.next (n + 1) (w.cancel k) (.ofCode (w.curlCode k)) =
      if w.Partial k then .quit else if w.GoesOn k ∧ n ≠ 0 then .again else .leave := by
  unfold CurlTask.next Transfers.Partial Transfers.GoesOn
  rw [CurlCode.ofCode_eq]
  by_cases h0 : w.curlCode k = 0
  · simp [h0]
  · by_cases h18 : w.curlCode k = 18
    · by_cases hc : w.cancel k = true <;> simp [h18, hc]
    · by_cases h42 : w.curlCode k = 42
      · simp [h42]
      · by_cases hc : w.cancel k = true <;> simp [h0, h18, h42, hc]

/-- The loop ends with the first attempt after which it does not go on, or with the last. -/
theorem attempts_eq (w : Transfers) (n k : Nat) (s : Performing) :
    ∃ m ≤ n, (∀ j < m, w.GoesOn (k + j)) ∧ (m < n → ¬ w.GoesOn (k + m)) ∧
      Performing.attempts w (n + 1) k s =
        ({ s with
            curlCode := w.curlCode (k + m)
            responseCode := w.responseCode (k + m)
            log := s.log ++ (List.range' k (m + 1)).map fun j => .attempt (w.curlCode j) },
          !decide (w.Partial (k + m))) := by
  induction n generalizing k s with
  | zero =>
    refine ⟨0, Nat.le_refl 0, nofun, nofun, ?_⟩
    rw [Performing.attempts, next_eq]
    by_cases hp : w.Partial k <;> simp [hp]
  | succ n ih =>
    by_cases hp : w.Partial k
    · refine ⟨0, Nat.zero_le _, nofun, fun _ hg => hg.2.2.1 hp.1, ?_⟩
      rw [Performing.attempts, next_eq, if_pos hp]
      simp [hp]
    · by_cases hg : w.GoesOn k
      · obtain ⟨m, hm, hbefore, hlast, heq⟩ := ih (k + 1)
          { s with curlCode := w.curlCode k, responseCode := w.responseCode k, log := s.log ++ [.attempt (w.curlCode k)] }
        have hshift : ∀ j, k + 1 + j = k + (j + 1) := fun j => by omega
        simp only [hshift] at hbefore hlast heq
        refine ⟨m + 1, Nat.succ_le_succ hm, fun j hj => ?_, fun hlt => hlast (Nat.lt_of_succ_lt_succ hlt), ?_⟩
        · cases j with
          | zero => exact hg
          | succ j => exact hbefore j (Nat.lt_of_succ_lt_succ hj)
        · rw [Performing.attempts, next_eq, if_neg hp, if_pos ⟨hg, Nat.succ_ne_zero n⟩]
          dsimp only
          rw [heq, List.range'_succ (n := m + 1)]
          simp
      · refine ⟨0, Nat.zero_le _, nofun, fun _ => hg, ?_⟩
        rw [Performing.attempts, next_eq, if_neg hp, if_neg fun h => hg h.1]
        simp [hp]

theorem codes_attempts (k n : Nat) :
    ((List.range' k n).map fun j => Action.attempt (w.curlCode j)).filterMap Action.code? =
      (List.range' k n).map w.curlCode := by
  rw [List.filterMap_map]
  exact congrFun List.filterMap_eq_map _

theorem results_attempts (k n : Nat) :
    ((List.range' k n).map fun j => Action.attempt (w.curlCode j)).filterMap Action.result? = [] := by
  simp [List.filterMap_eq_nil_iff, Action.result?]

theorem breaks_iff {m : Nat} (hm : m ≤ 2) (hbefore : ∀ j < m, w.GoesOn j) (hlast : m < 2 → ¬ w.GoesOn m) :
    w.Breaks ↔ w.Partial m := by
  constructor
  · rintro ⟨k, hk, hcode, hall⟩
    rcases Nat.lt_trichotomy k m with hlt | rfl | hgt
    · exact absurd hcode (hbefore k hlt).2.2.1
    · exact ⟨hcode, (hall k (Nat.le_refl k)).2.2⟩
    · obtain ⟨h0, h42, hcancel⟩ := hall m hgt.le
      by_cases h18 : w.curlCode m = 18
      · exact ⟨h18, hcancel⟩
      · exact absurd ⟨h0, h42, h18, hcancel⟩ (hlast (by omega))
  · rintro ⟨hcode, hcancel⟩
    refine ⟨m, by omega, hcode, fun j hj => ?_⟩
    rcases Nat.lt_or_eq_of_le hj with hlt | rfl
    · exact ⟨(hbefore j hlt).1, (hbefore j hlt).2.1, (hbefore j hlt).2.2.2⟩
    · exact ⟨by rw [hcode]; decide, by rw [hcode]; decide, hcancel⟩

/-- What a run does, by the attempt with which it ends: it returns at once if that was partial. -/
theorem perform_eq (h : HttpDownloadTask) (listener : Bool) (w : Transfers) :
    ∃ m ≤ 2, (∀ j < m, w.GoesOn j) ∧ (w.Breaks ↔ w.Partial m) ∧
      (h.perform listener w).log =
        ((List.range' 0 (m + 1)).map fun j => Action.attempt (w.curlCode j)) ++
          (if w.Partial m then [] else
            (if h.isFileOpen then [.fclose] else []) ++
              (if listener then [.taskUpdate (if w.curlCode m = 0 then .kSuccess else .kFail)
                { httpCode := h.httpCode { curlCode := w.curlCode m, responseCode := w.responseCode m }
                  curlCode := w.curlCode m }] else [])) ∧
      (h.perform listener w).task.isFileOpen = (h.isFileOpen && decide (w.Partial m)) := by
  obtain ⟨m, hm, hbefore, hlast, heq⟩ := attempts_eq w 2 0 { task := h }
  simp only [Nat.zero_add] at hbefore hlast heq
  refine ⟨m, hm, hbefore, breaks_iff hm hbefore hlast, ?_⟩
  rw [HttpDownloadTask.perform, show setparamRetryCount = 2 + 1 from rfl, heq]
  by_cases hp : w.Partial m
  · simp [hp]
  · cases ho : h.isFileOpen <;> cases listener <;>
      simp [hp, ho, Performing.closeFile, Performing.updateResult, HttpDownloadTask.httpCode]

/-- A run ends as it should exactly when it does not break, or there is no file to close and no listener
to tell. -/
theorem performs_iff (h : HttpDownloadTask) (listener : Bool) (w : Transfers) :
    h.Performs listener w ↔ ¬ w.Breaks ∨ (h.isFileOpen = false ∧ listener = false) := by
  obtain ⟨m, hm, hbefore, hbreaks, hlog, hopen⟩ := perform_eq h listener w
  have hcodes : (h.perform listener w).codes = (List.range (m + 1)).map w.curlCode := by
    rw [Performing.codes, hlog, List.filterMap_append, codes_attempts, ← List.range_eq_range']
    split <;> cases h.isFileOpen <;> cases listener <;> simp [Action.code?]
  have hlength : (h.perform listener w).codes.length = m + 1 := by
    rw [hcodes, List.length_map, List.length_range]
  rw [hbreaks]
  constructor
  · intro hperforms
    by_contra hnot
    rw [not_or, not_not] at hnot
    obtain ⟨hp, hany⟩ := hnot
    have hclosed := hperforms.closed
    rw [hopen, decide_eq_true hp, Bool.and_true] at hclosed
    cases hl : listener with
    | false => exact hany ⟨hclosed, hl⟩
    | true =>
      obtain ⟨before, status, result, heq, -⟩ := hperforms.delivered hl
      have hmem : Action.taskUpdate status result ∈ (h.perform listener w).log := by
        rw [heq]
        simp
      rw [hlog, if_pos hp] at hmem
      simp at hmem
  · intro hok
    refine ⟨?_, by omega, by omega, fun k hk => ?_, ?_, fun hl => ?_⟩
    · rw [hlength, hcodes]
    · have hgoes := hbefore k (by omega)
      exact ⟨hgoes.1, hgoes.2.1, hgoes.2.2.2⟩
    · rw [hopen]
      rcases hok with hp | ⟨hfile, -⟩
      · rw [decide_eq_false hp, Bool.and_false]
      · rw [hfile, Bool.false_and]
    · subst hl
      have hp : ¬ w.Partial m := hok.resolve_right fun hno => Bool.false_ne_true hno.2.symm
      rw [if_neg hp, if_pos rfl, ← List.append_assoc] at hlog
      refine ⟨_, _, _, hlog, ?_, fun hfile => ?_, ?_⟩
      · rw [List.filterMap_append, results_attempts]
        cases h.isFileOpen <;> rfl
      · simp [hfile]
      · rw [hcodes, List.range_succ]
        simp

/-- The first attempt ends in the middle of the file: `Perform` returns with the file open, and its
listener is told nothing. -/
theorem partialFile_silent :
    let h : HttpDownloadTask := { isFileOpen := true }
    let w : Transfers := { curlCode := fun _ => 18 }
    ¬ h.Performs true w ∧ (h.perform true w).log = [.attempt 18] ∧ (h.perform true w).task.isFileOpen = true := by
  refine ⟨fun hperforms => ?_, by decide, by decide⟩
  exact absurd hperforms.closed (by decide)

end Nas.NetCurl
