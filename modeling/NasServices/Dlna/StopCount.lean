import NasServices.Dlna.ScreenCastingMgr
import NasServices.Lib.Streak

/-!
# Stops that are counted, not stops in a row

A push that finds the renderer stopped counts it in `stoped_count_` and ends the task from
the fourth stop on. The counter is meant to bridge the short stops of a renderer that seeks or
loads, but nothing resets it. `answers_eq_true_iff` is what a task does over a whole sequence of
pushes: it ends at the fourth stop since it began, whatever was between the stops. It then ends after
four stops in a row exactly when its first four stops come in a row (`ends_after_four_iff`).
-/

namespace Nas.Dlna

open Lib.Streak

structure Observation where
  transportInfo : TransportInfo
  positionInfo : PositionInfo := {}
  volume : Nat := 0

def Observation.isStop (o : Observation) : Bool :=
  o.transportInfo.curTransportStatus = "OK" &&
    (o.transportInfo.curTransportState = "STOPPED" || o.transportInfo.curTransportState = "NO_MEDIA_PRESENT")

def Observation.SameTrack (gurl : String → Gurl) (playUrl : String) (o : Observation) : Prop :=
  o.positionInfo.trackUri = "" ∨ ¬ ScreenCastingTask.Differs gurl playUrl o.positionInfo.trackUri

instance (gurl : String → Gurl) (playUrl : String) (o : Observation) : Decidable (o.SameTrack gurl playUrl) :=
  inferInstanceAs (Decidable (_ ∨ _))

namespace ScreenCastingTask

variable (gurl : String → Gurl)

def observe (t : ScreenCastingTask) (o : Observation) : ScreenCastingTask :=
  ((t.setTransportInfo o.transportInfo).setPositionInfo o.positionInfo).setVolume o.volume

/-- What `NotifyStatusInfo` answers at one push after the other. A task that has ended is erased and gets
no more of them. -/
def answers (t : ScreenCastingTask) : List Observation → List Bool
  | [] => []
  | o :: os =>
    let r := (t.observe o).notifyStatusInfo gurl
    r.2 :: if r.2 then [] else answers r.1 os

variable {gurl} {t : ScreenCastingTask} {o : Observation} {os : List Observation}

theorem getTaskPlayStatus_stoped :
    t.getTaskPlayStatus = .stoped ↔ t.transportInfo.curTransportStatus = "OK" ∧
      (t.transportInfo.curTransportState = "STOPPED" ∨ t.transportInfo.curTransportState = "NO_MEDIA_PRESENT") := by
  unfold getTaskPlayStatus
  generalize t.transportInfo.curTransportStatus = status
  generalize t.transportInfo.curTransportState = state
  by_cases hok : status = "OK"
  · subst hok
    repeat' split
    all_goals simp_all
  · simp [hok]

theorem getTaskPlayStatus_observe : (t.observe o).getTaskPlayStatus = .stoped ↔ o.isStop = true := by
  rw [getTaskPlayStatus_stoped, Observation.isStop, Bool.and_eq_true, Bool.or_eq_true, decide_eq_true_eq,
    decide_eq_true_eq, decide_eq_true_eq]
  rfl

theorem changedPlayUrl_observe (h : o.SameTrack gurl t.playUrl) : ¬ (t.observe o).changedPlayUrl gurl = true := by
  rw [changedPlayUrl_iff]
  rintro ⟨hne, hdiff⟩
  rcases h with hempty | hsame
  · exact hne hempty
  · exact hsame hdiff

/-- A push of a task whose renderer plays what it was given: it ends at a stop after three counted ones. -/
theorem notify_observe_ended (h : o.SameTrack gurl t.playUrl) :
    ((t.observe o).notifyStatusInfo gurl).2 = true ↔ o.isStop = true ∧ 3 ≤ t.stopedCount := by
  rw [notifyStatusInfo_ended, or_iff_right (changedPlayUrl_observe h), Stopped, getTaskPlayStatus_observe]
  rfl

theorem notify_observe_stopedCount (gurl : String → Gurl) (t : ScreenCastingTask) (o : Observation) :
    ((t.observe o).notifyStatusInfo gurl).1.stopedCount = t.stopedCount + if o.isStop then 1 else 0 := by
  have hcount : ((t.observe o).notifyStatusInfo gurl).1.stopedCount =
      if (t.observe o).getTaskPlayStatus = .stoped then t.stopedCount + 1 else t.stopedCount := by
    unfold notifyStatusInfo
    dsimp only
    split <;> rfl
  rw [hcount]
  by_cases hstop : o.isStop = true
  · rw [if_pos (getTaskPlayStatus_observe.mpr hstop), if_pos hstop]
  · rw [if_neg fun h => hstop (getTaskPlayStatus_observe.mp h), if_neg hstop, Nat.add_zero]

theorem notify_observe_playUrl (gurl : String → Gurl) (t : ScreenCastingTask) (o : Observation) :
    ((t.observe o).notifyStatusInfo gurl).1.playUrl = t.playUrl := by
  obtain ⟨n, c, h⟩ := (t.observe o).notifyStatusInfo_fst gurl
  rw [h]
  rfl

/-- A task ends at the push that finds its fourth stop. -/
theorem answers_eq_true_iff (hos : ∀ o ∈ os, o.SameTrack gurl t.playUrl) (hcount : t.stopedCount ≤ 3) (k : Nat) :
    (t.answers gurl os)[k]? = some true ↔
      ∃ o, os[k]? = some o ∧ o.isStop = true ∧
        t.stopedCount + (os.take k).countP Observation.isStop = 3 := by
  -- the counter of the task is the part of the count that earlier pushes have found
  induction os generalizing t k with
  | nil => simp [answers]
  | cons o os ih =>
    have hended := notify_observe_ended (hos o List.mem_cons_self)
    have hnext := notify_observe_stopedCount gurl t o
    have hurl := notify_observe_playUrl gurl t o
    cases k with
    | zero =>
      simp only [answers, List.getElem?_cons_zero, Option.some.injEq, List.take_zero, List.countP_nil]
      rw [hended]
      constructor
      · rintro ⟨hstop, hge⟩
        exact ⟨o, rfl, hstop, by omega⟩
      · rintro ⟨_, rfl, hstop, heq⟩
        exact ⟨hstop, by omega⟩
    | succ k =>
      simp only [answers, List.getElem?_cons_succ, List.take_succ_cons, List.countP_cons]
      by_cases hend : ((t.observe o).notifyStatusInfo gurl).2 = true
      · rw [if_pos hend, List.getElem?_nil]
        obtain ⟨hstop, hge⟩ := hended.mp hend
        refine iff_of_false (by simp) ?_
        rintro ⟨_, -, -, heq⟩
        rw [if_pos hstop] at heq
        omega
      · have hle : ((t.observe o).notifyStatusInfo gurl).1.stopedCount ≤ 3 := by
          rw [hnext]
          by_cases hstop : o.isStop = true
          · have : ¬ 3 ≤ t.stopedCount := fun hge => hend (hended.mpr ⟨hstop, hge⟩)
            rw [if_pos hstop]
            omega
          · rw [if_neg hstop]
            omega
        rw [if_neg hend, ih (fun o' ho' => hurl ▸ hos o' (List.mem_cons_of_mem _ ho')) hle, hnext]
        simp only [Nat.add_assoc, Nat.add_comm (os.take k |>.countP Observation.isStop)]

def created (id : Nat) (playUrl : String) (device : Device) : ScreenCastingTask :=
  { id := id, playUrl := playUrl, mediaRenderes := device }

/-- For every sequence of observations at which the renderer plays what it was given: the task is asked to be
removed only after four stops in a row, exactly when it is seen stopped at most three times in all or its
first four stops come in a row. -/
theorem ends_after_four_iff (gurl : String → Gurl) (id : Nat) (playUrl : String) (device : Device)
    (os : List Observation) (hos : ∀ o ∈ os, o.SameTrack gurl playUrl) :
    (∀ k, ((created id playUrl device).answers gurl os)[k]? = some true →
        EndsIn Observation.isStop 4 (os.take (k + 1))) ↔
      os.countP Observation.isStop ≤ 3 ∨ FirstInARow Observation.isStop 4 os := by
  rw [← endsIn_nth_hit_iff 3 os]
  have hans := answers_eq_true_iff (t := created id playUrl device) hos (Nat.zero_le 3)
  constructor
  · intro h k o hk hstop hcount
    exact h k ((hans k).mpr ⟨o, hk, hstop, (Nat.zero_add _).trans hcount⟩)
  · intro h k hk
    obtain ⟨o, hget, hstop, hcount⟩ := (hans k).mp hk
    exact h k o hget hstop ((Nat.zero_add _).symm.trans hcount)

/-- Four stops in a row after some playing: the task ends at the last of them. -/
theorem ends_after_four_inARow :
    let os : List Observation := [⟨⟨"PLAYING", "OK"⟩, {}, 0⟩] ++ List.replicate 4 ⟨⟨"STOPPED", "OK"⟩, {}, 0⟩
    ((created 0 "http://nas/a.mp4" ⟨"tv", "10.0.0.2"⟩).answers Gurl.ofHttp os)[4]? = some true ∧
      EndsIn Observation.isStop 4 (os.take 5) := by
  have hall := (ends_after_four_iff Gurl.ofHttp 0 "http://nas/a.mp4" ⟨"tv", "10.0.0.2"⟩
    ([⟨⟨"PLAYING", "OK"⟩, {}, 0⟩] ++ List.replicate 4 ⟨⟨"STOPPED", "OK"⟩, {}, 0⟩) (by decide +kernel)).mpr
    (by decide +kernel)
  have hlast : ((created 0 "http://nas/a.mp4" ⟨"tv", "10.0.0.2"⟩).answers Gurl.ofHttp
      ([⟨⟨"PLAYING", "OK"⟩, {}, 0⟩] ++ List.replicate 4 ⟨⟨"STOPPED", "OK"⟩, {}, 0⟩))[4]? = some true := by
    decide +kernel
  exact ⟨hlast, hall 4 hlast⟩

/-- A film that stops briefly four times and plays on each time: the fourth stop ends the cast. -/
theorem brief_stops_end :
    let playing : Observation := ⟨⟨"PLAYING", "OK"⟩, {}, 0⟩
    let stopped : Observation := ⟨⟨"STOPPED", "OK"⟩, {}, 0⟩
    let os := [playing, stopped, playing, stopped, playing, stopped, playing, stopped]
    (created 0 "http://nas/a.mp4" ⟨"tv", "10.0.0.2"⟩).answers Gurl.ofHttp os =
        [false, false, false, false, false, false, false, true] ∧
      ¬ EndsIn Observation.isStop 4 os := by
  decide +kernel

end ScreenCastingTask

end Nas.Dlna
