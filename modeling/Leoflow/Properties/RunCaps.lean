import Leoflow.Scheduler.DueRuns

/-!
# `max_active_runs` within a tick

The loop of `createDueRuns` charges every slot it tries to create to its DAG, whether the insert succeeds or not.
-/

namespace Leoflow

open Lib (GoMap)
open Lib.GoMap List

variable {due : ScheduledDAG → List Time} {now : Time} {active : GoMap Int} {d : ScheduledDAG}

theorem passCap_le (hcap : 0 < d.maxActiveRuns) (slots : List Time) (created : GoMap Int) :
    active.getD d.dagID 0 + created.getD d.dagID 0 + (passCap d active slots created).1.length ≤
      max d.maxActiveRuns (active.getD d.dagID 0 + created.getD d.dagID 0) := by
  induction slots generalizing created with
  | nil =>
    simp only [passCap, length_nil]
    omega
  | cons s slots ih =>
    simp only [passCap]
    split
    next hroom =>
      have hlt : active.getD d.dagID 0 + created.getD d.dagID 0 < d.maxActiveRuns := by
        simpa [hasHeadroom, Int.not_le.mpr hcap] using hroom
      have hrest := ih (created.addTo d.dagID 1)
      rw [getD_addTo, if_pos rfl] at hrest
      simp only [length_cons]
      omega
    · simp only [length_nil]
      omega

theorem passCap_all {slots : List Time} {created : GoMap Int}
    (h : active.getD d.dagID 0 + created.getD d.dagID 0 + slots.length ≤ d.maxActiveRuns) :
    (passCap d active slots created).1 = slots := by
  induction slots generalizing created with
  | nil => rfl
  | cons s slots ih =>
    rw [length_cons] at h
    have hroom : hasHeadroom d active created := by
      unfold hasHeadroom
      split
      · rfl
      · rw [decide_eq_true_eq]
        omega
    have hrest : (passCap d active slots (created.addTo d.dagID 1)).1 = slots := by
      apply ih
      rw [getD_addTo, if_pos rfl]
      omega
    rw [passCap, if_pos hroom]
    exact congrArg (s :: ·) hrest

/-- The due runs of one DAG are those the cap lets pass. -/
theorem filter_dueRuns {dags : List ScheduledDAG} {created : GoMap Int} (hnd : (dags.map ScheduledDAG.dagID).Nodup)
    (hcron : isCronlessSchedule d.schedule = false) :
    (d ∈ dags → ∃ created' : GoMap Int, created'.getD d.dagID 0 = created.getD d.dagID 0 ∧
      (dueRuns now active due id dags created).filter (fun p => p.1.dagID = d.dagID) =
        (passCap d active (due d) created').1.map (d, ·)) ∧ (d.dagID ∉ dags.map ScheduledDAG.dagID →
      (dueRuns now active due id dags created).filter (fun p => p.1.dagID = d.dagID) = []) := by
  induction dags generalizing created with
  | nil => exact ⟨fun h => (by cases h), fun _ => rfl⟩
  | cons e dags ih =>
    rw [map_cons, nodup_cons] at hnd
    obtain ⟨hmem, hnone⟩ := @ih (createdSlots now active due e created).2 hnd.2
    have hother : e.dagID ≠ d.dagID →
        ((createdSlots now active due e created).1.map (e, ·)).filter (fun p => p.1.dagID = d.dagID) = [] := by
      intro hne
      simp [filter_map, Function.comp_def, hne]
    rw [dueRuns_cons, filter_append, id_eq]
    constructor
    · intro hd
      rcases mem_cons.mp hd with rfl | hd
      · refine ⟨created, rfl, ?_⟩
        rw [hnone hnd.1, append_nil, createdSlots, isOnceSchedule_of_cron hcron, hcron]
        simp [filter_map, Function.comp_def]
      · have hne : e.dagID ≠ d.dagID := fun heq => hnd.1 (heq ▸ mem_map_of_mem hd)
        obtain ⟨created', hsame, hfilter⟩ := hmem hd
        refine ⟨created', hsame.trans (getD_createdSlots hne.symm), ?_⟩
        rw [hother hne, nil_append, hfilter]
    · intro hnot
      rw [map_cons, mem_cons, not_or] at hnot
      rw [hother (Ne.symm hnot.1), hnone hnot.2, append_nil]

/-- **The cap holds within a tick.** Whichever of the attempted slots are created, a DAG on a cron schedule has at
most its cap of active runs, or as many as before; and if all its due slots fit they are all attempted. -/
theorem maxActiveRuns_holds {dags : List ScheduledDAG} (hnd : (dags.map ScheduledDAG.dagID).Nodup) (hd : d ∈ dags)
    (hcron : isCronlessSchedule d.schedule = false) (hcap : 0 < d.maxActiveRuns) :
    (∀ created : List (ScheduledDAG × Time), created.Sublist (dueRuns now active due id dags ∅) →
      active.getD d.dagID 0 + created.countP (fun p => p.1.dagID = d.dagID) ≤
        max d.maxActiveRuns (active.getD d.dagID 0)) ∧
    (active.getD d.dagID 0 + (due d).length ≤ d.maxActiveRuns →
      (dueRuns now active due id dags ∅).filter (fun p => p.1.dagID = d.dagID) = (due d).map (d, ·)) := by
  obtain ⟨created, hzero, hfilter⟩ := (@filter_dueRuns due now active d dags ∅ hnd hcron).1 hd
  have hnone : created.getD d.dagID 0 = 0 := hzero
  constructor
  · intro done hsub
    have hcount := (hsub.filter fun p => decide (p.1.dagID = d.dagID)).length_le
    rw [hfilter, length_map, ← countP_eq_length_filter] at hcount
    have hle := @passCap_le active d hcap (due d) created
    rw [hnone] at hle
    omega
  · intro hfits
    rw [hfilter, passCap_all (by rw [hnone]; omega)]

/-- A DAG that may have three runs at a time. -/
def hourly : ScheduledDAG := ⟨"etl", "0 * * * *", some 0, none, true, 3⟩

/-- Three slots are due and one run is active: two of the three fit under the cap. -/
theorem maxActiveRuns_holds_hourly :
    dueRuns 4 (addTo ∅ "etl" 1) (fun _ => [1, 2, 3]) id [hourly] ∅ = [(hourly, 1), (hourly, 2)] ∧
      ∀ created : List (ScheduledDAG × Time),
        created.Sublist (dueRuns 4 (addTo ∅ "etl" 1) (fun _ => [1, 2, 3]) id [hourly] ∅) →
          getD (addTo ∅ "etl" 1) "etl" 0 + created.countP (fun p => p.1.dagID = "etl") ≤
            max 3 (getD (addTo ∅ "etl" 1) "etl" 0) :=
  ⟨by decide +kernel, (@maxActiveRuns_holds _ _ _ hourly [hourly] (by simp) (by simp) (by decide +kernel)
    (by decide)).1⟩

end Leoflow
