import Leoflow.Scheduler.Planned

/-!
# What the planner reads of a snapshot

The instant of a reschedule counts only while the task is parked for one, and the number of re-places
only up to its limit. Snapshots that differ in nothing else are advanced alike.
-/

namespace Leoflow

open Lib (GoMap)

variable {id : String} {α : Type}

namespace RunState

variable {run : RunState} {rescheduleAt : GoMap Time} {infraAttempts : GoMap Int}

/-- The snapshot with other reschedule instants and re-place counts. -/
def reading (run : RunState) (rescheduleAt : GoMap Time) (infraAttempts : GoMap Int) : RunState :=
  { run with rescheduleAt := rescheduleAt, infraAttempts := infraAttempts }

/-- The planner cannot tell the two snapshots apart. -/
structure ReadsAlike (run : RunState) (rescheduleAt : GoMap Time) (infraAttempts : GoMap Int) : Prop where
  reschedule : ∀ id, run.states.lookup id = some .upForReschedule → rescheduleAt.lookup id = run.rescheduleAt.lookup id
  infra : ∀ id, min (infraAttempts.getD id 0) infraMaxAttempts = min (run.infraAttempts.getD id 0) infraMaxAttempts

namespace ReadsAlike

variable (h : run.ReadsAlike rescheduleAt infraAttempts)
include h

theorem infraReplaceable (id : String) :
    (run.reading rescheduleAt infraAttempts).infraReplaceable id = run.infraReplaceable id := by
  have hinfra := h.infra id
  simp only [RunState.infraReplaceable, reading]
  congr 2
  apply propext
  omega

theorem readyToInfraReplace (hr : run.infraReplaceable id) :
    (run.reading rescheduleAt infraAttempts).readyToInfraReplace id = run.readyToInfraReplace id := by
  have hinfra := h.infra id
  simp only [RunState.infraReplaceable, Bool.and_eq_true, decide_eq_true_iff] at hr
  have heq : infraAttempts.getD id 0 = run.infraAttempts.getD id 0 := by omega
  simp only [RunState.readyToInfraReplace, reading, heq]
  rfl

theorem readyToReschedule (hs : run.states.lookup id = some .upForReschedule) :
    (run.reading rescheduleAt infraAttempts).readyToReschedule id = run.readyToReschedule id := by
  simp only [RunState.readyToReschedule, reading, h.reschedule id hs]
  rfl

theorem retryDecision : (run.reading rescheduleAt infraAttempts).retryDecision = run.retryDecision := by
  funext id
  have hstates : (run.reading rescheduleAt infraAttempts).states.lookup id = run.states.lookup id :=
    rfl
  unfold RunState.retryDecision
  rw [hstates, h.infraReplaceable id]
  cases hs : run.states.lookup id with
  | none => rfl
  | some s =>
    cases s with
    | failed =>
      by_cases hr : run.infraReplaceable id
      · rw [h.readyToInfraReplace hr]
        rfl
      · simp only [hr]
        rfl
    | upForReschedule => rw [h.readyToReschedule hs]
    | _ => rfl

theorem planRun : (run.reading rescheduleAt infraAttempts).planRun = run.planRun := by
  have hrail := h.retryDecision
  have hretry : (run.reading rescheduleAt infraAttempts).planRetryTransitions =
      run.planRetryTransitions := by
    unfold planRetryTransitions
    rw [hrail]
    rfl
  have heff : (run.reading rescheduleAt infraAttempts).effective = run.effective := by
    unfold effective
    rw [hrail]
    rfl
  have htask : (run.reading rescheduleAt infraAttempts).planTask = run.planTask := by
    funext upstreams effective headroom acc t
    unfold planTask
    rw [hrail]
    rfl
  unfold RunState.planRun
  rw [hretry, heff, htask]
  rfl

theorem isOpen (id : String) : (run.reading rescheduleAt infraAttempts).isOpen id = run.isOpen id := by
  unfold RunState.isOpen
  rw [h.infraReplaceable id]
  rfl

theorem finalizeRun : (run.reading rescheduleAt infraAttempts).finalizeRun = run.finalizeRun := by
  unfold RunState.finalizeRun
  simp only [h.isOpen]
  rfl

theorem advance (dispatcher : Bool) :
    (run.reading rescheduleAt infraAttempts).advance dispatcher = run.advance dispatcher := by
  unfold RunState.advance
  rw [h.planRun, h.finalizeRun]
  rfl

end ReadsAlike

end RunState

/-! ## The rows behind a snapshot -/

section Rows

variable {tis : List TaskInstance} {f : TaskInstance → TaskInstance}

theorem mapOf_map {column : TaskInstance → Option α} (htask : ∀ r ∈ tis, (f r).taskId = r.taskId)
    (hcol : ∀ r ∈ tis, column (f r) = column r) : mapOf (tis.map f) column = mapOf tis column := by
  unfold mapOf GoMap.collect
  rw [List.foldl_map]
  exact List.foldl_ext _ _ _ fun m r hr => by rw [htask r hr, hcol r hr]

theorem getD_positive (n : Nat) : ((positive n).getD 0 : Int) = n := by
  unfold positive
  split
  · rfl
  · simp
    omega

theorem lookup_mapOf (hnd : (tis.map TaskInstance.taskId).Nodup) (column : TaskInstance → Option α) {r : TaskInstance}
    (hr : r ∈ tis) : (mapOf tis column).lookup r.taskId = column r :=
  GoMap.lookup_collect hnd hr

theorem lookup_mapOf_map (hnd : (tis.map TaskInstance.taskId).Nodup) (htask : ∀ r ∈ tis, (f r).taskId = r.taskId)
    (column : TaskInstance → Option α) {r : TaskInstance} (hr : r ∈ tis) :
    (mapOf (tis.map f) column).lookup r.taskId = column (f r) := by
  have hids : (tis.map f).map TaskInstance.taskId = tis.map TaskInstance.taskId := by
    rw [List.map_map]
    exact List.map_congr_left htask
  rw [← htask r hr]
  exact lookup_mapOf (hids ▸ hnd) column (List.mem_map_of_mem hr)

theorem lookup_mapOf_eq_none (column : TaskInstance → Option α) (h : ∀ r ∈ tis, r.taskId ≠ id) :
    (mapOf tis column).lookup id = none := by
  by_contra hne
  obtain ⟨v, hv⟩ := Option.ne_none_iff_exists'.mp hne
  obtain ⟨r, hr, hid, -⟩ := GoMap.mem_of_lookup_collect hv
  exact h r hr hid

end Rows

end Leoflow
