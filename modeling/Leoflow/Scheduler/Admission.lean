import Leoflow.Scheduler.Planned

/-!
# What one run admits

The admission loop of `PlanRun` promotes at most as many tasks as the headroom of its DAG, and in
each pool with a budget at most as many as the pool has slots left. `advance` dispatches only tasks
the plan promotes.
-/

namespace Leoflow

open Lib (GoMap)
open List

variable {t : TaskSpec} {headroom : Int} {acc : Admission}

/-- The tasks a plan promotes to `queued`. -/
def promotedTasks (plan : List PlannedTransition) : List String :=
  (plan.filter fun t => t.target == .queued).map PlannedTransition.taskID

theorem promotedTasks_append (plan plan' : List PlannedTransition) :
    promotedTasks (plan ++ plan') = promotedTasks plan ++ promotedTasks plan' := by
  simp [promotedTasks]

/-- The tasks whose dispatch is among the calls. -/
def dispatchedTasks (ops : List Op) : List String :=
  ops.filterMap fun
    | .dispatch task => some task
    | _ => none

namespace RunState

variable (run : RunState)

/-- The task takes its slot from the pool of this key. -/
def inPool (key taskID : String) : Bool :=
  run.tasks.any fun t => t.taskID == taskID && run.poolKeyFor t == key

theorem inPool_of_mem (hnd : (run.tasks.map TaskSpec.taskID).Nodup) (ht : t ∈ run.tasks)
    (key : String) : run.inPool key t.taskID = (run.poolKeyFor t == key) := by
  rw [Bool.eq_iff_iff]
  simp only [inPool, any_eq_true, Bool.and_eq_true, beq_iff_eq]
  constructor
  · rintro ⟨t', ht', hid, hkey⟩
    rwa [inj_on_of_nodup_map hnd ht ht' hid.symm]
  · exact fun hkey => ⟨t, ht, rfl, hkey⟩

/-- The variables of the admission loop count what it has promoted, which is within the bounds. -/
structure Counts (headroom : Int) (acc : Admission) : Prop where
  promoted : acc.promoted = (promotedTasks acc.out).length
  le_headroom : acc.promoted ≤ headroom
  slots : ∀ key ≠ "", acc.poolPromoted.getD key 0 = (promotedTasks acc.out).countP (run.inPool key)
  le_budget : ∀ key ≠ "", 0 < run.poolBudgets.getD key 0 →
    run.poolActive.getD key 0 + acc.poolPromoted.getD key 0 ≤
      max (run.poolBudgets.getD key 0) (run.poolActive.getD key 0)

variable {run}

theorem decideStart_ne_queued {deps : List String} {states : GoMap TaskState} {target : TaskState}
    (h : decideStart t deps states = some target) : target ≠ .queued := by
  unfold decideStart at h
  split at h <;> cases h <;> decide

theorem Counts.emit (h : run.Counts headroom acc) {p : PlannedTransition} (hp : p.target ≠ .queued) :
    run.Counts headroom { acc with out := acc.out ++ [p] } := by
  have hout : promotedTasks (acc.out ++ [p]) = promotedTasks acc.out := by
    simp [promotedTasks, hp]
  exact ⟨hout ▸ h.promoted, h.le_headroom, hout ▸ h.slots, h.le_budget⟩

section

variable (hnd : (run.tasks.map TaskSpec.taskID).Nodup) (h : run.Counts headroom acc) (ht : t ∈ run.tasks)
include hnd h ht

theorem Counts.promote (hroom : acc.promoted < headroom)
    (hslot : run.poolHasSlot (run.poolKeyFor t) acc.poolPromoted) : run.Counts headroom
      { out := acc.out ++ [⟨t.taskID, .queued⟩]
        promoted := acc.promoted + 1
        poolPromoted := if run.poolKeyFor t = "" then acc.poolPromoted
          else acc.poolPromoted.insert (run.poolKeyFor t)
            (acc.poolPromoted.getD (run.poolKeyFor t) 0 + 1) } := by
  have hout : promotedTasks (acc.out ++ [⟨t.taskID, .queued⟩]) =
      promotedTasks acc.out ++ [t.taskID] := by
    simp [promotedTasks]
  -- The new count of a pool: one more for the pool of the task.
  have hcount : ∀ key ≠ "", (if run.poolKeyFor t = "" then acc.poolPromoted
      else acc.poolPromoted.insert (run.poolKeyFor t)
        (acc.poolPromoted.getD (run.poolKeyFor t) 0 + 1)).getD key 0 =
      acc.poolPromoted.getD key 0 + if run.poolKeyFor t = key then 1 else 0 := by
    intro key hkey
    split
    · rename_i hpk
      rw [if_neg fun e => hkey (e.symm.trans hpk), Int.add_zero]
    · rw [GoMap.getD_insert]
      by_cases hk : key = run.poolKeyFor t
      · simp [hk]
      · simp [hk, Ne.symm hk]
  refine ⟨?_, Int.add_one_le_of_lt hroom, ?_, ?_⟩
  · rw [hout, length_append, h.promoted]
    simp
  · intro key hkey
    rw [hout, hcount key hkey, h.slots key hkey, countP_append, countP_singleton,
      run.inPool_of_mem hnd ht]
    by_cases hk : run.poolKeyFor t = key <;> simp [hk]
  · intro key hkey hbudget
    have hle := h.le_budget key hkey hbudget
    rw [hcount key hkey]
    split
    · rename_i hk
      subst hk
      rw [poolHasSlot, if_neg hkey, if_neg (by omega), decide_eq_true_iff] at hslot
      omega
    · omega

theorem Counts.planTask : run.Counts headroom (run.planTask run.upstreams run.effective headroom acc t) := by
  unfold RunState.planTask
  split
  · exact h
  split
  · split
    · rename_i hstart
      exact h.emit (decideStart_ne_queued hstart)
    · exact h
  · split
    · exact h
    split
    · exact h
    rename_i hroom
    dsimp only
    split
    · exact h
    rename_i hslot
    exact h.promote hnd ht (by omega) (by simpa using hslot)
  · exact h

end

theorem Counts.foldl_planTask (hnd : (run.tasks.map TaskSpec.taskID).Nodup) {tasks : List TaskSpec}
    (hsub : tasks ⊆ run.tasks) (h : run.Counts headroom acc) :
    run.Counts headroom (tasks.foldl (run.planTask run.upstreams run.effective headroom) acc) := by
  induction tasks generalizing acc with
  | nil => exact h
  | cons t tasks ih =>
    obtain ⟨ht, hsub⟩ := cons_subset.mp hsub
    exact ih hsub (h.planTask hnd ht)

theorem promotedTasks_planRetryTransitions : promotedTasks run.planRetryTransitions = [] := by
  simp only [promotedTasks, map_eq_nil_iff, filter_eq_nil_iff, beq_iff_eq]
  intro p hp hq
  obtain ⟨-, hemit⟩ := run.mem_planRetryTransitions.mp hp
  rcases run.target_of_emit hemit with h | h <;> simp [h] at hq

theorem admissionHeadroom_nonneg : 0 ≤ run.admissionHeadroom := by
  unfold admissionHeadroom
  (repeat' split) <;> omega

theorem admissionHeadroom_of_limited (h : 0 < run.maxActiveTasks) :
    run.admissionHeadroom = max 0 (run.maxActiveTasks - run.activeTaskCount) := by
  unfold admissionHeadroom
  rw [if_neg (by omega)]
  split <;> omega

theorem counts_planRun (hnd : (run.tasks.map TaskSpec.taskID).Nodup) :
    ∃ acc : Admission, acc.out = run.planRun ∧ run.Counts run.admissionHeadroom acc := by
  refine ⟨_, rfl, Counts.foldl_planTask hnd (List.Subset.refl _) ⟨?_, ?_, ?_, ?_⟩⟩
  · simp [promotedTasks_planRetryTransitions]
  · exact admissionHeadroom_nonneg
  · intro key _
    simp [promotedTasks_planRetryTransitions, GoMap.getD]
  · intro key _ _
    simp [GoMap.getD]

variable (run)

theorem length_promotedTasks_le (hnd : (run.tasks.map TaskSpec.taskID).Nodup) :
    ((promotedTasks run.planRun).length : Int) ≤ run.admissionHeadroom := by
  obtain ⟨acc, hout, h⟩ := counts_planRun hnd
  rw [← hout, ← h.promoted]
  exact h.le_headroom

theorem countP_promotedTasks_le (hnd : (run.tasks.map TaskSpec.taskID).Nodup) {key : String}
    (hkey : key ≠ "") (hbudget : 0 < run.poolBudgets.getD key 0) :
    run.poolActive.getD key 0 + (promotedTasks run.planRun).countP (run.inPool key) ≤
      max (run.poolBudgets.getD key 0) (run.poolActive.getD key 0) := by
  obtain ⟨acc, hout, h⟩ := counts_planRun hnd
  rw [← hout, ← h.slots key hkey]
  exact h.le_budget key hkey hbudget

/-! ## Dispatches -/

theorem dispatchedTasks_applyPlanned (dispatcher : Bool) (p : PlannedTransition) :
    (dispatchedTasks (run.applyPlanned dispatcher p)).Sublist (promotedTasks [p]) := by
  unfold applyPlanned
  cases ht : p.target
  case queued =>
    dsimp only
    split
    · exact nil_sublist _
    split
    · simp [dispatchedTasks, promotedTasks, ht]
    · exact nil_sublist _
  case none =>
    dsimp only
    (repeat' split) <;> exact nil_sublist _
  all_goals exact nil_sublist _

theorem dispatchedTasks_advance (dispatcher : Bool) :
    (dispatchedTasks (run.advance dispatcher)).Sublist (promotedTasks run.planRun) := by
  have hplan : ∀ plan : List PlannedTransition,
      (dispatchedTasks (plan.flatMap (run.applyPlanned dispatcher))).Sublist
        (promotedTasks plan) := by
    intro plan
    induction plan with
    | nil => exact nil_sublist _
    | cons p plan ih =>
      have h := (run.dispatchedTasks_applyPlanned dispatcher p).append ih
      rwa [← promotedTasks_append, dispatchedTasks, dispatchedTasks, ← filterMap_append] at h
  unfold advance
  split
  · exact nil_sublist _
  · have hrest : dispatchedTasks (flushTransitions (transitionBatch run.planRun) ++
        run.finalizeRun.toList.map Op.setRunState) = [] := by
      simp only [dispatchedTasks, filterMap_eq_nil_iff, mem_append, flushTransitions,
        mem_map]
      rintro op (⟨g, -, rfl⟩ | ⟨s, -, rfl⟩) <;> rfl
    rw [append_assoc, dispatchedTasks, filterMap_append]
    rw [dispatchedTasks] at hrest
    rw [hrest, append_nil]
    exact hplan run.planRun

theorem dispatchedTasks_afterDispatch (task : String) (wall : Time) (o : DispatchOutcome) (ops : List Op) :
    dispatchedTasks (run.afterDispatch task wall o :: ops) = dispatchedTasks ops := by
  cases o with
  | dispatched => rfl
  | backpressure => rfl
  | rejected =>
    simp only [afterDispatch]
    split <;> rfl

end RunState

end Leoflow
