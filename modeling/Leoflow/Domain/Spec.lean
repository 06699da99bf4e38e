import Mathlib.Data.List.Nodup
import Leoflow.Domain.State

/-!
# DAG specifications

The part of `domain.DAGSpec` and `domain.TaskSpec` the scheduler reads. A registered version passed
`validateGraph`, so its task ids are distinct; `DAGSpec` carries that fact.
-/

namespace Leoflow

/-- A rule name outside the five supported ones is kept as `other`. -/
inductive TriggerRule where
  | allSuccess | allFailed | allDone | oneSuccess | oneFailed
  | other (name : String)
deriving DecidableEq

/-- The fields of `domain.TaskSpec` the planner and the materialisation read. An absent
`trigger_rule` and an empty `pool` are the zero values. -/
structure TaskSpec where
  taskID : String
  type : String := "python"
  dependsOn : List String := []
  triggerRule : Option TriggerRule := none
  pool : String := ""
  retries : Option Int := none
  retryDelaySeconds : Option Int := none
deriving DecidableEq

/-- The fields of `domain.DAGSpec` the scheduler reads, with the distinctness of task ids that
registration checks. -/
structure DAGSpec where
  dagID : String
  tasks : List TaskSpec
  maxActiveTasks : Int := 0
  defaultRetries : Option Int := none
  distinct : (tasks.map TaskSpec.taskID).Nodup

/-- A task without its own retries takes the DAG's `default_args` value. -/
def applyDefaultRetries (spec : DAGSpec) : List TaskSpec :=
  match spec.defaultRetries with
  | none => spec.tasks
  | some r => spec.tasks.map fun t => if t.retries.isNone then { t with retries := some r } else t

theorem applyDefaultRetries_taskIDs (spec : DAGSpec) :
    (applyDefaultRetries spec).map TaskSpec.taskID = spec.tasks.map TaskSpec.taskID := by
  unfold applyDefaultRetries
  cases spec.defaultRetries with
  | none => rfl
  | some r =>
    rw [List.map_map]
    refine List.map_congr_left fun t _ => ?_
    simp only [Function.comp_apply]
    split <;> rfl

end Leoflow
