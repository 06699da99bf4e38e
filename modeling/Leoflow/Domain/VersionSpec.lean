import Leoflow.Domain.Spec
import Leoflow.Lib.GoMap
import Leoflow.Lib.Json

/-!
# Registered versions

`domain.DAGSpec` as a version row stores it, with the fields the agent, the dispatcher and the secret
scoping read beside those of the scheduler. `toDAGSpec` is the scheduler's view. Registration checked
the spec against the DAG schema, and `VersionSpec` carries the ranges.
-/

namespace Leoflow

open Lib (GoMap Json)

/-- An absent member is zero. -/
structure DefaultArgs where
  retries : Int := 0
  retryDelaySeconds : Int := 0
  executionTimeoutSeconds : Int := 0
deriving DecidableEq

/-- The `defaults` block of the project file, as `_default_args` of the parser copies it: each key that
is there, under the name it has. -/
def defaultArgs (retries retryDelaySeconds executionTimeoutSeconds : Option Int) : DefaultArgs where
  retries := retries.getD 0
  retryDelaySeconds := retryDelaySeconds.getD 0
  executionTimeoutSeconds := executionTimeoutSeconds.getD 0

/-- The ranges of the schema. A default of zero is one that is not there. -/
def DefaultArgs.inSchema (d : DefaultArgs) : Bool :=
  decide (0 ≤ d.retries ∧ d.retries ≤ 100) && decide (0 ≤ d.retryDelaySeconds) && decide (0 ≤ d.executionTimeoutSeconds)

/-- The two kinds of secrets a DAG declares by name: Variables and Connections. -/
inductive SecretKind where
  | vars | conns
deriving DecidableEq

/-- A task of a version. `secrets` are its `variables` and `connections`. -/
structure AgentTask extends TaskSpec where
  entrypoint : String := ""
  executionTimeoutSeconds : Option Int := none
  terminationGracePeriodSeconds : Option Int := none
  secrets : SecretKind → List String := fun _ => []
  xcomInput : GoMap (List String) := ∅
  xcomSchema : Option Json := none

/-- What the DAG schema asks of a task. -/
def AgentTask.inSchema (t : AgentTask) : Bool :=
  t.retries.all (fun r => decide (0 ≤ r ∧ r ≤ 100)) && t.retryDelaySeconds.all (fun d => decide (0 ≤ d)) &&
    t.executionTimeoutSeconds.all (fun s => decide (1 ≤ s)) && decide (t.secrets .vars).Nodup &&
    decide (t.secrets .conns).Nodup

/-- A registered version. -/
structure VersionSpec where
  dagID : String
  tasks : List AgentTask
  maxActiveTasks : Int := 0
  defaultArgs : Option DefaultArgs := none
  secrets : SecretKind → List String := fun _ => []
  distinct : (tasks.map fun t => t.taskID).Nodup
  inSchema : (tasks.all AgentTask.inSchema && defaultArgs.all DefaultArgs.inSchema &&
    decide (secrets .vars).Nodup && decide (secrets .conns).Nodup)

namespace VersionSpec

variable (spec : VersionSpec)

/-- What the scheduler reads of a version. -/
def toDAGSpec : DAGSpec where
  dagID := spec.dagID
  tasks := spec.tasks.map AgentTask.toTaskSpec
  maxActiveTasks := spec.maxActiveTasks
  defaultRetries := spec.defaultArgs.map DefaultArgs.retries
  distinct := by
    rw [List.map_map]
    exact spec.distinct

/-- The defaults of a version; without `default_args` all are absent. -/
def defaults : DefaultArgs := spec.defaultArgs.getD {}

variable {spec}

theorem inSchema_task {t : AgentTask} (ht : t ∈ spec.tasks) : t.inSchema := by
  have h := spec.inSchema
  simp only [Bool.and_eq_true, List.all_eq_true] at h
  exact h.1.1.1 t ht

theorem inSchema_defaults : spec.defaults.inSchema := by
  have h := spec.inSchema
  simp only [Bool.and_eq_true] at h
  unfold defaults
  cases hd : spec.defaultArgs with
  | none => rfl
  | some d =>
    have hall := h.1.1.2
    rw [hd] at hall
    exact hall

theorem defaults_retries_range : 0 ≤ spec.defaults.retries ∧ spec.defaults.retries ≤ 100 := by
  have h := spec.inSchema_defaults
  simp only [DefaultArgs.inSchema, Bool.and_eq_true, decide_eq_true_eq] at h
  exact h.1.1

theorem defaults_timeout_nonneg : 0 ≤ spec.defaults.executionTimeoutSeconds := by
  have h := spec.inSchema_defaults
  simp only [DefaultArgs.inSchema, Bool.and_eq_true, decide_eq_true_eq] at h
  exact h.2

theorem retries_range {t : AgentTask} (ht : t ∈ spec.tasks) {r : Int} (hr : t.retries = some r) : 0 ≤ r ∧ r ≤ 100 := by
  have h := spec.inSchema_task ht
  simp only [AgentTask.inSchema, Bool.and_eq_true, hr, Option.all_some, decide_eq_true_eq] at h
  exact h.1.1.1.1

theorem find_task {t : AgentTask} (ht : t ∈ spec.tasks) :
    spec.tasks.find? (fun t' => t'.taskID == t.taskID) = some t := by
  have hd := spec.distinct
  generalize spec.tasks = tasks at ht hd
  induction tasks with
  | nil => cases ht
  | cons u us ih =>
    rw [List.map_cons, List.nodup_cons] at hd
    rcases List.mem_cons.mp ht with rfl | ht
    · exact List.find?_cons_of_pos (beq_self_eq_true _)
    · have hne : ¬(u.taskID == t.taskID) := by
        intro he
        apply hd.1
        rw [eq_of_beq he]
        exact List.mem_map_of_mem ht
      rw [List.find?_cons_of_neg (p := fun t' : AgentTask => t'.taskID == t.taskID) hne]
      exact ih ht hd.2

end VersionSpec

end Leoflow
