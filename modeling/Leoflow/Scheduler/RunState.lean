import Leoflow.Lib.GoMap
import Leoflow.Storage.Database

/-!
# The tick's snapshot of a run

`scheduler.RunState` and the read side of a tick: `taskInstanceMaps` and `ActiveRuns` of
`internal/storage/scheduler_store.go`.
-/

namespace Leoflow

open Lib (GoMap)

/-- A run as a tick has read it. -/
structure RunState where
  runID : String
  dagID : String
  dagVersionID : String
  tenantID : String
  state : DagRunState
  tasks : List TaskSpec
  states : GoMap TaskState
  tries : GoMap Int
  maxTries : GoMap Int
  endedAt : GoMap Time
  retryDelaySeconds : GoMap Int
  rescheduleAt : GoMap Time
  nextDispatchAt : GoMap Time
  dispatchAttempts : GoMap Int
  infraFailed : GoMap Bool
  infraAttempts : GoMap Int
  now : Time
  maxActiveTasks : Int
  activeTaskCount : Int := 0
  poolsEnabled : Bool := false
  poolBudgets : GoMap Int := ∅
  poolActive : GoMap Int := ∅

/-- The per-task maps of `taskInstanceMaps`, each filled from the run's rows. -/
def mapOf {α : Type} (tis : List TaskInstance) (column : TaskInstance → Option α) : GoMap α :=
  GoMap.collect TaskInstance.taskId column tis

/-- The infra flag counts only on a failed row. -/
def TaskInstance.isInfraFailed (r : TaskInstance) : Bool :=
  r.lastFailureKind == some "infra" && r.state == .failed

/-- A count, or nothing where it is zero. -/
def positive (n : Nat) : Option Int := if n > 0 then some n else none

/-- The `RunState` that `ActiveRuns` builds from a run row, its spec and its task instances. -/
def runState (run : DagRun) (spec : DAGSpec) (tis : List TaskInstance) (now : Time) : RunState where
  runID := run.id
  dagID := spec.dagID
  dagVersionID := run.dagVersionId
  tenantID := run.tenantId
  state := run.state
  tasks := applyDefaultRetries spec
  states := mapOf tis fun r => some r.state
  tries := mapOf tis fun r => some r.tryNumber
  maxTries := mapOf tis fun r => some r.maxTries
  endedAt := mapOf tis TaskInstance.endedAt
  retryDelaySeconds := GoMap.collect TaskSpec.taskID TaskSpec.retryDelaySeconds (applyDefaultRetries spec)
  rescheduleAt := mapOf tis TaskInstance.rescheduleAt
  nextDispatchAt := mapOf tis TaskInstance.nextDispatchAt
  dispatchAttempts := mapOf tis fun r => positive r.dispatchAttempts
  infraFailed := mapOf tis fun r => if r.isInfraFailed then some true else none
  infraAttempts := mapOf tis fun r => positive r.infraAttempts
  now := now
  maxActiveTasks := spec.maxActiveTasks

/-- The queued and running runs, oldest first. -/
def listActiveDagRuns (db : Database) : List DagRun :=
  (db.runs.filter fun d => !d.state.isTerminal).insertionSort fun a b => a.queuedAt ≤ b.queuedAt

theorem mem_listActiveDagRuns {db : Database} {d : DagRun} :
    d ∈ listActiveDagRuns db ↔ d ∈ db.runs ∧ d.state.isTerminal = false := by
  simp [listActiveDagRuns]

/-- `ListTaskInstancesByRun`, in the order of the task ids. -/
def listTaskInstancesByRun (db : Database) (run : String) : List TaskInstance :=
  (db.tis.filter fun r => r.dagRunId == run).insertionSort fun a b => a.taskId ≤ b.taskId

theorem mem_listTaskInstancesByRun {db : Database} {run : String} {r : TaskInstance} :
    r ∈ listTaskInstancesByRun db run ↔ r ∈ db.tis ∧ r.dagRunId = run := by
  simp [listTaskInstancesByRun]

end Leoflow
