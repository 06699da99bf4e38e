import Leoflow.Domain.Spec

/-!
# The rows of `task_instances` and `dag_runs`

The columns the modelled statements read or write. A `NULL` column is `none`. One row of
`task_instances` is one task of one run: retries bump `try_number` in place and `map_index` is never
set.
-/

namespace Leoflow

/-- A row of `task_instances`. -/
structure TaskInstance where
  id : String
  dagRunId : String
  taskId : String
  tryNumber : Nat
  maxTries : Int
  state : TaskState
  pool : Option String := none
  scheduledAt : Option Time := none
  queuedAt : Option Time := none
  startedAt : Option Time := none
  endedAt : Option Time := none
  duration : Option Duration := none
  exitCode : Option Int := none
  errorMessage : Option String := none
  dispatchAttempts : Nat := 0
  nextDispatchAt : Option Time := none
  rescheduleAt : Option Time := none
  firstRescheduleAt : Option Time := none
  lastFailureKind : Option String := none
  infraAttempts : Nat := 0
  lastHeartbeatAt : Option Time := none
  warmWorkerId : Option String := none
  note : Option String := none
deriving DecidableEq

/-- The key the scheduler's statements address a row by. -/
def TaskInstance.key (r : TaskInstance) : String × String := (r.dagRunId, r.taskId)

/-- A row of `task_instance_history`: a finished try as it was when it was reset. -/
structure HistoryRow where
  taskInstanceId : String
  tryNumber : Nat
  state : TaskState
  queuedAt : Option Time
  scheduledAt : Option Time
  startedAt : Option Time
  endedAt : Option Time
  duration : Option Duration
  exitCode : Option Int
  errorMessage : Option String
  note : Option String
deriving DecidableEq

/-- A row of `dag_runs`. -/
structure DagRun where
  id : String
  tenantId : String := ""
  dagVersionId : String
  state : DagRunState := .queued
  queuedAt : Time
  startedAt : Option Time := none
  endedAt : Option Time := none
  alertedAt : Option Time := none
  alertAttempts : Nat := 0
  nextAlertAttemptAt : Option Time := none
  note : Option String := none
deriving DecidableEq

/-- The three tables and the clock `now()` reads. -/
structure Database where
  now : Time
  runs : List DagRun
  tis : List TaskInstance
  history : List HistoryRow := []
deriving DecidableEq

end Leoflow
