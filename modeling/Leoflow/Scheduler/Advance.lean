import Leoflow.Scheduler.Plan

/-!
# Advancing one run

`advance` of `internal/scheduler/scheduler.go` as the list of store and dispatcher calls it makes, in
order. Between two calls other writers may run. The call after a dispatch depends on its outcome, so
`launchQueued` and `handleDispatchFailure` are split there.
-/

namespace Leoflow

open Lib (GoMap)

/-- One call of `advance` on the store or the dispatcher. -/
inductive Op where
  | materializeTasks
  | setRunState (state : DagRunState)
  | dispatch (task : String)
  | applyTransition (task : String) (target : TaskState)
  | applyTransitions (tasks : List String) (target : TaskState)
  | resetForRetry (task : String)
  | resetForInfraReplace (task : String)
  | redispatchReschedule (task : String)
  | recordDispatchFailure (task : String) (nextAt : Time)
  | recordDispatchBackpressure (task : String) (nextAt : Time)
  | failDispatchExhausted (task reason : String)
  | setTaskNote (task note : String)
deriving DecidableEq

/-- How `Dispatch` returned. A failed call may still have created the pod (`landed`): the API server
can accept a create whose answer never arrives. -/
inductive DispatchOutcome where
  | dispatched
  | backpressure (cause : String) (landed : Bool)
  | rejected (cause : String) (landed : Bool)
deriving DecidableEq

/-- Whether something was handed over that may start an agent. -/
def DispatchOutcome.landed : DispatchOutcome → Bool
  | dispatched => true
  | backpressure _ l | rejected _ l => l

namespace RunState

variable (run : RunState)

/-- `handleDispatchFailure` and `backoffBackpressure`, or the `queued` write after a dispatch that
went through. `wall` is `time.Now()`, read only when the snapshot carries no clock. -/
def afterDispatch (task : String) (wall : Time) : DispatchOutcome → Op
  | .dispatched => .applyTransition task .queued
  | .backpressure _ _ =>
    let now := if run.now = 0 then wall else run.now
    .recordDispatchBackpressure task (now + dispatchBackoff (run.dispatchAttempts.getD task 0 + 1))
  | .rejected cause _ =>
    let attempts := run.dispatchAttempts.getD task 0 + 1
    if attempts ≥ dispatchMaxAttempts then
      .failDispatchExhausted task ("dispatch_failed after " ++ toString attempts ++ " attempts: " ++ cause)
    else
      let now := if run.now = 0 then wall else run.now
      .recordDispatchFailure task (now + dispatchBackoff attempts)

/-- A task that no executor takes fails, with a note that says why. -/
def failUndispatchable (t : TaskSpec) : List Op :=
  [.setTaskNote t.taskID ("Failed: no executor available for a \"" ++ t.type ++
      "\" task. Pod dispatch is disabled (no Kubernetes config)."),
    .applyTransition t.taskID .failed]

/-- The calls of one planned transition, or none when it is batched. -/
def applyPlanned (dispatcher : Bool) (t : PlannedTransition) : List Op :=
  match t.target with
  | .queued =>
    match run.tasks.find? fun s => s.taskID == t.taskID with
    | none => []
    | some task => if dispatcher then [.dispatch t.taskID] else failUndispatchable task
  | .none =>
    if run.states.lookup t.taskID = some .upForReschedule then [.redispatchReschedule t.taskID]
    else if run.states.lookup t.taskID = some .failed ∧ run.infraFailed.getD t.taskID false
      then [.resetForInfraReplace t.taskID]
    else [.resetForRetry t.taskID]
  | _ => []

end RunState

/-- A planned transition that `applyPlanned` puts into the batch. -/
def PlannedTransition.isBatched (t : PlannedTransition) : Bool :=
  t.target != .queued && t.target != .none

/-- `transitionBatch.add`: the groups in first-seen order of their target. -/
def addToBatch (batch : List (TaskState × List String)) (t : PlannedTransition) : List (TaskState × List String) :=
  if batch.any fun g => g.1 == t.target then
    batch.map fun g => if g.1 == t.target then (g.1, g.2 ++ [t.taskID]) else g
  else batch ++ [(t.target, [t.taskID])]

/-- The batch `advance` has collected after its loop. -/
def transitionBatch (plan : List PlannedTransition) : List (TaskState × List String) :=
  (plan.filter PlannedTransition.isBatched).foldl addToBatch []

namespace RunState

variable (run : RunState)

/-- One statement for each target state of the batch. -/
def flushTransitions (batch : List (TaskState × List String)) : List Op :=
  batch.map fun g => .applyTransitions g.2 g.1

/-- The calls of one tick for a run: a run without rows is materialised and started, any other follows its plan
and is finalised. -/
def advance (dispatcher : Bool) : List Op :=
  if run.state = .queued ∧ run.states.keys = [] then [.materializeTasks, .setRunState .running]
  else
    run.planRun.flatMap (run.applyPlanned dispatcher) ++ flushTransitions (transitionBatch run.planRun) ++
      run.finalizeRun.toList.map .setRunState

end RunState

/-- Negative counts become zero, large ones `math.MaxInt32`. -/
def toInt32 (n : Int) : Int := if n < 0 then 0 else min n (2 ^ 31 - 1)

/-- The row `MaterializeTasks` creates for a task, under the id the database generates. -/
def materialized (run : String) (t : TaskSpec) (id : String) : TaskInstance where
  id := id
  dagRunId := run
  taskId := t.taskID
  tryNumber := 1
  maxTries := match t.retries with
    | none => 1
    | some r => toInt32 (r + 1)
  state := .none
  pool := if t.pool = "" then none else some t.pool

/-- The rows of a run's tasks under the ids the database gives them. -/
def materializedRows (run : String) (tasks : List TaskSpec) (ids : List String) :
    List TaskInstance :=
  (tasks.zip ids).map fun p => materialized run p.1 p.2

/-- The write of a call. `ids` are the ids the database generates for the rows of
`MaterializeTasks`; a dispatch writes nothing by itself. -/
def Op.write (run : RunState) (ids : List String) : Op → Write
  | materializeTasks => .createTaskInstances (materializedRows run.runID run.tasks ids)
  | setRunState state => .dagRun (.stampDagRunState run.runID state)
  | dispatch _ => .nothing
  | applyTransition task target => .task (.updateTaskInstanceStateByRunTask run.runID task target)
  | applyTransitions tasks target =>
    .task (.updateTaskInstanceStatesByRunTasks run.runID tasks target)
  | resetForRetry task => .task (.resetTaskInstanceForRetry run.runID task)
  | resetForInfraReplace task => .task (.resetTaskInstanceInfraReplace run.runID task)
  | redispatchReschedule task => .task (.redispatchRescheduledTaskInstance run.runID task)
  | recordDispatchFailure task nextAt => .task (.recordDispatchFailure run.runID task nextAt)
  | recordDispatchBackpressure task nextAt =>
    .task (.recordDispatchBackpressure run.runID task nextAt)
  | failDispatchExhausted task reason => .task (.failDispatchExhausted run.runID task reason)
  | setTaskNote task note => .task (.setTaskInstanceNote run.runID task (some note))

/-- The tasks whose row a call may move. A note moves none. -/
def Op.tasks : Op → List String
  | materializeTasks | setRunState _ | setTaskNote .. => []
  | dispatch task | applyTransition task _ | resetForRetry task | resetForInfraReplace task
  | redispatchReschedule task | recordDispatchFailure task _ | recordDispatchBackpressure task _
  | failDispatchExhausted task _ => [task]
  | applyTransitions tasks _ => tasks

/-- The calls whose error is logged and not propagated. -/
def Op.isBestEffort : Op → Bool
  | recordDispatchFailure .. | recordDispatchBackpressure .. | failDispatchExhausted ..
  | setTaskNote .. => true
  | _ => false

/-- The call is a dispatch. -/
def Op.isDispatch : Op → Bool
  | dispatch _ => true
  | _ => false

end Leoflow
