import Leoflow.Lib.Table
import Leoflow.Storage.Rows

/-!
# The statements on `task_instances`

Each `UPDATE task_instances` of `internal/storage/queries/runs.sql` under its own name: the `WHERE`
clause is the guard, the `SET` list the new row. `now` is the statement's `now()`.
-/

namespace Leoflow

open Lib (Update)

/-- A nullable timestamp stamped once: `CASE WHEN c AND col IS NULL THEN now() ELSE col END`. -/
def stampIf (c : Bool) (now : Time) (col : Option Time) : Option Time :=
  if c && col.isNone then some now else col

theorem stampIf_isSome (c : Bool) (now : Time) {col : Option Time} (h : col.isSome) :
    (stampIf c now col).isSome := by
  unfold stampIf
  split
  · rfl
  · exact h

theorem stampIf_true_isSome (now : Time) (col : Option Time) : (stampIf true now col).isSome := by
  cases col <;> rfl

namespace TaskInstance

/-- `WHERE dag_run_id = $1 AND task_id = $2`. -/
def isFor (run task : String) (r : TaskInstance) : Bool := r.dagRunId == run && r.taskId == task

/-- The `SET` list of `UpdateTaskInstanceStateByRunTask` and of its batched form. -/
def moveTo (now : Time) (target : TaskState) (r : TaskInstance) : TaskInstance :=
  { r with
    state := target
    scheduledAt := stampIf (target == .scheduled) now r.scheduledAt
    queuedAt := stampIf (target == .queued) now r.queuedAt
    startedAt := stampIf (target == .running) now r.startedAt }

/-- What every reset to `none` clears: the four timestamps, the failure kind and the warm binding. -/
def released (r : TaskInstance) : TaskInstance :=
  { r with
    state := .none
    startedAt := none
    endedAt := none
    queuedAt := none
    scheduledAt := none
    lastFailureKind := none
    warmWorkerId := none }

/-- A reset that also forgets the dispatch failures. -/
def undispatched (r : TaskInstance) : TaskInstance :=
  { r.released with dispatchAttempts := 0, nextDispatchAt := none }

/-- A reset that also forgets the reschedules. -/
def unrescheduled (r : TaskInstance) : TaskInstance :=
  { r.undispatched with rescheduleAt := none, firstRescheduleAt := none }

/-- `try_number = ti.try_number + 1`. -/
def nextTry (r : TaskInstance) : TaskInstance := { r with tryNumber := r.tryNumber + 1 }

/-- `state = 'failed', ended_at = now(), error_message = …`. -/
def failedWith (now : Time) (message : Option String) (r : TaskInstance) : TaskInstance :=
  { r with state := .failed, endedAt := some now, errorMessage := message }

/-- A reaper's mark: a failure whose kind is `infra`. -/
def lostWith (now : Time) (message : String) (r : TaskInstance) : TaskInstance :=
  { r.failedWith now (some message) with lastFailureKind := some "infra" }

/-- `state = 'up_for_reschedule'` with the first reschedule kept. -/
def rescheduledTo (now pokeAt : Time) (r : TaskInstance) : TaskInstance :=
  { r with
    state := .upForReschedule
    rescheduleAt := some pokeAt
    firstRescheduleAt := r.firstRescheduleAt.or (some now) }

end TaskInstance

open TaskInstance

/-! ## The scheduler's statements -/

/-- Any state to any state: the one move without a guard on the state. -/
def updateTaskInstanceStateByRunTask (now : Time) (run task : String) (target : TaskState) : Update TaskInstance where
  guard r := r.isFor run task
  set r := r.moveTo now target

/-- The same for several tasks of a run. -/
def updateTaskInstanceStatesByRunTasks (now : Time) (run : String) (tasks : List String)
    (target : TaskState) : Update TaskInstance where
  guard r := r.dagRunId == run && tasks.contains r.taskId
  set r := r.moveTo now target

/-- The next try of a task in `up_for_retry`. -/
def resetTaskInstanceForRetry (run task : String) : Update TaskInstance where
  guard r := r.isFor run task && r.state == .upForRetry
  set r := r.unrescheduled.nextTry

/-- A lost task is placed again under its try. -/
def resetTaskInstanceInfraReplace (run task : String) : Update TaskInstance where
  guard r := r.isFor run task && r.state == .failed && r.lastFailureKind == some "infra"
  set r := { r.unrescheduled with infraAttempts := r.infraAttempts + 1 }

/-- The next poke of a sensor, under the same try. -/
def redispatchRescheduledTaskInstance (run task : String) : Update TaskInstance where
  guard r := r.isFor run task && r.state == .upForReschedule
  set r := { r.released with rescheduleAt := none }

/-- A failed dispatch counts, and delays the next. -/
def recordDispatchFailure (run task : String) (nextAt : Time) : Update TaskInstance where
  guard r := r.isFor run task && r.state == .scheduled
  set r := { r with dispatchAttempts := r.dispatchAttempts + 1, nextDispatchAt := some nextAt }

/-- Backpressure delays the next dispatch and does not count. -/
def recordDispatchBackpressure (run task : String) (nextAt : Time) : Update TaskInstance where
  guard r := r.isFor run task && r.state == .scheduled
  set r := { r with nextDispatchAt := some nextAt }

/-- The last dispatch attempt has failed. -/
def failDispatchExhausted (now : Time) (run task reason : String) : Update TaskInstance where
  guard r := r.isFor run task && r.state == .scheduled
  set r := { r.failedWith now (some reason) with nextDispatchAt := none }

/-- The note of a task. -/
def setTaskInstanceNote (run task : String) (note : Option String) : Update TaskInstance where
  guard r := r.isFor run task
  set r := { r with note := note }

/-! ## The operator's clears -/

/-- A clear of a task in any state. -/
def resetTaskInstanceToNone (run task : String) : Update TaskInstance where
  guard r := r.isFor run task
  set r := r.unrescheduled.nextTry

/-- A clear of a task if it failed. -/
def resetFailedTaskInstance (run task : String) : Update TaskInstance where
  guard r := r.isFor run task && r.state.isFailedish
  set r := r.undispatched.nextTry

/-- A clear of all failed tasks of a run. -/
def resetAllFailedTaskInstances (run : String) : Update TaskInstance where
  guard r := r.dagRunId == run && r.state.isFailedish
  set r := r.undispatched.nextTry

/-! ## The agent's reports -/

/-- The source states a state report may leave. -/
def TaskState.isReportable : TaskState → Bool
  | .none | .scheduled | .queued | .running => true
  | _ => false

/-- A report of this try, while it is not over. -/
def reportTaskResult (now : Time) (run task : String) (target : TaskState) (exitCode : Option Int)
    (message : Option String) (tryNumber : Nat) : Update TaskInstance where
  guard r := r.isFor run task && r.tryNumber == tryNumber && r.state.isReportable
  set r :=
    { r with
      state := target
      exitCode := exitCode
      errorMessage := message
      startedAt := stampIf (target == .running) now r.startedAt
      endedAt := if target.isTerminal then some now else r.endedAt
      duration := if target == .success || target == .failed then
          (r.startedAt.map (now - ·)).or r.duration else r.duration }

/-- A sensor asks for its next poke. -/
def rescheduleTaskInstance (now : Time) (run task : String) (pokeAt : Time) : Update TaskInstance where
  guard r := r.isFor run task && r.state.isActive
  set r := r.rescheduledTo now pokeAt

/-- A heartbeat of this try. -/
def recordTaskHeartbeat (now : Time) (run task : String) (tryNumber : Nat) : Update TaskInstance where
  guard r := r.isFor run task && r.tryNumber == tryNumber && r.state.isLive
  set r := { r with lastHeartbeatAt := some now }

/-- A warm worker has started this try. -/
def bindWarmAttempt (run task : String) (tryNumber : Nat) (pod : String) : Update TaskInstance where
  guard r := r.isFor run task && r.tryNumber == tryNumber && r.state.isLive
  set r := { r with warmWorkerId := some pod }

/-- A warm assignment is given back before it ran. -/
def requeueForRedispatch (run task : String) (tryNumber : Nat) : Update TaskInstance where
  guard r := r.isFor run task && r.tryNumber == tryNumber && r.state == .queued
  set r := { r with state := .scheduled, warmWorkerId := none }

/-- The buffered dispatch of a task has failed. -/
def markTaskDispatchFailed (now : Time) (run task reason : String) : Update TaskInstance where
  guard r := r.isFor run task && (r.state == .scheduled || r.state == .queued)
  set r := r.failedWith now (some reason)

/-! ## The reconciler's settles -/

/-- The reconciler found the pod failed. -/
def failTaskInstanceIfActive (now : Time) (id : String) (tryNumber : Nat) (message : String) : Update TaskInstance where
  guard r := r.id == id && r.tryNumber == tryNumber && r.state.isActive
  set r := r.failedWith now (some message)

/-- The reconciler found the pod succeeded. -/
def succeedTaskInstanceIfActive (now : Time) (id : String) (tryNumber : Nat) : Update TaskInstance where
  guard r := r.id == id && r.tryNumber == tryNumber && r.state.isActive
  set r := { r with state := .success, endedAt := some now, errorMessage := none }

/-- The reconciler found that the pod asked for a poke. -/
def rescheduleTaskInstanceByIDIfActive (now : Time) (id : String) (tryNumber : Nat) (pokeAt : Time) :
    Update TaskInstance where
  guard r := r.id == id && r.tryNumber == tryNumber && r.state.isActive
  set r := r.rescheduledTo now pokeAt

/-! ## The reapers' marks -/

/-- A queued task whose pod never came. -/
def markTaskDispatchLost (now : Time) (id : String) : Update TaskInstance where
  guard r := r.id == id && r.state == .queued
  set r := r.lostWith now "dispatch_lost: scheduler crashed before dispatch landed; will be retried by the run reaper"

/-- A running task whose agent is silent. -/
def markTaskAgentLost (now : Time) (id : String) : Update TaskInstance where
  guard r := r.id == id && r.state == .running
  set r := r.lostWith now "agent_lost: no heartbeat within the threshold — see #128"

/-- A running task whose pod is gone. -/
def markTaskPodLost (now : Time) (id : String) : Update TaskInstance where
  guard r := r.id == id && r.state == .running
  set r := r.lostWith now "pod_lost: the task pod vanished with no live pod past the grace period — see #527"

/-- The active tasks of an orphaned run. -/
def markRunOrphanedTaskInstances (now : Time) (run : String) : Update TaskInstance where
  guard r := r.dagRunId == run && r.state.isActive
  set r := r.failedWith now (some "orphaned: scheduler restart left this task without a runner")

end Leoflow
