import Leoflow.Storage.Queries

/-!
# Statements with their bind parameters

A `Statement` is one of the `UPDATE task_instances` of `Leoflow.Storage.Queries` with its arguments,
so that a claim about every writer is a claim about every `Statement`. The lemmas below say, once for
all of them, which statement can change which column.
-/

namespace Leoflow

open Lib (Update)

/-- An `UPDATE task_instances` with its arguments. -/
inductive Statement where
  | updateTaskInstanceStateByRunTask (run task : String) (target : TaskState)
  | updateTaskInstanceStatesByRunTasks (run : String) (tasks : List String) (target : TaskState)
  | resetTaskInstanceForRetry (run task : String)
  | resetTaskInstanceInfraReplace (run task : String)
  | redispatchRescheduledTaskInstance (run task : String)
  | recordDispatchFailure (run task : String) (nextAt : Time)
  | recordDispatchBackpressure (run task : String) (nextAt : Time)
  | failDispatchExhausted (run task reason : String)
  | setTaskInstanceNote (run task : String) (note : Option String)
  | resetTaskInstanceToNone (run task : String)
  | resetFailedTaskInstance (run task : String)
  | resetAllFailedTaskInstances (run : String)
  | reportTaskResult (run task : String) (target : TaskState) (exitCode : Option Int)
      (message : Option String) (tryNumber : Nat)
  | rescheduleTaskInstance (run task : String) (pokeAt : Time)
  | recordTaskHeartbeat (run task : String) (tryNumber : Nat)
  | bindWarmAttempt (run task : String) (tryNumber : Nat) (pod : String)
  | requeueForRedispatch (run task : String) (tryNumber : Nat)
  | markTaskDispatchFailed (run task reason : String)
  | failTaskInstanceIfActive (id : String) (tryNumber : Nat) (message : String)
  | succeedTaskInstanceIfActive (id : String) (tryNumber : Nat)
  | rescheduleTaskInstanceByIDIfActive (id : String) (tryNumber : Nat) (pokeAt : Time)
  | markTaskDispatchLost (id : String)
  | markTaskAgentLost (id : String)
  | markTaskPodLost (id : String)
  | markRunOrphanedTaskInstances (run : String)
deriving DecidableEq

namespace Statement

/-- The guarded update a statement performs at time `now`. -/
def update (now : Time) : Statement → Update TaskInstance
  | updateTaskInstanceStateByRunTask run task target =>
    Leoflow.updateTaskInstanceStateByRunTask now run task target
  | updateTaskInstanceStatesByRunTasks run tasks target =>
    Leoflow.updateTaskInstanceStatesByRunTasks now run tasks target
  | resetTaskInstanceForRetry run task => Leoflow.resetTaskInstanceForRetry run task
  | resetTaskInstanceInfraReplace run task => Leoflow.resetTaskInstanceInfraReplace run task
  | redispatchRescheduledTaskInstance run task => Leoflow.redispatchRescheduledTaskInstance run task
  | recordDispatchFailure run task nextAt => Leoflow.recordDispatchFailure run task nextAt
  | recordDispatchBackpressure run task nextAt => Leoflow.recordDispatchBackpressure run task nextAt
  | failDispatchExhausted run task reason => Leoflow.failDispatchExhausted now run task reason
  | setTaskInstanceNote run task note => Leoflow.setTaskInstanceNote run task note
  | resetTaskInstanceToNone run task => Leoflow.resetTaskInstanceToNone run task
  | resetFailedTaskInstance run task => Leoflow.resetFailedTaskInstance run task
  | resetAllFailedTaskInstances run => Leoflow.resetAllFailedTaskInstances run
  | reportTaskResult run task target exitCode message tryNumber =>
    Leoflow.reportTaskResult now run task target exitCode message tryNumber
  | rescheduleTaskInstance run task pokeAt => Leoflow.rescheduleTaskInstance now run task pokeAt
  | recordTaskHeartbeat run task tryNumber => Leoflow.recordTaskHeartbeat now run task tryNumber
  | bindWarmAttempt run task tryNumber pod => Leoflow.bindWarmAttempt run task tryNumber pod
  | requeueForRedispatch run task tryNumber => Leoflow.requeueForRedispatch run task tryNumber
  | markTaskDispatchFailed run task reason => Leoflow.markTaskDispatchFailed now run task reason
  | failTaskInstanceIfActive id tryNumber message =>
    Leoflow.failTaskInstanceIfActive now id tryNumber message
  | succeedTaskInstanceIfActive id tryNumber => Leoflow.succeedTaskInstanceIfActive now id tryNumber
  | rescheduleTaskInstanceByIDIfActive id tryNumber pokeAt =>
    Leoflow.rescheduleTaskInstanceByIDIfActive now id tryNumber pokeAt
  | markTaskDispatchLost id => Leoflow.markTaskDispatchLost now id
  | markTaskAgentLost id => Leoflow.markTaskAgentLost now id
  | markTaskPodLost id => Leoflow.markTaskPodLost now id
  | markRunOrphanedTaskInstances run => Leoflow.markRunOrphanedTaskInstances now run

/-- The resets whose `archived` CTE copies the row into `task_instance_history`. -/
def archives : Statement → Bool
  | resetTaskInstanceForRetry .. | resetTaskInstanceInfraReplace .. | resetTaskInstanceToNone ..
  | resetFailedTaskInstance .. | resetAllFailedTaskInstances .. => true
  | _ => false

/-- The resets that start a new try. -/
def startsTry : Statement → Bool
  | resetTaskInstanceForRetry .. | resetTaskInstanceToNone .. | resetFailedTaskInstance ..
  | resetAllFailedTaskInstances .. => true
  | _ => false

/-- The operator's resets. -/
def isClear : Statement → Bool
  | resetTaskInstanceToNone .. | resetFailedTaskInstance .. | resetAllFailedTaskInstances .. => true
  | _ => false

/-- The targets the code passes: `launchQueued` and `failUndispatchable` move one row,
`flushTransitions` a batch, and an agent reports one of four states. -/
def isIssued : Statement → Bool
  | updateTaskInstanceStateByRunTask _ _ target => target == .queued || target == .failed
  | updateTaskInstanceStatesByRunTasks _ _ target => target == .scheduled || target == .skipped ||
      target == .upstreamFailed || target == .upForRetry
  | reportTaskResult _ _ target _ _ _ => target == .running || target == .success ||
      target == .failed || target == .skipped
  | _ => true

/-- The source states its `WHERE` clause admits. -/
def admitsState : Statement → TaskState → Bool
  | resetTaskInstanceForRetry .., source => source == .upForRetry
  | resetTaskInstanceInfraReplace .., source => source == .failed
  | redispatchRescheduledTaskInstance .., source => source == .upForReschedule
  | recordDispatchFailure .., source | recordDispatchBackpressure .., source
  | failDispatchExhausted .., source => source == .scheduled
  | resetFailedTaskInstance .., source | resetAllFailedTaskInstances .., source => source.isFailedish
  | reportTaskResult .., source => source.isReportable
  | recordTaskHeartbeat .., source | bindWarmAttempt .., source => source.isLive
  | requeueForRedispatch .., source | markTaskDispatchLost .., source => source == .queued
  | markTaskDispatchFailed .., source => source == .scheduled || source == .queued
  | rescheduleTaskInstance .., source | failTaskInstanceIfActive .., source
  | succeedTaskInstanceIfActive .., source | rescheduleTaskInstanceByIDIfActive .., source
  | markRunOrphanedTaskInstances .., source => source.isActive
  | markTaskAgentLost .., source | markTaskPodLost .., source => source == .running
  | _, _ => true

/-- The state its `SET` list leaves a row of state `source` in. -/
def writesState : Statement → TaskState → TaskState
  | updateTaskInstanceStateByRunTask _ _ target, _
  | updateTaskInstanceStatesByRunTasks _ _ target, _ | reportTaskResult _ _ target _ _ _, _ => target
  | recordDispatchFailure .., source | recordDispatchBackpressure .., source
  | setTaskInstanceNote .., source | recordTaskHeartbeat .., source
  | bindWarmAttempt .., source => source
  | requeueForRedispatch .., _ => .scheduled
  | succeedTaskInstanceIfActive .., _ => .success
  | rescheduleTaskInstance .., _ | rescheduleTaskInstanceByIDIfActive .., _ => .upForReschedule
  | failDispatchExhausted .., _ | markTaskDispatchFailed .., _ | failTaskInstanceIfActive .., _
  | markTaskDispatchLost .., _ | markTaskAgentLost .., _ | markTaskPodLost .., _
  | markRunOrphanedTaskInstances .., _ => .failed
  | _, _ => .none

variable (s : Statement) (now : Time) (r : TaskInstance)

/-! ## The state column -/

theorem admitsState_of_guard (hg : (s.update now).guard r) : s.admitsState r.state := by
  cases s with
  | resetTaskInstanceInfraReplace => exact ((Bool.and_eq_true _ _).mp ((Bool.and_eq_true _ _).mp hg).1).2
  | updateTaskInstanceStateByRunTask | updateTaskInstanceStatesByRunTasks | setTaskInstanceNote
  | resetTaskInstanceToNone => rfl
  | _ => exact ((Bool.and_eq_true _ _).mp hg).2

theorem set_state : ((s.update now).set r).state = s.writesState r.state := by
  cases s <;> rfl

/-! ## Columns no statement writes -/

@[simp] theorem row_id : ((s.update now).row r).id = r.id := by
  refine (s.update now).row_congr TaskInstance.id (fun r _ => ?_) r
  cases s <;> rfl

@[simp] theorem row_dagRunId : ((s.update now).row r).dagRunId = r.dagRunId := by
  refine (s.update now).row_congr TaskInstance.dagRunId (fun r _ => ?_) r
  cases s <;> rfl

@[simp] theorem row_taskId : ((s.update now).row r).taskId = r.taskId := by
  refine (s.update now).row_congr TaskInstance.taskId (fun r _ => ?_) r
  cases s <;> rfl

@[simp] theorem row_key : ((s.update now).row r).key = r.key := by
  simp [TaskInstance.key]

/-! ## The try number -/

theorem row_tryNumber : ((s.update now).row r).tryNumber =
    if s.startsTry && (s.update now).guard r then r.tryNumber + 1 else r.tryNumber := by
  cases hg : (s.update now).guard r with
  | false => simp [(s.update now).row_of_not_guard hg]
  | true =>
    rw [(s.update now).row_of_guard hg]
    cases s <;> rfl

theorem row_tryNumber_of_running (h : ((s.update now).row r).state = .running) :
    ((s.update now).row r).tryNumber = r.tryNumber := by
  rw [row_tryNumber]
  split
  next hs =>
    obtain ⟨hs, hg⟩ := (Bool.and_eq_true _ _).mp hs
    rw [(s.update now).row_of_guard hg] at h
    cases s <;> first | (cases hs; done) | cases h
  · rfl

theorem tryNumber_le_row : r.tryNumber ≤ ((s.update now).row r).tryNumber := by
  rw [row_tryNumber]
  split <;> omega

end Statement

end Leoflow
