import Leoflow.Scheduler.Backoff
import Leoflow.Scheduler.RunState
import Leoflow.Scheduler.StateMachine

/-!
# The planner

`internal/scheduler/plan.go`. `planRun` is `PlanRun`: the retry rail over every task, then the
admission loop over the tasks the rail left undecided. `finalizeRun` is `FinalizeRun`.
-/

namespace Leoflow

open Lib (GoMap)

/-- A task and the state the plan moves it to. -/
structure PlannedTransition where
  taskID : String
  target : TaskState
deriving DecidableEq

namespace RunState

variable (run : RunState) (taskID : String)

/-! ## Time gates -/

/-- The task has tries left. -/
def retriable : Bool := run.tries.getD taskID 0 < run.maxTries.getD taskID 0

/-- A gate on an instant: open when none is recorded, when the clock is the zero time, and from the
instant on. -/
def reached (at? : Option Time) : Bool :=
  match at? with
  | none => true
  | some t => run.now == 0 || !decide (run.now < t)

/-- The delay in nanoseconds is an `int64` product. -/
def readyToRetry : Bool :=
  let delay := run.retryDelaySeconds.getD taskID 0
  if delay ≤ 0 then true
  else run.reached ((run.endedAt.lookup taskID).map (· + wrap64 (delay * second)))

/-- The task's dispatch backoff is over. -/
def readyToDispatch : Bool := run.reached (run.nextDispatchAt.lookup taskID)

/-- The sensor's next poke is due. -/
def readyToReschedule : Bool := run.reached (run.rescheduleAt.lookup taskID)

/-- The task was lost and may be placed again. -/
def infraReplaceable : Bool :=
  run.infraFailed.getD taskID false && run.infraAttempts.getD taskID 0 < infraMaxAttempts

/-- The wait before the re-place is over. -/
def readyToInfraReplace : Bool :=
  let delay := dispatchBackoff (run.infraAttempts.getD taskID 0 + 1) + infraReplaceJitter run.runID taskID
  run.reached ((run.endedAt.lookup taskID).map (· + delay))

/-! ## The retry rail -/

/-- What the retry rail does with one task: the transition it emits, the state that is seen instead of the
recorded one, and whether the admission loop skips it. -/
structure RetryDecision where
  emit : Option TaskState := none
  effective : Option TaskState := none
  decided : Bool := false
deriving DecidableEq

/-- The body of the loop in `planRetryTransitions`. -/
def retryDecision : RetryDecision :=
  match run.states.lookup taskID with
  | some .failed =>
    if run.infraFailed.getD taskID false then
      if run.infraReplaceable taskID then
        if run.readyToInfraReplace taskID then
          { emit := some .none, effective := some .none, decided := true }
        else { effective := some .upForRetry, decided := true }
      else { decided := true }
    else if run.retriable taskID then
      { emit := some .upForRetry, effective := some .upForRetry, decided := true }
    else {}
  | some .upForRetry =>
    if run.readyToRetry taskID then
      { emit := some .none, effective := some .none, decided := true }
    else { decided := true }
  | some .upForReschedule =>
    if run.readyToReschedule taskID then
      { emit := some .none, effective := some .none, decided := true }
    else { decided := true }
  | _ => {}

/-- The transitions of the retry rail, in task order. -/
def planRetryTransitions : List PlannedTransition :=
  run.tasks.filterMap fun t => (run.retryDecision t.taskID).emit.map (⟨t.taskID, ·⟩)

/-- The states with what the retry rail makes of them. -/
def effective : GoMap TaskState :=
  run.tasks.foldl (fun m t => ((run.retryDecision t.taskID).effective).elim m (m.insert t.taskID ·)) run.states

/-! ## Admission -/

/-- A pool of a tenant. -/
def poolKey (tenant pool : String) : String := tenant ++ "\x00" ++ pool

/-- A task without a pool is in `default_pool`. -/
def resolvePool (pool : String) : String := if pool = "" then "default_pool" else pool

/-- The pool a task counts for, or none where pools are off. -/
def poolKeyFor (t : TaskSpec) : String :=
  if run.poolsEnabled then poolKey run.tenantID (resolvePool t.pool) else ""

/-- The pool has a slot left. One without a budget is not limited. -/
def poolHasSlot (key : String) (promotedByPool : GoMap Int) : Bool :=
  if key = "" then true
  else
    let budget := run.poolBudgets.getD key 0
    if budget ≤ 0 then true
    else run.poolActive.getD key 0 + promotedByPool.getD key 0 < budget

/-- `admissionHeadroom`; the bound of an unlimited DAG is `math.MaxInt`. -/
def admissionHeadroom : Int :=
  if run.maxActiveTasks ≤ 0 then 2 ^ 63 - 1
  else if run.maxActiveTasks - run.activeTaskCount > 0 then run.maxActiveTasks - run.activeTaskCount
  else 0

/-- The rule of a task, by default `all_success`. -/
def triggerRuleOf (t : TaskSpec) : TriggerRule := t.triggerRule.getD .allSuccess

/-- What the trigger rule makes of a task over its upstreams' states. -/
def decideStart (t : TaskSpec) (deps : List String) (states : GoMap TaskState) : Option TaskState :=
  match evaluateTriggerRule (triggerRuleOf t) (deps.map states.lookup) with
  | .schedule => some .scheduled
  | .skip => some .skipped
  | .upstreamFailed => some .upstreamFailed
  | .wait => none

/-- The variables of the admission loop. -/
structure Admission where
  out : List PlannedTransition
  promoted : Int := 0
  poolPromoted : GoMap Int := ∅

/-- The body of the admission loop. -/
def planTask (upstreams : GoMap (List String)) (effective : GoMap TaskState) (headroom : Int)
    (acc : Admission) (t : TaskSpec) : Admission :=
  if (run.retryDecision t.taskID).decided then acc
  else match effective.lookup t.taskID with
    | some .none =>
      match decideStart t (upstreams.getD t.taskID []) effective with
      | some target => { acc with out := acc.out ++ [⟨t.taskID, target⟩] }
      | none => acc
    | some .scheduled =>
      if !run.readyToDispatch t.taskID then acc
      else if acc.promoted ≥ headroom then acc
      else
        let pk := run.poolKeyFor t
        if !run.poolHasSlot pk acc.poolPromoted then acc
        else
          { out := acc.out ++ [⟨t.taskID, .queued⟩]
            promoted := acc.promoted + 1
            poolPromoted := if pk = "" then acc.poolPromoted
              else acc.poolPromoted.insert pk (acc.poolPromoted.getD pk 0 + 1) }
    | _ => acc

/-- `PlanRun`: the retry rail first, then each task in order. -/
def planRun : List PlannedTransition :=
  let upstreams := GoMap.collect TaskSpec.taskID (fun t => some t.dependsOn) run.tasks
  (run.tasks.foldl (run.planTask upstreams run.effective run.admissionHeadroom) { out := run.planRetryTransitions }).out

/-! ## Finalisation -/

/-- A task that keeps the run open: not terminal, or failed with budget left. -/
def isOpen : Bool :=
  match run.states.lookup taskID with
  | some .failed =>
    if run.infraFailed.getD taskID false then run.infraReplaceable taskID else run.retriable taskID
  | some s => !s.isTerminal
  | none => true

/-- The verdict once every task is terminal. -/
def finalizeRun : Option DagRunState :=
  if run.tasks.any fun t => run.isOpen t.taskID then none
  else if run.tasks.any fun t =>
      run.states.lookup t.taskID == some .failed || run.states.lookup t.taskID == some .upstreamFailed
    then some .failed
  else some .success

end RunState

end Leoflow
