import Leoflow.Domain.Spec

/-!
# Transition tables and trigger rules

`internal/scheduler/state_machine.go`: the declared transitions of tasks and runs, and what a task's
trigger rule decides from the states of its upstreams. An upstream without a row has no state; it
counts as active.
-/

namespace Leoflow

/-! ## Declared transitions -/

/-- The declared transitions of a task. -/
def taskTransitions : TaskState → List TaskState
  | .none => [.scheduled, .skipped, .upstreamFailed]
  | .scheduled => [.queued]
  | .queued => [.running, .failed, .upForRetry]
  | .running => [.success, .failed, .upForRetry, .upForReschedule]
  | .upForRetry => [.scheduled, .queued, .none]
  | .upForReschedule => [.scheduled, .queued, .none]
  | .success => [.none]
  | .failed => [.none]
  | .skipped => [.none]
  | .upstreamFailed => [.none]

/-- The declared transitions of a run. -/
def dagRunTransitions : DagRunState → List DagRunState
  | .queued => [.running, .failed]
  | .running => [.success, .failed]
  | .success => [.queued]
  | .failed => [.queued]

/-- The transition of a task is declared. -/
def canTransition (source target : TaskState) : Bool := (taskTransitions source).contains target

/-- The transition of a run is declared. -/
def canTransitionDagRun (source target : DagRunState) : Bool :=
  (dagRunTransitions source).contains target

/-! ## Trigger rules -/

/-- What a trigger rule decides. -/
inductive TriggerDecision where
  | wait | schedule | skip | upstreamFailed
deriving DecidableEq

/-- How many upstreams are in each kind of state. -/
structure UpstreamCounts where
  total : Nat
  success : Nat := 0
  failed : Nat := 0
  skipped : Nat := 0
  upstreamFailed : Nat := 0
  active : Nat := 0
deriving DecidableEq

/-- One turn of the loop in `countUpstreams`. -/
def UpstreamCounts.add (c : UpstreamCounts) : Option TaskState → UpstreamCounts
  | some .success => { c with success := c.success + 1 }
  | some .failed => { c with failed := c.failed + 1 }
  | some .skipped => { c with skipped := c.skipped + 1 }
  | some .upstreamFailed => { c with upstreamFailed := c.upstreamFailed + 1 }
  | _ => { c with active := c.active + 1 }

/-- Count the states of the upstreams. -/
def countUpstreams (upstreams : List (Option TaskState)) : UpstreamCounts :=
  upstreams.foldl UpstreamCounts.add { total := upstreams.length }

/-- `all_success`. -/
def evalAllSuccess (c : UpstreamCounts) : TriggerDecision :=
  if c.failed > 0 then .upstreamFailed
  else if c.skipped > 0 then .skip
  else if c.active > 0 then .wait
  else .schedule

/-- `all_failed`. -/
def evalAllFailed (c : UpstreamCounts) : TriggerDecision :=
  if c.active > 0 then .wait
  else if c.failed = c.total then .schedule
  else .skip

/-- `all_done`. -/
def evalAllDone (c : UpstreamCounts) : TriggerDecision :=
  if c.active > 0 then .wait else .schedule

/-- `one_success` and `one_failed`, over their own hits. -/
def evalOneOf (c : UpstreamCounts) (hits : Nat) : TriggerDecision :=
  if c.active > 0 then .wait
  else if hits > 0 then .schedule
  else .skip

/-- A root task is always scheduled, and an upstream that is itself
`upstream_failed` propagates for every rule but `all_done`. -/
def evaluateTriggerRule (rule : TriggerRule) (upstreams : List (Option TaskState)) :
    TriggerDecision :=
  if upstreams.isEmpty then .schedule
  else
    let c := countUpstreams upstreams
    if rule ≠ .allDone ∧ c.upstreamFailed > 0 then .upstreamFailed
    else match rule with
      | .allSuccess => evalAllSuccess c
      | .allFailed => evalAllFailed c
      | .allDone => evalAllDone c
      | .oneSuccess => evalOneOf c c.success
      | .oneFailed => evalOneOf c c.failed
      | .other _ => .wait

/-! ## Upstreams that have all ended -/

theorem foldl_add (upstreams : List (Option TaskState)) (c : UpstreamCounts) : upstreams.foldl UpstreamCounts.add c =
      { total := c.total
        success := c.success + upstreams.count (some .success)
        failed := c.failed + upstreams.count (some .failed)
        skipped := c.skipped + upstreams.count (some .skipped)
        upstreamFailed := c.upstreamFailed + upstreams.count (some .upstreamFailed)
        active := c.active + upstreams.countP fun u => !u.any TaskState.isTerminal } := by
  induction upstreams generalizing c with
  | nil => rfl
  | cons u upstreams ih =>
    rw [List.foldl_cons, ih]
    rcases u with _ | s
    · simp [UpstreamCounts.add]
      omega
    · cases s <;> simp [UpstreamCounts.add, TaskState.isTerminal] <;> omega

theorem countUpstreams_eq (upstreams : List (Option TaskState)) : countUpstreams upstreams =
    { total := upstreams.length
      success := upstreams.count (some .success)
      failed := upstreams.count (some .failed)
      skipped := upstreams.count (some .skipped)
      upstreamFailed := upstreams.count (some .upstreamFailed)
      active := upstreams.countP fun u => !u.any TaskState.isTerminal } := by
  rw [countUpstreams, foldl_add]
  simp

theorem active_eq_zero {upstreams : List (Option TaskState)} : (countUpstreams upstreams).active = 0 ↔
    ∀ u ∈ upstreams, ∃ s : TaskState, u = some s ∧ s.isTerminal := by
  rw [countUpstreams_eq, List.countP_eq_zero]
  refine forall₂_congr fun u _ => ?_
  rcases u with _ | s <;> simp

section Ended

variable {upstreams : List (Option TaskState)}
  (h : ∀ u ∈ upstreams, ∃ s : TaskState, u = some s ∧ s.isTerminal)
include h

/-- A supported rule decides a task whose upstreams have all ended. -/
theorem evaluateTriggerRule_ne_wait {rule : TriggerRule} (hrule : ∀ name, rule ≠ .other name) :
    evaluateTriggerRule rule upstreams ≠ .wait := by
  have hactive : (countUpstreams upstreams).active = 0 := active_eq_zero.mpr h
  unfold evaluateTriggerRule
  split
  · exact TriggerDecision.noConfusion
  dsimp only
  split
  · exact TriggerDecision.noConfusion
  cases rule with
  | allSuccess =>
    simp only [evalAllSuccess, hactive, gt_iff_lt, Nat.lt_irrefl, if_false]
    (repeat' split) <;> exact TriggerDecision.noConfusion
  | allFailed =>
    simp only [evalAllFailed, hactive, gt_iff_lt, Nat.lt_irrefl, if_false]
    split <;> exact TriggerDecision.noConfusion
  | allDone =>
    simp only [evalAllDone, hactive, gt_iff_lt, Nat.lt_irrefl, if_false]
    exact TriggerDecision.noConfusion
  | oneSuccess | oneFailed =>
    simp only [evalOneOf, hactive, gt_iff_lt, Nat.lt_irrefl, if_false]
    split <;> exact TriggerDecision.noConfusion
  | other name => exact absurd rfl (hrule name)

end Ended

end Leoflow
