import Leoflow.Scheduler.Planned

/-!
# The declared state machine

`taskTransitions` and `dagRunTransitions` are declared as the legal transitions, but no writer
consults them. Every change of a task's or a run's state, by the planner, by a statement or by
`advance`, is compared with the tables here: each one is declared exactly from some of the states it
is made from.
-/

namespace Leoflow

variable {run : RunState} {source : TaskState}

/-! ## The writers -/

/-- The statements of the scheduler's side, with the targets the code passes. The clears are the
operator's. -/
def Statement.isSchedulerSide (s : Statement) : Bool := s.isIssued && !s.isClear

/-- The states from which what a statement writes is declared. -/
def Statement.declaredFrom : Statement → TaskState → Bool
  | updateTaskInstanceStateByRunTask _ _ .queued, source =>
    source == .scheduled || source == .upForRetry || source == .upForReschedule
  | updateTaskInstanceStateByRunTask .., source => source.isLive
  | updateTaskInstanceStatesByRunTasks _ _ .scheduled, source =>
    source == .none || source == .upForRetry || source == .upForReschedule
  | updateTaskInstanceStatesByRunTasks _ _ .upForRetry, source => source.isLive
  | updateTaskInstanceStatesByRunTasks .., source => source == .none
  | reportTaskResult _ _ .running _ _ _, source => source == .queued
  | reportTaskResult _ _ .success _ _ _, source => source == .running
  | reportTaskResult _ _ .failed _ _ _, source => source.isLive
  | reportTaskResult .., source => source == .none
  | rescheduleTaskInstance .., source | rescheduleTaskInstanceByIDIfActive .., source
  | succeedTaskInstanceIfActive .., source => source == .running
  | markTaskDispatchFailed .., source | failTaskInstanceIfActive .., source
  | markRunOrphanedTaskInstances .., source => source != .scheduled
  | failDispatchExhausted .., _ | requeueForRedispatch .., _ => false
  | _, _ => true

/-- A change of state: a transition the planner emits for a row it has read, a statement on a row its
guard admits, or the stamp of `advance` on the row of its run. -/
inductive StateChange where
  | planned (run : RunState) (p : PlannedTransition) (source : TaskState) (hp : p ∈ run.planRun)
      (hs : run.states.lookup p.taskID = some source)
  | written (s : Statement) (now : Time) (r : TaskInstance) (hs : s.isSchedulerSide)
      (hg : (s.update now).guard r) (hne : ((s.update now).set r).state ≠ r.state)
  | stamped (run : RunState) (dispatcher : Bool) (state : DagRunState) (d : DagRun)
      (hop : .setRunState state ∈ run.advance dispatcher) (hid : d.id = run.runID)
      (hne : state ≠ d.state)

namespace StateChange

/-- The tables allow the change. -/
def isAllowed : StateChange → Bool
  | planned _ p source _ _ => canTransition source p.target
  | written s now r _ _ _ => canTransition r.state ((s.update now).set r).state
  | stamped _ _ state d _ _ _ => canTransitionDagRun d.state state

/-- Where it is made from: the planner from any state but an application failure, a statement from the states its
target is declared from, `advance` from `queued` for a run it materialises, from `queued` or `running` for one
with a failed task, and from `running` for any other. -/
def IsDeclared : StateChange → Prop
  | planned run p source _ _ => source = .failed → run.infraFailed.getD p.taskID false
  | written s _ r _ _ _ => s.declaredFrom r.state
  | stamped run _ _ d _ _ _ =>
    if run.state = .queued ∧ run.states.keys = [] then d.state = .queued
    else if ∃ t ∈ run.tasks, run.states.lookup t.taskID = some .failed ∨
        run.states.lookup t.taskID = some .upstreamFailed then d.state.isTerminal = false
    else d.state = .running

end StateChange

/-! ## The planner -/

theorem RunState.canTransition_of_emit {taskID : String} {target : TaskState}
    (hs : run.states.lookup taskID = some source) (h : (run.retryDecision taskID).emit = some target) :
    canTransition source target ↔ (source = .failed → run.infraFailed.getD taskID false) := by
  unfold RunState.retryDecision at h
  rw [hs] at h
  cases source <;> dsimp only at h <;> (repeat' split at h) <;> simp_all <;> subst h <;> decide

/-- What the admission loop emits is declared. -/
theorem RunState.Starts.canTransition {run : RunState} {t : TaskSpec} {source target : TaskState}
    (h : run.Starts t target) (hs : run.states.lookup t.taskID = some source) :
    canTransition source target ∧ source ≠ .failed := by
  have heff := run.effective_of_undecided h.undecided
  rcases h.rail with ⟨hnone, hstart⟩ | ⟨hsched, -, rfl⟩
  · rw [heff, hs] at hnone
    cases hnone
    unfold RunState.decideStart at hstart
    split at hstart <;> cases hstart <;> decide
  · rw [heff, hs] at hsched
    cases hsched
    decide

theorem RunState.canTransition_of_planned {p : PlannedTransition} (hp : p ∈ run.planRun)
    (hs : run.states.lookup p.taskID = some source) :
    canTransition source p.target ↔ (source = .failed → run.infraFailed.getD p.taskID false) := by
  obtain ⟨t, -, hid, hemit | hstarts⟩ := run.mem_planRun hp
  · exact run.canTransition_of_emit hs hemit
  · rw [← hid] at hs
    obtain ⟨hcan, hne⟩ := hstarts.canTransition hs
    exact iff_of_true hcan fun he => absurd he hne

/-! ## The statements -/

/-- Over the admitted source states, the tables and `declaredFrom` agree. -/
theorem Statement.canTransition_writesState {s : Statement} (hs : s.isSchedulerSide) (hadm : s.admitsState source)
    (hne : s.writesState source ≠ source) : canTransition source (s.writesState source) = s.declaredFrom source := by
  cases s with
  | updateTaskInstanceStateByRunTask run task target
  | updateTaskInstanceStatesByRunTasks run tasks target =>
    cases target <;> cases hs <;> cases source <;> rfl
  | reportTaskResult run task target exitCode message tryNumber =>
    cases target <;> cases hs <;> cases source <;> first | (cases hadm; done) | rfl
  | resetTaskInstanceToNone | resetFailedTaskInstance | resetAllFailedTaskInstances => cases hs
  | _ => cases source <;> first | (cases hadm; done) | rfl | exact absurd rfl hne

theorem Statement.canTransition_of_guard {s : Statement} (hs : s.isSchedulerSide) {now : Time}
    {r : TaskInstance} (hg : (s.update now).guard r) (hne : ((s.update now).set r).state ≠ r.state) :
    canTransition r.state ((s.update now).set r).state ↔ s.declaredFrom r.state := by
  rw [s.set_state] at hne ⊢
  rw [s.canTransition_writesState hs (s.admitsState_of_guard now r hg) hne]

/-! ## The runs -/

theorem RunState.canTransitionDagRun_of_advance {dispatcher : Bool} {state : DagRunState}
    (hop : Op.setRunState state ∈ run.advance dispatcher) {source : DagRunState} (hne : state ≠ source) :
    canTransitionDagRun source state ↔
      if run.state = .queued ∧ run.states.keys = [] then source = .queued
      else if ∃ t ∈ run.tasks, run.states.lookup t.taskID = some .failed ∨
          run.states.lookup t.taskID = some .upstreamFailed then source.isTerminal = false else source = .running := by
  have hset := run.setRunState_of_advance hop
  split at hset
  next hq =>
    rw [if_pos hq, hset]
    cases source <;> decide
  next hq =>
    have hverdict := finalizeRun_verdict hset
    rw [if_neg hq]
    split at hverdict
    next hfailed =>
      rw [if_pos hfailed]
      subst hverdict
      cases source <;> decide
    next hfailed =>
      rw [if_neg hfailed]
      subst hverdict
      cases source <;> decide

/-- **The declared state machine.** A change of state is in the tables exactly where it is made from
a declared state. -/
theorem change_is_allowed_iff (c : StateChange) : c.isAllowed ↔ c.IsDeclared := by
  cases c with
  | planned run p source hp hs => exact RunState.canTransition_of_planned hp hs
  | written s now r hs hg hne => exact Statement.canTransition_of_guard hs hg hne
  | stamped run dispatcher state d hop _ hne =>
    exact RunState.canTransitionDagRun_of_advance hop hne

/-- A run of one task with a retry, whose first try the agent has reported as failed. -/
def retriable : RunState :=
  runState { id := "run", dagVersionId := "v1", state := .running, queuedAt := 0, startedAt := some 0 }
    { dagID := "dag", tasks := [{ taskID := "a", retries := some 1 }], distinct := by decide }
    [{ id := "ti", dagRunId := "run", taskId := "a", tryNumber := 1, maxTries := 2, state := .failed,
       endedAt := some 0 }] 0

/-- The planner moves a failed task that has a try left to `up_for_retry`, and the table has no
transition out of `failed` but to `none`. -/
theorem change_is_allowed_undeclared : ¬ ∀ c : StateChange, c.isAllowed := by
  intro h
  exact absurd (h (.planned retriable ⟨"a", .upForRetry⟩ .failed (by decide +kernel) (by decide +kernel))) (by decide)

end Leoflow
