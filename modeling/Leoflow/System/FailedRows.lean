import Leoflow.System.WellFormed

/-!
# Failed rows

The retry rail decides on a snapshot and the counters are bumped by statements guarded on the state alone. Nobody but
the tick and the clears takes a row out of `failed`: a row the tick has read as failed stays as it was read. So one
step changes a row's state and its two budgets only in the ways of `RetryEffect`.
-/

namespace Leoflow

open Lib (GoMap)
open List Lib.Update

variable {r : TaskInstance} {op : Op} {s : Statement}

/-! ## What a snapshot shows of a row -/

/-- The snapshot shows the columns the retry rail reads as they are. -/
structure RunState.Shows (run : RunState) (r : TaskInstance) : Prop where
  state : run.states.lookup r.taskId = some r.state
  tries : run.tries.getD r.taskId 0 = r.tryNumber
  maxTries : run.maxTries.getD r.taskId 0 = r.maxTries
  infraFailed : run.infraFailed.getD r.taskId false = r.isInfraFailed
  infraAttempts : run.infraAttempts.getD r.taskId 0 = r.infraAttempts

/-- These columns, with the task they are shown under. -/
def TaskInstance.railColumns (r : TaskInstance) : String × TaskState × Nat × Int × Bool × Nat :=
  (r.taskId, r.state, r.tryNumber, r.maxTries, r.isInfraFailed, r.infraAttempts)

theorem RunState.Shows.congr {run : RunState} {r' : TaskInstance} (h : run.Shows r)
    (he : r'.railColumns = r.railColumns) : run.Shows r' := by
  simp only [TaskInstance.railColumns, Prod.mk.injEq] at he
  obtain ⟨h1, h2, h3, h4, h5, h6⟩ := he
  exact ⟨by rw [h1, h2]; exact h.state, by rw [h1, h3]; exact h.tries,
    by rw [h1, h4]; exact h.maxTries, by rw [h1, h5]; exact h.infraFailed,
    by rw [h1, h6]; exact h.infraAttempts⟩

theorem positive_getD (n : Nat) : (positive n).getD 0 = (n : Int) := by
  unfold positive
  split
  · rfl
  · simp only [Option.getD_none]
    omega

theorem snapshot_shows_rail (cfg : Config) {db : Database} (hk : db.Keyed) {d : DagRun}
    (hr : r ∈ db.tis) (hrun : r.dagRunId = d.id) : (snapshot cfg db d).Shows r := by
  have hmem := mem_listTaskInstancesByRun.mpr ⟨hr, hrun⟩
  have hget : ∀ {α : Type} (column : TaskInstance → Option α),
      (mapOf (listTaskInstancesByRun db d.id) column).lookup r.taskId = column r :=
    fun _ => GoMap.lookup_collect (hk.taskIds d.id) hmem
  refine ⟨hget _, ?_, ?_, ?_, ?_⟩ <;> simp only [snapshot, runState, GoMap.getD, hget]
  · rfl
  · rfl
  · cases r.isInfraFailed <;> rfl
  · exact positive_getD _

/-! ## What the calls of a tick rest on -/

/-- The ground of a call in the snapshot: a task is parked for a retry that has failed on its own and has tries
left, and is re-placed that was lost and has re-placements left. -/
def Op.Justified (run : RunState) : Op → Prop
  | applyTransition _ target => target = .queued ∨ target = .failed
  | applyTransitions tasks target => ∀ task ∈ tasks, target ≠ .none ∧ target ≠ .failed ∧
      (target = .upForRetry → run.states.lookup task = some .failed ∧
        run.infraFailed.getD task false = false ∧ run.retriable task)
  | resetForInfraReplace task =>
    run.states.lookup task = some .failed ∧ run.infraReplaceable task
  | _ => True

namespace RunState

variable (run : RunState)

theorem target_of_starts {t : TaskSpec} {target : TaskState} (h : run.Starts t target) :
    target = .scheduled ∨ target = .skipped ∨ target = .upstreamFailed ∨ target = .queued := by
  rcases h.rail with ⟨-, hd⟩ | ⟨-, -, rfl⟩
  · unfold decideStart at hd
    split at hd <;> simp_all
  · simp

/-- The rail parks only failures of the task's own with tries left. -/
theorem parks_of_emit {taskID : String} (h : (run.retryDecision taskID).emit = some .upForRetry) :
    run.states.lookup taskID = some .failed ∧ run.infraFailed.getD taskID false = false ∧
      run.retriable taskID := by
  unfold retryDecision at h
  split at h <;> (repeat' split at h) <;> simp_all

/-- The rail resets a lost task only while re-placements are left. -/
theorem infraReplaceable_of_emit {taskID : String} (h : (run.retryDecision taskID).emit = some .none)
    (hs : run.states.lookup taskID = some .failed) : run.infraReplaceable taskID := by
  unfold retryDecision at h
  simp only [hs] at h
  (repeat' split at h) <;> simp_all

/-- What a planned transition calls for is justified by the plan. -/
theorem justified_applyPlanned {dispatcher : Bool} {p : PlannedTransition} (hp : p ∈ run.planRun)
    (hop : op ∈ run.applyPlanned dispatcher p) : op.Justified run := by
  unfold applyPlanned at hop
  split at hop
  · split at hop
    · cases hop
    · split at hop
      · rw [mem_singleton.mp hop]
        trivial
      · simp only [failUndispatchable, mem_cons, not_mem_nil, or_false] at hop
        rcases hop with rfl | rfl
        · trivial
        · exact .inr rfl
  next htarget =>
    split at hop
    · rw [mem_singleton.mp hop]
      trivial
    · split at hop
      next hlost =>
        rw [mem_singleton.mp hop]
        refine ⟨hlost.1, ?_⟩
        obtain ⟨t, -, -, hemit | hstarts⟩ := run.mem_planRun hp
        · exact run.infraReplaceable_of_emit (htarget ▸ hemit) hlost.1
        · rcases run.target_of_starts hstarts with h | h | h | h <;> simp [h] at htarget
      · rw [mem_singleton.mp hop]
        trivial
  · cases hop

theorem justified_flush {g : TaskState × List String} (hg : g ∈ transitionBatch run.planRun) :
    (Op.applyTransitions g.2 g.1).Justified run := by
  intro task htask
  obtain ⟨p, hp, hb, rfl, ht⟩ := mem_transitionBatch hg htask
  rw [← ht]
  simp only [PlannedTransition.isBatched, Bool.and_eq_true, bne_iff_ne] at hb
  obtain ⟨t, -, -, hemit | hstarts⟩ := run.mem_planRun hp
  · refine ⟨hb.2, fun he => ?_, fun he => run.parks_of_emit (he ▸ hemit)⟩
    rcases run.target_of_emit hemit with h | h <;> simp [h] at he
  · rcases run.target_of_starts hstarts with h | h | h | h <;> simp [h]

theorem justified_of_mem_advance {dispatcher : Bool} (h : op ∈ run.advance dispatcher) : op.Justified run := by
  rcases run.mem_advance_cases h with rfl | ⟨s, rfl⟩ | ⟨p, hp, hop⟩ | ⟨g, hg, rfl⟩
  · trivial
  · trivial
  · exact run.justified_applyPlanned hp hop
  · exact run.justified_flush hg

theorem justified_afterDispatch (task : String) (wall : Time) (o : DispatchOutcome) :
    (run.afterDispatch task wall o).Justified run := by
  cases o with
  | dispatched => exact .inl rfl
  | backpressure => trivial
  | rejected =>
    simp only [afterDispatch]
    split <;> trivial

end RunState

/-- The calls a tick has still to make are justified by its snapshot. -/
def Tick.Justified (t : Tick) : Prop :=
  ∀ run ops, t.current? = some (run, ops) → ∀ op ∈ ops, op.Justified run

theorem justified_step {cfg : Config} {w w' : World} {a : Action} (hj : ∀ t, w.ctl.tick = some t → t.Justified)
    (h : w.step cfg a = some w') : ∀ t, w'.ctl.tick = some t → t.Justified :=
  calls_step (J := fun run op => op.Justified run) (fun run _ _ hop => run.justified_of_mem_advance hop)
    (fun run task wall outcome _ => run.justified_afterDispatch task wall outcome) hj h

/-- **In every run** the tick's calls are justified by what it has read. -/
theorem justified_reaches {cfg : Config} {cond : World → Action → Prop} {w : World}
    (h : (World.system cfg).Reaches cond w) : ∀ t, w.ctl.tick = some t → t.Justified :=
  calls_reaches (J := fun run op => op.Justified run) (fun run _ _ hop => run.justified_of_mem_advance hop)
    (fun run task wall outcome _ => run.justified_afterDispatch task wall outcome) h

/-! ## A row read as failed -/

/-- The tick has read the row of the task as failed and may still move it. -/
def Tick.ReadFailed (t : Tick) (run : RunState) (task : String) : Prop :=
  t.Pends run task ∧ run.states.lookup task = some .failed

/-- What the tick has read as failed is as it has read it. -/
def FailuresShown (w : World) : Prop :=
  ∀ t run, w.ctl.tick = some t → ∀ r ∈ w.db.tis, r.dagRunId = run.runID → t.ReadFailed run r.taskId → run.Shows r

/-- No clear resets a row the tick has read as failed and may still move. -/
def ClearsUnread (w : World) (a : Action) : Prop :=
  ∀ c, a = .clearNext c → ∀ t run, w.ctl.tick = some t → ∀ r ∈ w.db.tis, r.dagRunId = run.runID →
    t.ReadFailed run r.taskId → (w.write a).row w.db r = r

section Step

variable {cfg : Config} {w w' : World} {a : Action}

theorem row_of_terminal (ht : ∀ t, a ≠ .tick t) (hc : ∀ c, a ≠ .clearNext c)
    (hr : r.state.isTerminal) : (w.write a).row w.db r = r := by
  by_contra hne
  obtain ⟨s, hs, hg⟩ := Write.statement_of_row_ne hne
  have hchan := World.channel_of_statement hs
  rw [Statement.guard_of_isTerminal (fun he => ?_) (fun he => ?_) hr] at hg
  · cases hg
  · rw [he] at hchan
    cases a with
    | tick t => exact ht t rfl
    | _ => cases hchan
  · rw [he] at hchan
    cases a with
    | clearNext c => exact hc c rfl
    | _ => cases hchan

theorem TaskInstance.railColumns_note (r : TaskInstance) (note : Option String) :
    { r with note := note }.railColumns = r.railColumns := rfl

/-- A failure that the tick has read stays as it was read, if no clear touches it. -/
theorem failuresShown_step (hw : w.WellFormed) (hf : FailuresShown w) (hc : ClearsUnread w a)
    (h : w.step cfg a = some w') : FailuresShown w' := by
  have hstep := pending_step TaskInstance.railColumns TaskInstance.railColumns_note
    (P := fun run r => run.states.lookup r.taskId = some .failed → run.Shows r)
    (Q := fun run r => run.states.lookup r.taskId = some .failed → run.Shows r) hw h
    (fun t run ht r hr hrun hp hfailed => hf t run ht r hr hrun ⟨hp, hfailed⟩) ?_ ?_ ?_ ?_
  · intro t run ht r hr hrun hread
    exact hstep t run ht r hr hrun hread.1 hread.2
  · intro b run r hs hfailed
    have hshows := hs hfailed
    exact ⟨hshows.state, hshows.tries, hshows.maxTries, hshows.infraFailed, hshows.infraAttempts⟩
  · intro _ d r hr hrun _ _
    exact snapshot_shows_rail cfg hw.keyed hr hrun
  · intro ta _ run r _ _ hs hcols hfailed
    rw [Write.row_taskId] at hfailed
    exact (hs hfailed).congr hcols
  · intro ha t run ht r hr hrun hp hs hfailed
    rw [Write.row_taskId] at hfailed
    have hshows := hs hfailed
    by_cases hclear : ∃ c, a = .clearNext c
    · obtain ⟨c, rfl⟩ := hclear
      rw [hc c rfl t run ht r hr hrun ⟨hp, hfailed⟩]
      exact hshows
    · have hstate : r.state = .failed := Option.some.inj (hshows.state.symm.trans hfailed)
      rw [row_of_terminal ha (fun c he => hclear ⟨c, he⟩) (by rw [hstate]; rfl)]
      exact hshows

end Step

theorem failuresShown_reaches {cfg : Config} {cond : World → Action → Prop}
    (hcond : ∀ w a, cond w a → ClearsUnread w a) {w : World}
    (h : (World.system cfg).Reaches cond w) : FailuresShown w := by
  refine h.invariant (fun w hi => ?_) fun w a w' hr hf hc hs => ?_
  · obtain ⟨now, rfl⟩ := hi
    exact fun _ _ ht => by cases ht
  · exact failuresShown_step (wellFormed_reaches hr) hf (hcond w a hc) hs

/-! ## What a step does to the budgets -/

/-- The budgets of a row are kept. -/
structure TaskInstance.SameBudgets (r r' : TaskInstance) : Prop where
  tries : r'.tryNumber = r.tryNumber
  maxTries : r'.maxTries = r.maxTries
  infraAttempts : r'.infraAttempts = r.infraAttempts

/-- The statements that write `failed`. The batched state write is none of them: no plan has this
target. -/
def Statement.fails : Statement → Bool
  | .updateTaskInstanceStateByRunTask _ _ target | .reportTaskResult _ _ target _ _ _ =>
    target == .failed
  | .failDispatchExhausted .. | .markTaskDispatchFailed .. | .failTaskInstanceIfActive ..
  | .markTaskDispatchLost .. | .markTaskAgentLost .. | .markTaskPodLost ..
  | .markRunOrphanedTaskInstances .. => true
  | _ => false

/-- What a statement may do to the state and budgets of a row it matches. -/
inductive RetryEffect (s : Statement) (r r' : TaskInstance) : Prop where
  | kept (hb : r.SameBudgets r') (hs : r'.state = r.state)
      (hk : r'.lastFailureKind = r.lastFailureKind) (hf : s.fails = false)
  | moved (hb : r.SameBudgets r') (hn : r'.state ≠ .none) (hf : r'.state ≠ .failed) (hu : r'.state ≠ .upForRetry)
  | failed (hb : r.SameBudgets r') (hs' : r'.state = .failed) (hf : s.fails)
  | redispatched (hb : r.SameBudgets r') (hs : r.state = .upForReschedule) (hs' : r'.state = .none)
  | parked (hb : r.SameBudgets r') (hs : r.state = .failed) (hk : r.isInfraFailed = false)
      (hlt : (r.tryNumber : Int) < r.maxTries) (hs' : r'.state = .upForRetry) (hf : s.fails = false)
  | retried (hs : r.state = .upForRetry) (hs' : r'.state = .none)
      (ht : r'.tryNumber = r.tryNumber + 1) (hm : r'.maxTries = r.maxTries)
      (hi : r'.infraAttempts = r.infraAttempts)
  | replaced (hs : r.state = .failed) (hs' : r'.state = .none) (ht : r'.tryNumber = r.tryNumber)
      (hm : r'.maxTries = r.maxTries) (hi : r'.infraAttempts = r.infraAttempts + 1)
      (hlt : (r.infraAttempts : Int) < infraMaxAttempts)
  | cleared (hc : s.channel = .clear) (hs' : r'.state = .none)

/-- The statements that read no plan: no state write of the tick nor its re-placement, no clear, and no report of
a state no agent reports. -/
def Statement.isRoutine : Statement → Bool
  | .updateTaskInstanceStateByRunTask .. | .updateTaskInstanceStatesByRunTasks ..
  | .resetTaskInstanceInfraReplace .. | .resetTaskInstanceToNone .. | .resetFailedTaskInstance ..
  | .resetAllFailedTaskInstances .. => false
  | .reportTaskResult _ _ target _ _ _ => target != .none && target != .upForRetry
  | _ => true

/-- What a routine statement can do to a failed row. -/
theorem Statement.retryEffect (hs : s.isRoutine) {now : Time} (hg : (s.update now).guard r) :
    RetryEffect s r ((s.update now).row r) := by
  rw [(s.update now).row_of_guard hg]
  cases s with
  | updateTaskInstanceStateByRunTask | updateTaskInstanceStatesByRunTasks
  | resetTaskInstanceInfraReplace | resetTaskInstanceToNone | resetFailedTaskInstance
  | resetAllFailedTaskInstances => cases hs
  | resetTaskInstanceForRetry =>
    simp only [update, Leoflow.resetTaskInstanceForRetry, Bool.and_eq_true, beq_iff_eq] at hg
    exact .retried hg.2 rfl rfl rfl rfl
  | redispatchRescheduledTaskInstance =>
    simp only [update, Leoflow.redispatchRescheduledTaskInstance, Bool.and_eq_true, beq_iff_eq] at hg
    exact .redispatched ⟨rfl, rfl, rfl⟩ hg.2 rfl
  | recordDispatchFailure | recordDispatchBackpressure | setTaskInstanceNote | recordTaskHeartbeat
  | bindWarmAttempt => exact .kept ⟨rfl, rfl, rfl⟩ rfl rfl rfl
  | reportTaskResult run task target =>
    simp only [isRoutine, Bool.and_eq_true, bne_iff_ne] at hs
    by_cases hf : target = .failed
    · exact .failed ⟨rfl, rfl, rfl⟩ hf (by simp [fails, hf])
    · exact .moved ⟨rfl, rfl, rfl⟩ hs.1 hf hs.2
  | rescheduleTaskInstance | requeueForRedispatch | succeedTaskInstanceIfActive
  | rescheduleTaskInstanceByIDIfActive =>
    refine .moved ⟨rfl, rfl, rfl⟩ ?_ ?_ ?_ <;>
      simp [update, Leoflow.rescheduleTaskInstance, Leoflow.requeueForRedispatch,
        Leoflow.succeedTaskInstanceIfActive, Leoflow.rescheduleTaskInstanceByIDIfActive,
        TaskInstance.rescheduledTo]
  | failDispatchExhausted | markTaskDispatchFailed | failTaskInstanceIfActive
  | markTaskDispatchLost | markTaskAgentLost | markTaskPodLost | markRunOrphanedTaskInstances =>
    exact .failed ⟨rfl, rfl, rfl⟩ rfl rfl

section Effect

variable {w : World} {a : Action}

/-- The same for a call of the tick, if the row is as the tick shows it. -/
theorem Op.retryEffect {db : Database} {run : RunState} {ids : List String}
    (hs : (op.write run ids).statement db = some s) (hj : op.Justified run) (hg : (s.update db.now).guard r)
    (hshown : r.taskId ∈ op.tasks → run.states.lookup r.taskId = some .failed → run.Shows r) :
    RetryEffect s r ((s.update db.now).row r) := by
  cases op with
  | applyTransition task target =>
    cases hs
    rw [row_of_guard _ hg]
    rcases hj with rfl | rfl
    · refine .moved ⟨rfl, rfl, rfl⟩ ?_ ?_ ?_ <;>
        simp [Statement.update, updateTaskInstanceStateByRunTask, TaskInstance.moveTo]
    · exact .failed ⟨rfl, rfl, rfl⟩ rfl rfl
  | applyTransitions tasks target =>
    cases hs
    rw [row_of_guard _ hg]
    simp only [Statement.update, updateTaskInstanceStatesByRunTasks, Bool.and_eq_true, beq_iff_eq,
      contains_iff_mem] at hg
    obtain ⟨hn, hf, hpark⟩ := hj r.taskId hg.2
    by_cases hu : target = .upForRetry
    · obtain ⟨hfailed, hinfra, hretry⟩ := hpark hu
      have hshow := hshown hg.2 hfailed
      refine .parked ⟨rfl, rfl, rfl⟩ (Option.some.inj (hshow.state.symm.trans hfailed))
        (hshow.infraFailed.symm.trans hinfra) ?_ hu rfl
      rwa [RunState.retriable, hshow.tries, hshow.maxTries, decide_eq_true_eq] at hretry
    · exact .moved ⟨rfl, rfl, rfl⟩ hn hf hu
  | resetForInfraReplace task =>
    cases hs
    rw [row_of_guard _ hg]
    simp only [Statement.update, resetTaskInstanceInfraReplace, TaskInstance.isFor, Bool.and_eq_true, beq_iff_eq] at hg
    obtain ⟨⟨⟨-, rfl⟩, hfailed⟩, -⟩ := hg
    have hshow := hshown (mem_singleton.mpr rfl) hj.1
    refine .replaced hfailed rfl rfl rfl rfl ?_
    have hlt := hj.2
    simp only [RunState.infraReplaceable, Bool.and_eq_true, decide_eq_true_eq, hshow.infraAttempts] at hlt
    exact hlt.2
  | _ => cases hs <;> exact Statement.retryEffect rfl hg

/-- A statement changes the state and the budgets of a row it matches only in these ways. -/
theorem retryEffect_step (hj : ∀ t, w.ctl.tick = some t → t.Justified) (hf : FailuresShown w)
    (hs : (w.write a).statement w.db = some s) (hr : r ∈ w.db.tis) (hg : (s.update w.db.now).guard r) :
    RetryEffect s r ((s.update w.db.now).row r) := by
  by_cases htick : s.channel = .tick
  · obtain ⟨ids, b, run, op, ops, rest, rfl, ht, hop⟩ := World.call_of_statement hs htick
    refine Op.retryEffect hop (hj _ ht run _ rfl op mem_cons_self) hg fun htask hfailed => ?_
    exact hf _ run ht r hr (Op.guard_run hop hg).1 ⟨.inr ⟨_, rfl, mem_append_left _ htask⟩, hfailed⟩
  · cases s with
    | updateTaskInstanceStateByRunTask | updateTaskInstanceStatesByRunTasks
    | resetTaskInstanceInfraReplace => exact absurd rfl htick
    | resetTaskInstanceToNone | resetFailedTaskInstance | resetAllFailedTaskInstances =>
      rw [row_of_guard _ hg]
      exact .cleared rfl rfl
    | reportTaskResult =>
      rcases World.target_of_report hs with rfl | rfl | rfl | rfl <;> exact Statement.retryEffect rfl hg
    | _ => exact Statement.retryEffect rfl hg

end Effect

end Leoflow
