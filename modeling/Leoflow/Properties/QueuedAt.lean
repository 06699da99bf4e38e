import Leoflow.System.Holdings
import Leoflow.System.WellFormed

/-!
# `queued_at`

The dispatch-lost reaper reads `queued_at`, which is stamped only when it is `NULL`. Every reset to `none` clears it.
`RequeueForRedispatch` does not, so a row that is queued again keeps the first stamp.
-/

namespace Leoflow

open World

variable {r : TaskInstance}

/-- A queued row carries the time of its last entry into `queued`. -/
def QueuedStamped (w : World) : Prop :=
  ∀ r ∈ w.db.tis, r.state = .queued → r.queuedAt = some (w.track.enteredQueued r.id)

instance (w : World) : Decidable (QueuedStamped w) := by
  unfold QueuedStamped
  infer_instance

/-- A mark of the dispatch-lost reaper fails only rows that were queued at least the threshold ago. -/
def MarksLongQueued (cfg : Config) (w : World) (a : Action) : Prop :=
  match a with
  | .mark ⟨.dispatchLost _, _, _⟩ =>
    ∀ r ∈ w.db.tis, (w.write a).row w.db r ≠ r →
      w.track.enteredQueued r.id ≤ w.db.now - cfg.reapers.dispatchLostThreshold
  | _ => True

/-- No requeue finds its row queued, and no row enters `queued` that a sweep of the dispatch-lost
reaper has listed and not marked yet. -/
structure QueuesClean (w : World) (a : Action) : Prop where
  requeues : ∀ l, a = .requeue l → ∀ r ∈ w.db.tis, (requeueForRedispatch l.run l.task l.tryNumber).guard r = false
  unlisted : ∀ i ∈ w.ctl.reaps, i.marked = none → ∀ c, i.candidate = .dispatchLost c →
    ∀ r ∈ w.db.tis, r.id = c.taskInstanceID → r.state ≠ .queued → ((w.write a).row w.db r).state ≠ .queued

/-! ## What a write does to the column -/

/-- A write that does not put the row into the queue: it keeps state and `queued_at`, clears the
column, or moves the row past the queue. -/
inductive CalmEffect (r r' : TaskInstance) : Prop where
  | kept (hs : r'.state = r.state) (hq : r'.queuedAt = r.queuedAt)
  | cleared (hs : r'.state ≠ .queued) (hq : r'.queuedAt = none)
  | left (hu : r'.state.isUnqueued = false) (hs : r'.state ≠ .queued) (hq : r'.queuedAt = r.queuedAt)

/-- What a write may do to a row's state and `queued_at`. -/
inductive QueueEffect (now : Time) (r r' : TaskInstance) : Prop where
  | calm (h : CalmEffect r r')
  | entered (hq : r.queuedAt = none) (hs : r'.state = .queued) (hq' : r'.queuedAt = some now)

/-- A statement that does not write a state up to `queued` unless it clears `queued_at`: all but the
tick's state writes, the requeue, and a report of such a state, which no agent sends. -/
def Statement.isCalm : Statement → Bool
  | .updateTaskInstanceStateByRunTask .. | .updateTaskInstanceStatesByRunTasks ..
  | .requeueForRedispatch .. => false
  | .reportTaskResult _ _ target _ _ _ => !(target.isUnqueued || target == .queued)
  | _ => true

/-- A calm statement puts no row into the queue. -/
theorem Statement.calmEffect {s : Statement} (hs : s.isCalm) (now : Time)
    (r : TaskInstance) : CalmEffect r ((s.update now).row r) := by
  cases hg : (s.update now).guard r with
  | false =>
    rw [(s.update now).row_of_not_guard hg]
    exact .kept rfl rfl
  | true =>
    rw [(s.update now).row_of_guard hg]
    cases s with
    | updateTaskInstanceStateByRunTask | updateTaskInstanceStatesByRunTasks
    | requeueForRedispatch => cases hs
    | resetTaskInstanceForRetry | resetTaskInstanceInfraReplace | redispatchRescheduledTaskInstance
    | resetTaskInstanceToNone | resetFailedTaskInstance | resetAllFailedTaskInstances =>
      exact .cleared (by simp [update, Leoflow.resetTaskInstanceForRetry,
        Leoflow.resetTaskInstanceInfraReplace, Leoflow.redispatchRescheduledTaskInstance,
        Leoflow.resetTaskInstanceToNone, Leoflow.resetFailedTaskInstance,
        Leoflow.resetAllFailedTaskInstances, TaskInstance.nextTry, TaskInstance.unrescheduled,
        TaskInstance.undispatched, TaskInstance.released]) rfl
    | recordDispatchFailure | recordDispatchBackpressure | setTaskInstanceNote
    | recordTaskHeartbeat | bindWarmAttempt => exact .kept rfl rfl
    | reportTaskResult run task target =>
      simp only [isCalm, Bool.not_eq_true', Bool.or_eq_false_iff, beq_eq_false_iff_ne] at hs
      exact .left hs.1 hs.2 rfl
    | _ => exact .left rfl (by simp [update, Leoflow.failDispatchExhausted,
        Leoflow.rescheduleTaskInstance, Leoflow.markTaskDispatchFailed,
        Leoflow.failTaskInstanceIfActive, Leoflow.succeedTaskInstanceIfActive,
        Leoflow.rescheduleTaskInstanceByIDIfActive, Leoflow.markTaskDispatchLost,
        Leoflow.markTaskAgentLost, Leoflow.markTaskPodLost, Leoflow.markRunOrphanedTaskInstances,
        TaskInstance.failedWith, TaskInstance.lostWith, TaskInstance.rescheduledTo]) rfl

theorem TaskInstance.queueEffect_moveTo (now : Time) (target : TaskState)
    (h : (target.isUnqueued || target == .queued) → r.queuedAt = none) : QueueEffect now r (r.moveTo now target) := by
  by_cases hq : target = .queued
  · subst hq
    exact .entered (h rfl) rfl (by simp [moveTo, stampIf, h])
  have hsame : (r.moveTo now target).queuedAt = r.queuedAt := by simp [moveTo, stampIf, hq]
  cases hu : target.isUnqueued with
  | true => exact .calm (.cleared hq (hsame.trans (h (by simp [hu]))))
  | false => exact .calm (.left hu hq hsame)

/-- A call of the tick, where the rows it puts into a state up to `queued` have the column empty. -/
theorem Op.queueEffect {db : Database} {run : RunState} (op : Op) (ids : List String)
    (h : r.dagRunId = run.runID → r.taskId ∈ op.queues → r.queuedAt = none) :
    QueueEffect db.now r ((op.write run ids).row db r) := by
  by_cases hrow : (op.write run ids).row db r = r
  · rw [hrow]
    exact .calm (.kept rfl rfl)
  obtain ⟨s, hs, hg⟩ := Write.statement_of_row_ne hrow
  rw [Write.row_of_statement hs]
  cases op with
  | applyTransition task target =>
    cases hs
    rw [Lib.Update.row_of_guard _ hg]
    simp only [Statement.update, updateTaskInstanceStateByRunTask, TaskInstance.isFor,
      Bool.and_eq_true, beq_iff_eq] at hg
    exact TaskInstance.queueEffect_moveTo _ _ fun ht => h hg.1 (by simp [Op.queues, ht, hg.2])
  | applyTransitions tasks target =>
    cases hs
    rw [Lib.Update.row_of_guard _ hg]
    simp only [Statement.update, updateTaskInstanceStatesByRunTasks, Bool.and_eq_true, beq_iff_eq,
      List.contains_iff_mem] at hg
    exact TaskInstance.queueEffect_moveTo _ _ fun ht => h hg.1 (by simp [Op.queues, ht, hg.2])
  | _ => cases hs <;> exact .calm (Statement.calmEffect rfl _ _)

theorem World.isCalm_of_statement {w : World} {a : Action} {s : Statement}
    (h : (w.write a).statement w.db = some s) (ht : ∀ t, a ≠ .tick t) (hr : ∀ l, a ≠ .requeue l) : s.isCalm := by
  have hc := channel_of_statement h
  cases s with
  | updateTaskInstanceStateByRunTask | updateTaskInstanceStatesByRunTasks =>
    cases a with
    | tick t => exact absurd rfl (ht t)
    | _ => cases hc
  | requeueForRedispatch =>
    cases a with
    | requeue l => exact absurd rfl (hr l)
    | _ => cases hc
  | reportTaskResult => rcases target_of_report h with rfl | rfl | rfl | rfl <;> rfl
  | _ => rfl

/-! ## The invariant -/

/-- The tick has read the row as `none` or `scheduled`, or has a call left that may queue it. -/
def Tick.MayQueue (t : Tick) (run : RunState) (task : String) : Prop :=
  (run ∈ t.waiting ∧ (run.states.lookup task = some .none ∨ run.states.lookup task = some .scheduled)) ∨
  ∃ ops, t.current? = some (run, ops) ∧ ∃ op ∈ ops, task ∈ op.queues

/-- Rows that are not queued yet, or that the tick may still queue, have the column empty; queued rows
carry their stamp; and a listed candidate shows it. -/
structure QueuedOk (T : Duration) (w : World) : Prop where
  unqueued : ∀ r ∈ w.db.tis, r.state.isUnqueued → r.queuedAt = none
  stamped : QueuedStamped w
  held : ∀ t run, w.ctl.tick = some t → ∀ r ∈ w.db.tis, r.dagRunId = run.runID →
    t.MayQueue run r.taskId → r.queuedAt = none
  listed : ∀ i ∈ w.ctl.reaps, i.marked = none → ∀ c, i.candidate = .dispatchLost c → c.queuedAt ≤ i.clock - T ∧
      ∃ r ∈ w.db.tis, r.id = c.taskInstanceID ∧ w.track.enteredQueued r.id = c.queuedAt

theorem Tick.Moves.mayQueue {cfg : Config} {db : Database} {t : Option Tick} {a : TickAction}
    {t' : Tick} (hm : Tick.Moves cfg db t a (some t')) {run' : RunState} {task : String} (hq : t'.MayQueue run' task) :
    (a = .load ∧ ∃ d, run' = snapshot cfg db d ∧
      (run'.states.lookup task = some .none ∨ run'.states.lookup task = some .scheduled)) ∨
    ∃ t0 run, t = some t0 ∧ t0.MayQueue run task ∧ run.runID = run'.runID := by
  have hq : t'.Carries (fun run => run.states.lookup task = some .none ∨
      run.states.lookup task = some .scheduled) (fun ops => ∃ op ∈ ops, task ∈ op.queues) run' := hq
  have hcall : ∀ (op : Op) ops, (∃ op' ∈ ops, task ∈ op'.queues) → ∃ op' ∈ op :: ops, task ∈ op'.queues := by
    rintro op ops ⟨op', hop, htask⟩
    exact ⟨op', List.mem_cons_of_mem _ hop, htask⟩
  have hdispatch : ∀ (run : RunState) task' o ops, (∃ op ∈ run.afterDispatch task' db.now o :: ops, task ∈ op.queues) →
        ∃ op ∈ .dispatch task' :: ops, task ∈ op.queues := by
    rintro run task' o ops ⟨op, hop, htask⟩
    rcases List.mem_cons.mp hop with rfl | hop
    · exact ⟨_, List.mem_cons_self, run.afterDispatch_queues task' db.now o htask⟩
    · exact hcall _ _ ⟨op, hop, htask⟩
  rcases hm.carries hq (fun b r ⟨op, hop, htask⟩ => (b.prepare r).states_of_mem_queues hop htask)
    hdispatch hcall with ⟨d, -, -, -, rfl, hrun, hs⟩ | ⟨t0, run, ht, hq0, hsame⟩
  · exact .inl ⟨rfl, d, hrun, hs⟩
  · refine .inr ⟨t0, run, ht, hq0, ?_⟩
    rcases hsame with rfl | ⟨b, rfl⟩ <;> rfl

section Step

variable {cfg : Config} {T : Duration} {w w' : World} {a : Action}

theorem calmEffect_of_not_tick (hc : QueuesClean w a) (ht : ∀ t, a ≠ .tick t) (hr : r ∈ w.db.tis) :
    CalmEffect r ((w.write a).row w.db r) := by
  by_cases hreq : ∃ l, a = .requeue l
  · obtain ⟨l, rfl⟩ := hreq
    have hrow : (w.write (.requeue l)).row w.db r = r :=
      Lib.Update.row_of_not_guard _ (hc.requeues l rfl r hr)
    rw [hrow]
    exact .kept rfl rfl
  · cases hs : (w.write a).statement w.db with
    | none => rw [Write.row_of_none hs]; exact .kept rfl rfl
    | some s =>
      rw [Write.row_of_statement hs]
      exact Statement.calmEffect (isCalm_of_statement hs ht fun l he => hreq ⟨l, he⟩) _ _

theorem queueEffect_step (hq : QueuedOk T w) (hc : QueuesClean w a) (hr : r ∈ w.db.tis) :
    QueueEffect w.db.now r ((w.write a).row w.db r) := by
  by_cases ha : ∃ t, a = .tick t
  · obtain ⟨t, rfl⟩ := ha
    simp only [World.write]
    unfold Tick.write
    split
    next b run op ops rest ids ht =>
      exact op.queueEffect ids fun hrun htask =>
        hq.held _ run ht r hr hrun (.inr ⟨_, rfl, op, List.mem_cons_self, htask⟩)
    · rw [Write.row_of_none rfl]
      exact .calm (.kept rfl rfl)
  · exact .calm (calmEffect_of_not_tick hc (fun t he => ha ⟨t, he⟩) hr)

theorem enteredQueued_step (hk : w.db.Keyed) (hr : r ∈ w.db.tis) : (w.tracked a).enteredQueued r.id =
      if r.state ≠ .queued ∧ ((w.write a).row w.db r).state = .queued then w.db.now
      else w.track.enteredQueued r.id := by
  have hany := hk.any_id hr fun s => s.state != .queued && ((w.write a).row w.db s).state == .queued
  simp only [← Bool.and_assoc] at hany
  simp only [tracked, hany, Bool.and_eq_true, bne_iff_ne, beq_iff_eq]

theorem not_entered_of_mayQueue (hw : w.WellFormed) (hq : QueuedOk T w) {ta : TickAction}
    (h : w.step cfg (.tick ta) = some w') {t : Tick} {run : RunState} (ht : w'.ctl.tick = some t) (hr : r ∈ w.db.tis)
    (hrun : r.dagRunId = run.runID) (hm : t.MayQueue run r.taskId) (hnone : r.queuedAt = none) :
    ((w.write (.tick ta)).row w.db r).state ≠ .queued := by
  intro hs
  have hne : r.state ≠ .queued := fun he => by
    have := hq.stamped r hr he
    rw [hnone] at this
    cases this
  refine hne (hs ▸ (?_ : ((w.write (.tick ta)).row w.db r).state = r.state).symm)
  by_cases hcall : ∃ ids, ta = .call ids
  · obtain ⟨ids, rfl⟩ := hcall
    have hmv := tick_moves h
    rw [ht] at hmv
    generalize htick : w.ctl.tick = t0 at hmv
    cases hmv with
    | call b rs op ops rest =>
      have hwrite : w.write (.tick (.call ids)) = op.write rs ids := by
        simp [World.write, htick, Tick.write]
      rw [hwrite]
      refine (op.row_of_not_mem ids fun hrs => ?_).1
      have hok := hw.tick _ htick
      rcases hm with ⟨hmem, -⟩ | ⟨ops', hc, op', hop', htask⟩
      · exact absurd (hrun.symm.trans hrs) (hok.run_ne hmem)
      · cases hc
        exact hok.not_moved (.inr ⟨_, rfl, List.mem_flatMap.mpr ⟨op', hop', op'.queues_subset_tasks htask⟩⟩) rfl
  · rw [write_tick fun ids he => hcall ⟨ids, he⟩, Write.row_of_none rfl]

theorem queuedAt_of_inserted (hr : r ∈ (w.write a).inserted) : r.state = .none ∧ r.queuedAt = none := by
  obtain ⟨_, _, _, _, _, _, _, -, -, -, rfl⟩ := mem_inserted hr
  exact ⟨rfl, rfl⟩

theorem unqueued_step (hq : QueuedOk T w) (hc : QueuesClean w a) (h : w.step cfg a = some w') :
    ∀ r ∈ w'.db.tis, r.state.isUnqueued → r.queuedAt = none := by
  intro r' hr' hu
  rcases (mem_step_tis h).mp hr' with ⟨r, hr, rfl⟩ | hins
  · cases queueEffect_step hq hc hr with
    | calm he =>
      cases he with
      | kept hs hqa => rw [hqa]; exact hq.unqueued r hr (hs ▸ hu)
      | cleared _ hqa => exact hqa
      | left hu' => rw [hu'] at hu; cases hu
    | entered _ hs => rw [hs] at hu; cases hu
  · exact (queuedAt_of_inserted hins).2

section

variable (hw : w.WellFormed) (hq : QueuedOk T w) (hc : QueuesClean w a) (h : w.step cfg a = some w')
include hw hq hc h

theorem stamped_step : QueuedStamped w' := by
  intro r' hr' hs
  rcases (mem_step_tis h).mp hr' with ⟨r, hr, rfl⟩ | hins
  · rw [Write.row_id, step_track h, enteredQueued_step hw.keyed hr]
    cases queueEffect_step hq hc hr with
    | calm he =>
      cases he with
      | kept hs' hqa =>
        rw [if_neg (fun hne => hne.1 (hs' ▸ hs)), hqa]
        exact hq.stamped r hr (hs' ▸ hs)
      | cleared hs' => exact absurd hs hs'
      | left _ hs' => exact absurd hs hs'
    | entered hnone hs' hqa =>
      have hne : r.state ≠ .queued := fun he => by
        have := hq.stamped r hr he
        rw [hnone] at this
        cases this
      rw [if_pos ⟨hne, hs'⟩, hqa]
  · rw [(queuedAt_of_inserted hins).1] at hs
    cases hs

theorem held_step (t : Tick) (run : RunState) (ht : w'.ctl.tick = some t) :
    ∀ r ∈ w'.db.tis, r.dagRunId = run.runID → t.MayQueue run r.taskId → r.queuedAt = none := by
  intro r' hr' hrun hm
  rcases (mem_step_tis h).mp hr' with ⟨r, hr, rfl⟩ | hins
  · rw [Write.row_dagRunId] at hrun
    rw [Write.row_taskId] at hm
    -- The column was empty before the step.
    have hnone : r.queuedAt = none := by
      rcases tick_step h ht with ⟨ta, rfl, hmv⟩ | ⟨-, ht⟩
      · rcases hmv.mayQueue hm with ⟨-, d, rfl, hs⟩ | ⟨t0, run0, ht0, hm0, hid⟩
        · have hshow := (snapshot_shows cfg (d := d) hw.keyed hr hrun).1
          rw [hshow, Option.some.injEq, Option.some.injEq] at hs
          refine hq.unqueued r hr ?_
          rcases hs with hs | hs <;> simp [hs, TaskState.isUnqueued]
        · exact hq.held t0 run0 ht0 r hr (hrun.trans hid.symm) hm0
      · exact hq.held t run ht r hr hrun hm
    cases queueEffect_step hq hc hr with
    | calm he => cases he <;> simp_all
    | entered _ hs =>
      by_cases ha : ∃ ta, a = .tick ta
      · obtain ⟨ta, rfl⟩ := ha
        exact absurd hs (not_entered_of_mayQueue hw hq h ht hr hrun hm hnone)
      · cases calmEffect_of_not_tick hc (fun ta he => ha ⟨ta, he⟩) hr <;> simp_all
  · exact (queuedAt_of_inserted hins).2

end

theorem QueuedOk.listed_of_taken (hq : QueuedOk T w) {cfg : ReaperConfig} {clock : Time}
    {c : StaleQueuedCandidate} (h : (Candidate.dispatchLost c).taken cfg w.db clock) :
    c.queuedAt ≤ clock - cfg.dispatchLostThreshold ∧
      ∃ r ∈ w.db.tis, r.id = c.taskInstanceID ∧ w.track.enteredQueued r.id = c.queuedAt := by
  simp only [Candidate.taken, isDispatchLost, Bool.and_eq_true, List.contains_iff_mem,
    decide_eq_true_eq, listStaleQueuedCandidates, List.mem_map] at h
  obtain ⟨⟨⟨r, hr, rfl⟩, -, hlate⟩, -⟩ := h
  obtain ⟨hmem, hstate⟩ := mem_of_mem_listTasks hr
  refine ⟨Int.le_sub_left_of_add_le (Int.add_le_of_le_sub_right hlate), r, hmem, rfl, ?_⟩
  simp [hq.stamped r hmem (by simpa using hstate)]

theorem listedQueued_step (hw : w.WellFormed) (hq : QueuedOk cfg.reapers.dispatchLostThreshold w)
    (hc : QueuesClean w a) (h : w.step cfg a = some w') : ∀ i ∈ w'.ctl.reaps, i.marked = none →
      ∀ c, i.candidate = .dispatchLost c → c.queuedAt ≤ i.clock - cfg.reapers.dispatchLostThreshold ∧
        ∃ r ∈ w'.db.tis, r.id = c.taskInstanceID ∧ w'.track.enteredQueued r.id = c.queuedAt := by
  intro i hi hm c hcand
  rw [step_track h]
  rcases mem_reaps (step_ctl h) hi with hi | ⟨c', clock, rfl, htaken, rfl⟩ | ⟨i0, -, -, -, rfl⟩
  · obtain ⟨hlate, r, hr, hid, hent⟩ := hq.listed i hi hm c hcand
    refine ⟨hlate, _, (mem_step_tis h).mpr (.inl ⟨r, hr, rfl⟩), by simpa using hid, ?_⟩
    rw [Write.row_id, enteredQueued_step hw.keyed hr, if_neg]
    · exact hent
    · exact fun hne => hc.unlisted i hi hm c hcand r hr hid hne.1 hne.2
  · subst hcand
    rw [tis_of_nothing h rfl]
    obtain ⟨hlate, r, hr, hid, hent⟩ := hq.listed_of_taken htaken
    refine ⟨hlate, r, hr, hid, ?_⟩
    rw [enteredQueued_step hw.keyed hr, if_neg]
    · exact hent
    · exact fun hne => hne.1 hne.2
  · cases hm

end Step

theorem queuedOk_reaches {cfg : Config} {w : World} (h : (World.system cfg).Reaches QueuesClean w) :
    QueuedOk cfg.reapers.dispatchLostThreshold w := by
  refine h.invariant (fun w hi => ?_) fun w a w' hr hq hc hs => ?_
  · obtain ⟨now, rfl⟩ := hi
    exact ⟨(fun _ hr => by cases hr), (fun _ hr => by cases hr), (fun _ _ ht => by cases ht), fun _ hi => by cases hi⟩
  · have hw := wellFormed_reaches hr
    exact ⟨unqueued_step hq hc hs, stamped_step hw hq hc hs, held_step hw hq hc hs, listedQueued_step hw hq hc hs⟩

/-- No requeue, and nothing happens while a sweep is under way. -/
def queuesInOrder (w : World) : Action → Bool
  | .requeue _ => false
  | _ => w.ctl.reaps.isEmpty

theorem queuesClean_of_check (w : World) (a : Action) (h : queuesInOrder w a) : QueuesClean w a := by
  have hreq : ∀ l, a ≠ .requeue l := by
    rintro l rfl
    cases h
  have hreaps : w.ctl.reaps = [] := by
    cases a <;> first | exact List.isEmpty_iff.mp h | cases h
  exact ⟨fun l he => absurd he (hreq l), fun i hi => by rw [hreaps] at hi; cases hi⟩

/-- A warm assignment of the queued task is given back, and a minute later it is queued again. -/
def requeued : List Action :=
  dispatched ++ [.tick (.call []), .tick .finish, .tick .stop, .resolve firstRequest,
    .create { firstRequest with stage := .resolved firstAttempt } true, .requeue firstAttempt,
    .clock 60000000000] ++ tickStarts ++ [.tick (.dispatch .dispatched true), .tick (.call [])]

end Leoflow
