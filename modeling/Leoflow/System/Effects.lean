import Leoflow.Scheduler.Planned
import Leoflow.System.Step

/-!
# What a step does

Inversion of `World.step` and of the tick's own steps: which rows a step leads to, what it inserts,
and how the tick moves. The invariants are proved from these and never unfold the step again.
-/

namespace Leoflow

open World Write List

variable {r : TaskInstance} {s : Statement} {run : RunState} {db : Database} {t : TickAction}
    {op : Op}

namespace World

variable {cfg : Config} {w w' : World} {a : Action}

theorem step_eq_some : w.step cfg a = some w' ↔
    ∃ ctl, w.next cfg a = some ctl ∧ w' = { db := w.after a, ctl := ctl, track := w.tracked a } := by
  simp only [step, Option.map_eq_some_iff]
  exact exists_congr fun ctl => and_congr_right fun _ => eq_comm

theorem after_tis (w : World) (a : Action) :
    (w.after a).tis = w.db.tis.map ((w.write a).row w.db) ++ (w.write a).inserted := by
  cases a with
  | clock n =>
    rw [map_row_of_none rfl]
    simp [after, write, inserted]
  | _ => exact w.db.write_tis _

section

variable (h : w.step cfg a = some w')
include h

theorem step_tis : w'.db.tis = w.db.tis.map ((w.write a).row w.db) ++ (w.write a).inserted := by
  obtain ⟨ctl, -, rfl⟩ := step_eq_some.mp h
  exact w.after_tis a

theorem mem_step_tis {r' : TaskInstance} : r' ∈ w'.db.tis ↔
      (∃ r ∈ w.db.tis, (w.write a).row w.db r = r') ∨ r' ∈ (w.write a).inserted := by
  rw [step_tis h, mem_append, mem_map]

theorem step_runs : w'.db.runs = w.db.runs.map ((w.write a).runRow w.db) ++ (w.write a).createdRuns := by
  obtain ⟨ctl, -, rfl⟩ := step_eq_some.mp h
  cases a with
  | clock n =>
    refine Eq.trans ?_ (append_nil _).symm
    exact ((map_congr_left fun d _ => runRow_of_none rfl d).trans (map_id _)).symm
  | _ => exact w.db.write_runs _

theorem mem_step_runs {d' : DagRun} : d' ∈ w'.db.runs ↔
      (∃ d ∈ w.db.runs, (w.write a).runRow w.db d = d') ∨ d' ∈ (w.write a).createdRuns := by
  rw [step_runs h, mem_append, mem_map]

theorem now_le_step : w.db.now ≤ w'.db.now := by
  obtain ⟨ctl, -, rfl⟩ := step_eq_some.mp h
  cases a with
  | clock n => exact Int.le_add_of_nonneg_right (Int.natCast_nonneg n)
  | _ => exact Int.le_of_eq (w.db.write_now _).symm

theorem tis_of_nothing (hn : w.write a = .nothing) : w'.db.tis = w.db.tis := by
  rw [step_tis h, hn, map_row_of_none rfl]
  exact append_nil _

theorem step_ctl : w.next cfg a = some w'.ctl := by
  obtain ⟨ctl, hc, rfl⟩ := step_eq_some.mp h
  exact hc

theorem step_track : w'.track = w.tracked a := by
  obtain ⟨ctl, -, rfl⟩ := step_eq_some.mp h
  rfl

theorem step_db : w'.db = w.after a := by
  obtain ⟨ctl, -, rfl⟩ := step_eq_some.mp h
  rfl

end

end World

/-! ## Inserts -/

theorem Op.inserted_eq (run : RunState) (ids : List String) (op : Op) :
    (op.write run ids).inserted = [] ∨ (op = .materializeTasks ∧
      (op.write run ids).inserted = materializedRows run.runID run.tasks ids) := by
  cases op <;> simp [Op.write, inserted]

theorem World.inserted_eq (w : World) (a : Action) :
    (w.write a).inserted = [] ∨ ∃ ids b run ops rest, a = .tick (.call ids) ∧
      w.ctl.tick = some (.advancing b run (.materializeTasks :: ops) rest) ∧
      (w.write a).inserted = materializedRows run.runID run.tasks ids := by
  cases a with
  | tick t =>
    simp only [World.write]
    unfold Tick.write
    split
    next b run op ops rest ids heq =>
      rcases Op.inserted_eq run ids op with h | ⟨rfl, h⟩
      · exact .inl h
      · exact .inr ⟨ids, b, run, ops, rest, rfl, heq, h⟩
    · exact .inl rfl
  | requestFails q reason => left; simp only [World.write]; split <;> rfl
  | reportOutcome g => left; simp only [World.write]; split <;> rfl
  | mark i => left; cases hc : i.candidate <;> simp [World.write, Candidate.mark, hc, inserted]
  | clearNext c => left; simp only [World.write, Clear.write]; split <;> rfl
  | _ => exact .inl rfl

theorem World.mem_inserted {w : World} {a : Action} (hr : r ∈ (w.write a).inserted) :
    ∃ ids b run ops rest t id, a = .tick (.call ids) ∧
      w.ctl.tick = some (.advancing b run (.materializeTasks :: ops) rest) ∧ t ∈ run.tasks ∧
      r = materialized run.runID t id := by
  rcases w.inserted_eq a with he | ⟨ids, b, run, ops, rest, ha, ht, he⟩
  · rw [he] at hr
    cases hr
  · rw [he] at hr
    obtain ⟨x, hx, rfl⟩ := mem_map.mp hr
    exact ⟨ids, b, run, ops, rest, x.1, x.2, ha, ht, (of_mem_zip hx).1, rfl⟩

theorem World.write_ne_createDagRun (w : World) {a : Action}
    (ha : ∀ id tenant version, a ≠ .createRun id tenant version) (d : DagRun) : w.write a ≠ .createDagRun d := by
  cases a with
  | createRun id tenant version => exact absurd rfl (ha id tenant version)
  | tick t =>
    simp only [World.write]
    unfold Tick.write
    split
    next op _ _ _ _ =>
      cases op <;> simp [Op.write]
    · simp
  | requestFails q reason => simp only [World.write]; split <;> simp
  | reportOutcome g => simp only [World.write]; split <;> simp
  | mark i => cases hc : i.candidate <;> simp [World.write, Candidate.mark, hc]
  | clearNext c => simp only [World.write, Clear.write]; split <;> simp
  | _ => simp [World.write]

/-- The row `CreateDagRun` inserts. -/
def DagRun.created (id tenant version : String) (now : Time) : DagRun where
  id := id
  tenantId := tenant
  dagVersionId := version
  queuedAt := now

theorem World.mem_createdRuns {cfg : Config} {w w' : World} {a : Action} {d : DagRun}
    (h : w.step cfg a = some w') (hd : d ∈ (w.write a).createdRuns) :
    (∃ tenant version, d = .created d.id tenant version w.db.now) ∧ ∀ d0 ∈ w.db.runs, d0.id ≠ d.id := by
  cases hw : w.write a with
  | createDagRun d0 =>
    rw [hw] at hd
    obtain rfl := mem_singleton.mp hd
    by_cases ha : ∃ id tenant version, a = .createRun id tenant version
    · obtain ⟨id, tenant, version, rfl⟩ := ha
      have hn := World.step_ctl h
      simp only [World.next, Option.ite_none_right_eq_some, all_eq_true, bne_iff_ne] at hn
      simp only [World.write, Write.createDagRun.injEq] at hw
      subst hw
      exact ⟨⟨tenant, version, rfl⟩, hn.1⟩
    · push Not at ha
      exact absurd hw (w.write_ne_createDagRun ha d)
  | _ => rw [hw] at hd; cases hd

/-! ## Who writes what -/

/-- The ways a statement on `task_instances` comes about. -/
inductive Channel where
  | tick | dispatchFailure | report | heartbeat | bind | requeue | settle | mark | clear
deriving DecidableEq

/-- Who makes a statement. -/
def Statement.channel : Statement → Channel
  | .updateTaskInstanceStateByRunTask .. | .updateTaskInstanceStatesByRunTasks ..
  | .resetTaskInstanceForRetry .. | .resetTaskInstanceInfraReplace ..
  | .redispatchRescheduledTaskInstance .. | .recordDispatchFailure ..
  | .recordDispatchBackpressure .. | .failDispatchExhausted .. | .setTaskInstanceNote .. => .tick
  | .resetTaskInstanceToNone .. | .resetFailedTaskInstance .. | .resetAllFailedTaskInstances .. =>
    .clear
  | .reportTaskResult .. | .rescheduleTaskInstance .. => .report
  | .recordTaskHeartbeat .. => .heartbeat
  | .bindWarmAttempt .. => .bind
  | .requeueForRedispatch .. => .requeue
  | .markTaskDispatchFailed .. => .dispatchFailure
  | .failTaskInstanceIfActive .. | .succeedTaskInstanceIfActive ..
  | .rescheduleTaskInstanceByIDIfActive .. => .settle
  | .markTaskDispatchLost .. | .markTaskAgentLost .. | .markTaskPodLost ..
  | .markRunOrphanedTaskInstances .. => .mark

/-- Who takes an action that may change a row. -/
def Action.channel : Action → Option Channel
  | .tick _ => some .tick
  | .requestFails .. => some .dispatchFailure
  | .reportRunning _ | .reportOutcome _ => some .report
  | .heartbeat _ => some .heartbeat
  | .bindWarm .. => some .bind
  | .requeue _ => some .requeue
  | .settle .. => some .settle
  | .mark _ => some .mark
  | .clearNext _ => some .clear
  | _ => none

/-- Each statement comes about in one way. -/
theorem World.channel_of_statement {w : World} {a : Action}
    (h : (w.write a).statement w.db = some s) : a.channel = some s.channel := by
  cases a with
  | tick t =>
    simp only [World.write] at h
    unfold Tick.write at h
    split at h
    next op _ _ _ _ =>
      cases op <;> cases h <;> rfl
    · cases h
  | requestFails q reason => simp only [World.write] at h; split at h <;> cases h; rfl
  | reportOutcome g =>
    simp only [World.write] at h
    split at h
    next o _ =>
      cases o <;> cases h <;> rfl
    · cases h
  | settle p v => cases v <;> cases h <;> rfl
  | mark i =>
    obtain ⟨c, _, _⟩ := i
    cases c with
    | orphan c =>
      simp only [World.write, Candidate.mark, Write.statement, Lib.guard_eq_some] at h
      rw [← h.2]
      rfl
    | _ => cases h; rfl
  | clearNext c =>
    simp only [World.write, Clear.write] at h
    split at h
    · simp only [Write.statement, Reset.statement, Option.some.injEq] at h
      split at h <;> cases h <;> rfl
    · cases h
    · cases h
  | reportRunning | heartbeat | bindWarm | requeue => cases h; rfl
  | _ => cases h

/-- The action is a clear's. -/
def Action.isClear : Action → Bool
  | .clearNext _ => true
  | _ => false

section

variable {w : World} {a : Action}

theorem World.channel_ne_clear (ha : a.isClear = false)
    (hs : (w.write a).statement w.db = some s) : s.channel ≠ .clear := by
  intro hc
  have hchan := channel_of_statement hs
  rw [hc] at hchan
  cases a with
  | clearNext c => cases ha
  | _ => cases hchan

theorem World.call_of_statement (h : (w.write a).statement w.db = some s) (ht : s.channel = .tick) :
    ∃ ids b run op ops rest, a = .tick (.call ids) ∧ w.ctl.tick = some (.advancing b run (op :: ops) rest) ∧
      (op.write run ids).statement w.db = some s := by
  have hchan := channel_of_statement h
  cases a with
  | tick ta =>
    simp only [World.write] at h
    unfold Tick.write at h
    split at h
    next b run op ops rest ids htick =>
      exact ⟨ids, b, run, op, ops, rest, rfl, htick, h⟩
    · cases h
  | _ => simp [Action.channel, ht] at hchan

theorem World.target_of_report {run task : String} {target : TaskState}
    {exitCode : Option Int} {message : Option String} {tryNumber : Nat}
    (h : (w.write a).statement w.db = some (.reportTaskResult run task target exitCode message tryNumber)) :
    target = .running ∨ target = .success ∨ target = .failed ∨ target = .skipped := by
  have hchan := channel_of_statement h
  cases a with
  | reportRunning g => cases h; exact .inl rfl
  | reportOutcome g =>
    simp only [World.write] at h
    split at h
    next o _ =>
      cases o <;> cases h <;> simp
    · cases h
  | _ => cases hchan

/-- Outside of a tick a row comes to life only by its agent's report. -/
theorem World.live_of_row (ha : ∀ t, a ≠ .tick t)
    (h : ((w.write a).row w.db r).state.isLive) : r.state.isLive ∨
      ∃ g, a = .reportRunning g ∧ r.isFor g.attempt.run g.attempt.task := by
  rcases row_eq_or_statement w.db (w.write a) r with ⟨-, hrow⟩ | ⟨s, hs, hg, hrow⟩
  · exact .inl (hrow ▸ h)
  have hchan := channel_of_statement hs
  rw [hrow, (s.update w.db.now).row_of_guard hg, Statement.set_state] at h
  cases s with
  | recordTaskHeartbeat | bindWarmAttempt => exact .inl h
  | reportTaskResult =>
    cases a with
    | reportRunning g =>
      cases hs
      simp only [Statement.update, Leoflow.reportTaskResult, Bool.and_eq_true] at hg
      exact .inr ⟨g, rfl, hg.1.1⟩
    | reportOutcome g =>
      simp only [World.write] at hs
      split at hs
      next o _ =>
        cases o <;> cases hs <;> cases h
      · cases hs
    | _ => cases hchan
  | updateTaskInstanceStateByRunTask | updateTaskInstanceStatesByRunTasks | setTaskInstanceNote
  | recordDispatchFailure | recordDispatchBackpressure =>
    cases a with
    | tick t => exact absurd rfl (ha t)
    | _ => cases hchan
  | _ => cases h

end

variable {cfg : Config} {a : Action} {w' : World}

theorem Statement.guard_of_isTerminal (ht : s.channel ≠ .tick) (hc : s.channel ≠ .clear)
    (hr : r.state.isTerminal) (now : Time) : (s.update now).guard r = false := by
  cases s with
  | updateTaskInstanceStateByRunTask | updateTaskInstanceStatesByRunTasks
  | resetTaskInstanceForRetry | resetTaskInstanceInfraReplace | redispatchRescheduledTaskInstance
  | recordDispatchFailure | recordDispatchBackpressure | failDispatchExhausted
  | setTaskInstanceNote => exact absurd rfl ht
  | resetTaskInstanceToNone | resetFailedTaskInstance | resetAllFailedTaskInstances =>
    exact absurd rfl hc
  | _ =>
    simp only [update, Leoflow.reportTaskResult, Leoflow.rescheduleTaskInstance,
      Leoflow.recordTaskHeartbeat, Leoflow.bindWarmAttempt, Leoflow.requeueForRedispatch,
      Leoflow.markTaskDispatchFailed, Leoflow.failTaskInstanceIfActive,
      Leoflow.succeedTaskInstanceIfActive, Leoflow.rescheduleTaskInstanceByIDIfActive,
      Leoflow.markTaskDispatchLost, Leoflow.markTaskAgentLost, Leoflow.markTaskPodLost,
      Leoflow.markRunOrphanedTaskInstances]
    cases hs : r.state <;> simp [hs, TaskState.isReportable, TaskState.isActive, TaskState.isLive,
      TaskState.isTerminal] at hr ⊢

/-! ## The tick -/

namespace Tick

/-- The ways a tick moves. -/
inductive Moves (cfg : Config) (db : Database) : Option Tick → TickAction → Option Tick → Prop where
  | begin : Moves cfg db none .begin (some (.loading (listActiveDagRuns db) []))
  | load (d : DagRun) (todo : List DagRun) (loaded : List RunState) :
      Moves cfg db (some (.loading (d :: todo) loaded)) .load (some (.loading todo (loaded ++ [snapshot cfg db d])))
  | loaded (runs : List RunState) :
      Moves cfg db (some (.loading [] runs)) .loaded (some (.between (.ofRuns cfg runs) runs))
  | start (b : Budget) (r : RunState) (rest : List RunState) : Moves cfg db (some (.between b (r :: rest))) .start
        (some (.advancing b (b.prepare r) ((b.prepare r).advance cfg.dispatcher) rest))
  | call (b : Budget) (run : RunState) (op : Op) (ops : List Op) (rest : List RunState)
      (ids : List String) (hop : op.isDispatch = false)
      (hacc : db.accepts (op.write run ids).inserted)
      (hids : op = .materializeTasks → ids.length = run.tasks.length) :
      Moves cfg db (some (.advancing b run (op :: ops) rest)) (.call ids) (some (.advancing b run ops rest))
  | dispatch (b : Budget) (run : RunState) (task : String) (ops : List Op) (rest : List RunState)
      (outcome : DispatchOutcome) (buffered : Bool) :
      Moves cfg db (some (.advancing b run (.dispatch task :: ops) rest)) (.dispatch outcome buffered)
        (some (.advancing b run (run.afterDispatch task db.now outcome :: ops) rest))
  | skip (b : Budget) (run : RunState) (op : Op) (ops : List Op) (rest : List RunState) (hop : op.isBestEffort) :
      Moves cfg db (some (.advancing b run (op :: ops) rest)) .skip (some (.advancing b run ops rest))
  | abandon (b : Budget) (run : RunState) (ops : List Op) (rest : List RunState) :
      Moves cfg db (some (.advancing b run ops rest)) .abandon (some (.between b rest))
  | finish (b : Budget) (run : RunState) (rest : List RunState) :
      Moves cfg db (some (.advancing b run [] rest)) .finish (some (.between (b.charge run) rest))
  | stop (t : Tick) : Moves cfg db (some t) .stop none

theorem moves_of_next {t t' : Option Tick} {a : TickAction} (h : next cfg db t a = some t') : Moves cfg db t a t' := by
  unfold next at h
  split at h
  · cases h; exact .begin
  · cases h; exact .load ..
  · cases h; exact .loaded ..
  · cases h; exact .start ..
  · split at h
    next hc =>
      simp only [Bool.and_eq_true, Bool.not_eq_true', Bool.or_eq_true, bne_iff_ne, ne_eq, beq_iff_eq] at hc
      cases h
      exact .call _ _ _ _ _ _ hc.1.1 hc.1.2 fun he => hc.2.resolve_left (not_not_intro he)
    · cases h
  · cases h; exact .dispatch ..
  · split at h
    next hc =>
      cases h
      exact .skip _ _ _ _ _ hc
    · cases h
  · cases h; exact .abandon ..
  · cases h; exact .finish ..
  · cases h; exact .stop _
  · cases h

end Tick

theorem World.next_tick {w : World} {ctl : Control} (h : w.next cfg a = some ctl) (ha : ∀ t, a ≠ .tick t) :
    ctl.tick = w.ctl.tick := by
  cases a with
  | tick t => exact absurd rfl (ha t)
  | resolve q =>
    simp only [World.next, Option.ite_none_right_eq_some, Option.map_eq_some_iff] at h
    obtain ⟨-, r, -, rfl⟩ := h
    rfl
  | create q warm =>
    simp only [World.next] at h
    split at h
    · simp only [Lib.guard_eq_some] at h
      rw [← h.2]
    · cases h
  | clock => cases h; rfl
  | setDagRunState =>
    obtain ⟨d, -, rfl⟩ := Option.map_eq_some_iff.mp h
    rfl
  | _ =>
    simp only [World.next, Lib.guard_eq_some] at h
    rw [← h.2]

theorem World.tick_of_not_tick {w : World} (h : w.step cfg a = some w') (ha : ∀ t, a ≠ .tick t) :
    w'.ctl.tick = w.ctl.tick :=
  next_tick (World.step_ctl h) ha

theorem World.tick_moves {w : World} (h : w.step cfg (.tick t) = some w') :
    Tick.Moves cfg w.db w.ctl.tick t w'.ctl.tick := by
  have hn := World.step_ctl h
  simp only [World.next, Option.map_eq_some_iff] at hn
  obtain ⟨t', ht', hctl⟩ := hn
  rw [← hctl]
  exact Tick.moves_of_next ht'

theorem World.tick_step {w : World} (h : w.step cfg a = some w') {t : Tick} (ht : w'.ctl.tick = some t) :
    (∃ ta, a = .tick ta ∧ Tick.Moves cfg w.db w.ctl.tick ta (some t)) ∨
      ((∀ ta, a ≠ .tick ta) ∧ w.ctl.tick = some t) := by
  by_cases ha : ∃ ta, a = .tick ta
  · obtain ⟨ta, rfl⟩ := ha
    exact .inl ⟨ta, rfl, ht ▸ tick_moves h⟩
  · have ha' : ∀ ta, a ≠ .tick ta := fun ta he => ha ⟨ta, he⟩
    exact .inr ⟨ha', tick_of_not_tick h ha' ▸ ht⟩

theorem World.write_tick {w : World} (h : ∀ ids, t ≠ .call ids) : w.write (.tick t) = .nothing := by
  simp only [World.write]
  unfold Tick.write
  split
  · exact absurd rfl (h _)
  · rfl

section

variable {w : World} {d : String × String × Bool} (h : Tick.dispatches w.ctl.tick t = some d)
include h

theorem World.write_of_dispatches : w.write (.tick t) = .nothing := by
  refine write_tick fun ids he => ?_
  subst he
  simp [Tick.dispatches] at h

/-- A landed dispatch of a row opens its next placement. -/
theorem World.placements_of_dispatches (hr : r ∈ w.db.tis) (hf : r.isFor d.1 d.2.1) :
    (w.tracked (.tick t)).placements r.id = w.track.placements r.id + 1 := by
  have hany : (w.db.tis.any fun s => s.isFor d.1 d.2.1 && s.id == r.id) :=
    any_eq_true.mpr ⟨r, hr, by simp [hf]⟩
  simp only [tracked, h, hany, if_true]

end

theorem World.placements_of_not_dispatches {w : World} {id : String}
    (h : ∀ t d, a = .tick t → Tick.dispatches w.ctl.tick t = some d →
      ∀ r ∈ w.db.tis, r.isFor d.1 d.2.1 → r.id ≠ id) : (w.tracked a).placements id = w.track.placements id := by
  cases a with
  | tick t =>
    simp only [tracked]
    split
    next d hd =>
      refine if_neg fun hany => ?_
      obtain ⟨r, hr, hf⟩ := any_eq_true.mp hany
      simp only [Bool.and_eq_true, beq_iff_eq] at hf
      exact h t d rfl hd r hr hf.1 hf.2
    · rfl
  | _ => rfl

theorem Op.guard_run {ids : List String} (hs : (op.write run ids).statement db = some s)
    (hg : (s.update db.now).guard r) : r.dagRunId = run.runID ∧
      (r.taskId ∈ op.tasks ∨ ∃ task note, op = .setTaskNote task note) := by
  cases op with
  | materializeTasks | setRunState | dispatch => cases hs
  | setTaskNote task note =>
    cases hs
    simp only [Statement.update, setTaskInstanceNote, TaskInstance.isFor, Bool.and_eq_true, beq_iff_eq] at hg
    exact ⟨hg.1, .inr ⟨task, note, rfl⟩⟩
  | applyTransitions tasks target =>
    cases hs
    simp only [Statement.update, updateTaskInstanceStatesByRunTasks, Bool.and_eq_true, beq_iff_eq,
      contains_iff_mem] at hg
    exact ⟨hg.1, .inl hg.2⟩
  | _ =>
    cases hs
    simp only [Statement.update, updateTaskInstanceStateByRunTask, resetTaskInstanceForRetry,
      resetTaskInstanceInfraReplace, redispatchRescheduledTaskInstance,
      Leoflow.recordDispatchFailure, Leoflow.recordDispatchBackpressure,
      Leoflow.failDispatchExhausted, TaskInstance.isFor, Bool.and_eq_true, beq_iff_eq] at hg
    simp [Op.tasks, hg]

/-- A call leaves every row it is not about as it is, up to the note. -/
theorem Op.row_congr_of_not_mem {β : Type} (g : TaskInstance → β)
    (hg : ∀ r note, g { r with note := note } = g r) (ids : List String)
    (h : r.dagRunId = run.runID → r.taskId ∉ op.tasks) :
    g ((op.write run ids).row db r) = g r := by
  by_cases hr : (op.write run ids).row db r = r
  · rw [hr]
  obtain ⟨s, hs, hguard⟩ := statement_of_row_ne hr
  obtain ⟨hrun, htask | ⟨task, note, rfl⟩⟩ := Op.guard_run hs hguard
  · exact absurd htask (h hrun)
  · rw [row_of_statement rfl]
    exact Lib.Update.row_congr _ g (fun r _ => hg r _) r

theorem Op.row_of_not_mem (ids : List String) (h : r.dagRunId = run.runID → r.taskId ∉ op.tasks) :
    ((op.write run ids).row db r).state = r.state ∧ ((op.write run ids).row db r).tryNumber = r.tryNumber :=
  ⟨Op.row_congr_of_not_mem TaskInstance.state (fun _ _ => rfl) ids h,
    Op.row_congr_of_not_mem TaskInstance.tryNumber (fun _ _ => rfl) ids h⟩

theorem World.accepts_inserted {w : World} (h : w.step cfg a = some w') : w.db.accepts (w.write a).inserted := by
  rcases w.inserted_eq a with he | ⟨ids, b, run, ops, rest, rfl, ht, -⟩
  · rw [he]; rfl
  · have hm := tick_moves h
    simp only [World.write]
    rw [ht] at hm ⊢
    generalize w'.ctl.tick = t' at hm
    cases hm with
    | call _ _ _ _ _ _ _ hacc _ => exact hacc

end Leoflow
