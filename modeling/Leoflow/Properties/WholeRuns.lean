import Leoflow.Properties.AdmissionCaps
import Leoflow.Properties.PlacementFencing
import Leoflow.Properties.TriggerSemantics
import Leoflow.System.DispatchGates
import Leoflow.System.Provenance

/-!
# Runs of the whole system

What holds whatever the parties do, in whatever order: a tick acts on grounds it has read and runs `Step`, what
refers to a row finds it, and no row is lost. The operators' `DeleteDagRun`, `DeleteDag` and `SetTaskInstanceState`
are no steps of the system.
-/

namespace Leoflow

open World List

/-! ## Grounds -/

namespace RunState

variable {run : RunState}

/-- The rule of a task moves it to the state, over the states as recorded. -/
def Decides (run : RunState) (t : TaskSpec) : TaskState → Prop
  | .scheduled => run.ReleasedTask t
  | .skipped => run.PassedOverTask t
  | .upstreamFailed => run.CondemnedTask t
  | _ => False

theorem Starts.decides {t : TaskSpec} {target : TaskState} (hs : run.Starts t target)
    (hnd : (run.tasks.map TaskSpec.taskID).Nodup) (ht : t ∈ run.tasks) (hq : target ≠ .queued)
    (hrule : ∀ name, triggerRuleOf t ≠ .other name) : run.Decides t target := by
  have hups : run.upstreams.getD t.taskID [] = t.dependsOn := by
    rw [Lib.GoMap.getD, upstreams, Lib.GoMap.lookup_collect hnd ht]
    rfl
  obtain ⟨hcondemns, hreleases, hpasses⟩ :=
    @evaluateTriggerRule_iff _ (t.dependsOn.map run.effective.lookup) hrule
  rcases hs.rail with ⟨-, hstart⟩ | ⟨-, -, htarget⟩
  · rw [hups, decideStart] at hstart
    split at hstart <;> cases hstart <;> rename_i hd
    · exact releases_iff.mp (hreleases.mp hd)
    · exact passesOver_iff.mp (hpasses.mp hd)
    · exact condemns_iff.mp (hcondemns.mp hd)
  · exact absurd htarget hq

end RunState

open RunState

/-- The ground of a batched write and of a verdict in the snapshot. -/
def Op.Ruled (run : RunState) : Op → Prop
  | applyTransitions tasks target => ∀ task ∈ tasks, ∃ t ∈ run.tasks, t.taskID = task ∧
    (target ≠ .upForRetry → (∀ name, triggerRuleOf t ≠ .other name) → run.Decides t target)
  | setRunState state => state = .running ∨ (∀ t ∈ run.tasks, run.isOpen t.taskID = false) ∧
    state = if ∃ t ∈ run.tasks, run.states.lookup t.taskID = some .failed ∨
      run.states.lookup t.taskID = some .upstreamFailed then .failed else .success
  | _ => True

theorem RunState.ruled_of_mem_advance {run : RunState} (hnd : (run.tasks.map TaskSpec.taskID).Nodup)
    {dispatcher : Bool} {op : Op} (h : op ∈ run.advance dispatcher) : op.Ruled run := by
  rcases run.mem_advance_cases h with rfl | ⟨s, rfl⟩ | ⟨p, -, hop⟩ | ⟨g, hg, rfl⟩
  · trivial
  · have hs := run.setRunState_of_advance h
    split at hs
    · exact .inl hs
    · exact .inr ⟨finalizeRun_isSome.mp (hs ▸ rfl), finalizeRun_verdict hs⟩
  · -- What `applyPlanned` calls is neither a batched write nor a verdict.
    unfold applyPlanned at hop
    split at hop
    · (repeat' split at hop) <;> simp only [failUndispatchable, mem_cons, not_mem_nil, or_false] at hop
      · exact hop ▸ trivial
      · rcases hop with rfl | rfl <;> trivial
    · (repeat' split at hop) <;> exact mem_singleton.mp hop ▸ trivial
    · cases hop
  · intro task htask
    obtain ⟨p, hp, hb, rfl, htarget⟩ := mem_transitionBatch hg htask
    rw [← htarget]
    simp only [PlannedTransition.isBatched, Bool.and_eq_true, bne_iff_ne] at hb
    obtain ⟨t, ht, hid, hemit | hs⟩ := run.mem_planRun hp
    · exact ⟨t, ht, hid, fun hne => absurd ((run.target_of_emit hemit).resolve_left hb.2) hne⟩
    · exact ⟨t, ht, hid, fun _ => hs.decides hnd ht hb.1⟩

/-- Every call a tick has still to make rests on its snapshot. -/
def TickGrounded (w : World) : Prop :=
  ∀ t, w.ctl.tick = some t → ∀ run ops, t.current? = some (run, ops) →
    ∀ op ∈ ops, op.Gated run ∧ op.Justified run ∧ op.Ruled run

/-- **A tick acts on grounds it has read.** -/
theorem tick_is_grounded {cfg : Config} {w : World} (h : (system cfg).Reachable w) : TickGrounded w := by
  intro t ht run ops hc op hop
  have hnd := (((wellFormed_reaches h).tick t ht).pending run ops hc).tasks
  refine ⟨gated_reaches h ht hc op hop, justified_reaches h t ht run ops hc op hop, ?_⟩
  refine calls_reaches (J := fun run op => (run.tasks.map TaskSpec.taskID).Nodup → op.Ruled run)
    (fun run _ op hop hnd => ruled_of_mem_advance hnd hop) (fun run task wall o _ _ => ?_)
    h t ht run ops hc op hop hnd
  cases o with
  | rejected =>
    simp only [afterDispatch]
    split <;> trivial
  | _ => trivial

/-- The first task of a run is about to be started. -/
theorem tick_is_grounded_start : ∃ w,
    (system oneTask).run (.empty 1) (materialize "run" "v1" ["ti"] ++ tickStarts) = some w ∧
      (w.ctl.tick.bind Tick.current?).map Prod.snd = some [.applyTransitions ["task"] .scheduled] ∧ TickGrounded w :=
  Lib.exists_eq_some (by decide +kernel) fun hrun =>
    ⟨by decide +kernel, tick_is_grounded (.run (.init ⟨1, rfl⟩) hrun)⟩

/-! ## Ticks and `Step` -/

/-- The log of the tick in progress. -/
def noteTick (w : World) (a : Action) (w' : World) (log : StepLog) : StepLog :=
  match a with
  | .tick t => if t = .loaded then {} else .note w.ctl.tick (w.db, t) w'.ctl.tick log
  | _ => log

/-- A tick is reading the runs, or somewhere in a `Step` over what it has read. -/
def IsStep (cfg : Config) (log : StepLog) : Option Tick → Prop
  | none => True
  | some (.loading _ loaded) => ∃ reads, loaded = stepRuns cfg reads
  | some t => ∃ reads, (loggedStep cfg reads).Reachable (some t, log)

theorem IsStep.tick {cfg : Config} {w w' : World} {log : StepLog} {t : TickAction} (h : IsStep cfg log w.ctl.tick)
    (hs : w.step cfg (.tick t) = some w') : IsStep cfg (noteTick w (.tick t) w' log) w'.ctl.tick := by
  have hmoves := tick_moves hs
  have hstep (hb : t ≠ .begin) (reads) : (loggedStep cfg reads).step (w.ctl.tick, log) (w.db, t) =
      some (w'.ctl.tick, .note w.ctl.tick (w.db, t) w'.ctl.tick log) :=
    Lib.System.withGhost_step.mpr ⟨stepSystem_of_tick hb hs reads, rfl⟩
  simp only [noteTick]
  generalize w.ctl.tick = tick, w'.ctl.tick = tick' at *
  cases hmoves with
  | begin => exact ⟨[], rfl⟩
  | load d todo loaded =>
    obtain ⟨reads, rfl⟩ := h
    exact ⟨reads ++ [(w.db, d)], by simp [stepRuns]⟩
  | loaded runs =>
    obtain ⟨reads, rfl⟩ := h
    exact ⟨reads, .init ⟨rfl, rfl⟩⟩
  | stop => trivial
  | _ =>
    obtain ⟨reads, hr⟩ := h
    exact ⟨reads, .step hr trivial (hstep (by simp) reads)⟩

/-- **Every tick of the system is a `Step`**, over the databases its calls find. -/
theorem tick_is_step {cfg : Config} {p : World × StepLog}
    (h : ((system cfg).withGhost {} noteTick).Reachable p) : IsStep cfg p.2 p.1.ctl.tick := by
  refine Lib.System.Reachable.ghost_invariant (I := fun w log => IsStep cfg log w.ctl.tick) (fun w hi => ?_)
    (fun w a w' log _ ih (hs : w.step cfg a = _) => ?_) h
  · obtain ⟨now, rfl⟩ := hi
    trivial
  · cases a with
    | tick t => exact ih.tick hs
    | _ => exact tick_of_not_tick hs (by simp) ▸ ih

theorem tick_is_step_dispatched :
    ∃ p, ((system oneTask).withGhost {} noteTick).run (.empty 1, {}) dispatched = some p ∧
      p.2.dispatched.length = 1 ∧ IsStep oneTask p.2 p.1.ctl.tick :=
  Lib.exists_eq_some (by decide +kernel) fun hrun =>
    ⟨by decide +kernel, tick_is_step (.run (.init ⟨⟨1, rfl⟩, rfl⟩) hrun)⟩

/-! ## References -/

/-- What refers to a run or to a row finds it, and finds one. -/
structure ReferencesHold (w : World) : Prop where
  keyed : w.db.Keyed
  runs : ∀ r ∈ w.db.tis, r.dagRunId ∈ w.db.runs.map DagRun.id
  calls : ∀ t, w.ctl.tick = some t → ∀ run ops, t.current? = some (run, ops) → (opTasks ops).Nodup ∧
    ∀ task ∈ opTasks ops, ∃ r ∈ w.db.tis, r.key = (run.runID, task)
  started : ∀ run task p, Started w run task p → DispatchedAs w run task p

/-- What a later world keeps. -/
structure Keeps (w w' : World) : Prop where
  rows : ∀ r ∈ w.db.tis, ∃ r' ∈ w'.db.tis, r'.id = r.id ∧ r'.key = r.key ∧ r.tryNumber ≤ r'.tryNumber ∧
    w.track.placements r.id ≤ w'.track.placements r'.id
  runs : w.db.runs.map DagRun.id ⊆ w'.db.runs.map DagRun.id

/-- **No row is lost** in a run from any state: it keeps its id and its key, and neither its try nor the number of
its dispatches goes back. -/
theorem rows_are_kept {cfg : Config} {w w' : World} {actions : List Action}
    (h : (system cfg).run w actions = some w') : Keeps w w' := by
  induction actions generalizing w with
  | nil =>
    cases h
    exact ⟨fun r hr => ⟨r, hr, rfl, rfl, le_refl _, le_refl _⟩, Subset.refl _⟩
  | cons a actions ih =>
    obtain ⟨v, hs, hrest⟩ := Option.bind_eq_some_iff.mp h
    refine ⟨fun r hr => ?_, fun id hid => (ih hrest).runs (run_id_mem_step hs hid)⟩
    obtain ⟨r', hr', hid, hkey, htry, hplace⟩ := (ih hrest).rows _ ((mem_step_tis hs).mpr (.inl ⟨r, hr, rfl⟩))
    rw [Write.row_id] at hid hplace
    rw [step_track hs] at hplace
    exact ⟨r', hr', hid, hkey.trans Write.row_key, (tryNumber_le_write _ _ _).trans htry,
      (placements_le w a r.id).trans hplace⟩

/-- A failed task is cleared and runs again. -/
theorem rows_are_kept_cleared : ∃ w, (system oneTask).run (.empty 1) failsOnce = some w ∧
    ∃ w', (system oneTask).run w (finalizes ++ reopensAndRuns) = some w' ∧
      w'.db.tis.map TaskInstance.tryNumber = [2] ∧ Keeps w w' :=
  Lib.exists_eq_some (by decide +kernel) fun _ => Lib.exists_eq_some (by decide +kernel) fun hrun =>
    ⟨by decide +kernel, rows_are_kept hrun⟩

end Leoflow
