import Leoflow.Domain.Graph
import Leoflow.Scheduler.Planned

/-!
# Runs that no longer move

The planner reads the clock only through gates that open and stay open. So a run whose snapshot does not change is
planned nothing at any later time exactly when no task waits for a gate and no task that has not started is decided by
its trigger rule. If its graph was validated, every task has a row and none is under way, the finaliser closes it.
-/

namespace Leoflow

namespace RunState

variable (run : RunState)

/-- The snapshot with another clock. -/
def atTime (t : Time) : RunState := { run with now := t }

/-- The task is parked, or failed with budget left: the retry rail will move it. -/
def waits (taskID : String) : Bool :=
  match run.states.lookup taskID with
  | some .failed =>
    if run.infraFailed.getD taskID false then run.infraReplaceable taskID else run.retriable taskID
  | some .upForRetry | some .upForReschedule => true
  | _ => false

/-- Nothing waits, and the upstreams of no task that has not started decide it. -/
structure Settled : Prop where
  parked : ∀ t ∈ run.tasks, run.waits t.taskID = false
  started : ∀ t ∈ run.tasks, run.states.lookup t.taskID = some .none →
    decideStart t (run.upstreams.getD t.taskID []) run.states = none

instance : Decidable run.Settled :=
  decidable_of_iff ((∀ t ∈ run.tasks, run.waits t.taskID = false) ∧
      ∀ t ∈ run.tasks, run.states.lookup t.taskID = some .none →
        decideStart t (run.upstreams.getD t.taskID []) run.states = none)
    ⟨fun h => ⟨h.1, h.2⟩, fun h => ⟨h.parked, h.started⟩⟩

/-! ## Gates -/

theorem exists_reached (at? : Option Time) : ∃ t0, ∀ t, t0 ≤ t → (run.atTime t).reached at? := by
  cases at? with
  | none => exact ⟨0, fun t _ => rfl⟩
  | some t0 =>
    refine ⟨t0, fun t ht => ?_⟩
    have : ¬ t < t0 := not_lt.mpr ht
    simp [reached, atTime, this]

theorem exists_readyToRetry (taskID : String) : ∃ t0, ∀ t, t0 ≤ t → (run.atTime t).readyToRetry taskID := by
  by_cases hdelay : run.retryDelaySeconds.getD taskID 0 ≤ 0
  · exact ⟨0, fun t _ => if_pos hdelay⟩
  · obtain ⟨t0, ht0⟩ := run.exists_reached ((run.endedAt.lookup taskID).map
      (· + wrap64 (run.retryDelaySeconds.getD taskID 0 * second)))
    exact ⟨t0, fun t ht => (if_neg hdelay).trans (ht0 t ht)⟩

theorem exists_readyToReschedule (taskID : String) :
    ∃ t0, ∀ t, t0 ≤ t → (run.atTime t).readyToReschedule taskID :=
  run.exists_reached (run.rescheduleAt.lookup taskID)

theorem exists_readyToInfraReplace (taskID : String) :
    ∃ t0, ∀ t, t0 ≤ t → (run.atTime t).readyToInfraReplace taskID :=
  run.exists_reached ((run.endedAt.lookup taskID).map
    (· + (dispatchBackoff (run.infraAttempts.getD taskID 0 + 1) + infraReplaceJitter run.runID taskID)))

theorem emit_of_waits {taskID : String} (h : run.waits taskID)
    (retry : run.states.lookup taskID = some .upForRetry → run.readyToRetry taskID)
    (reschedule : run.states.lookup taskID = some .upForReschedule → run.readyToReschedule taskID)
    (infra : run.states.lookup taskID = some .failed → run.infraReplaceable taskID →
      run.readyToInfraReplace taskID) : ∃ target, (run.retryDecision taskID).emit = some target := by
  unfold waits at h
  split at h
  next hs =>
    by_cases hinfra : run.infraFailed.getD taskID false
    · rw [if_pos hinfra] at h
      exact ⟨.none, by simp only [retryDecision, hs, hinfra, h, infra hs h, if_true]⟩
    · rw [if_neg hinfra] at h
      exact ⟨.upForRetry, by simp only [retryDecision, hs, if_neg hinfra, h, if_true]⟩
  next hs =>
    exact ⟨.none, by simp [retryDecision, hs, retry hs]⟩
  next hs =>
    exact ⟨.none, by simp [retryDecision, hs, reschedule hs]⟩
  · cases h

theorem exists_emit {taskID : String} (h : run.waits taskID) :
    ∃ t0, ∀ t, t0 ≤ t → ∃ target, ((run.atTime t).retryDecision taskID).emit = some target := by
  obtain ⟨t1, hretry⟩ := run.exists_readyToRetry taskID
  obtain ⟨t2, hreschedule⟩ := run.exists_readyToReschedule taskID
  obtain ⟨t3, hinfra⟩ := run.exists_readyToInfraReplace taskID
  refine ⟨max t1 (max t2 t3), fun t ht => ?_⟩
  obtain ⟨h1, h23⟩ := max_le_iff.mp ht
  obtain ⟨h2, h3⟩ := max_le_iff.mp h23
  exact (run.atTime t).emit_of_waits h (fun _ => hretry t h1) (fun _ => hreschedule t h2) fun _ _ => hinfra t h3

theorem retryDecision_of_not_waits {taskID : String} (h : run.waits taskID = false) :
    (run.retryDecision taskID).emit = none ∧ (run.retryDecision taskID).effective = none := by
  unfold waits at h
  unfold retryDecision
  split at h <;> (repeat' split at h) <;> simp_all

theorem isOpen_of_terminal {taskID : String} {s : TaskState}
    (h : run.states.lookup taskID = some s) (hs : s.isTerminal) : run.isOpen taskID = run.waits taskID := by
  unfold isOpen waits
  rw [h]
  cases s <;> first | rfl | cases hs

theorem effective_of_parked (h : ∀ t ∈ run.tasks, run.waits t.taskID = false) (taskID : String) :
    run.effective.lookup taskID = run.states.lookup taskID := by
  rw [effective_lookup]
  split
  next hex =>
    obtain ⟨t, ht, rfl⟩ := hex
    rw [(run.retryDecision_of_not_waits (h t ht)).2, Option.none_or]
  · rfl

/-- A trigger rule reads the states of the upstreams only. -/
theorem decideStart_congr {m m' : Lib.GoMap TaskState} (h : ∀ id, m.lookup id = m'.lookup id)
    (t : TaskSpec) (deps : List String) : decideStart t deps m = decideStart t deps m' := by
  unfold decideStart
  rw [List.map_congr_left fun id _ => h id]

/-! ## The admission loop -/

theorem mem_planRun_of_decideStart {t : TaskSpec} (ht : t ∈ run.tasks) {target : TaskState}
    (hund : (run.retryDecision t.taskID).decided = false) (hnone : run.effective.lookup t.taskID = some .none)
    (hstart : decideStart t (run.upstreams.getD t.taskID []) run.effective = some target) :
    ⟨t.taskID, target⟩ ∈ run.planRun := by
  obtain ⟨before, after, heq⟩ := List.append_of_mem ht
  have hplan : run.planRun = (run.tasks.foldl (run.planTask run.upstreams run.effective run.admissionHeadroom)
      { out := run.planRetryTransitions }).out := rfl
  rw [hplan, heq, List.foldl_append, List.foldl_cons]
  -- The turn of `t` appends its transition and later turns keep it.
  obtain ⟨added, hout, -⟩ := run.foldl_planTask_out run.admissionHeadroom after
    (run.planTask run.upstreams run.effective run.admissionHeadroom (before.foldl
      (run.planTask run.upstreams run.effective run.admissionHeadroom)
      { out := run.planRetryTransitions }) t)
  rw [hout]
  refine List.mem_append_left _ ?_
  simp only [planTask, hund, Bool.false_eq_true, if_false, hnone, hstart]
  exact List.mem_append_right _ List.mem_cons_self

theorem Settled.planRun_eq_nil {run : RunState} (h : run.Settled)
    (hs : ∀ t ∈ run.tasks, run.states.lookup t.taskID ≠ some .scheduled) : run.planRun = [] := by
  rw [List.eq_nil_iff_forall_not_mem]
  intro p hp
  obtain ⟨t, ht, hid, hemit | hstarts⟩ := run.mem_planRun hp
  · rw [← hid, (run.retryDecision_of_not_waits (h.parked t ht)).1] at hemit
    cases hemit
  · have heff := run.effective_of_parked h.parked
    rcases hstarts.rail with ⟨hnone, hstart⟩ | ⟨hsched, -⟩
    · rw [heff] at hnone
      rw [decideStart_congr heff, h.started t ht hnone] at hstart
      cases hstart
    · exact hs t ht (heff _ ▸ hsched)

/-! ## A run that is planned nothing -/

section Stalled

variable {run : RunState} (hplan : run.planRun = [])
include hplan

theorem emit_of_planRun_eq_nil {t : TaskSpec} (ht : t ∈ run.tasks) : (run.retryDecision t.taskID).emit = none := by
  by_contra hemit
  obtain ⟨target, hemit⟩ := Option.ne_none_iff_exists'.mp hemit
  have hmem : ⟨t.taskID, target⟩ ∈ run.planRetryTransitions :=
    run.mem_planRetryTransitions.mpr ⟨⟨t, ht, rfl⟩, hemit⟩
  obtain ⟨added, heq, -⟩ := run.planRun_eq
  rw [hplan] at heq
  rw [(List.append_eq_nil_iff.mp heq.symm).1] at hmem
  cases hmem

theorem decideStart_of_planRun_eq_nil {t : TaskSpec} (ht : t ∈ run.tasks)
    (hnone : run.states.lookup t.taskID = some .none) :
    decideStart t (run.upstreams.getD t.taskID []) run.effective = none := by
  by_contra hstart
  obtain ⟨target, hstart⟩ := Option.ne_none_iff_exists'.mp hstart
  have hund : (run.retryDecision t.taskID).decided = false := by simp [retryDecision, hnone]
  have hmem := run.mem_planRun_of_decideStart ht hund ((run.effective_of_undecided hund).trans hnone) hstart
  rw [hplan] at hmem
  cases hmem

end Stalled

theorem settled_of_quiet (t0 : Time) (hemit : ∀ t, t0 ≤ t → ∀ task ∈ run.tasks,
      ((run.atTime t).retryDecision task.taskID).emit = none)
    (hstart : ∀ task ∈ run.tasks, run.states.lookup task.taskID = some .none →
      decideStart task (run.upstreams.getD task.taskID []) (run.atTime t0).effective = none) : run.Settled := by
  have hparked : ∀ t ∈ run.tasks, run.waits t.taskID = false := by
    intro t ht
    by_contra hwaits
    obtain ⟨t1, hmoves⟩ := run.exists_emit (by simpa using hwaits)
    obtain ⟨target, htarget⟩ := hmoves (max t0 t1) (le_max_right _ _)
    rw [hemit _ (le_max_left _ _) t ht] at htarget
    cases htarget
  refine ⟨hparked, fun t ht hnone => ?_⟩
  have heff := (run.atTime t0).effective_of_parked hparked
  exact (decideStart_congr heff _ _).symm.trans (hstart t ht hnone)

theorem settled_of_planRun_eq_nil {t0 : Time} (h : ∀ t, t0 ≤ t → (run.atTime t).planRun = []) : run.Settled :=
  run.settled_of_quiet t0 (fun t ht _ htask => emit_of_planRun_eq_nil (h t ht) htask)
    fun _ htask hnone => decideStart_of_planRun_eq_nil (h t0 le_rfl) htask hnone

/-! ## Caps -/

/-- No cap binds. -/
structure HasRoom : Prop where
  active : run.maxActiveTasks ≤ 0 ∨ run.activeTaskCount < run.maxActiveTasks
  pools : run.poolsEnabled = false ∨ ∀ key, run.poolBudgets.getD key 0 ≤ 0 ∨
    run.poolActive.getD key 0 < run.poolBudgets.getD key 0

variable {run}

theorem HasRoom.headroom (h : run.HasRoom) : 0 < run.admissionHeadroom := by
  unfold admissionHeadroom
  split
  · decide
  next hcap =>
    have hfree : run.activeTaskCount < run.maxActiveTasks := h.active.resolve_left hcap
    rw [if_pos (by omega)]
    omega

theorem HasRoom.poolHasSlot (h : run.HasRoom) (t : TaskSpec) : run.poolHasSlot (run.poolKeyFor t) ∅ := by
  unfold RunState.poolHasSlot
  split
  · rfl
  next hkey =>
    dsimp only
    split
    · rfl
    next hbudget =>
      rcases h.pools with hoff | hpools
      · exact absurd (by simp [poolKeyFor, hoff]) hkey
      · have hslot := (hpools (run.poolKeyFor t)).resolve_left hbudget
        have hempty : Lib.GoMap.getD (∅ : Lib.GoMap Int) (run.poolKeyFor t) 0 = 0 := rfl
        rw [hempty, Int.add_zero]
        exact decide_eq_true hslot

/-- Nothing is parked before a cap: the first scheduled task of the loop would be promoted. -/
theorem HasRoom.not_scheduled (h : run.HasRoom) (hplan : run.planRun = []) {t : TaskSpec}
    (ht : t ∈ run.tasks) (hready : run.readyToDispatch t.taskID) :
    run.states.lookup t.taskID ≠ some .scheduled := by
  intro hs
  have hturn := run.planTask_of_planRun_eq_nil hplan ht
  have hund : (run.retryDecision t.taskID).decided = false := by simp [retryDecision, hs]
  have hroom : ¬ run.admissionHeadroom ≤ 0 := not_le.mpr h.headroom
  simp [planTask, hund, run.effective_of_undecided hund, hs, hready, hroom, h.poolHasSlot t] at hturn

variable (run)

/-! ## Settled runs of a validated graph -/

/-- A settled run that nothing is under way in, with supported trigger rules and a row for every
task. -/
structure Quiescent : Prop where
  settled : run.Settled
  rules : ∀ t ∈ run.tasks, ∀ name, t.triggerRule ≠ some (.other name)
  covered : ∀ t ∈ run.tasks, (run.states.lookup t.taskID).isSome
  idle : ∀ t ∈ run.tasks, ∀ s, run.states.lookup t.taskID = some s → s.isActive = false

section Quiescent

variable {run} (h : run.Quiescent)
include h

/-- A task that has not started and is not under way or parked has ended. -/
theorem Quiescent.ended {t : TaskSpec} (ht : t ∈ run.tasks) (hnone : run.states.lookup t.taskID ≠ some .none) :
    ∃ s, run.states.lookup t.taskID = some s ∧ s.isTerminal := by
  obtain ⟨s, hs⟩ := Option.isSome_iff_exists.mp (h.covered t ht)
  refine ⟨s, hs, ?_⟩
  have hwaits := h.settled.parked t ht
  have hidle := h.idle t ht s hs
  cases s with
  | none => exact absurd hs hnone
  | scheduled | queued | running => cases hidle
  | upForRetry | upForReschedule => simp [waits, hs] at hwaits
  | success | failed | skipped | upstreamFailed => rfl

/-- The trigger rule decides a task whose upstreams have all ended. -/
theorem Quiescent.not_ready {t : TaskSpec} (ht : t ∈ run.tasks) (hnone : run.states.lookup t.taskID = some .none) :
    ¬ ∀ dep ∈ run.upstreams.getD t.taskID [], ∃ s, run.states.lookup dep = some s ∧ s.isTerminal := by
  intro hdeps
  have hdecides : evaluateTriggerRule (triggerRuleOf t)
      ((run.upstreams.getD t.taskID []).map run.states.lookup) ≠ .wait := by
    refine evaluateTriggerRule_ne_wait (fun u hu => ?_) fun name hname => ?_
    · obtain ⟨dep, hdep, rfl⟩ := List.mem_map.mp hu
      exact hdeps dep hdep
    · cases hrule : t.triggerRule with
      | none => simp [triggerRuleOf, hrule] at hname
      | some rule =>
        simp only [triggerRuleOf, hrule, Option.getD_some] at hname
        exact h.rules t ht name (by rw [hrule, hname])
  have hstart := h.settled.started t ht hnone
  unfold decideStart at hstart
  split at hstart <;> first | exact absurd ‹_› hdecides | cases hstart

theorem Quiescent.started (hg : WellFormedGraph run.tasks) {t : TaskSpec} (ht : t ∈ run.tasks) :
    run.states.lookup t.taskID ≠ some .none := by
  have hall : ∀ id, ∀ t ∈ run.tasks, t.taskID = id → run.states.lookup t.taskID ≠ some .none := by
    intro id
    induction id using hg.acyclic.induction with
    | _ id ih =>
      rintro t ht rfl hnone
      refine h.not_ready ht hnone fun dep hdep => ?_
      have hdeclared : dep ∈ run.tasks.map TaskSpec.taskID := by
        refine hg.declared t ht ?_
        rw [← dependencies_getD hg.distinct ht]
        exact hdep
      obtain ⟨u, hu, rfl⟩ := List.mem_map.mp hdeclared
      exact h.ended hu (ih u.taskID hdep u hu rfl)
  exact hall t.taskID t ht rfl

/-- **The finaliser closes it.** -/
theorem Quiescent.closed (hg : WellFormedGraph run.tasks) : run.finalizeRun.isSome := by
  refine finalizeRun_isSome.mpr fun t ht => ?_
  obtain ⟨s, hs, hterminal⟩ := h.ended ht (h.started hg ht)
  rw [run.isOpen_of_terminal hs hterminal]
  exact h.settled.parked t ht

end Quiescent

end RunState

end Leoflow
