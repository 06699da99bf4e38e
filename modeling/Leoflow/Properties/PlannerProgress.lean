import Leoflow.Scheduler.Settled

/-!
# The planner and the finaliser

A run whose graph was validated does not stall: where nothing is under way, no timer is pending and no cap
binds, the planner moves a task or the finaliser closes the run. Of the tasks that have not started, one that
depends on no other such task has only upstreams that ended, and its trigger rule decides it.
-/

namespace Leoflow

namespace RunState

variable (run : RunState)

/-- What does not hinder the planner: supported trigger rules, a state for exactly the tasks, nothing
under way, every timer elapsed and no cap that binds. -/
structure Unhindered : Prop where
  rules : ∀ t ∈ run.tasks, ∀ name, t.triggerRule ≠ some (.other name)
  covered : ∀ id, (run.states.lookup id).isSome ↔ id ∈ run.tasks.map TaskSpec.taskID
  idle : ∀ t ∈ run.tasks, run.states.lookup t.taskID ≠ some .queued ∧ run.states.lookup t.taskID ≠ some .running
  retry : ∀ t ∈ run.tasks, run.states.lookup t.taskID = some .upForRetry →
    0 < run.retryDelaySeconds.getD t.taskID 0 → ∀ ended ∈ run.endedAt.lookup t.taskID,
      ended + run.retryDelaySeconds.getD t.taskID 0 * second ≤ run.now
  reschedule : ∀ t ∈ run.tasks, run.states.lookup t.taskID = some .upForReschedule →
    ∀ poke ∈ run.rescheduleAt.lookup t.taskID, poke ≤ run.now
  dispatch : ∀ t ∈ run.tasks, run.states.lookup t.taskID = some .scheduled →
    ∀ next ∈ run.nextDispatchAt.lookup t.taskID, next ≤ run.now
  infra : ∀ t ∈ run.tasks, run.states.lookup t.taskID = some .failed →
    run.infraReplaceable t.taskID → ∀ ended ∈ run.endedAt.lookup t.taskID,
      ended + (dispatchBackoff (run.infraAttempts.getD t.taskID 0 + 1) +
        infraReplaceJitter run.runID t.taskID) ≤ run.now
  active : run.maxActiveTasks ≤ 0 ∨ run.activeTaskCount < run.maxActiveTasks
  pools : run.poolsEnabled = false ∨ ∀ key, run.poolBudgets.getD key 0 ≤ 0 ∨
    run.poolActive.getD key 0 < run.poolBudgets.getD key 0

variable {run}

/-! ## Timers -/

theorem reached_of_le {at? : Option Time} (h : ∀ t ∈ at?, t ≤ run.now) : run.reached at? := by
  cases at? with
  | none => rfl
  | some t =>
    have hle : ¬ run.now < t := not_lt.mpr (h t rfl)
    simp [reached, hle]

theorem readyToRetry_of_elapsed {taskID : String}
    (h : 0 < run.retryDelaySeconds.getD taskID 0 → ∀ ended ∈ run.endedAt.lookup taskID,
      ended + run.retryDelaySeconds.getD taskID 0 * second ≤ run.now) : run.readyToRetry taskID := by
  unfold readyToRetry
  dsimp only
  split
  · rfl
  next hdelay =>
    rw [not_le] at hdelay
    refine reached_of_le fun t ht => ?_
    obtain ⟨ended, hended, rfl⟩ := Option.map_eq_some_iff.mp ht
    have hnonneg : 0 ≤ run.retryDelaySeconds.getD taskID 0 * second :=
      Int.mul_nonneg hdelay.le (by decide)
    exact (Int.add_le_add_left (wrap64_le hnonneg) ended).trans (h hdelay ended hended)

theorem readyToInfraReplace_of_elapsed {taskID : String} (h : ∀ ended ∈ run.endedAt.lookup taskID,
      ended + (dispatchBackoff (run.infraAttempts.getD taskID 0 + 1) + infraReplaceJitter run.runID taskID) ≤ run.now) :
    run.readyToInfraReplace taskID := by
  refine reached_of_le fun t ht => ?_
  obtain ⟨ended, hended, rfl⟩ := Option.map_eq_some_iff.mp ht
  exact h ended hended

/-! ## A run that is planned nothing -/

section Stalled

variable (h : run.Unhindered) (hplan : run.planRun = [])
include h hplan

theorem Unhindered.not_waits {t : TaskSpec} (ht : t ∈ run.tasks) : run.waits t.taskID = false := by
  by_contra hwaits
  obtain ⟨target, hemit⟩ := run.emit_of_waits (by simpa using hwaits)
    (fun hs => readyToRetry_of_elapsed (h.retry t ht hs))
    (fun hs => reached_of_le (h.reschedule t ht hs))
    (fun hs hi => readyToInfraReplace_of_elapsed (h.infra t ht hs hi))
  rw [emit_of_planRun_eq_nil hplan ht] at hemit
  cases hemit

theorem Unhindered.quiescent : run.Quiescent where
  settled := by
    refine ⟨fun t ht => h.not_waits hplan ht, fun t ht hnone => ?_⟩
    rw [← decideStart_congr (run.effective_of_parked fun t ht => h.not_waits hplan ht)]
    exact decideStart_of_planRun_eq_nil hplan ht hnone
  rules := h.rules
  covered t ht := (h.covered t.taskID).mpr (List.mem_map_of_mem ht)
  idle t ht s hs := by
    have hroom : run.HasRoom := ⟨h.active, h.pools⟩
    obtain ⟨hqueued, hrunning⟩ := h.idle t ht
    cases s with
    | scheduled => exact absurd hs (hroom.not_scheduled hplan ht (reached_of_le (h.dispatch t ht hs)))
    | queued => exact absurd hs hqueued
    | running => exact absurd hs hrunning
    | _ => rfl

end Stalled

/-! ## Finalisation -/

variable (run)

/-- What the planner and the finaliser say of one run: a closed run is planned nothing, now or later, and its
verdict is read off its tasks; a run whose tasks have all ended is closed where nothing is planned from now on,
that is, where no task waits for another try. -/
structure FinaliserAgrees : Prop where
  planned : ∀ verdict, run.finalizeRun = some verdict →
    run.planRun = [] ∧ ∀ now, run.now ≤ now → (run.atTime now).planRun = []
  verdict : ∀ verdict, run.finalizeRun = some verdict →
    verdict = if ∃ t ∈ run.tasks, run.states.lookup t.taskID = some .failed ∨
      run.states.lookup t.taskID = some .upstreamFailed then .failed else .success
  closed : (∀ t ∈ run.tasks, ∃ s, run.states.lookup t.taskID = some s ∧ s.isTerminal) →
    (∀ now, run.now ≤ now → (run.atTime now).planRun = []) → run.finalizeRun.isSome
  owed : (∀ t ∈ run.tasks, ∃ s, run.states.lookup t.taskID = some s ∧ s.isTerminal) →
    (run.finalizeRun.isSome ↔ ∀ t ∈ run.tasks, run.waits t.taskID = false)

theorem finalizeRun_isSome_of_ended
    (h : ∀ t ∈ run.tasks, ∃ s, run.states.lookup t.taskID = some s ∧ s.isTerminal) :
    run.finalizeRun.isSome ↔ ∀ t ∈ run.tasks, run.waits t.taskID = false := by
  rw [finalizeRun_isSome]
  refine forall₂_congr fun t ht => ?_
  obtain ⟨s, hs, hterminal⟩ := h t ht
  rw [run.isOpen_of_terminal hs hterminal]

end RunState

open RunState

/-- **The planner makes progress.** Where nothing hinders it, the planner moves a task of a validated
graph or the finaliser closes the run. -/
theorem planner_makes_progress {run : RunState} (hg : validateGraph run.tasks = .ok ())
    (h : run.Unhindered) : run.planRun ≠ [] ∨ run.finalizeRun.isSome := by
  by_cases hplan : run.planRun = []
  · exact .inr ((h.quiescent hplan).closed (validateGraph_eq_ok.mp hg))
  · exact .inl hplan

/-- A run of three tasks: the second one is parked for a retry and its delay has just elapsed. -/
def parkedRun : RunState where
  runID := "run"
  dagID := "dag"
  dagVersionID := "v1"
  tenantID := "tenant"
  state := .running
  tasks := [{ taskID := "extract" }, { taskID := "load", dependsOn := ["extract"] },
    { taskID := "report", dependsOn := ["extract", "load"], triggerRule := some .allDone }]
  states := .literal [("extract", .success), ("load", .upForRetry), ("report", .none)]
  tries := .literal [("extract", 1), ("load", 1), ("report", 1)]
  maxTries := .literal [("extract", 1), ("load", 2), ("report", 1)]
  endedAt := .literal [("extract", 1), ("load", 2)]
  retryDelaySeconds := .literal [("load", 60)]
  rescheduleAt := ∅
  nextDispatchAt := ∅
  dispatchAttempts := ∅
  infraFailed := ∅
  infraAttempts := ∅
  now := 60 * second + 2
  maxActiveTasks := 1

theorem planner_makes_progress_parked : parkedRun.planRun ≠ [] ∨ parkedRun.finalizeRun.isSome := by
  refine planner_makes_progress (by decide +kernel)
    ⟨?_, Lib.GoMap.isSome_lookup_collect (by decide) Prod.snd, by decide +kernel, by decide +kernel,
      by decide +kernel, by decide +kernel, by decide +kernel, by decide, .inl rfl⟩
  intro t ht name hname
  simp only [parkedRun, List.mem_cons, List.not_mem_nil, or_false] at ht
  rcases ht with rfl | rfl | rfl <;> cases hname

/-- **The finaliser agrees with the planner.** -/
theorem finaliser_agrees_with_planner (run : RunState) : run.FinaliserAgrees where
  planned verdict h := by
    refine ⟨run.planRun_of_finalizeRun h, fun now _ => ?_⟩
    -- The finaliser reads no clock.
    have hlater : (run.atTime now).finalizeRun = some verdict := h
    exact (run.atTime now).planRun_of_finalizeRun hlater
  verdict _ h := finalizeRun_verdict h
  closed hended hplan :=
    (run.finalizeRun_isSome_of_ended hended).mpr (run.settled_of_planRun_eq_nil hplan).parked
  owed hended := run.finalizeRun_isSome_of_ended hended

/-! ## The backoff of re-placements -/

/-- The loop of `dispatchBackoff` on `int64` values. -/
def doubleUpTo64 (cap d : Duration) : Nat → Duration
  | 0 => d
  | n + 1 => if wrap64 (d * 2) ≥ cap then cap else doubleUpTo64 cap (wrap64 (d * 2)) n

/-- `dispatchBackoff` with its machine integers. -/
def dispatchBackoff64 (attempts : Int) : Duration :=
  doubleUpTo64 dispatchBackoffCap dispatchBackoffBase (attempts - 1).toNat

/-- The loop returns before a doubling could overflow. -/
theorem doubleUpTo64_eq {cap d : Int} (hd : 0 ≤ d) (hle : d ≤ cap) (hcap : cap < 2 ^ 62) (n : Nat) :
    doubleUpTo64 cap d n = doubleUpTo cap d n := by
  induction n generalizing d with
  | zero => rfl
  | succ n ih =>
    have hexact : wrap64 (d * 2) = d * 2 := by
      unfold wrap64
      omega
    rw [doubleUpTo64, doubleUpTo, hexact]
    split
    · rfl
    next hlt =>
      exact ih (by omega) (by omega)

theorem doubleUpTo_le_cap {cap d : Duration} (hle : d ≤ cap) (n : Nat) : doubleUpTo cap d n ≤ cap := by
  induction n generalizing d with
  | zero => exact hle
  | succ n ih =>
    rw [doubleUpTo]
    split
    · exact Int.le_refl cap
    next hlt =>
      exact ih (Int.le_of_lt (Int.not_le.mp hlt))

theorem dispatchBackoffBase_le (attempts : Int) : dispatchBackoffBase ≤ dispatchBackoff attempts :=
  monotone_nat_of_le_succ (doubleUpTo_le_succ (by decide) (by decide)) (Nat.zero_le _)

namespace RunState

variable {run : RunState} {taskID : String} {ended : Time}

/-- On a clock that is set the gate opens with the delay of the attempt. -/
theorem readyToInfraReplace_iff (hended : run.endedAt.lookup taskID = some ended) (hnow : run.now ≠ 0) :
    run.readyToInfraReplace taskID ↔
      ended + (dispatchBackoff (run.infraAttempts.getD taskID 0 + 1) + infraReplaceJitter run.runID taskID) ≤
        run.now := by
  simp [readyToInfraReplace, reached, hended, hnow]

theorem readyToInfraReplace_atTime (hnow : run.now ≠ 0) (h : run.readyToInfraReplace taskID) {t : Time}
    (ht : run.now ≤ t) : (run.atTime t).readyToInfraReplace taskID := by
  unfold readyToInfraReplace reached at h ⊢
  simp only [atTime]
  cases hended : run.endedAt.lookup taskID with
  | none => rfl
  | some ended =>
    simp only [hended, Option.map_some, Bool.or_eq_true, beq_iff_eq, hnow, false_or, Bool.not_eq_true',
      decide_eq_false_iff_not] at h ⊢
    exact .inr (decide_eq_false fun hlt => h (ht.trans_lt hlt))

end RunState

/-- The backoff stays between its base and its cap, and no doubling overflows. -/
theorem dispatchBackoff_bounds (a : Int) : dispatchBackoffBase ≤ dispatchBackoff a ∧
    dispatchBackoff a ≤ dispatchBackoffCap ∧ dispatchBackoff64 a = dispatchBackoff a :=
  ⟨dispatchBackoffBase_le a, doubleUpTo_le_cap (by decide) _, doubleUpTo64_eq (by decide) (by decide) (by decide) _⟩

/-- **The backoff is monotone between its base and its cap and no doubling overflows; a re-placement waits for its
backoff, is permitted from the published delay on, and stays permitted.** -/
theorem infra_backoff_bounded :
    (∀ a b : Int, a ≤ b → dispatchBackoff a ≤ dispatchBackoff b) ∧
    (∀ a : Int, dispatchBackoffBase ≤ dispatchBackoff a ∧ dispatchBackoff a ≤ dispatchBackoffCap ∧
      dispatchBackoff64 a = dispatchBackoff a) ∧
    ∀ (run : RunState) (taskID : String) (ended : Time), run.endedAt.lookup taskID = some ended →
      run.infraReplaceable taskID → run.now ≠ 0 →
      (run.now < ended + dispatchBackoff (run.infraAttempts.getD taskID 0 + 1) →
        run.readyToInfraReplace taskID = false) ∧
      (ended + infraReplaceMaxDelay ≤ run.now → run.readyToInfraReplace taskID) ∧
      (run.readyToInfraReplace taskID →
        ∀ t, run.now ≤ t → (run.atTime t).readyToInfraReplace taskID) := by
  refine ⟨fun a b => dispatchBackoff_mono, dispatchBackoff_bounds, fun run taskID ended hended hbudget hnow => ?_⟩
  have hiff := RunState.readyToInfraReplace_iff hended hnow
  refine ⟨fun hlt => ?_, fun hle => ?_, fun h t => RunState.readyToInfraReplace_atTime hnow h⟩
  · have hjitter := infraReplaceJitter_nonneg run.runID taskID
    rw [← Bool.not_eq_true, hiff, not_le]
    exact hlt.trans_le (Int.add_le_add_left (Int.le_add_of_nonneg_right hjitter) ended)
  · simp only [RunState.infraReplaceable, Bool.and_eq_true, decide_eq_true_eq] at hbudget
    have hdelay := infraReplaceDelay_lt hbudget.2 run.runID taskID
    exact hiff.mpr ((Int.add_le_add_left hdelay.le ended).trans hle)

/-- The second task was lost instead. -/
def lostRun (now : Time) : RunState := { parkedRun with infraFailed := .literal [("load", true)], now }

/-- The first re-placement of the task. -/
theorem infra_backoff_first : (lostRun (5 * second)).readyToInfraReplace "load" = false ∧
    (lostRun (6 * minute)).readyToInfraReplace "load" :=
  ⟨(infra_backoff_bounded.2.2 (lostRun (5 * second)) "load" 2 (by decide) (by decide) (by decide)).1 (by decide),
    (infra_backoff_bounded.2.2 (lostRun (6 * minute)) "load" 2 (by decide) (by decide) (by decide)).2.1 (by decide)⟩

end Leoflow
