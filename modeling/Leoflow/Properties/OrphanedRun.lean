import Leoflow.Executor.ResilienceLadder
import Leoflow.Scheduler.Settled
import Leoflow.System.Step

/-!
# Orphaned runs

The orphan reaper fails a running run that has no scheduled, queued or running task and has been quiet for the
threshold. A task in `up_for_retry`, in `up_for_reschedule` or failed with budget left keeps its run alive for the
planner and not for the reaper. The ladder bounds the infra re-placement delay by the threshold; it bounds neither
`retry_delay_seconds` nor `reschedule_at`.
-/

namespace Leoflow

/-- The run as a tick at `t` reads it. -/
def runAt (db : Database) (spec : DAGSpec) (d : DagRun) (t : Time) : RunState :=
  runState d spec (listTaskInstancesByRun db d.id) t

/-- The orphan reaper of a server that accepts the ladder fails the running run `d` at `now`. -/
structure Orphaned (l : ResilienceLadder) (db : Database) (d : DagRun) (now : Time) : Prop where
  accepted : validateResilienceLadder l = .ok ()
  row : d ∈ db.runs ∧ d.state = .running
  listed : ∃ c ∈ listOrphanCandidates db, c.runID = d.id ∧ isOrphaned c l.orphanThreshold now

/-- No tick from `now` on would move a task of the run, whatever its budgets. -/
def NeverPlanned (db : Database) (spec : DAGSpec) (d : DagRun) (now : Time) : Prop :=
  ∀ t, now ≤ t → ∀ b : Budget, (b.prepare (runAt db spec d t)).planRun = []

section Listed

variable {l : ResilienceLadder} {db : Database} {d : DagRun} {now : Time} {spec : DAGSpec}

theorem Orphaned.not_scheduled (h : Orphaned l db d now) (spec : DAGSpec) (t : Time) (taskID : String) :
    (runAt db spec d t).states.lookup taskID ≠ some .scheduled := by
  intro hs
  obtain ⟨c, hc, hid, -⟩ := h.listed
  obtain ⟨d', -, hcand, rfl⟩ := mem_of_mem_listOrphanCandidates hc
  obtain ⟨r, hr, -, hstate⟩ := Lib.GoMap.mem_of_lookup_collect hs
  obtain ⟨hr, hrun⟩ := mem_listTaskInstancesByRun.mp hr
  have hidle : ¬ (db.tis.any fun r => r.dagRunId == d'.id && r.state.isActive) := by
    simp only [isOrphanCandidate, Bool.and_eq_true, Bool.not_eq_true'] at hcand
    simp [hcand.2]
  refine hidle (List.any_eq_true.mpr ⟨r, hr, ?_⟩)
  rw [Option.some.inj hstate, hrun, ← hid]
  simp [TaskState.isActive]

/-- The threshold has passed since every end of a task of the run. -/
theorem Orphaned.endedAt_le (h : Orphaned l db d now) {taskID : String} {t ended : Time}
    (he : (runAt db spec d t).endedAt.lookup taskID = some ended) : ended + l.orphanThreshold ≤ now := by
  obtain ⟨c, hc, hid, horphaned⟩ := h.listed
  obtain ⟨d', -, -, rfl⟩ := mem_of_mem_listOrphanCandidates hc
  obtain ⟨r, hr, -, hended⟩ := Lib.GoMap.mem_of_lookup_collect he
  obtain ⟨hr, hrun⟩ := mem_listTaskInstancesByRun.mp hr
  obtain ⟨hepoch, hle⟩ := le_lastActivity d' (db.tis.filter fun r => r.dagRunId == d'.id)
  have hle := hle r (List.mem_filter.mpr ⟨hr, by simp [hrun, ← hid]⟩) ended hended
  have hpos : epoch > 0 := by decide
  simp only [isOrphaned, Bool.or_eq_true, beq_iff_eq, decide_eq_true_eq] at horphaned
  rcases horphaned with hzero | hquiet
  · rw [hzero] at hepoch
    exact absurd hepoch (not_le.mpr hpos)
  · exact (Int.add_le_add_right hle _).trans (Int.add_le_of_le_sub_left hquiet)

/-- **The infra rung.** The ladder keeps its promise for infra faults: when the reaper takes a run,
no task with infra budget is still inside its re-placement delay. -/
theorem Orphaned.replacement_is_due (h : Orphaned l db d now)
    (hl : l.infraReplaceMaxDelay = infraReplaceMaxDelay) {t : Time} (ht : now ≤ t) {taskID : String}
    (hbudget : (runAt db spec d t).infraReplaceable taskID) :
    (runAt db spec d t).readyToInfraReplace taskID := by
  have hrung : l.infraReplaceMaxDelay < l.orphanThreshold :=
    (validateResilienceLadder_eq_ok.mp h.accepted).2 _ (List.mem_append_left _ (List.mem_of_getElem? (i := 4) rfl))
  simp only [RunState.infraReplaceable, Bool.and_eq_true, decide_eq_true_eq] at hbudget
  have hdelay := infraReplaceDelay_lt hbudget.2 d.id taskID
  unfold RunState.readyToInfraReplace
  cases he : (runAt db spec d t).endedAt.lookup taskID with
  | none => rfl
  | some ended =>
    have hended := h.endedAt_le he
    have : ¬ t < ended + (dispatchBackoff ((runAt db spec d t).infraAttempts.getD taskID 0 + 1) +
        infraReplaceJitter d.id taskID) := by
      refine not_lt.mpr ((Int.add_le_add_left ?_ ended).trans (hended.trans ht))
      exact (hdelay.trans (hl ▸ hrung)).le
    simp only [Option.map_some, RunState.reached, Bool.or_eq_true, Bool.not_eq_true', decide_eq_false_iff_not]
    exact .inr this

end Listed

/-- **Orphaned runs.** No tick would move a run the orphan reaper fails, now or later, exactly when
the run is settled: no task is parked in `up_for_retry` or `up_for_reschedule` or failed with retry or
infra budget left, and no task that has not started is decided by its trigger rule. -/
theorem orphaned_run_is_settled {l : ResilienceLadder} {db : Database} {d : DagRun} {now : Time}
    (h : Orphaned l db d now) (spec : DAGSpec) :
    NeverPlanned db spec d now ↔ (runAt db spec d now).Settled := by
  constructor
  · intro hplan
    have hs : (Budget.unlimited.prepare (runAt db spec d now)).Settled :=
      RunState.settled_of_planRun_eq_nil _ fun t ht => hplan t ht .unlimited
    exact ⟨hs.parked, hs.started⟩
  · intro hs t _ b
    have hs : (b.prepare (runAt db spec d t)).Settled := ⟨hs.parked, hs.started⟩
    exact hs.planRun_eq_nil fun task _ => h.not_scheduled spec t task.taskID

/-- The run row of the schedules, as the first tick left it. -/
def runningRun : DagRun where
  id := "run"
  tenantId := ""
  dagVersionId := "v1"
  state := .running
  queuedAt := epoch
  startedAt := some epoch

/-- The tables after a schedule that started at the epoch. -/
def tablesAfter (cfg : Config) (actions : List Action) : Option Database :=
  ((World.system cfg).run (.empty epoch) actions).map World.db

/-- The task succeeds and no tick looks at the run for five minutes. -/
theorem orphaned_run_is_settled_finished :
    ∃ db, tablesAfter oneTask (firstRunning ++ ends firstAttempt .success) = some db ∧
      Orphaned (resilienceLadder defaultCredentialLifetime) db runningRun (epoch + 5 * minute) ∧
      NeverPlanned db (oneTask.spec "v1") runningRun (epoch + 5 * minute) := by
  have hdb := (Option.some_get (x := tablesAfter oneTask
    (firstRunning ++ ends firstAttempt .success)) (by decide +kernel)).symm
  have h : Orphaned (resilienceLadder defaultCredentialLifetime) ((tablesAfter oneTask
      (firstRunning ++ ends firstAttempt .success)).get (by decide +kernel)) runningRun
      (epoch + 5 * minute) :=
    ⟨resilienceLadder_accepted.mpr (.inr (by decide)), by decide +kernel,
      ⟨"run", epoch⟩, by decide +kernel, rfl, by decide +kernel⟩
  exact ⟨_, hdb, h, (orphaned_run_is_settled h _).mpr (by decide +kernel)⟩

/-- The task loses its pod and no tick looks at the run for five minutes. -/
theorem orphaned_replacement_is_due : ∃ db, tablesAfter oneTask (firstRunning ++ [.clock minute.toNat,
        .take (.podLost ⟨"ti", "run", "task", 1, epoch⟩) (epoch + minute),
        .mark ⟨.podLost ⟨"ti", "run", "task", 1, epoch⟩, epoch + minute, none⟩]) = some db ∧
      (runAt db (oneTask.spec "v1") runningRun (epoch + 6 * minute)).readyToInfraReplace "task" :=
  Lib.exists_eq_some (by decide +kernel) fun _ =>
    Orphaned.replacement_is_due (l := resilienceLadder defaultCredentialLifetime)
      ⟨resilienceLadder_accepted.mpr (.inr (by decide)), by decide +kernel, ⟨"run", epoch + minute⟩, by decide +kernel,
        rfl, by decide +kernel⟩ rfl le_rfl (by decide +kernel)

/-- A deployment whose DAG is one task that is retried after ten minutes. -/
def slowRetry : Config :=
  .ofTasks [{ taskID := "task", retries := some 1, retryDelaySeconds := some 600 }]

/-- The task fails and a tick parks it in `up_for_retry`. -/
def parkedRetry : List Action :=
  firstRunning ++ ends firstAttempt (.failed 1 "boom") ++ quietTick [.call []]

/-- Under the ladder of the server, a run is failed that the planner would move five minutes later. -/
theorem reaper_fails_parked_run : ¬ ∀ l db d now spec, Orphaned l db d now → NeverPlanned db spec d now := by
  intro h
  have ho : Orphaned (resilienceLadder defaultCredentialLifetime)
      ((tablesAfter slowRetry parkedRetry).get (by decide +kernel)) runningRun (epoch + 5 * minute) :=
    ⟨resilienceLadder_accepted.mpr (.inr (by decide)), by decide +kernel,
      ⟨"run", epoch⟩, by decide +kernel, rfl, by decide +kernel⟩
  exact absurd (h _ _ _ _ (slowRetry.spec "v1") ho (epoch + 10 * minute) (by decide) .unlimited) (by decide +kernel)

end Leoflow
