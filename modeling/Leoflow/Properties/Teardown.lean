import Leoflow.System.Holdings

/-!
# What the reapers tear down

After its mark a reaper deletes the pods of what it settled. The agent-lost and pod-lost reapers ask
whether the mark changed the row. `ReapRun` reports a lost race as success and `MarkTaskDispatchLost`
returns no row count, so the orphan and dispatch-lost reapers delete pods of a run or task that has
moved on since the listing.
-/

namespace Leoflow

/-- A teardown follows a mark that changed the run row or the task row. -/
def TearsDownSettled : Action → Prop
  | .teardown i => i.marked = some true
  | _ => True

instance (a : Action) : Decidable (TearsDownSettled a) := by
  unfold TearsDownSettled
  split <;> infer_instance

/-- An orphan mark finds its run still running, a dispatch-lost mark its task still queued. -/
def MarksUnmoved (w : World) : Action → Prop
  | .mark ⟨.orphan c, _, _⟩ => ∃ d ∈ w.db.runs, d.id = c.runID ∧ d.state = .running
  | .mark ⟨.dispatchLost c, _, _⟩ => ∃ r ∈ w.db.tis, r.id = c.taskInstanceID ∧ r.state = .queued
  | _ => True

instance (w : World) (a : Action) : Decidable (MarksUnmoved w a) := by
  unfold MarksUnmoved
  split <;> infer_instance

/-! ## Marks -/

/-- `applied` says that the mark changes the run row or the task row it is about. -/
theorem Candidate.applied_iff (c : Candidate) (db : Database) : c.applied db ↔
    (db.write c.mark).tis ≠ db.tis ∨ (db.write c.mark).runs ≠ db.runs := by
  cases c with
  | orphan c =>
    have hruns : (markRunOrphanedRun db.now c.runID).exec db.runs ≠ db.runs ↔
        db.isRunning c.runID := Lib.Update.exec_ne_iff _ fun d hg he => by
      simp only [markRunOrphanedRun, Bool.and_eq_true, beq_iff_eq] at hg
      exact absurd (congrArg DagRun.state he) (by simp [markRunOrphanedRun, hg.2])
    by_cases hrun : db.isRunning c.runID
    · simp only [applied, hrun, mark, Database.write, Database.reapRun, if_true, true_iff]
      exact .inr (hruns.mpr hrun)
    · simp [applied, hrun, mark, Database.write, Database.reapRun]
  | _ c =>
    simp only [applied, mark, Database.write, Database.execute, ne_eq, not_true_eq_false, or_false]
    refine (Lib.Update.exec_ne_iff _ fun r hg he => ?_).symm
    simp only [markTaskAgentLost, markTaskDispatchLost, markTaskPodLost, Bool.and_eq_true, beq_iff_eq] at hg
    refine absurd (congrArg TaskInstance.state he) ?_
    simp [markTaskAgentLost, markTaskDispatchLost, markTaskPodLost, hg.2,
      TaskInstance.lostWith, TaskInstance.failedWith]

/-! ## Sweeps -/

/-- A candidate that goes on to its teardown was settled by its mark. -/
def SettlesFirst (w : World) : Prop :=
  ∀ i ∈ w.ctl.reaps, ∀ m, i.marked = some m → i.candidate.tearsDown m → m

theorem settlesFirst_step {cfg : Config} {w w' : World} {a : Action} (hw : SettlesFirst w)
    (hc : MarksUnmoved w a) (h : w.step cfg a = some w') : SettlesFirst w' := by
  intro i hi m hm htear
  rcases World.mem_reaps (World.step_ctl h) hi with hi | ⟨c, clock, -, -, rfl⟩ | ⟨i0, -, rfl, -, rfl⟩
  · exact hw i hi m hm htear
  · cases hm
  · cases hm
    obtain ⟨c, clock, marked⟩ := i0
    cases c with
    | orphan c =>
      obtain ⟨d, hd, hid, hstate⟩ := hc
      exact List.any_eq_true.mpr ⟨d, hd, by simp [hid, hstate]⟩
    | dispatchLost c =>
      obtain ⟨r, hr, hid, hstate⟩ := hc
      exact List.any_eq_true.mpr ⟨r, hr, by simp [markTaskDispatchLost, hid, hstate]⟩
    | agentLost | podLost => exact htear
    | warmWorkerLost => cases htear

/-- **A reaper tears down only what it settled.** In every run in which no run and no task moves on
between its listing and the mark of the orphan or the dispatch-lost reaper, each teardown follows a
mark that changed its row. -/
theorem tears_down_settled {cfg : Config} {w w' : World} {a : Action}
    (h : (World.system cfg).Reaches MarksUnmoved w) (hs : w.step cfg a = some w') :
    TearsDownSettled a := by
  have hw : SettlesFirst w := by
    refine h.invariant (fun w hi => ?_) fun w a w' _ hw hc hs => settlesFirst_step hw hc hs
    obtain ⟨now, rfl⟩ := hi
    exact fun _ hi => by cases hi
  unfold TearsDownSettled
  split
  next i =>
    have hctl := World.step_ctl hs
    simp only [World.next, Option.ite_none_right_eq_some] at hctl
    obtain ⟨⟨hi, hany⟩, -⟩ := hctl
    cases hm : i.marked with
    | none => rw [hm] at hany; cases hany
    | some m =>
      rw [hm] at hany
      rw [hw i hi m hm hany]
  · trivial

/-- The mark of a task that is still queued comes before its teardown. -/
theorem tears_down_settled_stale : ∃ w, (World.system oneTask).runIf (fun w a => decide (MarksUnmoved w a)) (.empty 1)
        (staleQueued ++ [.mark ⟨.dispatchLost staleCandidate, 180000000001, none⟩]) = some w ∧
      (w.step oneTask (.teardown ⟨.dispatchLost staleCandidate, 180000000001, some true⟩)).isSome ∧
      TearsDownSettled (.teardown ⟨.dispatchLost staleCandidate, 180000000001, some true⟩) := by
  refine Lib.exists_eq_some (by decide +kernel) fun hrun => ?_
  exact ⟨by decide +kernel, tears_down_settled
    (Lib.System.Reaches.runIf (.init ⟨1, rfl⟩) (fun _ _ hc => of_decide_eq_true hc) hrun)
    (Option.some_get (by decide +kernel)).symm⟩

/-- The agent reports RUNNING between the listing and the mark, and its pod is deleted. -/
theorem teardown_of_running_task : ¬ ∀ cfg w a w', (World.system cfg).Reachable w → w.step cfg a = some w' →
      TearsDownSettled a := by
  intro h
  have hr : (World.system oneTask).Reachable (((World.system oneTask).run (.empty 1) (staleQueued ++ startsRunning ++
        [.mark ⟨.dispatchLost staleCandidate, 180000000001, none⟩])).get (by decide +kernel)) :=
    .run (.init ⟨1, rfl⟩) (Option.some_get _).symm
  exact absurd (h oneTask _ (.teardown ⟨.dispatchLost staleCandidate, 180000000001, some false⟩) _ hr
    (Option.some_get (by decide +kernel)).symm) (by decide)

end Leoflow
