import Leoflow.System.Holdings

/-!
# Run rows and clears

What the ticks, the clears that also reset the run, and the agents do to `dag_runs`: the tick stamps
the run it advances, and a clear re-opens its run when its resets are done.
-/

namespace Leoflow

open Lib.Update World Write List

/-- The ticks, the clears that also reset the run, the agents and what brings them about. -/
def Action.isTickClearOrReport : Action → Bool
  | .clock _ | .createRun .. | .tick _ | .resolve _ | .create .. | .requestFails ..
  | .requestDone _ | .reportRunning _ | .processEnds .. | .reportOutcome _ | .heartbeat _
  | .agentGone _ | .clearNext _ => true
  | .clear _ _ _ opts _ => opts.resetDagRun
  | _ => false

/-- The version a re-opened run has. -/
def Reopen.version (d : DagRun) : Reopen → String
  | keepingVersion => d.dagVersionId
  | toVersion v => v

section Step

variable {cfg : Config} {w w' : World} {a : Action}

/-! ## Runs -/

/-- Who writes `dag_runs`, with which statement. -/
inductive RunWriter (w : World) (a : Action) : RunStatement → Prop where
  | tick {ids : List String} {b : Budget} {run : RunState} {s : DagRunState} {ops : List Op}
      {rest : List RunState} (ha : a = .tick (.call ids))
      (ht : w.ctl.tick = some (.advancing b run (.setRunState s :: ops) rest)) :
      RunWriter w a (.stampDagRunState run.runID s)
  | clear {c : Clear} {o : Reopen} (ha : a = .clearNext c) (hr : c.resets = [])
      (ho : c.reopen = some o) : RunWriter w a (o.statement c.run)
  | reaper {i : Reap} {id : String} (ha : a = .mark i) (hm : i.candidate.mark = .reapRun id) :
      RunWriter w a (.markRunOrphanedRun id)
  | operator {p : RunPatch} (ha : a = .updateDagRunState p) :
      RunWriter w a (.updateDagRunState p.run p.state p.startedAt p.endedAt)

/-- Every statement on a run has one of these writers. -/
theorem World.runWriter {s : RunStatement} (h : (w.write a).runStatement w.db = some s) : RunWriter w a s := by
  cases a with
  | tick t =>
    simp only [World.write] at h
    unfold Tick.write at h
    split at h
    next b run op ops rest ids ht =>
      cases op <;> cases h
      exact .tick rfl ht
    · cases h
  | clearNext c =>
    simp only [World.write, Clear.write] at h
    split at h <;> cases h
    exact .clear rfl ‹_› ‹_›
  | mark i =>
    cases hm : i.candidate.mark with
    | reapRun id =>
      simp only [World.write, hm, runStatement, Option.ite_none_right_eq_some] at h
      obtain ⟨-, hs⟩ := h
      cases hs
      exact .reaper rfl hm
    | _ => cases hc : i.candidate <;> simp_all [World.write, Candidate.mark, runStatement]
  | updateDagRunState p =>
    cases h
    exact .operator rfl
  | requestFails | reportOutcome =>
    simp only [World.write] at h
    split at h <;> cases h
  | _ => cases h

/-- What a step makes of a run row. -/
inductive RunEffect (w : World) (a : Action) (d : DagRun) : DagRun → Prop where
  | kept : RunEffect w a d d
  | stamped {ids : List String} {b : Budget} {run : RunState} {s : DagRunState} {ops : List Op}
      {rest : List RunState} (ha : a = .tick (.call ids))
      (ht : w.ctl.tick = some (.advancing b run (.setRunState s :: ops) rest))
      (hid : d.id = run.runID) : RunEffect w a d ((stampDagRunState w.db.now run.runID s).set d)
  | reopened {c : Clear} {o : Reopen} (ha : a = .clearNext c) (hr : c.resets = [])
      (ho : c.reopen = some o) (hid : d.id = c.run) :
      RunEffect w a d (((o.statement c.run).update w.db.now).set d)
  | orphaned (id : String) : RunEffect w a d ((markRunOrphanedRun w.db.now id).set d)
  | marked {p : RunPatch} (ha : a = .updateDagRunState p) (hid : d.id = p.run) :
      RunEffect w a d ((updateDagRunState p.run p.state p.startedAt p.endedAt).set d)

theorem World.runEffect (w : World) (a : Action) (d : DagRun) : RunEffect w a d ((w.write a).runRow w.db d) := by
  cases hs : (w.write a).runStatement w.db with
  | none =>
    rw [runRow_of_none hs]
    exact .kept
  | some s =>
    rw [runRow_of_statement hs]
    cases hg : (s.update w.db.now).guard d with
    | false =>
      rw [row_of_not_guard _ hg]
      exact .kept
    | true =>
      rw [row_of_guard _ hg]
      cases runWriter hs with
      | tick ha ht => exact .stamped ha ht (beq_iff_eq.mp hg)
      | @clear c o ha hr ho =>
        refine .reopened ha hr ho ?_
        cases o <;> exact beq_iff_eq.mp hg
      | reaper => exact .orphaned _
      | operator ha => exact .marked ha (beq_iff_eq.mp hg)

/-- What a step of the ticks, clears and agents may do to a run row. -/
inductive RunMoves (w : World) (a : Action) (d d' : DagRun) : Prop where
  | same (h : d' = d) (hs : ∀ ids b run s ops rest, a = .tick (.call ids) →
        w.ctl.tick = some (.advancing b run (.setRunState s :: ops) rest) → d.id ≠ run.runID)
      (ho : ∀ c, a = .clearNext c → c.resets = [] → c.reopen.isSome → d.id ≠ c.run)
  | stamped {ids : List String} {b : Budget} {run : RunState} {ops : List Op} {rest : List RunState}
      {s : DagRunState} (ha : a = .tick (.call ids))
      (ht : w.ctl.tick = some (.advancing b run (.setRunState s :: ops) rest))
      (hid : d.id = run.runID) (hid' : d'.id = d.id) (hs : d'.state = s)
      (hv : d'.dagVersionId = d.dagVersionId)
  | reopened {c : Clear} {o : Reopen} (ha : a = .clearNext c) (hr : c.resets = [])
      (ho : c.reopen = some o) (hid : d.id = c.run) (hid' : d'.id = d.id) (hs : d'.state = .queued)
      (hv : d'.dagVersionId = o.version d)

theorem RunMoves.id_eq {d d' : DagRun} (h : RunMoves w a d d') : d'.id = d.id := by
  cases h with
  | same h => rw [h]
  | stamped _ _ _ h => exact h
  | reopened _ _ _ _ h => exact h

/-- A write that leaves `dag_runs` alone. -/
def Write.keepsRuns : Write → Bool
  | .nothing | .task _ | .createTaskInstances _ => true
  | _ => false

theorem Write.runs_of_keepsRuns {wr : Write} (h : wr.keepsRuns) (db : Database) :
    (db.write wr).runs = db.runs := by
  cases wr <;> first | rfl | cases h

/-- The run rows after a step: the old ones, each moved as `RunMoves` says, and a new one. -/
def RunsMoved (w : World) (a : Action) (runs : List DagRun) : Prop :=
  ∃ f new, runs = w.db.runs.map f ++ new ∧ (∀ d, RunMoves w a d (f d)) ∧
    ∀ d ∈ new, d.state = .queued ∧ ∀ d0 ∈ w.db.runs, d0.id ≠ d.id

/-- An action whose write leaves the run rows alone neither stamps nor re-opens a run. -/
theorem runsMoved_of_keepsRuns (ha : ∀ n, a ≠ .clock n) (hk : (w.write a).keepsRuns) :
    RunsMoved w a (w.after a).runs := by
  have hafter : w.after a = w.db.write (w.write a) := by
    cases a with
    | clock n => exact absurd rfl (ha n)
    | _ => rfl
  refine ⟨id, [], ?_, fun d => .same rfl ?_ ?_, List.forall_mem_nil _⟩
  · rw [hafter, runs_of_keepsRuns hk, map_id, append_nil]
  · rintro ids b run s ops rest rfl ht
    simp [World.write, ht, Tick.write, Op.write, keepsRuns] at hk
  · rintro c rfl hr ho
    obtain ⟨o, ho⟩ := Option.isSome_iff_exists.mp ho
    simp [World.write, Clear.write, hr, ho, keepsRuns] at hk

theorem runsMoved_createRun {runID tenant version : String}
    (h : w.step cfg (.createRun runID tenant version) = some w') :
    RunsMoved w (.createRun runID tenant version) w'.db.runs := by
  have hn := step_ctl h
  simp only [World.next, Option.ite_none_right_eq_some, all_eq_true, bne_iff_ne] at hn
  refine ⟨id, [{ id := runID, tenantId := tenant, dagVersionId := version, queuedAt := w.db.now }],
    ?_, fun d => .same rfl (by simp) (by simp), ?_⟩
  · rw [step_db h, map_id]
    rfl
  · intro d hd
    rw [mem_singleton.mp hd]
    exact ⟨rfl, hn.1⟩

theorem Tick.keepsRuns_or_setRunState (t : Option Tick) (a : TickAction) :
    (Tick.write t a).keepsRuns ∨ ∃ ids b run s ops rest, a = .call ids ∧
      t = some (.advancing b run (.setRunState s :: ops) rest) := by
  unfold Tick.write
  split
  next b run op ops rest ids =>
    cases op with
    | setRunState s => exact .inr ⟨ids, b, run, s, ops, rest, rfl, rfl⟩
    | _ => exact .inl rfl
  · exact .inl rfl

theorem runsMoved_setRunState {ids : List String} {b : Budget} {run : RunState} {s : DagRunState}
    {ops : List Op} {rest : List RunState} (ht : w.ctl.tick = some (.advancing b run (.setRunState s :: ops) rest)) :
    RunsMoved w (.tick (.call ids)) (w.after (.tick (.call ids))).runs := by
  refine ⟨(stampDagRunState w.db.now run.runID s).row, [], ?_, ?_, List.forall_mem_nil _⟩
  · simp [World.after, World.write, ht, Tick.write, Op.write, Database.write, Database.executeRun,
      RunStatement.update, exec]
  · intro d
    cases hg : (stampDagRunState w.db.now run.runID s).guard d with
    | false =>
      refine .same (row_of_not_guard _ hg) ?_ (by simp)
      intro _ _ _ _ _ _ _ ht' he
      rw [ht] at ht'
      cases ht'
      simp [stampDagRunState, he] at hg
    | true =>
      rw [row_of_guard _ hg]
      exact .stamped rfl ht (beq_iff_eq.mp hg) rfl rfl rfl

/-- The last statement of a clear re-opens its run. -/
theorem runsMoved_reopen {c : Clear} {o : Reopen} (hr : c.resets = []) (ho : c.reopen = some o) :
    RunsMoved w (.clearNext c) (w.after (.clearNext c)).runs := by
  refine ⟨((o.statement c.run).update w.db.now).row, [], ?_, ?_, List.forall_mem_nil _⟩
  · simp [World.after, World.write, Clear.write, hr, ho, Database.write, Database.executeRun, exec]
  · intro d
    cases hg : ((o.statement c.run).update w.db.now).guard d with
    | false =>
      refine .same (row_of_not_guard _ hg) (by simp) ?_
      rintro c' ⟨⟩ - - hid
      cases o <;> simp [Reopen.statement, RunStatement.update, reopenDagRunKeepingVersion,
        resetDagRunToVersion, hid] at hg
    | true =>
      rw [row_of_guard _ hg]
      cases o <;> exact .reopened rfl hr ho (beq_iff_eq.mp hg) rfl rfl rfl

section

variable (hp : a.isTickClearOrReport) (h : w.step cfg a = some w')
include hp h

/-- A step of the parties moves the runs that are there and only adds queued ones. -/
theorem runs_step_moves : RunsMoved w a w'.db.runs := by
  cases a with
  | clock n =>
    rw [step_db h]
    exact ⟨id, [], by simp [World.after], fun d => .same rfl (by simp) (by simp), List.forall_mem_nil _⟩
  | createRun => exact runsMoved_createRun h
  | tick t =>
    rw [step_db h]
    rcases Tick.keepsRuns_or_setRunState w.ctl.tick t with hk | ⟨ids, b, run, s, ops, rest, rfl, ht⟩
    · exact runsMoved_of_keepsRuns (by simp) hk
    · exact runsMoved_setRunState ht
  | clearNext c =>
    rw [step_db h]
    cases hr : c.resets with
    | cons x xs =>
      exact runsMoved_of_keepsRuns (by simp) (by simp [World.write, Clear.write, hr, keepsRuns])
    | nil =>
      cases ho : c.reopen with
      | none =>
        refine runsMoved_of_keepsRuns (by simp) ?_
        simp [World.write, Clear.write, hr, ho, keepsRuns]
      | some o => exact runsMoved_reopen hr ho
  | requestFails | reportOutcome =>
    rw [step_db h]
    refine runsMoved_of_keepsRuns (by simp) ?_
    simp only [World.write]
    split <;> rfl
  | bindWarm | requeue | leaseOver | settle | collect | take | mark | teardown | dropReap
  | clearFails | setDagRunState | updateDagRunState => cases hp
  | _ =>
    rw [step_db h]
    exact runsMoved_of_keepsRuns (by simp) rfl

theorem mem_runs_step {d' : DagRun} (hd : d' ∈ w'.db.runs) : (∃ d ∈ w.db.runs, RunMoves w a d d') ∨
      (d'.state = .queued ∧ ∀ d0 ∈ w.db.runs, d0.id ≠ d'.id) := by
  obtain ⟨f, new, heq, hf, hnew⟩ := runs_step_moves hp h
  rw [heq, mem_append, mem_map] at hd
  rcases hd with ⟨d, hd, rfl⟩ | hd
  · exact .inl ⟨d, hd, hf d⟩
  · exact .inr (hnew d' hd)

theorem exists_runs_step {d : DagRun} (hd : d ∈ w.db.runs) : ∃ d' ∈ w'.db.runs, RunMoves w a d d' := by
  obtain ⟨f, new, heq, hf, -⟩ := runs_step_moves hp h
  exact ⟨f d, heq ▸ mem_append_left _ (mem_map_of_mem hd), hf d⟩

end

/-! ## Clears in progress -/

/-- A clear is going to re-open the run. -/
def Reopening (w : World) (run : String) : Prop :=
  ∃ c ∈ w.ctl.clears, c.run = run ∧ c.reopen.isSome

theorem Clear.mem_add_of_mem {c c' : Clear} {clears : List Clear} (h : c' ∈ clears) : c' ∈ c.add clears := by
  unfold Clear.add
  split
  · exact h
  · exact mem_cons_of_mem _ h

theorem Clear.mem_add_self {c : Clear} (h : c.reopen.isSome) (clears : List Clear) : c ∈ c.add clears := by
  unfold Clear.add
  rw [if_neg]
  · exact mem_cons_self
  · cases hr : c.reopen <;> simp_all [Clear.isDone]

theorem Clear.rest_of_resets {c : Clear} (h : c.resets ≠ []) : c.rest.run = c.run ∧ c.rest.reopen = c.reopen := by
  unfold Clear.rest
  split
  · exact ⟨rfl, rfl⟩
  next hnil =>
    exact absurd hnil h

theorem Clear.guard_run {c : Clear} {db : Database} {s : Statement}
    (hs : c.write.statement db = some s) {r : TaskInstance}
    (hg : (s.update db.now).guard r) : r.dagRunId = c.run := by
  simp only [Clear.write] at hs
  cases hr : c.resets with
  | nil => rw [hr] at hs; cases ho : c.reopen <;> rw [ho] at hs <;> cases hs
  | cons x xs =>
    rw [hr] at hs
    cases x <;> cases hs <;>
    · simp only [Reset.statement, Statement.update, resetTaskInstanceToNone,
        resetFailedTaskInstance, resetAllFailedTaskInstances, TaskInstance.isFor, Bool.and_eq_true,
        beq_iff_eq] at hg
      simp only [hg]

theorem reopening_of_reset {c : Clear} (h : w.step cfg (.clearNext c) = some w')
    (hr : c.resets ≠ []) (ho : c.reopen.isSome) : Reopening w' c.run := by
  have hn := step_ctl h
  simp only [World.next, Lib.guard_eq_some] at hn
  obtain ⟨hrun, hreopen⟩ := Clear.rest_of_resets hr
  refine ⟨c.rest, ?_, hrun, hreopen ▸ ho⟩
  rw [← hn.2]
  exact Clear.mem_add_self (hreopen ▸ ho) _

theorem reopening_step (hp : a.isTickClearOrReport) (h : w.step cfg a = some w')
    {run : String} (hr : Reopening w run) : Reopening w' run ∨
      ∃ c, a = .clearNext c ∧ c.resets = [] ∧ c.reopen.isSome ∧ c.run = run := by
  obtain ⟨c, hc, rfl, ho⟩ := hr
  have hn := step_ctl h
  cases a with
  | clear run taskIDs onlyFailed opts v =>
    simp only [World.next, Lib.guard_eq_some] at hn
    refine .inl ⟨c, ?_, rfl, ho⟩
    rw [← hn.2]
    exact Clear.mem_add_of_mem hc
  | clearNext c0 =>
    by_cases he : c = c0
    · subst he
      by_cases hresets : c.resets = []
      · exact .inr ⟨c, rfl, hresets, ho, rfl⟩
      · exact .inl (reopening_of_reset h hresets ho)
    · simp only [World.next, Lib.guard_eq_some] at hn
      refine .inl ⟨c, ?_, rfl, ho⟩
      rw [← hn.2]
      exact Clear.mem_add_of_mem ((mem_erase_of_ne he).mpr hc)
  | clearFails => cases hp
  | _ =>
    refine .inl ⟨c, ?_, rfl, ho⟩
    rw [clears_of_next hn (by simp) (by simp) (by simp)]
    exact hc

/-- Every clear in progress is going to re-open its run. -/
theorem clears_step (hp : a.isTickClearOrReport) (h : w.step cfg a = some w')
    (hw : ∀ c ∈ w.ctl.clears, c.reopen.isSome) : ∀ c ∈ w'.ctl.clears, c.reopen.isSome := by
  intro c hc
  have hn := step_ctl h
  cases a with
  | clear run taskIDs onlyFailed opts v =>
    simp only [World.next, Lib.guard_eq_some] at hn
    rw [← hn.2] at hc
    simp only [Clear.add] at hc
    split at hc
    · exact hw c hc
    · rcases mem_cons.mp hc with rfl | hc
      · have hreset : opts.resetDagRun := hp
        simp [clearTaskInstances, hreset]
      · exact hw c hc
  | clearNext c0 =>
    simp only [World.next, Lib.guard_eq_some] at hn
    rw [← hn.2] at hc
    simp only [Clear.add] at hc
    split at hc
    · exact hw c (mem_of_mem_erase hc)
    next hdone =>
      rcases mem_cons.mp hc with rfl | hc
      · by_cases hr : c0.resets = []
        · simp [Clear.rest, hr, Clear.isDone] at hdone
        · exact (Clear.rest_of_resets hr).2 ▸ hw c0 hn.1
      · exact hw c (mem_of_mem_erase hc)
  | clearFails => cases hp
  | _ =>
    rw [clears_of_next hn (by simp) (by simp) (by simp)] at hc
    exact hw c hc

end Step

end Leoflow
