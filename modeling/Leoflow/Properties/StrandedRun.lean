import Leoflow.System.Provenance

/-!
# Stranded runs

A tick finalises a run from its snapshot and writes the verdict with an unguarded `UPDATE`. When a clear re-opens
the run between the snapshot and the verdict, the verdict wins: ticks no longer look at the run, and the task that
was reset never runs. The same happens to a reset task the run's version does not have.
-/

namespace Leoflow

open World TaskSpec List

/-- No tick and no clear is in progress. -/
def Quiet (w : World) : Prop := w.ctl.tick.isNone ∧ w.ctl.clears = []

/-- A finished run has only finished task instances. -/
def NoneStranded (w : World) : Prop :=
  ∀ d ∈ w.db.runs, d.state.isTerminal → ∀ r ∈ w.db.tis, r.dagRunId = d.id → r.state.isTerminal

instance (w : World) : Decidable (Quiet w) := by unfold Quiet; infer_instance

instance (w : World) : Decidable (NoneStranded w) := by unfold NoneStranded; infer_instance

/-- The tick holds a snapshot of the run that finalises it. -/
def Tick.Finalizes (t : Tick) (run : RunState) : Prop :=
  (run ∈ t.waiting ∧ run.finalizeRun.isSome) ∨
  ∃ ops s, t.current? = some (run, ops) ∧ s.isTerminal ∧ Op.setRunState s ∈ ops

/-- A clear re-opens a run only while no tick holds a snapshot that finalises it, re-binds it only
while no tick has listed it, and only to a version that has every task with an unfinished row. -/
structure ReopensSafely (cfg : Config) (w : World) (a : Action) : Prop where
  party : a.isTickClearOrReport
  unfinalized : ∀ c, a = .clearNext c → c.resets = [] →
    ∀ t run, w.ctl.tick = some t → t.Finalizes run → run.runID ≠ c.run
  unlisted : ∀ c v, a = .clearNext c → c.resets = [] → c.reopen = some (.toVersion v) →
    ∀ t, w.ctl.tick = some t → c.run ∉ t.runIDs
  bound : ∀ c o, a = .clearNext c → c.resets = [] → c.reopen = some o →
    ∀ d ∈ w.db.runs, d.id = c.run → ∀ r ∈ w.db.tis, r.dagRunId = c.run →
      r.state.isTerminal = false → r.taskId ∈ (cfg.spec (o.version d)).tasks.map taskID

/-! ## Rows -/

theorem Statement.not_isTerminal_of_row {s : Statement} (ht : s.channel ≠ .tick)
    (hc : s.channel ≠ .clear) {now : Time} {r : TaskInstance}
    (h : ((s.update now).row r).state.isTerminal = false) : r.state.isTerminal = false := by
  by_contra hr
  rw [(s.update now).row_of_not_guard (guard_of_isTerminal ht hc (by simpa using hr) now)] at h
  exact hr h

section Step

variable {cfg : Config} {w w' : World} {a : Action}

theorem not_isTerminal_step {r : TaskInstance} (h : ((w.write a).row w.db r).state.isTerminal = false) :
    r.state.isTerminal = false ∨
    (∃ c s, a = .clearNext c ∧ c.resets ≠ [] ∧ (c.write).statement w.db = some s ∧ (s.update w.db.now).guard r) ∨
    ∃ ids b run op ops rest, a = .tick (.call ids) ∧
      w.ctl.tick = some (.advancing b run (op :: ops) rest) ∧ r.dagRunId = run.runID ∧ r.taskId ∈ op.tasks := by
  by_cases hrow : (w.write a).row w.db r = r
  · exact .inl (hrow ▸ h)
  obtain ⟨s, hs, hg⟩ := Write.statement_of_row_ne hrow
  have hchan := channel_of_statement hs
  by_cases htick : s.channel = .tick
  · obtain ⟨ids, b, run, op, ops, rest, rfl, ht, hop⟩ := call_of_statement hs htick
    obtain ⟨hrun, htask | ⟨task, note, rfl⟩⟩ := Op.guard_run hop hg
    · exact .inr (.inr ⟨ids, b, run, op, ops, rest, rfl, ht, hrun, htask⟩)
    · left
      have hwrite : w.write (.tick (.call ids)) = (Op.setTaskNote task note).write run ids := by
        simp [World.write, ht, Tick.write]
      rwa [hwrite, (Op.row_of_not_mem ids fun _ => not_mem_nil).1] at h
  by_cases hclear : s.channel = .clear
  · cases a with
    | clearNext c =>
      refine .inr (.inl ⟨c, s, rfl, fun hnil => ?_, hs, hg⟩)
      simp only [World.write, Clear.write, hnil] at hs
      cases ho : c.reopen <;> rw [ho] at hs <;> cases hs
    | _ => simp [Action.channel, hclear] at hchan
  · rw [Write.row_of_statement hs] at h
    exact .inl (Statement.not_isTerminal_of_row htick hclear h)

end Step

/-! ## The invariant -/

/-- The run row a snapshot or a listing was taken from is still unfinished and of the same version. -/
def Active (db : Database) (id version : String) : Prop :=
  ∃ d ∈ db.runs, d.id = id ∧ d.dagVersionId = version ∧ d.state.isTerminal = false

/-- The rows of the run that are unfinished are about to be reached: a clear will re-open the run. -/
def Covered (w : World) (run : String) : Prop :=
  ∀ r ∈ w.db.tis, r.dagRunId = run → r.state.isTerminal = false → Reopening w run

/-- Unfinished rows of a run that is finished or about to be belong to a clear in progress; unfinished rows have a
task in the run's version. -/
structure StrandOk (cfg : Config) (w : World) : Prop where
  clears : ∀ c ∈ w.ctl.clears, c.reopen.isSome
  rows : ∀ r ∈ w.db.tis, ∃ d ∈ w.db.runs, d.id = r.dagRunId
  bound : ∀ d ∈ w.db.runs, ∀ r ∈ w.db.tis, r.dagRunId = d.id → r.state.isTerminal = false →
    r.taskId ∈ (cfg.spec d.dagVersionId).tasks.map taskID ∨ Reopening w d.id
  closed : ∀ d ∈ w.db.runs, d.state.isTerminal → Covered w d.id
  listed : ∀ t, w.ctl.tick = some t → ∀ d ∈ t.todo, Active w.db d.id d.dagVersionId
  held : ∀ t run, w.ctl.tick = some t → t.Holds run → Active w.db run.runID run.dagVersionID ∧
    run.tasks = applyDefaultRetries (cfg.spec run.dagVersionID)
  finalizing : ∀ t run, w.ctl.tick = some t → t.Finalizes run → Covered w run.runID

namespace Tick.Moves

variable {cfg : Config} {db : Database} {t : Option Tick} {a : TickAction} {t' : Tick}

/-- A run finalised after a move was so before, unless the move reads it. -/
theorem finalizes (hm : Tick.Moves cfg db t a (some t')) {run' : RunState} (hf : t'.Finalizes run') :
    (∃ d todo loaded, t = some (.loading (d :: todo) loaded) ∧ a = .load ∧
      run' = snapshot cfg db d ∧ run'.finalizeRun.isSome) ∨
    ∃ t0 run, t = some t0 ∧ t0.Finalizes run ∧ run.runID = run'.runID ∧ run.dagVersionID = run'.dagVersionID := by
  have hf : t'.Carries (fun run => run.finalizeRun.isSome)
      (fun ops => ∃ s : DagRunState, s.isTerminal ∧ .setRunState s ∈ ops) run' := by
    refine hf.imp_right ?_
    rintro ⟨ops, s, hc, hs⟩
    exact ⟨ops, hc, s, hs⟩
  have hstart : ∀ (b : Budget) (r : RunState), (∃ s : DagRunState, s.isTerminal ∧
      .setRunState s ∈ (b.prepare r).advance cfg.dispatcher) → r.finalizeRun.isSome := by
    rintro b r ⟨s, hs, hop⟩
    have hfin : r.finalizeRun = some s := ((b.prepare r).advance_of_final hs hop).1
    rw [hfin]
    rfl
  have hdispatch : ∀ (run : RunState) task o ops, (∃ s : DagRunState, s.isTerminal ∧
      .setRunState s ∈ run.afterDispatch task db.now o :: ops) →
        ∃ s : DagRunState, s.isTerminal ∧ .setRunState s ∈ .dispatch task :: ops := by
    rintro run task o ops ⟨s, hs, hop⟩
    rcases mem_cons.mp hop with he | hop
    · have htasks := run.afterDispatch_tasks task db.now o
      rw [← he] at htasks
      cases htasks
    · exact ⟨s, hs, mem_cons_of_mem _ hop⟩
  rcases hm.carries hf hstart hdispatch (fun op ops ⟨s, hs, hop⟩ => ⟨s, hs, mem_cons_of_mem _ hop⟩) with
    ⟨d, todo, loaded, ht, ha, hrun, hfin⟩ | ⟨t0, run, ht, hf0, hsame⟩
  · exact .inl ⟨d, todo, loaded, ht, ha, hrun, hfin⟩
  · refine .inr ⟨t0, run, ht, hf0.imp_right ?_, ?_⟩
    · rintro ⟨ops, hc, s, hs⟩
      exact ⟨ops, s, hc, hs⟩
    · rcases hsame with rfl | ⟨b, rfl⟩ <;> exact ⟨rfl, rfl⟩

end Tick.Moves

section Preservation

variable {cfg : Config} {w w' : World} {a : Action}

theorem db_of_nothing (h : w.step cfg a = some w') (hn : w.write a = .nothing)
    (ha : ∀ n, a ≠ .clock n) : w'.db = w.db := by
  rw [step_db h]
  cases a with
  | clock n => exact absurd rfl (ha n)
  | _ => simp only [World.after, hn, Database.write]

/-- An unfinished run stays so unless it is stamped with a final state, and keeps its version unless
it is re-bound. -/
theorem Active.step {id version : String} (hact : Active w.db id version)
    (hp : a.isTickClearOrReport) (h : w.step cfg a = some w')
    (hfin : ∀ ids b run s ops rest, a = .tick (.call ids) →
      w.ctl.tick = some (.advancing b run (.setRunState s :: ops) rest) → run.runID = id → s.isTerminal = false)
    (hver : ∀ c v, a = .clearNext c → c.resets = [] → c.reopen = some (.toVersion v) → c.run ≠ id) :
    Active w'.db id version := by
  obtain ⟨d, hd, rfl, rfl, hstate⟩ := hact
  obtain ⟨d', hd', hm⟩ := exists_runs_step hp h hd
  refine ⟨d', hd', hm.id_eq, ?_⟩
  cases hm with
  | same he => subst he; exact ⟨rfl, hstate⟩
  | stamped ha ht hid _ hs hv => exact ⟨hv, hs ▸ hfin _ _ _ _ _ _ ha ht hid.symm⟩
  | @reopened c o ha hr ho hid _ hs hv =>
    cases o with
    | keepingVersion => exact ⟨hv, by rw [hs]; rfl⟩
    | toVersion v => exact absurd hid.symm (hver c v ha hr ho)

theorem listed_run_step (hs : StrandOk cfg w) (hc : ReopensSafely cfg w a)
    (h : w.step cfg a = some w') (t : Tick) (ht : w'.ctl.tick = some t) :
    ∀ d ∈ t.todo, Active w'.db d.id d.dagVersionId := by
  intro d hd
  rcases tick_step h ht with ⟨ta, rfl, hm⟩ | ⟨ha, ht⟩
  · rcases hm.todo hd with ⟨rfl, hmem⟩ | ⟨t0, ht0, hd0⟩
    · obtain ⟨hmem, hstate⟩ := mem_listActiveDagRuns.mp hmem
      rw [db_of_nothing h (write_tick (by simp)) (by simp)]
      exact ⟨d, hmem, rfl, rfl, hstate⟩
    · refine (hs.listed t0 ht0 d hd0).step hc.party h ?_ (by simp)
      intro ids b run s ops rest _ htick
      rw [ht0] at htick
      cases htick
      cases hd0
  · refine (hs.listed t ht d hd).step hc.party h (fun ids _ _ _ _ _ he => absurd he (ha _)) ?_
    intro c v hac hr ho he
    refine hc.unlisted c v hac hr ho t ht (he ▸ ?_)
    exact mem_append_left _ (mem_append_left _ (mem_map_of_mem hd))

/-- A run that is held after a call was not finalised by it. -/
theorem not_final_of_holds (hw : w.WellFormed) {ids : List String}
    (h : w.step cfg (.tick (.call ids)) = some w') {t : Tick} (ht : w'.ctl.tick = some t)
    {run' : RunState} (hh : t.Holds run') {b : Budget} {run : RunState} {s : DagRunState}
    {ops : List Op} {rest : List RunState} (htick : w.ctl.tick = some (.advancing b run (.setRunState s :: ops) rest))
    (hid : run.runID = run'.runID) : s.isTerminal = false := by
  have hok := hw.tick _ htick
  have hm := tick_moves h
  rw [ht, htick] at hm
  cases hm with
  | call =>
    rcases hh with hmem | ⟨ops', hc, hne⟩
    · exact absurd hid.symm (hok.run_ne hmem)
    · cases hc
      by_contra hterm
      have := (hok.pending _ _ rfl).last s (by simpa using hterm) mem_cons_self
      exact hne (List.cons.inj this).2

theorem held_run_step (hw : w.WellFormed) (hs : StrandOk cfg w) (hc : ReopensSafely cfg w a)
    (h : w.step cfg a = some w') (t : Tick) (run' : RunState) (ht : w'.ctl.tick = some t)
    (hh : t.Holds run') : Active w'.db run'.runID run'.dagVersionID ∧
      run'.tasks = applyDefaultRetries (cfg.spec run'.dagVersionID) := by
  rcases tick_step h ht with ⟨ta, rfl, hm⟩ | ⟨ha, ht⟩
  · rcases hm.holds hh with ⟨d, todo, loaded, ht0, rfl, rfl⟩ | ⟨t0, run, ht0, hh0, hid, hver, htasks⟩
    · refine ⟨?_, rfl⟩
      rw [db_of_nothing h (write_tick (by simp)) (by simp)]
      exact hs.listed _ ht0 d mem_cons_self
    · obtain ⟨hact, hspec⟩ := hs.held t0 run ht0 hh0
      rw [hid, hver] at hact
      refine ⟨hact.step hc.party h ?_ (by simp), by rw [← htasks, ← hver]; exact hspec⟩
      intro ids b cur s ops rest hat htick hcur
      cases hat
      exact not_final_of_holds hw h ht hh htick hcur
  · obtain ⟨hact, hspec⟩ := hs.held t run' ht hh
    refine ⟨hact.step hc.party h (fun ids _ _ _ _ _ he => absurd he (ha _)) ?_, hspec⟩
    exact fun c v hac hr ho he => hc.unlisted c v hac hr ho t ht (he ▸ hh.mem_runIDs)

/-- Unfinished rows stay covered unless the step re-opens the run or writes its rows for the tick. -/
theorem Covered.step {id : String} (hcov : Covered w id) (hs : StrandOk cfg w)
    (hp : a.isTickClearOrReport) (h : w.step cfg a = some w')
    (hreopen : ∀ c, a = .clearNext c → c.resets = [] → c.reopen.isSome → id ≠ c.run)
    (htick : ∀ ids b run op ops rest, a = .tick (.call ids) → w.ctl.tick = some (.advancing b run (op :: ops) rest) →
      op = .materializeTasks ∨ op.tasks ≠ [] → run.runID ≠ id) : Covered w' id := by
  intro r' hr' hrun hterm
  rcases (mem_step_tis h).mp hr' with ⟨r, hr, rfl⟩ | hins
  · rw [Write.row_dagRunId] at hrun
    rcases not_isTerminal_step hterm with hterm | ⟨c, s, rfl, hresets, hst, hg⟩ |
        ⟨ids, b, run, op, ops, rest, hat, ht, hr', htask⟩
    · rcases reopening_step hp h (hcov r hr hrun hterm) with hre | ⟨c, hac, hresets, ho, hid⟩
      · exact hre
      · exact absurd hid.symm (hreopen c hac hresets ho)
    · have hn := step_ctl h
      simp only [World.next, Option.ite_none_right_eq_some] at hn
      rw [← hrun, Clear.guard_run hst hg]
      exact reopening_of_reset h hresets (hs.clears c hn.1)
    · refine absurd (hr'.symm.trans hrun) (htick ids b run op ops rest hat ht (.inr ?_))
      exact ne_nil_of_mem htask
  · obtain ⟨ids, b, run, ops, rest, t, id, hat, ht, -, rfl⟩ := mem_inserted hins
    exact absurd hrun (htick ids b run _ ops rest hat ht (.inl rfl))

section

variable (hw : w.WellFormed) (hs : StrandOk cfg w)
include hw hs

/-- Unfinished rows of a finished run belong to a clear that will re-open it. -/
theorem closed_step (hp : a.isTickClearOrReport)
    (h : w.step cfg a = some w') : ∀ d ∈ w'.db.runs, d.state.isTerminal → Covered w' d.id := by
  intro d' hd' hterm
  rcases mem_runs_step hp h hd' with ⟨d, hd, hm⟩ | ⟨hq, -⟩
  · cases hm with
    | same he _ ho =>
      subst he
      refine (hs.closed d' hd hterm).step hs hp h ho ?_
      -- The tick advances only unfinished runs.
      intro ids b run op ops rest _ ht _ hid
      obtain ⟨⟨d0, hd0, hid0, -, hstate⟩, -⟩ :=
        hs.held _ run ht (.inr ⟨_, rfl, cons_ne_nil _ _⟩)
      rw [inj_on_of_nodup_map hw.keyed.runs hd0 hd (hid0.trans hid), hterm] at hstate
      cases hstate
    | @stamped ids b run ops rest s ha ht hid hid' hst _ =>
      subst ha
      rw [hid', hid]
      refine (hs.finalizing _ run ht (.inr ⟨_, s, rfl, hst ▸ hterm, mem_cons_self⟩)).step hs hp h (by simp) ?_
      intro _ _ _ op _ _ _ ht' hop
      rw [ht] at ht'
      cases ht'
      rcases hop with hop | hop
      · cases hop
      · exact absurd rfl hop
    | reopened _ _ _ _ _ hst => rw [hst] at hterm; cases hterm
  · rw [hq] at hterm
    cases hterm

theorem covered_of_snapshot {d : DagRun} (hact : Active w.db d.id d.dagVersionId)
    (hfin : (snapshot cfg w.db d).finalizeRun.isSome) : Covered w d.id := by
  intro r hr hrun hterm
  obtain ⟨d0, hd0, hid, hver, -⟩ := hact
  rcases hs.bound d0 hd0 r hr (hrun.trans hid.symm) hterm with htask | hre
  · exfalso
    rw [hver, ← applyDefaultRetries_taskIDs] at htask
    obtain ⟨t, ht, htid⟩ := mem_map.mp htask
    have hopen := (snapshot cfg w.db d).isOpen_of_state (snapshot_shows cfg hw.keyed hr hrun).1 hterm
    have hany : ((snapshot cfg w.db d).tasks.any fun t =>
        (snapshot cfg w.db d).isOpen t.taskID) :=
      any_eq_true.mpr ⟨t, ht, by rw [htid]; exact hopen⟩
    simp [RunState.finalizeRun, hany] at hfin
  · exact hid ▸ hre

theorem finalizing_step (hc : ReopensSafely cfg w a)
    (h : w.step cfg a = some w') (t : Tick) (run' : RunState) (ht : w'.ctl.tick = some t)
    (hf : t.Finalizes run') : Covered w' run'.runID := by
  rcases tick_step h ht with ⟨ta, rfl, hm⟩ | ⟨ha, ht⟩
  · rcases hm.finalizes hf with ⟨d, todo, loaded, ht0, rfl, rfl, hfin⟩ | ⟨t0, run, ht0, hf0, hid, -⟩
    · refine (covered_of_snapshot hw hs (hs.listed _ ht0 d mem_cons_self) hfin).step hs hc.party h (by simp) ?_
      intro ids _ _ _ _ _ hat
      cases hat
    · rw [← hid]
      refine (hs.finalizing t0 run ht0 hf0).step hs hc.party h (by simp) ?_
      intro ids b cur op ops rest _ ht' hop hcur
      rw [ht0] at ht'
      cases ht'
      have hok := hw.tick _ ht0
      rcases hf0 with ⟨hmem, -⟩ | ⟨ops', s, hcur', hterm, hmem⟩
      · exact hok.run_ne hmem hcur.symm
      · cases hcur'
        cases (hok.pending run _ rfl).last s hterm hmem
        rcases hop with hop | hop
        · cases hop
        · exact hop rfl
  · refine (hs.finalizing t run' ht hf).step hs hc.party h ?_ (fun ids _ _ _ _ _ he => absurd he (ha _))
    exact fun c hac hr _ => hc.unfinalized c hac hr t run' ht hf

theorem task_mem_of_advancing {b : Budget} {run : RunState} {op : Op} {ops : List Op} {rest : List RunState}
    (ht : w.ctl.tick = some (.advancing b run (op :: ops) rest)) {d : DagRun} (hd : d ∈ w.db.runs)
    (hid : run.runID = d.id) {task : String} (htask : task ∈ run.tasks.map taskID) :
    task ∈ (cfg.spec d.dagVersionId).tasks.map taskID := by
  obtain ⟨⟨d0, hd0, hid0, hver, -⟩, htasks⟩ :=
    hs.held _ run ht (.inr ⟨_, rfl, cons_ne_nil _ _⟩)
  cases inj_on_of_nodup_map hw.keyed.runs hd0 hd (hid0.trans hid)
  rwa [hver, ← applyDefaultRetries_taskIDs, ← htasks]

end

theorem run_of_mem_step (hs : StrandOk cfg w) (h : w.step cfg a = some w') {r' : TaskInstance}
    (hr' : r' ∈ w'.db.tis) : ∃ d ∈ w.db.runs, d.id = r'.dagRunId := by
  rcases (mem_step_tis h).mp hr' with ⟨r, hr, rfl⟩ | hins
  · rw [Write.row_dagRunId]
    exact hs.rows r hr
  · obtain ⟨ids, b, run, ops, rest, t, id, -, ht, -, rfl⟩ := mem_inserted hins
    obtain ⟨⟨d, hd, hid, -⟩, -⟩ := hs.held _ run ht (.inr ⟨_, rfl, cons_ne_nil _ _⟩)
    exact ⟨d, hd, hid⟩

theorem run_of_row_step (hs : StrandOk cfg w) (hp : a.isTickClearOrReport)
    (h : w.step cfg a = some w') : ∀ r ∈ w'.db.tis, ∃ d ∈ w'.db.runs, d.id = r.dagRunId := by
  intro r hr
  obtain ⟨d, hd, hid⟩ := run_of_mem_step hs h hr
  obtain ⟨d', hd', hm⟩ := exists_runs_step hp h hd
  exact ⟨d', hd', hm.id_eq.trans hid⟩

theorem bound_of_kept (hw : w.WellFormed) (hs : StrandOk cfg w) (hp : a.isTickClearOrReport)
    (h : w.step cfg a = some w') {d : DagRun} (hd : d ∈ w.db.runs)
    (hreopen : ∀ c, a = .clearNext c → c.resets = [] → c.reopen.isSome → d.id ≠ c.run)
    {r' : TaskInstance} (hr' : r' ∈ w'.db.tis) (hrun : r'.dagRunId = d.id) (hterm : r'.state.isTerminal = false) :
    r'.taskId ∈ (cfg.spec d.dagVersionId).tasks.map taskID ∨ Reopening w' d.id := by
  rcases (mem_step_tis h).mp hr' with ⟨r, hr, rfl⟩ | hins
  · rw [Write.row_dagRunId] at hrun
    rw [Write.row_taskId]
    rcases not_isTerminal_step hterm with hterm | ⟨c, s, rfl, hresets, hst, hg⟩ |
        ⟨ids, b, run, op, ops, rest, -, ht, hr', htask⟩
    · refine (hs.bound d hd r hr hrun hterm).imp_right fun hre => ?_
      rcases reopening_step hp h hre with hre | ⟨c, hac, hresets, ho, hid⟩
      · exact hre
      · exact absurd hid.symm (hreopen c hac hresets ho)
    · have hn := step_ctl h
      simp only [World.next, Option.ite_none_right_eq_some] at hn
      right
      rw [← hrun, Clear.guard_run hst hg]
      exact reopening_of_reset h hresets (hs.clears c hn.1)
    · left
      have hplan := ((hw.tick _ ht).pending run _ rfl).planned r.taskId (mem_append_left _ htask)
      obtain ⟨t, htmem, htid, -⟩ := hplan
      exact task_mem_of_advancing hw hs ht hd (hr'.symm.trans hrun) (mem_map.mpr ⟨t, htmem, htid⟩)
  · obtain ⟨ids, b, run, ops, rest, t, id, -, ht, hmem, rfl⟩ := mem_inserted hins
    exact .inl (task_mem_of_advancing hw hs ht hd hrun (mem_map_of_mem hmem))

theorem bound_step (hw : w.WellFormed) (hs : StrandOk cfg w) (hc : ReopensSafely cfg w a)
    (h : w.step cfg a = some w') : ∀ d ∈ w'.db.runs, ∀ r ∈ w'.db.tis, r.dagRunId = d.id → r.state.isTerminal = false →
      r.taskId ∈ (cfg.spec d.dagVersionId).tasks.map taskID ∨ Reopening w' d.id := by
  intro d' hd' r' hr' hrun hterm
  rcases mem_runs_step hc.party h hd' with ⟨d, hd, hm⟩ | ⟨-, hnew⟩
  · cases hm with
    | same he _ ho => subst he; exact bound_of_kept hw hs hc.party h hd ho hr' hrun hterm
    | stamped ha _ _ hid _ hv =>
      subst ha
      rw [hid] at hrun ⊢
      rw [hv]
      exact bound_of_kept hw hs hc.party h hd (by simp) hr' hrun hterm
    | @reopened c o ha hr ho hid hid' _ hv =>
      subst ha
      left
      rcases (mem_step_tis h).mp hr' with ⟨r, hrmem, rfl⟩ | hins
      · rw [Write.row_dagRunId] at hrun
        rw [Write.row_taskId, hv]
        rcases not_isTerminal_step hterm with hterm | ⟨_, _, he, hne, -⟩ | ⟨_, _, _, _, _, _, he, -⟩
        · exact hc.bound c o rfl hr ho d hd hid r hrmem (hrun.trans (hid'.trans hid)) hterm
        · cases he; exact absurd hr hne
        · cases he
      · obtain ⟨_, _, _, _, _, _, _, he, -⟩ := mem_inserted hins
        cases he
  · obtain ⟨d, hd, hid⟩ := run_of_mem_step hs h hr'
    exact absurd (hid.trans hrun) (hnew d hd)

end Preservation

theorem strandOk_reaches {cfg : Config} {w : World}
    (h : (World.system cfg).Reaches (ReopensSafely cfg) w) : StrandOk cfg w := by
  refine h.invariant (fun w hi => ?_) fun w a w' hr hs hc hstep => ?_
  · obtain ⟨now, rfl⟩ := hi
    exact ⟨(fun _ hc => by cases hc), (fun _ hr => by cases hr), (fun _ hd => by cases hd),
      (fun _ hd => by cases hd), (fun _ ht => by cases ht), (fun _ _ ht => by cases ht),
      fun _ _ ht => by cases ht⟩
  · have hw := wellFormed_reaches hr
    exact ⟨clears_step hc.party hstep hs.clears, run_of_row_step hs hc.party hstep,
      bound_step hw hs hc hstep, closed_step hw hs hc.party hstep, listed_run_step hs hc hstep,
      held_run_step hw hs hc hstep, finalizing_step hw hs hc hstep⟩

/-- **No stranded run.** In every run of the ticks, the clears that reset the run and the agents, in
which clears re-open safely, a finished run has only finished task instances whenever no tick and no
clear is in progress. -/
theorem no_run_is_stranded {cfg : Config} {w : World}
    (h : (World.system cfg).Reaches (ReopensSafely cfg) w) (hq : Quiet w) : NoneStranded w := by
  intro d hd hfin r hr hrun
  by_contra hterm
  obtain ⟨c, hc, -⟩ := (strandOk_reaches h).closed d hd hfin r hr hrun (by simpa using hterm)
  rw [hq.2] at hc
  cases hc

/-- Only the parties at hand act, and a clear goes on only between ticks and to a version that has
every task. -/
def reopensInOrder (cfg : Config) (w : World) (a : Action) : Bool :=
  a.isTickClearOrReport && match a with
    | .clearNext c => w.ctl.tick.isNone && w.db.runs.all fun d => c.reopen.toList.all fun o =>
        w.db.tis.all fun r => (cfg.spec (o.version d)).tasks.map taskID |>.contains r.taskId
    | _ => true

theorem reopensSafely_of_check {cfg : Config} (w : World) (a : Action)
    (h : reopensInOrder cfg w a) : ReopensSafely cfg w a := by
  obtain ⟨hp, h⟩ := Bool.and_eq_true_iff.mp h
  refine ⟨hp, ?_, ?_, ?_⟩
  · rintro c rfl - t run ht -
    simp [ht] at h
  · rintro c v rfl - - t ht
    simp [ht] at h
  · rintro c o rfl - ho d hd - r hr - -
    simp only [ho, Option.toList_some, Bool.and_eq_true, all_eq_true, mem_singleton, forall_eq, contains_iff_mem] at h
    exact h.2 d hd r hr

/-- A clear of the task that re-opens the run. -/
def clearsTask : Clear where
  run := "run"
  resets := [.task "task"]
  reopen := some .keepingVersion

/-- The operator asks for it, and the task is reset. -/
def resetsTask : List Action :=
  [.clear "run" ["task"] false ⟨true, false⟩ "v1", .clearNext clearsTask]

/-- Its last write. -/
def reopensRun : List Action := [.clearNext { clearsTask with resets := [] }]

/-- The task succeeds and the run with it; both are cleared, and they succeed again. -/
def clearedAndRunAgain : List Action :=
  firstRunning ++ ends firstAttempt .success ++ quietTick [.call []] ++ resetsTask ++ reopensRun ++
    quietTick [.call []] ++ quietTick [.dispatch .dispatched true, .call []] ++
    [.resolve ⟨"run", "task", 2, 2, true, .accepted⟩,
      .create ⟨"run", "task", 2, 2, true, .resolved secondAttempt⟩ false,
      .reportRunning { attempt := secondAttempt }] ++
    ends secondAttempt .success ++ quietTick [.call []]

theorem no_run_is_stranded_again :
    ∃ w, (World.system oneTask).runIf (reopensInOrder oneTask) (.empty 1) clearedAndRunAgain =
        some w ∧ Quiet w ∧ w.db.runs.map DagRun.state = [.success] ∧
      w.db.tis.map TaskInstance.tryNumber = [2] ∧ NoneStranded w := by
  refine Lib.exists_eq_some (by decide +kernel) fun hrun => ?_
  exact ⟨by decide +kernel, by decide +kernel, by decide +kernel, no_run_is_stranded
    (Lib.System.Reaches.runIf (.init ⟨1, rfl⟩) reopensSafely_of_check hrun) (by decide +kernel)⟩

/-- The tick has read the succeeded run; the operator clears the task and re-opens the run; the tick
then writes its verdict. -/
def clearedBeforeVerdict : List Action :=
  firstRunning ++ ends firstAttempt .success ++ tickStarts ++ resetsTask ++ reopensRun ++
    [.tick (.call []), .tick .finish, .tick .stop]

/-- The run is finished and its task has not run. -/
theorem verdict_strands_cleared_task :
    ¬ ∀ cfg w, (World.system cfg).Reaches (fun _ a => a.isTickClearOrReport) w → Quiet w → NoneStranded w := by
  intro h
  have hr : (World.system oneTask).Reaches (fun _ a => a.isTickClearOrReport)
      (((World.system oneTask).runIf (fun _ a => a.isTickClearOrReport) (.empty 1)
        clearedBeforeVerdict).get (by decide +kernel)) :=
    .runIf (.init ⟨1, rfl⟩) (fun _ _ ha => ha) (Option.some_get _).symm
  exact absurd (h oneTask _ hr (by decide +kernel)) (by decide +kernel)

end Leoflow
