import Leoflow.Scheduler.Settled
import Leoflow.System.Provenance

/-!
# Re-bound runs

Task instances are materialised once, when a queued run has none. A clear that re-binds its run to another version
keeps the rows the run has, and a task that only the new version has never gets one: the planner skips it, the
tasks after it wait, and the finaliser keeps the run open.
-/

namespace Leoflow

open World List

/-- The run has task instances. -/
def Database.HasRows (db : Database) (run : String) : Prop := ∃ r ∈ db.tis, r.dagRunId = run

/-- The run has a task instance of every task of the version. -/
def Database.Covers (db : Database) (run : String) (spec : DAGSpec) : Prop :=
  ∀ t ∈ spec.tasks, ∃ r ∈ db.tis, r.key = (run, t.taskID)

/-- What registration checks of a version. -/
structure DAGSpec.Registered (spec : DAGSpec) : Prop where
  graph : validateGraph spec.tasks = .ok ()
  rules : ∀ t ∈ spec.tasks, ∀ name, t.triggerRule ≠ some (.other name)

/-- The next tick materialises the run. -/
def World.Unmaterialized (w : World) (d : DagRun) : Prop := d.state = .queued ∧ ¬ w.db.HasRows d.id

/-- No task of the run is queued or running, and yet no tick from now on moves or closes it, as long as it stays
as it is; `b` are the budgets of the ticks. -/
structure World.Stuck (cfg : Config) (w : World) (d : DagRun) (b : Time → Budget) : Prop where
  idle : ∀ r ∈ w.db.tis, r.dagRunId = d.id → r.state.isLive = false
  still : ∀ t, w.db.now ≤ t → ((b t).prepare ((snapshot cfg w.db d).atTime t)).planRun = [] ∧
    ((b t).prepare ((snapshot cfg w.db d).atTime t)).finalizeRun = none

/-- Every unfinished run has a row for every task of its version, or gets them from the next tick; so
none that the caps leave room is stuck. -/
structure RebindComplete (cfg : Config) (w : World) : Prop where
  covered : ∀ d ∈ w.db.runs, d.state.isTerminal = false → w.Unmaterialized d ∨
    w.db.Covers d.id (cfg.spec d.dagVersionId)
  unstuck : ∀ d ∈ w.db.runs, d.state.isTerminal = false → ¬ w.Unmaterialized d →
    (cfg.spec d.dagVersionId).Registered → ∀ b : Time → Budget,
      (∀ t, w.db.now ≤ t → ((b t).prepare ((snapshot cfg w.db d).atTime t)).HasRoom) → ¬ w.Stuck cfg d b

/-- A run is re-bound only to a version its rows cover, or, while it has none, when no tick has listed
it; and a run without rows is not marked running. -/
def rebindsCovered (cfg : Config) (w : World) : Action → Bool
  | .clearNext ⟨run, [], some (.toVersion v)⟩ =>
    if w.db.tis.any fun r => r.dagRunId == run then
      (cfg.spec v).tasks.all fun t => w.db.tis.any (TaskInstance.isFor run t.taskID)
    else !(w.ctl.tick.any fun t => t.runIDs.contains run)
  | .updateDagRunState ⟨run, .running, _, _⟩ => w.db.tis.any fun r => r.dagRunId == run
  | _ => true

/-! ## A covered run is not stuck -/

section Stuck

variable {cfg : Config} {w : World} {d : DagRun} {b : Time → Budget}

section

variable (hk : w.db.Keyed) (hreg : (cfg.spec d.dagVersionId).Registered)
  (hcov : w.db.Covers d.id (cfg.spec d.dagVersionId))
  (hroom : ∀ t, w.db.now ≤ t → ((b t).prepare ((snapshot cfg w.db d).atTime t)).HasRoom)
include hk hreg hcov hroom

theorem World.Stuck.quiescent (h : w.Stuck cfg d b) : (snapshot cfg w.db d).Quiescent where
  settled := by
    refine (snapshot cfg w.db d).settled_of_quiet w.db.now (fun t ht task htask => ?_) fun task htask hnone => ?_
    · exact RunState.emit_of_planRun_eq_nil (h.still t ht).1 htask
    · exact RunState.decideStart_of_planRun_eq_nil (h.still w.db.now le_rfl).1 htask hnone
  rules t ht name := by
    obtain ⟨t0, ht0, -, -, hrule⟩ := mem_applyDefaultRetries ht
    rw [hrule]
    exact hreg.rules t0 ht0 name
  covered t ht := by
    obtain ⟨t0, ht0, hid, -, -⟩ := mem_applyDefaultRetries ht
    obtain ⟨r, hr, hkey⟩ := hcov t0 ht0
    obtain ⟨hrun, htask⟩ := Prod.mk.inj hkey
    rw [hid, ← htask, (snapshot_shows cfg hk hr hrun).1]
    rfl
  idle t ht s hs := by
    obtain ⟨r, hr, hid, hstate⟩ := Lib.GoMap.mem_of_lookup_collect hs
    obtain ⟨hr, hrun⟩ := mem_listTaskInstancesByRun.mp hr
    have hlive := h.idle r hr hrun
    rw [Option.some.inj hstate] at hlive
    have hsched : s ≠ .scheduled := by
      rintro rfl
      obtain ⟨t0, hready⟩ := (snapshot cfg w.db d).exists_reached ((snapshot cfg w.db d).nextDispatchAt.lookup t.taskID)
      have hlate := le_max_left w.db.now t0
      exact (hroom _ hlate).not_scheduled (h.still _ hlate).1 ht (hready _ (le_max_right _ _)) hs
    cases s <;> first | rfl | exact absurd rfl hsched | cases hlive

/-- **A covered run is not stuck.** -/
theorem World.not_stuck_of_covers : ¬ w.Stuck cfg d b := by
  intro h
  have hclosed := (h.quiescent hk hreg hcov hroom).closed (validateGraph_eq_ok.mp hreg.graph).applyDefaultRetries
  have hopen : (snapshot cfg w.db d).finalizeRun = none := (h.still w.db.now le_rfl).2
  rw [hopen] at hclosed
  cases hclosed

end

end Stuck

/-! ## The invariant -/

/-- The tick is going to read the run, or has read it and not finished it, as one of the version. -/
def Tick.Names (t : Tick) (id version : String) : Prop :=
  (∃ d ∈ t.todo, d.id = id ∧ d.dagVersionId = version) ∨
  ∃ run, t.Holds run ∧ run.runID = id ∧ run.dagVersionID = version

theorem Tick.Names.mem_runIDs {t : Tick} {id version : String} (h : t.Names id version) : id ∈ t.runIDs := by
  rcases h with ⟨d, hd, rfl, -⟩ | ⟨run, hh, rfl, -⟩
  · exact mem_append_left _ (mem_append_left _ (mem_map_of_mem hd))
  · exact hh.mem_runIDs

theorem Tick.Moves.names {cfg : Config} {db : Database} {t : Option Tick} {a : TickAction} {t' : Tick}
    (hm : Tick.Moves cfg db t a (some t')) {id version : String} (h : t'.Names id version) :
    (∃ d ∈ listActiveDagRuns db, d.id = id ∧ d.dagVersionId = version) ∨ ∃ t0, t = some t0 ∧ t0.Names id version := by
  rcases h with ⟨d, hd, hid, hv⟩ | ⟨run, hh, hid, hv⟩
  · rcases hm.todo hd with ⟨-, hmem⟩ | ⟨t0, ht0, hd0⟩
    · exact .inl ⟨d, hmem, hid, hv⟩
    · exact .inr ⟨t0, ht0, .inl ⟨d, hd0, hid, hv⟩⟩
  · rcases hm.holds hh with ⟨d, todo, loaded, ht, -, rfl⟩ | ⟨t0, run0, ht0, hh0, hid0, hv0, -⟩
    · exact .inr ⟨_, ht, .inl ⟨d, mem_cons_self, hid, hv⟩⟩
    · exact .inr ⟨t0, ht0, .inr ⟨run0, hh0, hid0.trans hid, hv0.trans hv⟩⟩

/-- The invariant: a run with rows covers its version; of a run without rows a tick knows the right
version, and it has not been started unless its version has no tasks. -/
structure RebindOk (cfg : Config) (w : World) : Prop where
  covered : ∀ d ∈ w.db.runs, w.db.HasRows d.id → w.db.Covers d.id (cfg.spec d.dagVersionId)
  named : ∀ d ∈ w.db.runs, ¬ w.db.HasRows d.id → ∀ t v, w.ctl.tick = some t → t.Names d.id v → v = d.dagVersionId
  starting : ∀ t run, w.ctl.tick = some t → t.current? = some (run, [.setRunState .running]) →
    ¬ w.db.HasRows run.runID → run.tasks = []
  unstarted : ∀ d ∈ w.db.runs, d.state.isTerminal = false → ¬ w.db.HasRows d.id →
    d.state = .queued ∨ (cfg.spec d.dagVersionId).tasks = []

section Step

variable {cfg : Config} {w w' : World} {a : Action}

theorem Database.HasRows.step {run : String} (hr : w.db.HasRows run) (h : w.step cfg a = some w') :
    w'.db.HasRows run := by
  obtain ⟨r, hr, hrun⟩ := hr
  exact ⟨_, (mem_step_tis h).mpr (.inl ⟨r, hr, rfl⟩), (Write.row_dagRunId ..).trans hrun⟩

theorem Database.Covers.step {run : String} {spec : DAGSpec} (hc : w.db.Covers run spec)
    (h : w.step cfg a = some w') : w'.db.Covers run spec :=
  fun t ht => key_mem_step h (hc t ht)

theorem Database.HasRows.before {run : String} (hr : w'.db.HasRows run)
    (h : w.step cfg a = some w') : w.db.HasRows run ∨ ∃ ids b rs ops rest, a = .tick (.call ids) ∧
      w.ctl.tick = some (.advancing b rs (.materializeTasks :: ops) rest) ∧ rs.runID = run := by
  obtain ⟨r', hr', hrun⟩ := hr
  rcases (mem_step_tis h).mp hr' with ⟨r, hr, rfl⟩ | hins
  · exact .inl ⟨r, hr, (Write.row_dagRunId ..).symm.trans hrun⟩
  · obtain ⟨ids, b, rs, ops, rest, t, id, ha, ht, -, rfl⟩ := mem_inserted hins
    exact .inr ⟨ids, b, rs, ops, rest, ha, ht, hrun⟩

/-- The version of a run changes where a clear re-binds it, and the condition says how. -/
theorem version_step (hc : rebindsCovered cfg w a) (d : DagRun) :
    ((w.write a).runRow w.db d).dagVersionId = d.dagVersionId ∨ ((w.db.HasRows d.id → w.db.Covers d.id
          (cfg.spec ((w.write a).runRow w.db d).dagVersionId)) ∧
        (¬ w.db.HasRows d.id → ∀ t, w.ctl.tick = some t → d.id ∉ t.runIDs) ∧ ∀ ta, a ≠ .tick ta) := by
  have heffect := w.runEffect a d
  generalize (w.write a).runRow w.db d = d' at heffect ⊢
  cases heffect with
  | kept | stamped | orphaned | marked => exact .inl rfl
  | @reopened c o ha hr ho hid =>
    cases o with
    | keepingVersion => exact .inl rfl
    | toVersion v =>
      subst ha
      obtain ⟨run, resets, reopen⟩ := c
      cases hr
      cases ho
      subst hid
      simp only [rebindsCovered] at hc
      split at hc
      next hany =>
        obtain ⟨r, hr, hrun⟩ := any_eq_true.mp hany
        refine .inr ⟨fun _ t ht => ?_, fun hno => absurd ⟨r, hr, beq_iff_eq.mp hrun⟩ hno, by simp⟩
        obtain ⟨r, hr, hfor⟩ := any_eq_true.mp (all_eq_true.mp hc t ht)
        simp only [TaskInstance.isFor, Bool.and_eq_true, beq_iff_eq] at hfor
        exact ⟨r, hr, by rw [TaskInstance.key, hfor.1, hfor.2]⟩
      next hany =>
        refine .inr ⟨fun hrows => absurd ?_ hany, fun _ t ht hmem => ?_, by simp⟩
        · obtain ⟨r, hr, hrun⟩ := hrows
          exact any_eq_true.mpr ⟨r, hr, beq_iff_eq.mpr hrun⟩
        · rw [ht] at hc
          simp [hmem] at hc

theorem KnownRuns.of_hasRows (hk : KnownRuns w) (h : w.step cfg a = some w') {run : String}
    (hr : w'.db.HasRows run) : run ∈ w.db.runs.map DagRun.id := by
  rcases hr.before h with ⟨r, hrow, rfl⟩ | ⟨ids, b, rs, ops, rest, -, ht, rfl⟩
  · exact hk.rows r hrow
  · exact hk.tick _ ht _ (mem_append_left _ (mem_append_right _ mem_cons_self))

theorem not_mem_of_createdRuns (h : w.step cfg a = some w') {d : DagRun}
    (hd : d ∈ (w.write a).createdRuns) : d.id ∉ w.db.runs.map DagRun.id := by
  intro hmem
  obtain ⟨d0, hd0, hid⟩ := mem_map.mp hmem
  exact (mem_createdRuns h hd).2 d0 hd0 hid

theorem materialized_key_mem {ids : List String} (h : w.step cfg (.tick (.call ids)) = some w')
    {b : Budget} {run : RunState} {ops : List Op} {rest : List RunState}
    (ht : w.ctl.tick = some (.advancing b run (.materializeTasks :: ops) rest)) {t : TaskSpec}
    (htask : t ∈ run.tasks) : ∃ r ∈ w'.db.tis, r.key = (run.runID, t.taskID) := by
  have hm := tick_moves h
  rw [ht] at hm
  generalize w'.ctl.tick = t' at hm
  cases hm with
  | call _ _ _ _ _ _ _ _ hids =>
    have hfst := map_fst_zip (hids rfl).ge
    rw [← hfst] at htask
    obtain ⟨x, hx, rfl⟩ := mem_map.mp htask
    refine ⟨materialized run.runID x.1 x.2, (mem_step_tis h).mpr (.inr ?_), rfl⟩
    have hins : (w.write (.tick (.call ids))).inserted = materializedRows run.runID run.tasks ids := by
      simp [World.write, ht, Tick.write, Op.write, Write.inserted]
    rw [hins]
    exact mem_map_of_mem hx

section

variable (hr : (World.system cfg).Reachable w) (hok : RebindOk cfg w)
include hr hok

/-- A run with rows has one for every task of its version. -/
theorem rebind_covered_step (hc : rebindsCovered cfg w a) (h : w.step cfg a = some w') :
    ∀ d ∈ w'.db.runs, w'.db.HasRows d.id → w'.db.Covers d.id (cfg.spec d.dagVersionId) := by
  intro d' hd' hrows
  rcases (mem_step_runs h).mp hd' with ⟨d, hd, rfl⟩ | hnew
  · rw [Write.runRow_id] at hrows ⊢
    rcases hrows.before h with hold | ⟨ids, b, rs, ops, rest, rfl, ht, hid⟩
    · rcases version_step hc d with hv | ⟨hcov, -⟩
      · rw [hv]
        exact (hok.covered d hd hold).step h
      · exact (hcov hold).step h
    · have hno : ¬ w.db.HasRows d.id := by
        rintro ⟨r, hrow, hrun⟩
        exact (((wellFormed_reaches hr).tick _ ht).pending rs _ rfl).materializing rfl r hrow (hrun.trans hid.symm)
      have hv : ((w.write (.tick (.call ids))).runRow w.db d).dagVersionId = d.dagVersionId := by
        rcases version_step hc d with hv | ⟨-, -, hne⟩
        · exact hv
        · exact absurd rfl (hne _)
      have hholds : Tick.Holds (.advancing b rs (.materializeTasks :: ops) rest) rs :=
        .inr ⟨_, rfl, cons_ne_nil _ _⟩
      have hname := hok.named d hd hno _ _ ht (.inr ⟨rs, hholds, hid, rfl⟩)
      rw [hv, ← hname, ← hid]
      intro t htask
      have hmem : t.taskID ∈ rs.tasks.map TaskSpec.taskID := by
        rw [held_tasks_reaches hr _ rs ht hholds, applyDefaultRetries_taskIDs]
        exact mem_map_of_mem htask
      obtain ⟨t', ht', he⟩ := mem_map.mp hmem
      rw [← he]
      exact materialized_key_mem h ht ht'
  · exact absurd ((knownRuns_reaches hr).of_hasRows h hrows) (not_mem_of_createdRuns h hnew)

theorem rebind_named_step (hc : rebindsCovered cfg w a) (h : w.step cfg a = some w') :
    ∀ d ∈ w'.db.runs, ¬ w'.db.HasRows d.id → ∀ t v, w'.ctl.tick = some t → t.Names d.id v → v = d.dagVersionId := by
  have hknown := knownRuns_reaches hr
  intro d' hd' hrows t v ht hname
  rcases (mem_step_runs h).mp hd' with ⟨d, hd, rfl⟩ | hnew
  · rw [Write.runRow_id] at hrows hname
    have hno : ¬ w.db.HasRows d.id := fun hold => hrows (hold.step h)
    rcases version_step hc d with hv | ⟨-, hunlisted, hne⟩
    · rw [hv]
      rcases tick_step h ht with ⟨ta, rfl, hm⟩ | ⟨-, ht⟩
      · rcases hm.names hname with ⟨d0, hmem, hid, rfl⟩ | ⟨t0, ht0, hname0⟩
        · have hd0 := (mem_listActiveDagRuns.mp hmem).1
          rw [inj_on_of_nodup_map (wellFormed_reaches hr).keyed.runs hd0 hd hid]
        · exact hok.named d hd hno t0 v ht0 hname0
      · exact hok.named d hd hno t v ht hname
    · rcases tick_step h ht with ⟨ta, ha, -⟩ | ⟨-, ht⟩
      · exact absurd ha (hne ta)
      · exact absurd hname.mem_runIDs (hunlisted hno t ht)
  · refine absurd ?_ (not_mem_of_createdRuns h hnew)
    rcases tick_step h ht with ⟨ta, rfl, hm⟩ | ⟨-, ht⟩
    · rcases hm.names hname with ⟨d0, hmem, hid, -⟩ | ⟨t0, ht0, hname0⟩
      · exact hid ▸ mem_map_of_mem (mem_listActiveDagRuns.mp hmem).1
      · exact hknown.tick t0 ht0 _ hname0.mem_runIDs
    · exact hknown.tick t ht _ hname.mem_runIDs

/-- A run that is set running without rows has no tasks. -/
theorem rebind_starting_step (h : w.step cfg a = some w') : ∀ t run, w'.ctl.tick = some t →
      t.current? = some (run, [.setRunState .running]) → ¬ w'.db.HasRows run.runID → run.tasks = [] := by
  intro t run ht hcur hrows
  have hno : ¬ w.db.HasRows run.runID := fun hold => hrows (hold.step h)
  rcases tick_step h ht with ⟨ta, rfl, hm⟩ | ⟨-, ht⟩
  · generalize htick : w.ctl.tick = t0 at hm
    have hbefore := starting_reaches hr
    cases hm with
    | start b r rest =>
      simp only [Tick.current?, Option.some.injEq, Prod.mk.injEq] at hcur
      have hadv := (b.prepare r).advance_of_running (hcur.2 ▸ mem_cons_self)
      rw [hcur.2] at hadv
      cases hadv
    | dispatch b run' task ops rest outcome =>
      simp only [Tick.current?, Option.some.injEq, Prod.mk.injEq, List.cons.injEq] at hcur
      have htasks := run'.afterDispatch_tasks task w.db.now outcome
      rw [hcur.2.1] at htasks
      cases htasks
    | call b run' op ops rest ids =>
      cases hcur
      rcases hbefore _ htick run _ rfl _ (mem_cons_of_mem _ mem_cons_self) rfl with he | he <;> cases he
      refine eq_nil_iff_forall_not_mem.mpr fun task htask => hrows ?_
      obtain ⟨r, hr', hkey⟩ := materialized_key_mem h htick htask
      exact ⟨r, hr', (Prod.mk.inj hkey).1⟩
    | skip b run' op ops rest hop =>
      cases hcur
      rcases hbefore _ htick run _ rfl _ (mem_cons_of_mem _ mem_cons_self) rfl with he | he <;> cases he
      cases hop
    | _ => cases hcur
  · exact hok.starting t run ht hcur hno

/-- An open run without rows is queued or has no tasks. -/
theorem rebind_unstarted_step (hc : rebindsCovered cfg w a) (h : w.step cfg a = some w') :
    ∀ d ∈ w'.db.runs, d.state.isTerminal = false → ¬ w'.db.HasRows d.id →
      d.state = .queued ∨ (cfg.spec d.dagVersionId).tasks = [] := by
  intro d' hd' hopen hrows
  rcases (mem_step_runs h).mp hd' with ⟨d, hd, rfl⟩ | hnew
  · rw [Write.runRow_id] at hrows
    have hno : ¬ w.db.HasRows d.id := fun hold => hrows (hold.step h)
    have heffect := w.runEffect a d
    generalize (w.write a).runRow w.db d = d' at heffect hopen ⊢
    cases heffect with
    | kept => exact hok.unstarted d hd hopen hno
    | @stamped ids b run s ops rest _ ht hid =>
      cases s with
      | queued => exact .inl rfl
      | running =>
        right
        have hholds : Tick.Holds (.advancing b run (.setRunState .running :: ops) rest) run :=
          .inr ⟨_, rfl, cons_ne_nil _ _⟩
        have hname := hok.named d hd hno _ _ ht (.inr ⟨run, hholds, hid.symm, rfl⟩)
        have htasks := held_tasks_reaches hr _ run ht hholds
        have hnil : run.tasks = [] := by
          rcases starting_reaches hr _ ht run _ rfl _ mem_cons_self rfl with he | he <;> cases he
          exact hok.starting _ run ht rfl (hid ▸ hno)
        have hids := applyDefaultRetries_taskIDs (cfg.spec run.dagVersionID)
        rw [← htasks, hnil] at hids
        have hspec : (cfg.spec d.dagVersionId).tasks = [] := hname ▸ map_eq_nil_iff.mp hids.symm
        exact hspec
      | success | failed => cases hopen
    | @reopened c o =>
      left
      cases o <;> rfl
    | orphaned => cases hopen
    | @marked patch ha hid =>
      obtain ⟨run, s, startedAt, endedAt⟩ := patch
      subst ha
      cases s with
      | queued => exact .inl rfl
      | running =>
        obtain ⟨r, hrow, hrun⟩ := any_eq_true.mp hc
        exact absurd ⟨r, hrow, (beq_iff_eq.mp hrun).trans hid.symm⟩ hno
      | success | failed => cases hopen
  · obtain ⟨⟨tenant, version, he⟩, -⟩ := mem_createdRuns h hnew
    rw [he]
    exact .inl rfl

end

end Step

theorem rebindOk_reaches {cfg : Config} {w : World}
    (h : (World.system cfg).Reaches (fun w a => rebindsCovered cfg w a) w) : RebindOk cfg w := by
  refine h.invariant (fun w hi => ?_) fun w a w' hr hok hc hs => ?_
  · obtain ⟨now, rfl⟩ := hi
    exact ⟨forall_mem_nil _, forall_mem_nil _, (fun _ _ ht => by cases ht), forall_mem_nil _⟩
  · have hr := hr.reachable
    exact ⟨rebind_covered_step hr hok hc hs, rebind_named_step hr hok hc hs,
      rebind_starting_step hr hok hs, rebind_unstarted_step hr hok hc hs⟩

/-- **Re-bound runs are complete** in every run of the system whose re-binds find the rows of the new
version. -/
theorem rebound_runs_are_complete {cfg : Config} {w : World}
    (h : (World.system cfg).Reaches (fun w a => rebindsCovered cfg w a) w) :
    RebindComplete cfg w := by
  have hok := rebindOk_reaches h
  have hcovered : ∀ d ∈ w.db.runs, d.state.isTerminal = false → w.Unmaterialized d ∨
      w.db.Covers d.id (cfg.spec d.dagVersionId) := by
    intro d hd hopen
    by_cases hrows : w.db.HasRows d.id
    · exact .inr (hok.covered d hd hrows)
    · rcases hok.unstarted d hd hopen hrows with hq | hnil
      · exact .inl ⟨hq, hrows⟩
      · right
        intro t ht
        rw [hnil] at ht
        cases ht
  refine ⟨hcovered, fun d hd hopen hmat hreg b hroom => ?_⟩
  have hcov := (hcovered d hd hopen).resolve_left hmat
  exact not_stuck_of_covers (wellFormed_reaches h).keyed hreg hcov hroom

/-! ## Runs -/

/-- A version with one task. -/
def versionOne : DAGSpec where
  dagID := "dag"
  tasks := [{ taskID := "task" }]
  distinct := nodup_singleton "task"

/-- A version with one more. -/
def versionTwo : DAGSpec where
  dagID := "dag"
  tasks := [{ taskID := "task" }, { taskID := "next", dependsOn := ["task"] }]
  distinct := by decide

/-- A DAG that was registered with one task and with two. -/
def twoVersions : Config where
  spec v := if v = "v2" then versionTwo else versionOne

/-- The operator clears the failed task of a failed run and re-binds the run. -/
def rebinds (version : String) : List Action :=
  [.tick .finish, .tick .stop, .clear "run" ["task"] true ⟨true, true⟩ version,
    .clearNext ⟨"run", [.failedTask "task"], some (.toVersion version)⟩,
    .clearNext ⟨"run", [], some (.toVersion version)⟩]

/-- The second try of the task runs. -/
def secondTryRuns : List Action :=
  quietTick [.call []] ++ quietTick [.dispatch .dispatched true, .call []] ++
  [.resolve secondRequest, .create { secondRequest with stage := .resolved secondAttempt } false,
    .reportRunning { attempt := secondAttempt }]

/-- A run of two tasks fails and is re-bound to the version of one task. -/
def rebindsToFewer : List Action :=
  materialize "run" "v2" ["ti", "ti2"] ++ quietTick [.call []] ++
    quietTick [.dispatch .dispatched true, .call []] ++ startsRunning ++
    ends firstAttempt (.failed 1 "boom") ++ quietTick [.call []] ++ finalizes ++ rebinds "v1" ++
    secondTryRuns

theorem rebound_runs_are_complete_fewer :
    ∃ w, (World.system twoVersions).runIf (rebindsCovered twoVersions) (.empty 1) rebindsToFewer =
        some w ∧ w.db.runs.map (fun d => (d.state, d.dagVersionId)) = [(.queued, "v1")] ∧
      RebindComplete twoVersions w := by
  refine Lib.exists_eq_some (by decide +kernel) fun hrun => ?_
  exact ⟨by decide +kernel, rebound_runs_are_complete
    (Lib.System.Reaches.runIf (.init ⟨1, rfl⟩) (fun _ _ hc => hc) hrun)⟩

/-- A run of one task fails and is re-bound to the version of two; the task succeeds in its second try
and two more ticks go by. -/
def rebindsToMore : List Action :=
  failsOnce ++ finalizes ++ rebinds "v2" ++ secondTryRuns ++ ends secondAttempt .success ++ quietTick [] ++ quietTick []

/-- Where that run ends. -/
def afterRebind : World :=
  ((World.system twoVersions).run (.empty 1) rebindsToMore).get (by decide +kernel)

/-- The run it leaves. -/
def reboundRun : DagRun where
  id := "run"
  dagVersionId := "v2"
  state := .queued
  queuedAt := 1

/-- The second task has no row, so the run is neither planned nor closed. -/
theorem reboundRun_stuck : afterRebind.Stuck twoVersions reboundRun fun _ => .unlimited where
  idle := by decide +kernel
  still t _ := by
    have hs : (Budget.unlimited.prepare (snapshot twoVersions afterRebind.db reboundRun)).Settled := by
      decide +kernel
    have hidle : ∀ task ∈ (snapshot twoVersions afterRebind.db reboundRun).tasks,
        (snapshot twoVersions afterRebind.db reboundRun).states.lookup task.taskID ≠
          some .scheduled := by decide +kernel
    have hopen : (snapshot twoVersions afterRebind.db reboundRun).finalizeRun = none := by
      decide +kernel
    have hlater : (Budget.unlimited.prepare
        ((snapshot twoVersions afterRebind.db reboundRun).atTime t)).Settled := ⟨hs.parked, hs.started⟩
    exact ⟨hlater.planRun_eq_nil hidle, hopen⟩

/-- A run that is re-bound to a version with a new task gets stuck. -/
theorem rebound_run_gets_stuck :
    ¬ ∀ (cfg : Config) (w : World), (World.system cfg).Reachable w → RebindComplete cfg w := by
  intro h
  have hinit : (World.system twoVersions).Reachable (.empty 1) := .init ⟨1, rfl⟩
  have hreach : (World.system twoVersions).Reachable afterRebind :=
    hinit.run (Option.some_get (x := (World.system twoVersions).run (.empty 1) rebindsToMore) (by decide +kernel)).symm
  have hreg : (twoVersions.spec reboundRun.dagVersionId).Registered := by
    refine ⟨by decide +kernel, fun t ht name => ?_⟩
    simp only [twoVersions, reboundRun, if_true, versionTwo, mem_cons, not_mem_nil, or_false] at ht
    rcases ht with rfl | rfl <;> exact fun he => by cases he
  have hrows : ¬ afterRebind.Unmaterialized reboundRun := by
    rintro ⟨-, hno⟩
    refine hno ?_
    have hrow : ∃ r ∈ afterRebind.db.tis, r.dagRunId = reboundRun.id := by decide +kernel
    exact hrow
  have hcap : (twoVersions.spec reboundRun.dagVersionId).maxActiveTasks ≤ 0 := by decide +kernel
  exact (h twoVersions afterRebind hreach).unstuck reboundRun (by decide +kernel) rfl hrows hreg
    (fun _ => .unlimited) (fun _ _ => ⟨.inl hcap, .inl rfl⟩) reboundRun_stuck

end Leoflow
