import Leoflow.System.Provenance

/-!
# An executing run is running

`advance` starts a run only where it materialises its tasks, that is when the run has no rows. A run
that a clear re-opens has its rows, so it executes as `queued`, without `started_at`, and the orphan
reaper does not list it. `SetDagRunState` writes back the `started_at` it has read, so one that read a run before
it was started takes the start away again.
-/

namespace Leoflow

open World

/-- Every unfinished run with a queued or running task is running and has a start. -/
def ExecutingRunning (w : World) : Prop :=
  ∀ d ∈ w.db.runs, d.state.isTerminal = false → (∃ r ∈ w.db.tis, r.dagRunId = d.id ∧ r.state.isLive) →
      d.state = .running ∧ d.startedAt.isSome

instance (w : World) : Decidable (ExecutingRunning w) := by unfold ExecutingRunning; infer_instance

/-- No run with rows is re-opened, by a clear or by marking it `queued`, or loses its start to a patch that read it
before, and the tick does not give up a run between materialising and starting it. -/
def startsOnce (w : World) : Action → Bool
  | .clearNext c => !c.resets.isEmpty || c.reopen.isNone || w.db.tis.all fun r => r.dagRunId != c.run
  | .updateDagRunState p => (w.db.tis.all fun r => r.dagRunId != p.run) ||
    p.state != .queued && (p.startedAt.isSome || w.db.runs.all fun d => d.id != p.run || d.startedAt.isNone)
  | .tick .abandon | .tick .stop =>
    (w.ctl.tick.bind Tick.current?).all fun c => c.2 != [.setRunState .running]
  | _ => true

/-! ## The invariant -/

/-- The run has been started since it was last queued. -/
structure DagRun.HasStarted (d : DagRun) : Prop where
  state : d.state ≠ .queued
  startedAt : d.startedAt.isSome

/-- The tick has materialised the run and is about to start it; nothing of it is executing. -/
structure World.Starting (w : World) (id : String) : Prop where
  tick : ∃ b run rest, w.ctl.tick = some (.advancing b run [.setRunState .running] rest) ∧ run.runID = id
  rows : ∀ r ∈ w.db.tis, r.dagRunId = id → r.state.isLive = false
  idle : ∀ run task p, Started w run task p → run ≠ id

/-- The invariant: a run with rows has been started, or is about to be. -/
def StartOk (w : World) : Prop :=
  ∀ d ∈ w.db.runs, ∀ r ∈ w.db.tis, r.dagRunId = d.id → d.HasStarted ∨ w.Starting d.id

section Step

variable {cfg : Config} {w w' : World} {a : Action}

/-- No tick is about to write `queued` to a run. -/
def World.StampsForward (w : World) : Prop :=
  ∀ t, w.ctl.tick = some t → ∀ run ops, t.current? = some (run, ops) → ∀ op ∈ ops, op ≠ .setRunState .queued

theorem stampsForward_reaches {cond : World → Action → Prop}
    (h : (World.system cfg).Reaches cond w) : w.StampsForward := by
  refine calls_reaches (J := fun _ op => op ≠ .setRunState .queued) (fun run dispatcher op hop he => ?_)
    (fun run task wall outcome _ he => ?_) h
  · subst he
    have hset := run.setRunState_of_advance hop
    split at hset
    · cases hset
    · have hverdict := RunState.finalizeRun_verdict hset
      split at hverdict <;> cases hverdict
  · have htasks := run.afterDispatch_tasks task wall outcome
    rw [he] at htasks
    cases htasks

/-- A run with rows that has started keeps its stamp. -/
theorem DagRun.HasStarted.step (hforward : w.StampsForward)
    (hc : startsOnce w a) {d : DagRun} (hd : d ∈ w.db.runs) (hs : d.HasStarted)
    {r : TaskInstance} (hr : r ∈ w.db.tis) (hrun : r.dagRunId = d.id) : ((w.write a).runRow w.db d).HasStarted := by
  have heffect := w.runEffect a d
  generalize (w.write a).runRow w.db d = d' at heffect ⊢
  cases heffect with
  | kept => exact hs
  | @stamped ids b run state ops rest ha ht =>
    refine ⟨fun hq => hforward _ ht run _ rfl _ List.mem_cons_self ?_, stampIf_isSome _ _ hs.startedAt⟩
    rw [show state = .queued from hq]
  | @reopened c o ha hresets ho hid =>
    subst ha
    simp only [startsOnce, hresets, ho, List.isEmpty_nil, Bool.not_true, Option.isNone_some,
      Bool.false_or, List.all_eq_true, bne_iff_ne] at hc
    exact absurd (hrun.trans hid) (hc r hr)
  | orphaned => exact ⟨(fun h => by cases h), hs.startedAt⟩
  | @marked p ha hid =>
    subst ha
    simp only [startsOnce, Bool.or_eq_true, Bool.and_eq_true, bne_iff_ne, List.all_eq_true] at hc
    rcases hc with hno | ⟨hne, hread | hnone⟩
    · exact absurd (hrun.trans hid) (hno r hr)
    · exact ⟨hne, hread⟩
    · rcases hnone d hd with hid' | hnone
      · exact absurd hid hid'
      · have hsome := hs.startedAt
        rw [Option.isNone_iff_eq_none.mp hnone] at hsome
        cases hsome

theorem World.Starting.stamped {ta : TickAction} {id : String} (hst : w.Starting id)
    (hc : startsOnce w (.tick ta)) (h : w.step cfg (.tick ta) = some w') {d : DagRun}
    (hd : d.id = id) : ((w.write (.tick ta)).runRow w.db d).HasStarted := by
  obtain ⟨b, run, rest, htick, rfl⟩ := hst.tick
  have hm := tick_moves h
  rw [htick] at hm
  generalize w'.ctl.tick = t' at hm
  cases hm with
  | call _ _ _ _ _ ids =>
    have hwrite : (w.write (.tick (.call ids))).runStatement w.db = some (.stampDagRunState run.runID .running) := by
      simp [World.write, htick, Tick.write, Op.write, Write.runStatement]
    have hg : ((RunStatement.stampDagRunState run.runID .running).update w.db.now).guard d :=
      beq_iff_eq.mpr hd
    rw [Write.runRow_of_statement hwrite, Lib.Update.row_of_guard _ hg]
    exact ⟨(fun hq => by cases hq), stampIf_true_isSome _ _⟩
  | skip _ _ _ _ _ hop => cases hop
  | abandon | stop => simp [startsOnce, htick, Tick.current?] at hc

/-- Nobody else makes the run execute. -/
theorem World.Starting.step {id : String} (hst : w.Starting id) (ha : ∀ ta, a ≠ .tick ta)
    (h : w.step cfg a = some w') : w'.Starting id where
  tick := by
    obtain ⟨b, run, rest, htick, hid⟩ := hst.tick
    exact ⟨b, run, rest, (tick_of_not_tick h ha).trans htick, hid⟩
  rows r' hr' hrun := by
    rcases (mem_step_tis h).mp hr' with ⟨r, hr, rfl⟩ | hins
    · rw [Write.row_dagRunId] at hrun
      refine Bool.eq_false_iff.mpr fun hlive => ?_
      rcases live_of_row ha hlive with hlive | ⟨g, rfl, hfor⟩
      · rw [hst.rows r hr hrun] at hlive
        cases hlive
      · have hg : g ∈ w.ctl.agents := by
          have hn := step_ctl h
          simp only [World.next, Option.ite_none_right_eq_some] at hn
          exact hn.1
        simp only [TaskInstance.isFor, Bool.and_eq_true, beq_iff_eq] at hfor
        exact hst.idle _ _ _ (.agent hg) (hfor.1.symm.trans hrun)
    · obtain ⟨ids, _, _, _, _, _, _, he, -⟩ := mem_inserted hins
      exact absurd he (ha _)
  idle run task p hs := by
    rcases hs.before h with hs | ⟨t, -, he, -⟩
    · exact hst.idle run task p hs
    · exact absurd he (ha t)

/-- A run that has just been materialised is about to be started. -/
theorem World.starting_of_inserted (hr : (World.system cfg).Reachable w)
    (h : w.step cfg a = some w') {r : TaskInstance} (hins : r ∈ (w.write a).inserted) : w'.Starting r.dagRunId := by
  have hw := wellFormed_reaches hr
  obtain ⟨ids, b, run, ops, rest, t, id, rfl, htick, -, rfl⟩ := mem_inserted hins
  have hops := starting_reaches hr _ htick run _ rfl _ List.mem_cons_self rfl
  have hnone : ∀ s ∈ w.db.tis, s.dagRunId ≠ run.runID :=
    ((hw.tick _ htick).pending run _ rfl).materializing rfl
  refine ⟨⟨b, run, rest, ?_, rfl⟩, fun s hs hrun => ?_, fun run' task p hst hid => ?_⟩
  · have hm := tick_moves h
    rw [htick] at hm
    generalize w'.ctl.tick = t' at hm ⊢
    cases hm
    rcases hops with he | he <;> cases he
    rfl
  · rcases (mem_step_tis h).mp hs with ⟨s0, hs0, rfl⟩ | hins
    · rw [Write.row_dagRunId] at hrun
      exact absurd hrun (hnone s0 hs0)
    · obtain ⟨_, _, _, _, _, _, _, -, -, -, rfl⟩ := mem_inserted hins
      rfl
  · rcases hst.before h with hst | ⟨t, buffered, he, hd, -⟩
    · obtain ⟨s, hs, hfor, -⟩ := started_reaches hr hst
      simp only [TaskInstance.isFor, Bool.and_eq_true, beq_iff_eq] at hfor
      exact hnone s hs (hfor.1.trans hid)
    · cases he
      simp [Tick.dispatches] at hd

theorem startOk_step (hr : (World.system cfg).Reachable w) (hok : StartOk w)
    (hc : startsOnce w a) (h : w.step cfg a = some w') : StartOk w' := by
  have hknown := knownRuns_reaches hr
  intro d' hd' r' hr' hrun
  rcases (mem_step_tis h).mp hr' with ⟨r, hrow, rfl⟩ | hins
  · rw [Write.row_dagRunId] at hrun
    rcases (mem_step_runs h).mp hd' with ⟨d, hd, rfl⟩ | hnew
    · rw [Write.runRow_id] at hrun ⊢
      rcases hok d hd r hrow hrun with hs | hst
      · exact .inl (hs.step (stampsForward_reaches hr) hc hd hrow hrun)
      · by_cases ha : ∃ ta, a = .tick ta
        · obtain ⟨ta, rfl⟩ := ha
          exact .inl (hst.stamped hc h rfl)
        · exact .inr (hst.step (fun ta he => ha ⟨ta, he⟩) h)
    · obtain ⟨d, hd, hid⟩ := List.mem_map.mp (hknown.rows r hrow)
      exact absurd (hid.trans hrun) ((mem_createdRuns h hnew).2 d hd)
  · exact .inr (hrun ▸ starting_of_inserted hr h hins)

end Step

end Leoflow
