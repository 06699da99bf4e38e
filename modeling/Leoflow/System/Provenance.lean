import Leoflow.System.RunRows
import Leoflow.System.WellFormed

/-!
# Where things come from

What holds in every run without any condition: task instances and the runs of a tick have their row in
`dag_runs`; requests and agents have their row in `task_instances`; and a tick that materialises a run
starts it next.
-/

namespace Leoflow

open World List

variable {cond : World → Action → Prop} {run task : String} {p : Nat}

/-! ## Runs -/

/-- The runs a tick has listed and not finished. -/
def Tick.runIDs (t : Tick) : List String :=
  t.todo.map DagRun.id ++ t.current?.toList.map (fun c => c.1.runID) ++ t.waiting.map RunState.runID

theorem Tick.Holds.mem_runIDs {t : Tick} {run : RunState} (h : t.Holds run) : run.runID ∈ t.runIDs := by
  rcases h with hmem | ⟨ops, hc, -⟩
  · exact mem_append_right _ (mem_map_of_mem hmem)
  · exact mem_append_left _ (mem_append_right _ (by simp [hc]))

section

variable {cfg : Config} {db : Database} {t : Option Tick} {a : TickAction} {t' : Tick}
  (hm : Tick.Moves cfg db t a (some t'))
include hm

theorem Tick.Moves.mem_runIDs {id : String} (h : id ∈ t'.runIDs) :
    (∃ d ∈ listActiveDagRuns db, d.id = id) ∨ ∃ t0, t = some t0 ∧ id ∈ t0.runIDs := by
  cases hm with
  | begin =>
    simp only [runIDs, todo, current?, waiting, Option.toList_none, map_nil, append_nil, mem_map] at h
    exact .inl h
  | _ =>
    refine .inr ⟨_, rfl, ?_⟩
    simp only [runIDs, todo, current?, waiting, Option.toList_none, Option.toList_some,
      map_append, map_cons, map_nil, mem_append, mem_cons,
      not_mem_nil, snapshot_runID, Budget.prepare_runID] at h ⊢
    tauto

theorem Tick.Moves.todo {d : DagRun} (hd : d ∈ t'.todo) :
    (a = .begin ∧ d ∈ listActiveDagRuns db) ∨ ∃ t0, t = some t0 ∧ d ∈ t0.todo := by
  cases hm with
  | begin => exact .inl ⟨rfl, hd⟩
  | load d' todo loaded => exact .inr ⟨_, rfl, mem_cons_of_mem _ hd⟩
  | _ => cases hd

end

/-- The runs of the rows and of the tick are in `dag_runs`. -/
structure KnownRuns (w : World) : Prop where
  rows : ∀ r ∈ w.db.tis, r.dagRunId ∈ w.db.runs.map DagRun.id
  tick : ∀ t, w.ctl.tick = some t → ∀ id ∈ t.runIDs, id ∈ w.db.runs.map DagRun.id

section Step

variable {cfg : Config} {w w' : World} {a : Action}

theorem run_id_mem_step (h : w.step cfg a = some w') {id : String}
    (hid : id ∈ w.db.runs.map DagRun.id) : id ∈ w'.db.runs.map DagRun.id := by
  obtain ⟨d, hd, rfl⟩ := mem_map.mp hid
  exact mem_map.mpr ⟨_, (mem_step_runs h).mpr (.inl ⟨d, hd, rfl⟩), Write.runRow_id ..⟩

theorem knownRuns_step (hk : KnownRuns w) (h : w.step cfg a = some w') : KnownRuns w' where
  rows r' hr' := by
    refine run_id_mem_step h ?_
    rcases (mem_step_tis h).mp hr' with ⟨r, hr, rfl⟩ | hins
    · rw [Write.row_dagRunId]
      exact hk.rows r hr
    · obtain ⟨ids, b, run, ops, rest, t, id, -, ht, -, rfl⟩ := mem_inserted hins
      exact hk.tick _ ht _ (mem_append_left _ (mem_append_right _ mem_cons_self))
  tick t ht id hid := by
    refine run_id_mem_step h ?_
    rcases tick_step h ht with ⟨ta, rfl, hm⟩ | ⟨-, ht⟩
    · rcases hm.mem_runIDs hid with ⟨d, hd, rfl⟩ | ⟨t0, ht0, hid⟩
      · exact mem_map_of_mem (mem_listActiveDagRuns.mp hd).1
      · exact hk.tick t0 ht0 id hid
    · exact hk.tick t ht id hid

end Step

/-- **In every run** the runs of the rows and of the tick are in `dag_runs`. -/
theorem knownRuns_reaches {cfg : Config} {w : World} (h : (World.system cfg).Reaches cond w) : KnownRuns w := by
  refine h.invariant (fun w hi => ?_) fun w a w' _ hk _ hs => ?_
  · obtain ⟨now, rfl⟩ := hi
    exact ⟨forall_mem_nil _, fun _ ht => by cases ht⟩
  · exact knownRuns_step hk hs

/-! ## Requests and agents -/

/-- A dispatch on its way or an agent it started, by the key of its row and its placement. -/
inductive Started (w : World) : String → String → Nat → Prop where
  | accepted {q : Request} (hq : q ∈ w.ctl.requests) (hs : q.stage = .accepted) : Started w q.run q.task q.placement
  | resolved {q : Request} {att : Attempt} (hq : q ∈ w.ctl.requests) (hs : q.stage = .resolved att) :
      Started w att.run att.task att.placement
  | agent {g : Agent} (hg : g ∈ w.ctl.agents) : Started w g.attempt.run g.attempt.task g.attempt.placement

/-- The row exists and was dispatched at least as often. -/
def DispatchedAs (w : World) (run task : String) (p : Nat) : Prop :=
  ∃ r ∈ w.db.tis, r.isFor run task ∧ p ≤ w.track.placements r.id

section Step

variable {cfg : Config} {w w' : World} {a : Action}

theorem placements_le (w : World) (a : Action) (id : String) : w.track.placements id ≤ (w.tracked a).placements id := by
  simp only [tracked]
  split
  · split
    · split
      · exact Nat.le_succ _
      · exact Nat.le_refl _
    · exact Nat.le_refl _
  · exact Nat.le_refl _

theorem DispatchedAs.step (hd : DispatchedAs w run task p) (h : w.step cfg a = some w') :
    DispatchedAs w' run task p := by
  obtain ⟨r, hr, hf, hp⟩ := hd
  refine ⟨_, (mem_step_tis h).mpr (.inl ⟨r, hr, rfl⟩), by simpa [TaskInstance.isFor] using hf, ?_⟩
  rw [Write.row_id, step_track h]
  exact hp.trans (placements_le w a r.id)

theorem Started.before (h : w.step cfg a = some w') (hst : Started w' run task p) : Started w run task p ∨
      ∃ t buffered, a = .tick t ∧ Tick.dispatches w.ctl.tick t = some (run, task, buffered) ∧
        p = (w.request run task buffered).placement := by
  have hn := step_ctl h
  cases hst with
  | accepted hq hacc =>
    rcases mem_requests hn hq with hq | ⟨t, run, task, buffered, rfl, hd, rfl⟩ |
        ⟨q, hq, r, -, -, -, rfl⟩ | ⟨q, hq, att, -, rfl⟩
    · exact .inl (.accepted hq hacc)
    · exact .inr ⟨t, buffered, rfl, hd, rfl⟩
    · cases hacc
    · cases hacc
  | resolved hq hres =>
    rcases mem_requests hn hq with hq | ⟨t, run, task, buffered, rfl, hd, rfl⟩ |
        ⟨q, hq0, r, -, hacc, -, rfl⟩ | ⟨q, hq, att, -, rfl⟩
    · exact .inl (.resolved hq hres)
    · cases hres
    · cases hres
      exact .inl (.accepted hq0 hacc)
    · cases hres
  | agent hg =>
    rcases mem_agents hn hg with hg | ⟨q, hq, -, att, -, hres, rfl⟩ | ⟨g, hg0, -, rfl⟩ | ⟨g, hg0, o, -, -, rfl⟩
    · exact .inl (.agent hg)
    · exact .inl (.resolved hq hres)
    · exact .inl (.agent (g := g) hg0)
    · exact .inl (.agent (g := g) hg0)

theorem started_step (hw : w.WellFormed) (hs : ∀ run task p, Started w run task p → DispatchedAs w run task p)
    (h : w.step cfg a = some w') (hst : Started w' run task p) : DispatchedAs w' run task p := by
  rcases hst.before h with hst | ⟨t, buffered, rfl, hd, rfl⟩
  · exact (hs _ _ _ hst).step h
  · obtain ⟨r, hr, hf, hp⟩ := placement_of_dispatches hw hd h
    exact ⟨r, hr, hf, hp.ge⟩

end Step

/-- **In every run** what is started has a row, of at least its placement. -/
theorem started_reaches {cfg : Config} {w : World} (h : (World.system cfg).Reaches cond w)
    (hst : Started w run task p) : DispatchedAs w run task p := by
  refine h.invariant (I := fun w => ∀ run task p, Started w run task p → DispatchedAs w run task p)
    (fun w hi => ?_) (fun w a w' hr hs _ hstep _ _ _ hst => ?_) run task p hst
  · obtain ⟨now, rfl⟩ := hi
    intro run task p hst
    cases hst with
    | accepted hq | resolved hq => cases hq
    | agent hg => cases hg
  · exact started_step (wellFormed_reaches hr) hs hstep hst

/-! ## Materialising -/

/-- The calls that materialise and start a run. -/
def Op.starts : Op → Bool
  | materializeTasks | setRunState .running => true
  | _ => false

/-- **In every run** a tick that is about to start a run makes no other call for it: it materialises
the run first, and then starts it. -/
theorem starting_reaches {cfg : Config} {w : World} (h : (World.system cfg).Reaches cond w) :
    ∀ t, w.ctl.tick = some t → ∀ run ops,
      t.current? = some (run, ops) → ∀ op ∈ ops, op.starts →
        ops = [.materializeTasks, .setRunState .running] ∨ ops = [.setRunState .running] := by
  refine h.invariant (I := fun w => ∀ t, w.ctl.tick = some t → ∀ run ops,
    t.current? = some (run, ops) → ∀ op ∈ ops, op.starts →
      ops = [.materializeTasks, .setRunState .running] ∨ ops = [.setRunState .running])
    (fun w hi => ?_) fun w a w' _ hw _ hs => ?_
  · obtain ⟨now, rfl⟩ := hi
    exact fun _ ht => by cases ht
  · intro t ht run ops hc op hop hstarts
    rcases tick_step hs ht with ⟨ta, rfl, hm⟩ | ⟨-, ht⟩
    · generalize htick : w.ctl.tick = t0 at hm
      cases hm with
      | start b r rest =>
        cases hc
        left
        cases op with
        | materializeTasks => exact (advance_materializes hop).2
        | setRunState s =>
          cases s with
          | running => exact RunState.advance_of_running _ hop
          | _ => cases hstarts
        | _ => cases hstarts
      | dispatch b run' task ops' rest outcome =>
        cases hc
        rcases mem_cons.mp hop with rfl | hop
        · have htasks := run.afterDispatch_tasks task w.db.now outcome
          generalize run.afterDispatch task w.db.now outcome = op at htasks hstarts
          cases op with
          | materializeTasks | setRunState => cases htasks
          | _ => cases hstarts
        · rcases hw _ htick run _ rfl op (mem_cons_of_mem _ hop) hstarts with he | he <;> cases he
      | call | skip =>
        cases hc
        rcases hw _ htick run _ rfl op (mem_cons_of_mem _ hop) hstarts with he | he <;> cases he
        · exact .inr rfl
        · cases hop
      | _ => cases hc
    · exact hw t ht run ops hc op hop hstarts

end Leoflow
