import Leoflow.Scheduler.Admission
import Leoflow.System.WellFormed

/-!
# Admission caps within a tick

`Step` sizes the headroom of each run from the snapshot and from what it has admitted for the runs before it, and
`advanceSafely` returns zero admissions for a run that fails.
-/

namespace Leoflow

open Lib (GoMap)
open RunState Budget List

variable {b : Budget} {r : RunState} {tick : Option Tick} {log : StepLog}

/-! ## One `Step` and what it has dispatched -/

/-- The snapshots `ActiveRuns` returns, each read from the database of its own moment. -/
def stepRuns (cfg : Config) (reads : List (Database × DagRun)) : List RunState :=
  reads.map fun p => snapshot cfg p.1 p.2

/-- One `Step` after `ActiveRuns`, with the database each of its calls finds. -/
def stepSystem (cfg : Config) (reads : List (Database × DagRun)) :
    Lib.System (Option Tick) (Database × TickAction) where
  init tick :=
    tick = some (.between (.ofRuns cfg (stepRuns cfg reads)) (stepRuns cfg reads))
  step tick a := if a.2 = .begin then none else Tick.next cfg a.1 tick a.2

/-- The leader's tick takes the steps of this system, over the database it finds. -/
theorem stepSystem_of_tick {cfg : Config} {w w' : World} {t : TickAction} (ht : t ≠ .begin)
    (h : w.step cfg (.tick t) = some w') (reads : List (Database × DagRun)) :
    (stepSystem cfg reads).step w.ctl.tick (w.db, t) = some w'.ctl.tick := by
  have hn := World.step_ctl h
  simp only [World.next, Option.map_eq_some_iff] at hn
  obtain ⟨t', ht', hctl⟩ := hn
  simp only [stepSystem, if_neg ht, ht', ← hctl]

/-- An `advance` that has returned: the tasks it dispatched, whether it failed, and the budgets of
`Step` before and after. -/
structure Advanced where
  run : RunState
  tasks : List String
  failed : Bool
  before : Budget
  after : Budget

/-- What a `Step` has dispatched so far, in its current `advance`, and in those that returned. -/
structure StepLog where
  dispatched : List (RunState × String) := []
  current : List String := []
  advanced : List Advanced := []

namespace StepLog

/-- An `advance` returns. -/
def returned (tick tick' : Option Tick) (failed : Bool) (log : StepLog) : StepLog :=
  match tick, tick' with
  | some (.advancing b run _ _), some (.between b' _) =>
    { log with current := [], advanced := log.advanced ++ [⟨run, log.current, failed, b, b'⟩] }
  | _, _ => log

/-- The log after a step. A dispatch counts when it returns no error. -/
def note (tick : Option Tick) (a : Database × TickAction) (tick' : Option Tick) (log : StepLog) :
    StepLog :=
  match a.2 with
  | .dispatch .dispatched _ =>
    match tick with
    | some (.advancing _ run (.dispatch task :: _) _) =>
      { log with dispatched := log.dispatched ++ [(run, task)], current := log.current ++ [task] }
    | _ => log
  | .finish => log.returned tick tick' false
  | .abandon => log.returned tick tick' true
  | _ => log

end StepLog

/-- One `Step` with its log. -/
abbrev loggedStep (cfg : Config) (reads : List (Database × DagRun)) :
    Lib.System (Option Tick × StepLog) (Database × TickAction) :=
  (stepSystem cfg reads).withGhost {} StepLog.note

/-- How many of the dispatches are of a DAG. -/
def dagCount (dag : String) (dispatched : List (RunState × String)) : Nat :=
  dispatched.countP fun d => d.1.dagID == dag

/-- How many of the dispatches are in a pool. -/
def poolCount (key : String) (dispatched : List (RunState × String)) : Nat :=
  dispatched.countP fun d => d.1.inPool key d.2

/-- What an `advance` dispatched is charged to the runs after it. -/
structure Advanced.IsCharged (e : Advanced) : Prop where
  dag : e.before.admittedTasks.getD e.run.dagID 0 + e.tasks.length ≤ e.after.admittedTasks.getD e.run.dagID 0
  pool : e.run.poolsEnabled → ∀ tenant pool, e.before.poolOccupied.getD (poolKey tenant pool) 0 +
        e.tasks.countP (e.run.inPool (poolKey tenant pool)) ≤
      e.after.poolOccupied.getD (poolKey tenant pool) 0

/-- The cap of a DAG: every active run of it is limited, by at most `m`. -/
def CapsAt (runs : List RunState) (dag : String) (m : Int) : Prop :=
  ∀ run ∈ runs, run.dagID = dag → 0 < run.maxActiveTasks ∧ run.maxActiveTasks ≤ m

/-- The dispatched tasks fit under the caps of their DAGs and the budgets of their pools, unless the
snapshot was over them already. -/
structure FitsCaps (cfg : Config) (runs : List RunState) (dispatched : List (RunState × String)) : Prop where
  dags : ∀ dag m, CapsAt runs dag m → (activeTaskCounts runs).getD dag 0 + dagCount dag dispatched ≤
      max m ((activeTaskCounts runs).getD dag 0)
  pools : cfg.poolsEnabled → ∀ tenant pool, 0 < cfg.poolBudgets.getD (poolKey tenant pool) 0 →
    (activePoolCounts runs).getD (poolKey tenant pool) 0 + poolCount (poolKey tenant pool) dispatched ≤
      max (cfg.poolBudgets.getD (poolKey tenant pool) 0) ((activePoolCounts runs).getD (poolKey tenant pool) 0)

/-- The caps hold, and every `advance` is charged for what it dispatched. -/
structure WithinCaps (cfg : Config) (runs : List RunState) (log : StepLog) : Prop where
  fits : FitsCaps cfg runs log.dispatched
  charged : ∀ e ∈ log.advanced, e.IsCharged

/-! ## The charge of one run -/

theorem stepRuns_tasks_nodup {cfg : Config} {reads : List (Database × DagRun)} {run : RunState}
    (h : run ∈ stepRuns cfg reads) : (run.tasks.map TaskSpec.taskID).Nodup := by
  obtain ⟨p, -, rfl⟩ := mem_map.mp h
  exact snapshot_tasks_nodup

theorem Budget.charge_admittedTasks (b : Budget) (run : RunState) (dag : String) :
    (b.charge run).admittedTasks.getD dag 0 = b.admittedTasks.getD dag 0 +
      if dag = run.dagID then ((promotedTasks run.planRun).length : Int) else 0 :=
  GoMap.getD_addTo ..

theorem RunState.poolKey_ne_empty (tenant pool : String) : poolKey tenant pool ≠ "" := by
  intro h
  have hlen := congrArg String.length h
  simp [poolKey] at hlen

theorem Budget.charge_poolOccupied (run : RunState) (hnd : (run.tasks.map TaskSpec.taskID).Nodup)
    (hb : b.poolsEnabled) (hrun : run.poolsEnabled) (key : String) :
    (b.charge run).poolOccupied.getD key 0 = b.poolOccupied.getD key 0 +
      ((promotedTasks run.planRun).countP (run.inPool key) : Nat) := by
  have hprom : (promotedTasks run.planRun).Nodup :=
    (run.planRun_nodup hnd).sublist (filter_sublist.map _)
  have hkey : ∀ t, run.poolKeyFor t = poolKey run.tenantID (resolvePool t.pool) :=
    fun t => if_pos hrun
  -- Both sides count the promoted tasks of the pool, one by specification and one by id.
  have hperm : ((run.tasks.filter fun t => (run.poolKeyFor t == key) &&
      (promotedTasks run.planRun).contains t.taskID).map TaskSpec.taskID).Perm
      ((promotedTasks run.planRun).filter (run.inPool key)) := by
    rw [perm_ext_iff_of_nodup (hnd.sublist (filter_sublist.map _)) (hprom.filter _)]
    intro id
    simp only [mem_map, mem_filter, inPool, any_eq_true, Bool.and_eq_true, beq_iff_eq, contains_iff_mem]
    constructor
    · rintro ⟨t, ⟨ht, hk, hmem⟩, rfl⟩
      exact ⟨hmem, t, ht, rfl, hk⟩
    · rintro ⟨hmem, t, ht, rfl, hk⟩
      exact ⟨t, ⟨ht, hk, hmem⟩, rfl⟩
  have hlen := hperm.length_eq
  rw [length_map, ← countP_eq_length_filter (p := run.inPool key), ← filter_filter, ← countP_eq_length_filter] at hlen
  simp only [Budget.charge, hb, Bool.not_true, Bool.false_eq_true, if_false]
  rw [GoMap.getD_foldl_addTo]
  simp only [hkey] at hlen
  rw [← hlen]
  rfl

/-! ## The invariant of a `Step` -/

section Step

variable {cfg : Config} {reads : List (Database × DagRun)}

/-- The budgets cover the dispatched tasks and have not gone over the caps. -/
structure Budget.Covers (cfg : Config) (runs : List RunState) (b : Budget)
    (dispatched : List (RunState × String)) : Prop where
  activeTasks : b.activeTasks = activeTaskCounts runs
  poolsEnabled : b.poolsEnabled = cfg.poolsEnabled
  poolBudgets : cfg.poolsEnabled → b.poolBudgets = cfg.poolBudgets
  dags : ∀ dag, dagCount dag dispatched ≤ b.admittedTasks.getD dag 0
  headroom : ∀ dag m, CapsAt runs dag m → (activeTaskCounts runs).getD dag 0 + b.admittedTasks.getD dag 0 ≤
      max m ((activeTaskCounts runs).getD dag 0)
  pools : cfg.poolsEnabled → ∀ key ≠ "",
    (activePoolCounts runs).getD key 0 + poolCount key dispatched ≤ b.poolOccupied.getD key 0
  slots : cfg.poolsEnabled → ∀ key ≠ "", 0 < cfg.poolBudgets.getD key 0 → b.poolOccupied.getD key 0 ≤
      max (cfg.poolBudgets.getD key 0) ((activePoolCounts runs).getD key 0)

theorem Budget.covers_ofRuns (cfg : Config) (runs : List RunState) : (ofRuns cfg runs).Covers cfg runs [] := by
  refine ⟨rfl, rfl, fun hp => if_pos hp, ?_, ?_, ?_, ?_⟩
  · intro dag
    simp [dagCount, ofRuns, GoMap.getD]
  · intro dag m _
    simp [ofRuns, GoMap.getD]
  · intro hp key _
    simp [poolCount, ofRuns, hp]
  · intro hp key _ _
    simp [ofRuns, hp]

theorem Budget.Covers.fitsCaps {runs : List RunState} {dispatched : List (RunState × String)}
    (h : b.Covers cfg runs dispatched) : FitsCaps cfg runs dispatched := by
  refine ⟨?_, ?_⟩
  · intro dag m hcap
    have h1 := h.dags dag
    have h2 := h.headroom dag m hcap
    omega
  · intro hp tenant pool hbudget
    have hkey := poolKey_ne_empty tenant pool
    exact (h.pools hp _ hkey).trans (h.slots hp _ hkey hbudget)

theorem dagCount_append (dag : String) (dispatched : List (RunState × String)) (run : RunState)
    (tasks : List String) : dagCount dag (dispatched ++ tasks.map (run, ·)) =
      dagCount dag dispatched + if dag = run.dagID then tasks.length else 0 := by
  rw [dagCount, countP_append, countP_map, ← dagCount]
  congr 1
  by_cases hd : dag = run.dagID
  · simp [hd, Function.comp_def]
  · simp [hd, Ne.symm hd, Function.comp_def]

theorem poolCount_append (key : String) (dispatched : List (RunState × String)) (run : RunState)
    (tasks : List String) : poolCount key (dispatched ++ tasks.map (run, ·)) =
      poolCount key dispatched + tasks.countP (run.inPool key) := by
  rw [poolCount, countP_append, countP_map, ← poolCount]
  rfl

theorem Budget.prepare_promoted_le (hnd : (r.tasks.map TaskSpec.taskID).Nodup) (hlimit : 0 < r.maxActiveTasks) :
    ((promotedTasks (b.prepare r).planRun).length : Int) ≤
      max 0 (r.maxActiveTasks - (b.activeTasks.getD r.dagID 0 + b.admittedTasks.getD r.dagID 0)) := by
  have hroom : (b.prepare r).admissionHeadroom = _ := admissionHeadroom_of_limited hlimit
  exact hroom ▸ (b.prepare r).length_promotedTasks_le hnd

/-- A run's promotions are charged to the budget before the next run is planned. -/
theorem Budget.Covers.charge {runs : List RunState} {dispatched : List (RunState × String)}
    (h : b.Covers cfg runs dispatched) (hr : r ∈ runs) (hnd : (r.tasks.map TaskSpec.taskID).Nodup)
    {tasks : List String} (hsub : tasks.Sublist (promotedTasks (b.prepare r).planRun)) :
    (b.charge (b.prepare r)).Covers cfg runs (dispatched ++ tasks.map ((b.prepare r), ·)) := by
  have hlen := hsub.length_le
  refine ⟨h.activeTasks, h.poolsEnabled, h.poolBudgets, ?_, ?_, ?_, ?_⟩
  · intro dag
    have hdag := h.dags dag
    rw [dagCount_append, charge_admittedTasks]
    split <;> omega
  · intro dag m hcap
    have hroom := h.headroom dag m hcap
    rw [charge_admittedTasks]
    split
    next hd =>
      subst hd
      obtain ⟨hpos, hle⟩ := hcap r hr rfl
      have hplan := prepare_promoted_le (b := b) hnd hpos
      rw [h.activeTasks] at hplan
      simp only [prepare] at hroom hplan ⊢
      omega
    · omega
  · intro hp key hkey
    have hcount := hsub.countP_le (p := (b.prepare r).inPool key)
    have hpool := h.pools hp key hkey
    rw [poolCount_append, charge_poolOccupied (b.prepare r) hnd (h.poolsEnabled.trans hp) (h.poolsEnabled.trans hp)]
    omega
  · intro hp key hkey hbudget
    rw [charge_poolOccupied (b.prepare r) hnd (h.poolsEnabled.trans hp) (h.poolsEnabled.trans hp)]
    have hslots := h.slots hp key hkey hbudget
    have hplan := (b.prepare r).countP_promotedTasks_le hnd hkey (by simpa [prepare, h.poolBudgets hp] using hbudget)
    simp only [prepare, h.poolBudgets hp] at hplan ⊢
    omega

/-- The state of a `Step` that has lost no charge. -/
def StepOk (cfg : Config) (runs : List RunState) (tick : Option Tick) (log : StepLog) : Prop :=
  match tick with
  | none => FitsCaps cfg runs log.dispatched
  | some (.loading ..) => False
  | some (.between b rest) => rest ⊆ runs ∧ log.current = [] ∧ b.Covers cfg runs log.dispatched
  | some (.advancing b run ops rest) => rest ⊆ runs ∧ ∃ r ∈ runs, run = b.prepare r ∧
      (log.current ++ dispatchedTasks ops).Sublist (promotedTasks run.planRun) ∧
      ∃ past, log.dispatched = past ++ log.current.map (run, ·) ∧ b.Covers cfg runs past

theorem StepOk.fitsCaps (h : StepOk cfg (stepRuns cfg reads) tick log) :
    FitsCaps cfg (stepRuns cfg reads) log.dispatched := by
  match tick, h with
  | none, h => exact h
  | some (.between b rest), ⟨_, _, h⟩ => exact h.fitsCaps
  | some (.advancing b run ops rest), ⟨_, r, hr, hrun, hsub, past, hdisp, hcov⟩ =>
    subst hrun
    rw [hdisp]
    exact (hcov.charge hr (stepRuns_tasks_nodup hr) ((sublist_append_left _ _).trans hsub)).fitsCaps

/-- No `advance` that dispatched a task has failed. -/
def StepLog.LosesNoCharge (log : StepLog) : Prop :=
  ∀ e ∈ log.advanced, e.failed → e.tasks = []

/-- A step keeps the invariant unless an `advance` fails in it after a dispatch. -/
theorem StepOk.step {tick tick' : Option Tick} {log : StepLog} {a : Database × TickAction}
    (h : StepOk cfg (stepRuns cfg reads) tick log) (hs : (stepSystem cfg reads).step tick a = some tick')
    (hlost : (StepLog.note tick a tick' log).LosesNoCharge) :
    StepOk cfg (stepRuns cfg reads) tick' (StepLog.note tick a tick' log) := by
  obtain ⟨db, a⟩ := a
  simp only [stepSystem, Option.ite_none_left_eq_some] at hs
  cases Tick.moves_of_next hs.2 with
  | begin => exact absurd rfl hs.1
  | load | loaded => exact h.elim
  | start b r rest =>
    obtain ⟨hrest, hcur, hcov⟩ := h
    obtain ⟨hr, hrest⟩ := cons_subset.mp hrest
    refine ⟨hrest, r, hr, rfl, ?_, log.dispatched, ?_, hcov⟩
    · simp only [StepLog.note, hcur, nil_append]
      exact (b.prepare r).dispatchedTasks_advance cfg.dispatcher
    · simp [StepLog.note, hcur]
  | call b run op ops rest ids hop =>
    obtain ⟨hrest, r, hr, hrun, hsub, hpast⟩ := h
    refine ⟨hrest, r, hr, hrun, ?_, hpast⟩
    cases op <;> first | (cases hop; done) | exact hsub
  | skip b run op ops rest hop =>
    obtain ⟨hrest, r, hr, hrun, hsub, hpast⟩ := h
    refine ⟨hrest, r, hr, hrun, ?_, hpast⟩
    cases op <;> first | (cases hop; done) | exact hsub
  | dispatch b run task ops rest outcome =>
    obtain ⟨hrest, r, hr, hrun, hsub, past, hdisp, hcov⟩ := h
    have hops : dispatchedTasks (.dispatch task :: ops) = task :: dispatchedTasks ops := rfl
    rw [hops] at hsub
    cases outcome with
    | dispatched =>
      refine ⟨hrest, r, hr, hrun, ?_, past, ?_, hcov⟩
      · rw [run.dispatchedTasks_afterDispatch]
        simpa [StepLog.note] using hsub
      · simp [StepLog.note, hdisp]
    | backpressure | rejected =>
      refine ⟨hrest, r, hr, hrun, ?_, past, hdisp, hcov⟩
      rw [run.dispatchedTasks_afterDispatch]
      exact ((sublist_cons_self _ _).append_left _).trans hsub
  | abandon b run ops rest =>
    obtain ⟨hrest, r, hr, hrun, hsub, past, hdisp, hcov⟩ := h
    have hnil : log.current = [] := hlost _ (mem_append_right _ mem_cons_self) rfl
    refine ⟨hrest, rfl, ?_⟩
    simpa [StepLog.note, StepLog.returned, hdisp, hnil] using hcov
  | finish b run rest =>
    obtain ⟨hrest, r, hr, hrun, hsub, past, hdisp, hcov⟩ := h
    refine ⟨hrest, rfl, ?_⟩
    subst hrun
    simp only [StepLog.note, StepLog.returned, hdisp]
    exact hcov.charge hr (stepRuns_tasks_nodup hr) ((sublist_append_left _ _).trans hsub)
  | stop t => exact h.fitsCaps

theorem Advanced.isCharged_charge (hnd : (r.tasks.map TaskSpec.taskID).Nodup) {tasks : List String}
    (hsub : tasks.Sublist (promotedTasks (b.prepare r).planRun)) :
    (⟨b.prepare r, tasks, false, b, b.charge (b.prepare r)⟩ : Advanced).IsCharged := by
  refine ⟨?_, ?_⟩
  · have hlen := hsub.length_le
    rw [charge_admittedTasks, if_pos rfl]
    dsimp only
    omega
  · intro hp tenant pool
    have hcount := hsub.countP_le (p := (b.prepare r).inPool (poolKey tenant pool))
    rw [charge_poolOccupied (b.prepare r) hnd hp hp]
    dsimp only
    omega

theorem StepLog.advanced_subset (tick tick' : Option Tick) (a : Database × TickAction)
    (log : StepLog) : log.advanced ⊆ (StepLog.note tick a tick' log).advanced := by
  unfold StepLog.note StepLog.returned
  (repeat' split) <;> simp

theorem StepLog.mem_advanced {tick' : Option Tick} {a : Database × TickAction}
    (hs : (stepSystem cfg reads).step tick a = some tick') {e : Advanced}
    (he : e ∈ (StepLog.note tick a tick' log).advanced) :
    e ∈ log.advanced ∨ (∃ b run ops rest, tick = some (.advancing b run ops rest) ∧
        e = ⟨run, log.current, true, b, b⟩) ∨
      ∃ b run rest, tick = some (.advancing b run [] rest) ∧ e = ⟨run, log.current, false, b, b.charge run⟩ := by
  obtain ⟨db, a⟩ := a
  simp only [stepSystem, Option.ite_none_left_eq_some] at hs
  cases Tick.moves_of_next hs.2 with
  | abandon b run ops rest =>
    rcases mem_append.mp he with he | he
    · exact .inl he
    · exact .inr (.inl ⟨b, run, ops, rest, rfl, mem_singleton.mp he⟩)
  | finish b run rest =>
    rcases mem_append.mp he with he | he
    · exact .inl he
    · exact .inr (.inr ⟨b, run, rest, rfl, mem_singleton.mp he⟩)
  | dispatch b run task ops rest outcome => cases outcome <;> exact .inl he
  | _ => exact .inl he

theorem StepLog.after_of_failed (h : (loggedStep cfg reads).Reachable (tick, log)) :
    ∀ e ∈ log.advanced, e.failed → e.after = e.before := by
  refine Lib.System.Reachable.ghost_invariant
    (I := fun _ (log : StepLog) => ∀ e ∈ log.advanced, e.failed → e.after = e.before) ?_ ?_ h
  · intro _ _ e he
    cases he
  · intro tick a tick' log _ ih hs e he hf
    rcases StepLog.mem_advanced hs he with he | ⟨b, run, ops, rest, -, rfl⟩ | ⟨b, run, rest, -, rfl⟩
    · exact ih e he hf
    · rfl
    · cases hf

theorem stepOk_of_losesNoCharge (h : (loggedStep cfg reads).Reachable (tick, log)) (hlost : log.LosesNoCharge) :
    StepOk cfg (stepRuns cfg reads) tick log ∧ ∀ e ∈ log.advanced, e.IsCharged := by
  revert hlost
  refine Lib.System.Reachable.ghost_invariant (I := fun tick (log : StepLog) => log.LosesNoCharge →
    StepOk cfg (stepRuns cfg reads) tick log ∧ ∀ e ∈ log.advanced, e.IsCharged) ?_ ?_ h
  · rintro _ rfl -
    refine ⟨⟨List.Subset.refl _, rfl, covers_ofRuns _ _⟩, ?_⟩
    intro e he
    cases he
  · intro tick a tick' log _ ih hs hlost
    obtain ⟨hok, hcharged⟩ := ih fun e he => hlost e (StepLog.advanced_subset _ _ _ _ he)
    refine ⟨hok.step hs hlost, ?_⟩
    intro e he
    rcases StepLog.mem_advanced hs he with he' | ⟨b, run, ops, rest, rfl, rfl⟩ | ⟨b, run, rest, rfl, rfl⟩
    · exact hcharged e he'
    · have hnil : log.current = [] := hlost _ he rfl
      simp only [hnil]
      exact ⟨by simp, by simp⟩
    · obtain ⟨-, r, hr, rfl, htasks, -⟩ := hok
      exact Advanced.isCharged_charge (stepRuns_tasks_nodup hr) ((sublist_append_left _ _).trans htasks)

/-- **Admission caps within a tick.** At every point of a `Step`, what it has dispatched fits under
the caps and is charged to the runs after it exactly where no `advance` has failed after a dispatch
of its own went through. -/
theorem step_within_caps_iff {tick : Option Tick} {log : StepLog} (h : (loggedStep cfg reads).Reachable (tick, log)) :
    WithinCaps cfg (stepRuns cfg reads) log ↔ log.LosesNoCharge := by
  constructor
  · intro hcaps e he hf
    have hdag := (hcaps.charged e he).dag
    rw [StepLog.after_of_failed h e he hf] at hdag
    exact eq_nil_of_length_eq_zero (by omega)
  · intro hlost
    obtain ⟨hok, hcharged⟩ := stepOk_of_losesNoCharge h hlost
    exact ⟨hok.fitsCaps, hcharged⟩

end Step

/-- Two runs of a DAG with a cap of one, each with a scheduled task. -/
def twoRuns : List (Database × DagRun) :=
  let row (run : String) : TaskInstance :=
    { id := run, dagRunId := run, taskId := "task", tryNumber := 1, maxTries := 1,
      state := .scheduled }
  let db : Database := { now := 1, runs := [], tis := [row "run", row "sibling"] }
  [(db, { id := "run", dagVersionId := "v1", state := .running, queuedAt := 0 }),
    (db, { id := "sibling", dagVersionId := "v1", state := .running, queuedAt := 0 })]

/-- A DAG that may run one task at a time. -/
def capOfOne : Config where
  spec _ := { dagID := "dag", tasks := [{ taskID := "task" }], maxActiveTasks := 1,
              distinct := nodup_singleton "task" }

/-- A tick that has read both runs. -/
def beforeRuns : Option Tick × StepLog :=
  (some (.between (.ofRuns capOfOne (stepRuns capOfOne twoRuns)) (stepRuns capOfOne twoRuns)), {})

theorem beforeRuns_reachable : (loggedStep capOfOne twoRuns).Reachable beforeRuns :=
  .init ⟨rfl, rfl⟩

/-- The first run dispatches its task and finishes, and the second finds no headroom. -/
def siblingWaits : List (Database × TickAction) :=
  [.start, .dispatch .dispatched false, .call [], .finish, .start, .finish].map (⟨1, [], [], []⟩, ·)

/-- The first run dispatches its task and fails at the `queued` write, and the second dispatches its
task too. -/
def siblingStarts : List (Database × TickAction) :=
  [.start, .dispatch .dispatched false, .abandon, .start, .dispatch .dispatched false].map (⟨1, [], [], []⟩, ·)

theorem step_within_caps_no_failure : ∃ s, (loggedStep capOfOne twoRuns).run beforeRuns siblingWaits = some s ∧
      s.2.dispatched.length = 1 ∧ s.2.advanced.length = 2 ∧
      WithinCaps capOfOne (stepRuns capOfOne twoRuns) s.2 := by
  have hrun := (Option.some_get (x := (loggedStep capOfOne twoRuns).run beforeRuns siblingWaits)
    (by decide +kernel)).symm
  refine ⟨_, hrun, by decide +kernel, by decide +kernel, ?_⟩
  refine (step_within_caps_iff (beforeRuns_reachable.run hrun)).mpr ?_
  unfold StepLog.LosesNoCharge
  decide +kernel

/-- A lost charge lets the sibling over the cap. -/
theorem step_over_cap : ¬ ∀ (cfg : Config) (reads : List (Database × DagRun)) (tick : Option Tick)
    (log : StepLog), (loggedStep cfg reads).Reachable (tick, log) →
    WithinCaps cfg (stepRuns cfg reads) log := by
  intro h
  have hrun := (Option.some_get (x := (loggedStep capOfOne twoRuns).run beforeRuns siblingStarts)
    (by decide +kernel)).symm
  have hcaps := h capOfOne twoRuns _ _ (beforeRuns_reachable.run hrun)
  have hone : CapsAt (stepRuns capOfOne twoRuns) "dag" 1 := by
    unfold CapsAt
    decide +kernel
  exact absurd (hcaps.fits.dags "dag" 1 hone) (by decide +kernel)

end Leoflow
