import Leoflow.Api.Clear

/-!
# The preview of a clear and its effect

A dry run answers with the task instances the clear would touch. The preview is a filter over the listed rows, the
effect a choice between three statements. They disagree on two kinds of input: `up_for_retry` counts as failed for
the statements and not for the filter, and a request without task ids that asks for everything is previewed as
everything and resets nothing.
-/

namespace Leoflow

namespace Site

variable {T : Tables} (s : Site T)

/-- The preview of a clear of one run names the task instances that the clear resets. -/
def PreviewsEffect (now : Time) (dag : Dag) (runID : String) (taskIDs : List String)
    (onlyFailed : Bool) (opts : ClearOptions) : Prop :=
  ∀ key, key ∈ (s.affectedTaskInstances dag.id runID taskIDs onlyFailed).map TaskInstance.key ↔
    (s.database now).Resets (s.clearRuns dag taskIDs onlyFailed opts (s.database now) [runID]).2 key

/-- Neither kind of input: with `only_failed` no selected task of the run waits for its retry, and
without it a run that has task instances is cleared by naming tasks. -/
structure SameSelection (dag runID : String) (taskIDs : List String) (onlyFailed : Bool) : Prop where
  noRetry : onlyFailed → ∀ run, s.getDagRun dag runID = some run → ∀ r ∈ s.tis,
    r.dagRunId = run.id → taskIDs = [] ∨ r.taskId ∈ taskIDs → r.state ≠ .upForRetry
  named : onlyFailed = false → taskIDs = [] → ∀ run, s.getDagRun dag runID = some run → ∀ r ∈ s.tis, r.dagRunId ≠ run.id

variable {s} {now : Time} {dag : Dag} {runID : String} {taskIDs : List String} {onlyFailed : Bool}
  {opts : ClearOptions} {run : RunRow}

theorem mem_affectedTaskInstances (hrun : s.getDagRun dag.id runID = some run) {r : TaskInstance} :
    r ∈ s.affectedTaskInstances dag.id runID taskIDs onlyFailed ↔
      r ∈ s.tis ∧ r.dagRunId = run.id ∧ (taskIDs = [] ∨ r.taskId ∈ taskIDs) ∧
        (onlyFailed → r.state = .failed ∨ r.state = .upstreamFailed) := by
  unfold affectedTaskInstances
  rw [hrun, List.mem_filter, mem_listTaskInstancesByRun, and_assoc]
  cases onlyFailed <;> simp [database]

theorem resets_clearRuns (hrun : s.getDagRun dag.id runID = some run) {key : String × String} :
    (s.database now).Resets (s.clearRuns dag taskIDs onlyFailed opts (s.database now) [runID]).2 key ↔
      ∃ r ∈ s.tis, r.key = key ∧ r.dagRunId = run.id ∧ (r.taskId ∈ taskIDs ∨ taskIDs = [] ∧ onlyFailed) ∧
          (onlyFailed → r.state.isFailedish) := by
  have hdb : (s.clearRuns dag taskIDs onlyFailed opts (s.database now) [runID]).2 =
      (clearRun dag taskIDs onlyFailed opts run).apply (s.database now) := by
    simp only [clearRuns, hrun]
    split <;> rfl
  rw [hdb, Database.resets_iff s.tisUnique (Clear.isClear_statements _) (Clear.apply_tis _ _).1, clearRun_statements]
  simp only [Clear.guard_statements_iff]
  rfl

theorem affectedTaskInstances_of_none (h : s.getDagRun dag.id runID = none) :
    s.affectedTaskInstances dag.id runID taskIDs onlyFailed = [] := by
  unfold affectedTaskInstances
  rw [h]

theorem previewsEffect_of_none (h : s.getDagRun dag.id runID = none) :
    s.PreviewsEffect now dag runID taskIDs onlyFailed opts := by
  intro key
  have hdb : (s.clearRuns dag taskIDs onlyFailed opts (s.database now) [runID]).2 =
      s.database now := by
    simp only [clearRuns, h]
  rw [hdb, affectedTaskInstances_of_none h]
  constructor
  · intro hmem
    cases hmem
  · rintro ⟨r, hr, r', hr', hkey, hkey', -, hlt⟩
    rw [List.inj_on_of_nodup_map s.tisUnique hr hr' (hkey.trans hkey'.symm)] at hlt
    exact absurd hlt (Nat.lt_irrefl _)

/-- The filter and the statements select the same rows. -/
theorem previewsEffect_iff_rows (hrun : s.getDagRun dag.id runID = some run) :
    s.PreviewsEffect now dag runID taskIDs onlyFailed opts ↔ ∀ r ∈ s.tis, r.dagRunId = run.id →
        ((taskIDs = [] ∨ r.taskId ∈ taskIDs) ∧ (onlyFailed → r.state = .failed ∨ r.state = .upstreamFailed) ↔
          (r.taskId ∈ taskIDs ∨ taskIDs = [] ∧ onlyFailed) ∧
            (onlyFailed → r.state.isFailedish)) := by
  unfold PreviewsEffect
  simp only [resets_clearRuns hrun, List.mem_map, mem_affectedTaskInstances hrun]
  constructor
  · intro h r hr hid
    have hkey := h r.key
    constructor
    · intro hsel
      obtain ⟨q, hq, hqk, -, hcond⟩ := hkey.mp ⟨r, ⟨hr, hid, hsel⟩, rfl⟩
      obtain rfl := List.inj_on_of_nodup_map s.tisUnique hq hr hqk
      exact hcond
    · intro hsel
      obtain ⟨q, ⟨hq, -, hcond⟩, hqk⟩ := hkey.mpr ⟨r, hr, rfl, hid, hsel⟩
      obtain rfl := List.inj_on_of_nodup_map s.tisUnique hq hr hqk
      exact hcond
  · intro h key
    constructor
    · rintro ⟨r, ⟨hr, hid, hsel⟩, rfl⟩
      exact ⟨r, hr, rfl, hid, (h r hr hid).mp hsel⟩
    · rintro ⟨r, hr, rfl, hid, hsel⟩
      exact ⟨r, ⟨hr, hid, (h r hr hid).mpr hsel⟩, rfl⟩

end Site

theorem TaskState.isFailedish_iff (st : TaskState) : st.isFailedish ↔
    (st = .failed ∨ st = .upstreamFailed) ∨ st = .upForRetry := by
  cases st <;> simp [TaskState.isFailedish]

/-- The preview of a clear is its effect exactly where neither kind of input is met. -/
theorem Site.previewsEffect_iff {T : Tables} (s : Site T) (now : Time) (dag : Dag) (runID : String)
    (taskIDs : List String) (onlyFailed : Bool) (opts : ClearOptions) :
    s.PreviewsEffect now dag runID taskIDs onlyFailed opts ↔ s.SameSelection dag.id runID taskIDs onlyFailed := by
  cases hrun : s.getDagRun dag.id runID with
  | none =>
    constructor
    · intro _
      exact ⟨fun _ run h => (by cases hrun.symm.trans h), fun _ _ run h => (by cases hrun.symm.trans h)⟩
    · intro _
      exact previewsEffect_of_none hrun
  | some run =>
    rw [previewsEffect_iff_rows hrun]
    have hsame : ∀ run', s.getDagRun dag.id runID = some run' → run' = run := fun run' h =>
      Option.some.inj (h.symm.trans hrun)
    cases onlyFailed with
    | true =>
      constructor
      · intro h
        refine ⟨fun _ run' h' r hr hid hsel hretry => ?_, fun h => (by cases h)⟩
        rw [hsame run' h'] at hid
        have hboth := (h r hr hid).mpr ⟨by grind, fun _ => by rw [hretry]; rfl⟩
        rcases hboth.2 rfl with hst | hst
        · cases hst.symm.trans hretry
        · cases hst.symm.trans hretry
      · intro h r hr hid
        have hno := h.noRetry rfl run hrun r hr hid
        rw [TaskState.isFailedish_iff]
        grind
    | false =>
      constructor
      · intro h
        refine ⟨fun h => (by cases h), fun _ hnil run' h' r hr hid => ?_⟩
        rw [hsame run' h'] at hid
        have hsel := (h r hr hid).mp ⟨.inl hnil, fun h => (by cases h)⟩
        rcases hsel.1 with hmem | ⟨-, h⟩
        · rw [hnil] at hmem
          cases hmem
        · cases h
      · intro h r hr hid
        have hne : taskIDs ≠ [] := fun hnil => h.named rfl hnil run hrun r hr hid
        grind

/-! ## A task that waits for its retry -/

/-- The version of a DAG of one task. -/
def etlVersion : Version where
  id := "v1"
  dag := "d0"
  spec := { dagID := "etl", tasks := [{ taskID := "load" }], distinct := by decide }

/-- A DAG with one version. -/
def etlDag : Dag :=
  { id := "d0", tenantId := "t0", dagId := "etl", currentVersionId := some "v1" }

/-- Its tables. -/
def etlTables : Tables where
  tenants := [⟨"t0", "default"⟩]
  dags := [etlDag]
  versions := [etlVersion]
  tenantIds := List.nodup_singleton "t0"
  tenantNames := List.nodup_singleton "default"
  dagIds := by simp
  dagsUniquePerTenant := by simp
  versionIds := by simp
  owned := by simp [etlDag]
  deployed := by simp [etlDag, etlVersion]
  current := by simp [etlDag, etlVersion]
  uuids := by simp

/-- A run of it. -/
def waitingRun : RunRow :=
  { id := "r1", tenantId := "t0", dagVersionId := "v1", queuedAt := 0, dag := "d0",
    runId := "manual", logicalDate := 0, trigger := .manual }

/-- The task failed once and waits for its retry. -/
def waitingLoad : TaskInstance :=
  { id := "i1", dagRunId := "r1", taskId := "load", tryNumber := 1, maxTries := 2,
    state := .upForRetry }

/-- The run with a task that waits. -/
def waitingSite : Site etlTables where
  runs := [waitingRun]
  tis := [waitingLoad]
  runIds := by decide
  dagRunsUnique := by decide
  bound := by simp [etlTables, etlDag, etlVersion, waitingRun]
  placed := by simp [waitingRun, waitingLoad]
  tisUnique := by decide

theorem getDagRun_waitingSite : waitingSite.getDagRun etlDag.id "manual" = some waitingRun := rfl

/-- A clear of the failed tasks previews nothing and resets the task; a clear of everything previews
the task and resets nothing. -/
theorem preview_not_effect : ¬ waitingSite.PreviewsEffect 0 etlDag "manual" [] true ⟨true, false⟩ ∧
      ¬ waitingSite.PreviewsEffect 0 etlDag "manual" [] false ⟨true, false⟩ := by
  constructor
  · intro h
    have hrows := (Site.previewsEffect_iff_rows getDagRun_waitingSite).mp h waitingLoad List.mem_cons_self rfl
    exact absurd hrows (by decide)
  · intro h
    have hrows := (Site.previewsEffect_iff_rows getDagRun_waitingSite).mp h waitingLoad List.mem_cons_self rfl
    exact absurd hrows (by decide)

end Leoflow
