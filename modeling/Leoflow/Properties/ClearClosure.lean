import Leoflow.Api.Expansion

/-!
# A clear and the graph its runs execute

Without `run_on_latest_version` a cleared run goes on with the version it is pinned to. The task set
of a clear is expanded once, along the current version of the DAG, and applied to every target run. It
is the closure of the seeds in the graph of a run where the two versions agree on it.
-/

namespace Leoflow

open Relation (TransGen)

variable {run : RunRow} {tasks : List TaskSpec} {id : String}

namespace ClearRequest

variable (body : ClearRequest)

/-- The request is for failed tasks, as it is by default. -/
def failedOnly : Bool := body.onlyFailed.getD true

/-- The request executes, and leaves each run at its version. -/
structure KeepsVersion : Prop where
  executes : body.dryRun = some false
  accepted : body.onlyRunning ≠ some true
  version : body.runOnLatestVersion ≠ some true

/-- The states of a row that `only_failed` leaves to a clear. -/
def admits (state : TaskState) : Prop := body.failedOnly → state.isFailedish

/-- What a request asks for in a run of these tasks. A request without task ids is for the failed tasks
of the run. -/
def Asks (tasks : List TaskSpec) (id : String) : Prop :=
  body.Selects tasks id ∨ body.taskIDs = [] ∧ body.failedOnly

end ClearRequest

namespace Site

variable {T : Tables} (s : Site T)

/-- The tasks of a run, by the version it is pinned to. -/
def pinnedTasks (_ : Site T) (run : RunRow) : List TaskSpec := (T.specOf run.dagVersionId).tasks

/-- The runs the request is for. -/
def targets (dag : Dag) (body : ClearRequest) : List String :=
  s.clearTargetRuns dag.id body.dagRunID body.includePast body.includeFuture

/-- A task instance that the request resets. -/
def IsReset (now : Time) (dag : Dag) (body : ClearRequest) (r : TaskInstance) : Prop :=
  (s.database now).Resets (clearTaskInstancesHandler s now dag body).2 r.key

/-- A clear follows the graph of a run: it resets the closure of its seeds there, and with `include_downstream` no
task keeps a success while one upstream of it runs again. What `only_failed` leaves alone is not asked for. -/
structure FollowsRun (now : Time) (dag : Dag) (body : ClearRequest) (run : RunRow) : Prop where
  closure : ∀ r ∈ s.tis, r.dagRunId = run.id → (s.IsReset now dag body r ↔
    body.Asks (s.pinnedTasks run) r.taskId ∧ body.admits r.state)
  noStale : body.includeDownstream → body.failedOnly = false →
    ∀ r ∈ s.tis, r.dagRunId = run.id → r.state = .success → ¬ s.IsReset now dag body r →
      ∀ r' ∈ s.tis, r'.dagRunId = run.id →
        TransGen (DependsOn (s.pinnedTasks run)) r.taskId r'.taskId → ¬ s.IsReset now dag body r'

/-- A clear follows the graph of each of its runs. -/
def FollowsRuns (now : Time) (dag : Dag) (body : ClearRequest) : Prop :=
  ∀ runID ∈ s.targets dag body, ∀ run, s.getDagRun dag.id runID = some run → s.FollowsRun now dag body run

/-- The current version and that of a run agree on a request: the closures of the seeds hold the same tasks of the
run, and where both directions are asked for, no success outside the closure lies downstream of a task above the
seeds. -/
structure AgreeOnClosure (dag : Dag) (body : ClearRequest) (run : RunRow) : Prop where
  closure : ∀ r ∈ s.tis, r.dagRunId = run.id → body.admits r.state →
    (body.Selects (T.currentTasks dag) r.taskId ↔ body.Selects (s.pinnedTasks run) r.taskId)
  noSibling : body.includeUpstream → body.includeDownstream →
    body.failedOnly = false → ∀ r ∈ s.tis, r.dagRunId = run.id → r.state = .success →
      ¬ body.Selects (s.pinnedTasks run) r.taskId → ∀ r' ∈ s.tis, r'.dagRunId = run.id →
        Above (s.pinnedTasks run) body.taskIDs r'.taskId → ¬ TransGen (DependsOn (s.pinnedTasks run)) r.taskId r'.taskId

variable {s} {now : Time} {dag : Dag} {body : ClearRequest}

theorem handler_database (hkeep : body.KeepsVersion) : (clearTaskInstancesHandler s now dag body).2 =
      (s.clearRuns dag (expandClearTasks (T.getCurrentSpec dag) body) body.failedOnly
        ⟨body.resetDagRuns.getD true, false⟩ (s.database now) (s.targets dag body)).2 := by
  have hrunning : (body.onlyRunning == some true) = false := by
    simpa using hkeep.accepted
  have hlatest : body.runOnLatestVersion.getD false = false := by
    cases hv : body.runOnLatestVersion with
    | none => rfl
    | some b =>
      cases b with
      | false => rfl
      | true => exact absurd hv hkeep.version
  unfold clearTaskInstancesHandler
  simp only [hrunning, hkeep.executes, hlatest, Option.getD_some, Bool.false_eq_true, if_false]
  split <;> rename_i heq <;> exact (congrArg Prod.snd heq).symm

theorem isReset_iff (hkeep : body.KeepsVersion)
    (hsep : Separated (T.currentTasks dag) body.taskIDs body.includeUpstream body.includeDownstream) {runID : String}
    (hmem : runID ∈ s.targets dag body) (hrun : s.getDagRun dag.id runID = some run) {r : TaskInstance}
    (hr : r ∈ s.tis) (hid : r.dagRunId = run.id) :
    s.IsReset now dag body r ↔ body.Asks (T.currentTasks dag) r.taskId ∧ body.admits r.state := by
  have hfound : ∀ id ∈ s.targets dag body, ∃ run, s.getDagRun dag.id id = some run := by
    cases hcur : s.getDagRun dag.id body.dagRunID with
    | some cur => exact s.exists_of_mem_clearTargetRuns hcur
    | none =>
      -- the named run is then the only target, and it is not found
      have honly : s.targets dag body = [body.dagRunID] := by
        unfold targets clearTargetRuns
        rw [hcur]
        split <;> rfl
      rw [honly, List.mem_singleton] at hmem
      rw [hmem, hcur] at hrun
      cases hrun
  have hgo : rebindFails dag ⟨body.resetDagRuns.getD true, false⟩ = false := by
    simp [rebindFails]
  unfold IsReset
  rw [handler_database hkeep, s.resets_clearRuns_iff hgo hfound hmem hrun hr hid,
    mem_expandClearTasks hsep, expandClearTasks_eq_nil hsep]
  rfl

theorem selects_of_downstream (hdown : body.includeDownstream) {up : String}
    (hpath : TransGen (DependsOn tasks) id up) (hup : up ∈ body.taskIDs ∨ Below tasks body.taskIDs up) :
    body.Selects tasks id := by
  refine .inr (.inr ⟨hdown, ?_⟩)
  rcases hup with hseed | ⟨seed, hseed, hrest⟩
  · exact ⟨up, hseed, hpath⟩
  · exact ⟨seed, hseed, hpath.trans hrest⟩

theorem asks_iff_of_cons (h : body.taskIDs ≠ []) : body.Asks tasks id ↔ body.Selects tasks id := by
  unfold ClearRequest.Asks
  simp [h]

theorem taskIDs_ne_nil_of_selects (h : body.Selects tasks id) : body.taskIDs ≠ [] := by
  intro hnil
  unfold ClearRequest.Selects at h
  rw [hnil] at h
  exact inClosure_no_seeds h

/-- The clear follows the run's version exactly if both versions have the same closure. -/
theorem followsRun_iff (hkeep : body.KeepsVersion)
    (hsep : Separated (T.currentTasks dag) body.taskIDs body.includeUpstream body.includeDownstream) {runID : String}
    (hmem : runID ∈ s.targets dag body) (hrun : s.getDagRun dag.id runID = some run) :
    s.FollowsRun now dag body run ↔ s.AgreeOnClosure dag body run := by
  have hreset : ∀ r ∈ s.tis, r.dagRunId = run.id → (s.IsReset now dag body r ↔
      body.Asks (T.currentTasks dag) r.taskId ∧ body.admits r.state) := fun r hr hid =>
    isReset_iff hkeep hsep hmem hrun hr hid
  constructor
  · intro h
    constructor
    · intro r hr hid hadm
      have heq := (hreset r hr hid).symm.trans (h.closure r hr hid)
      constructor
      · intro hsel
        have hne := taskIDs_ne_nil_of_selects hsel
        exact (asks_iff_of_cons hne).mp (heq.mp ⟨.inl hsel, hadm⟩).1
      · intro hsel
        have hne := taskIDs_ne_nil_of_selects hsel
        exact (asks_iff_of_cons hne).mp (heq.mpr ⟨.inl hsel, hadm⟩).1
    · intro hup hdown hall r hr hid hsucc hnot r' hr' hid' habove hpath
      have hadm : ∀ st, body.admits st := fun st hf => (by cases hall.symm.trans hf)
      have hsel : body.Selects (s.pinnedTasks run) r'.taskId := .inr (.inl ⟨hup, habove⟩)
      have hne := taskIDs_ne_nil_of_selects hsel
      have hkept : ¬ s.IsReset now dag body r := fun hres =>
        hnot ((asks_iff_of_cons hne).mp ((h.closure r hr hid).mp hres).1)
      exact h.noStale hdown hall r hr hid hsucc hkept r' hr' hid' hpath
        ((h.closure r' hr' hid').mpr ⟨.inl hsel, hadm _⟩)
  · intro h
    have hclosure : ∀ r ∈ s.tis, r.dagRunId = run.id → (s.IsReset now dag body r ↔
        body.Asks (s.pinnedTasks run) r.taskId ∧ body.admits r.state) := by
      intro r hr hid
      rw [hreset r hr hid]
      apply and_congr_left
      intro hadm
      exact or_congr_left (h.closure r hr hid hadm)
    refine ⟨hclosure, ?_⟩
    intro hdown hall r hr hid hsucc hkept r' hr' hid' hpath hres
    have hnot : ¬ body.Selects (s.pinnedTasks run) r.taskId := fun hsel =>
      hkept ((hclosure r hr hid).mpr ⟨.inl hsel, fun hf => (by cases hall.symm.trans hf)⟩)
    rcases ((hclosure r' hr' hid').mp hres).1 with hsel | ⟨-, hf⟩
    · rcases hsel with hseed | ⟨hup, habove⟩ | ⟨-, hbelow⟩
      · exact hnot (selects_of_downstream hdown hpath (.inl hseed))
      · exact h.noSibling hup hdown hall r hr hid hsucc hnot r' hr' hid' habove hpath
      · exact hnot (selects_of_downstream hdown hpath (.inr hbelow))
    · cases hall.symm.trans hf

/-- A clear follows the graphs of its runs exactly where each agrees with the current version on the
closure of the seeds. -/
theorem followsRuns_iff (hkeep : body.KeepsVersion)
    (hsep : Separated (T.currentTasks dag) body.taskIDs body.includeUpstream body.includeDownstream) :
    s.FollowsRuns now dag body ↔ ∀ runID ∈ s.targets dag body, ∀ run,
      s.getDagRun dag.id runID = some run → s.AgreeOnClosure dag body run := by
  constructor
  · intro h runID hmem run hrun
    exact (followsRun_iff hkeep hsep hmem hrun).mp (h runID hmem run hrun)
  · intro h runID hmem run hrun
    exact (followsRun_iff hkeep hsep hmem hrun).mpr (h runID hmem run hrun)

end Site

theorem Site.agreeOnClosure_of_current {T : Tables} {s : Site T} {dag : Dag} {body : ClearRequest}
    (hpinned : s.pinnedTasks run = T.currentTasks dag) (hone : ¬ (body.includeUpstream ∧ body.includeDownstream)) :
    s.AgreeOnClosure dag body run where
  closure _ _ _ _ := by rw [hpinned]
  noSibling hup hdown := absurd ⟨hup, hdown⟩ hone

/-! ## A dependency that the current version no longer has -/

/-- Two versions of a DAG: in the first one `load` depends on `extract`. -/
def rewiredVersion (id : String) (deps : List String) : Version where
  id := id
  dag := "d0"
  spec :=
    { dagID := "etl"
      tasks := [{ taskID := "extract" }, { taskID := "load", dependsOn := deps }]
      distinct := by simp }

/-- A DAG on one of two versions. -/
def rewiredDag (current : String) : Dag :=
  { id := "d0", tenantId := "t0", dagId := "etl", currentVersionId := some current }

theorem uuid_t0 : ∀ t ∈ [Tenant.mk "t0" "default"], '\x00' ∉ t.id.toList := by
  simp

/-- Its tables. -/
def rewiredTables (current : String) (h : current = "v1" ∨ current = "v2") : Tables where
  tenants := [⟨"t0", "default"⟩]
  dags := [rewiredDag current]
  versions := [rewiredVersion "v1" ["extract"], rewiredVersion "v2" []]
  tenantIds := List.nodup_singleton "t0"
  tenantNames := List.nodup_singleton "default"
  dagIds := by simp
  dagsUniquePerTenant := by simp
  versionIds := by simp [rewiredVersion]
  owned := by simp [rewiredDag]
  deployed := by simp [rewiredDag, rewiredVersion]
  current := by
    rcases h with rfl | rfl <;> simp [rewiredDag, rewiredVersion]
  uuids := uuid_t0

/-- A run on the first version. -/
def pinnedRun : RunRow :=
  { id := "r1", tenantId := "t0", dagVersionId := "v1", queuedAt := 0, dag := "d0",
    runId := "manual", logicalDate := 0, trigger := .manual }

/-- A task of that run that has succeeded. -/
def finishedTask (id task : String) : TaskInstance :=
  { id := id, dagRunId := "r1", taskId := task, tryNumber := 1, maxTries := 1, state := .success }

/-- A run of the first version that has succeeded. -/
def pinnedSite (current : String) (h : current = "v1" ∨ current = "v2") : Site (rewiredTables current h) where
  runs := [pinnedRun]
  tis := [finishedTask "i1" "extract", finishedTask "i2" "load"]
  runIds := by decide
  dagRunsUnique := by decide
  bound := by simp [rewiredTables, rewiredDag, rewiredVersion, pinnedRun]
  placed := by simp [pinnedRun, finishedTask]
  tisUnique := by decide

/-- `extract` again, with what depends on it. -/
def clearExtract : ClearRequest where
  taskIDs := ["extract"]
  dagRunID := "manual"
  onlyFailed := some false
  dryRun := some false
  includeDownstream := true

theorem keepsVersion_clearExtract : clearExtract.KeepsVersion :=
  ⟨rfl, by decide, by decide⟩

theorem separated_clearExtract (tasks : List TaskSpec) : Separated tasks clearExtract.taskIDs
    clearExtract.includeUpstream clearExtract.includeDownstream :=
  fun h => by cases h

/-- With the first version current the clear follows the run. -/
theorem followsRuns_current : clearExtract.KeepsVersion ∧
    (pinnedSite "v1" (.inl rfl)).FollowsRuns 0 (rewiredDag "v1") clearExtract := by
  refine ⟨keepsVersion_clearExtract, ?_⟩
  apply (Site.followsRuns_iff keepsVersion_clearExtract (separated_clearExtract _)).mpr
  intro runID hmem run hrun
  have hrun' : run = pinnedRun := by
    rw [List.mem_singleton.mp hmem] at hrun
    exact (Option.some.inj hrun).symm
  subst hrun'
  exact Site.agreeOnClosure_of_current rfl (by decide)

/-- With the second one current it resets `extract` and leaves the success of `load`, which the run
computes from it. -/
theorem clear_leaves_stale_success : ¬ (pinnedSite "v2" (.inr rfl)).FollowsRuns 0 (rewiredDag "v2") clearExtract := by
  intro h
  have hrun := h "manual" List.mem_cons_self pinnedRun rfl
  have hagree := (Site.followsRun_iff keepsVersion_clearExtract (separated_clearExtract _)
    List.mem_cons_self rfl).mp hrun
  have hload := hagree.closure (finishedTask "i2" "load") (by simp [pinnedSite]) rfl (fun hf => absurd hf (by decide))
  have hown : clearExtract.Selects ((pinnedSite "v2" (.inr rfl)).pinnedTasks pinnedRun) "load" :=
    .inr (.inr ⟨rfl, "extract", List.mem_cons_self, .single ⟨{ taskID := "load", dependsOn := ["extract"] },
      by decide, rfl, by decide⟩⟩)
  have hcurrent := (mem_expandClearTasks (separated_clearExtract _)).mpr (hload.mpr hown)
  exact absurd hcurrent (by decide)

end Leoflow
