import Leoflow.Api.Runs
import Leoflow.Domain.Graph
import Leoflow.Lib.Marking
import Leoflow.Storage.Tenancy
import Leoflow.System.Step

/-!
# The clear endpoint

`clearTaskInstancesHandler` of `internal/api/resources.go` with the expansion of the task set, the choice of the runs,
the preview and `ClearTaskInstances` of `internal/storage/repository.go`. What a clear writes is the list of statements
that `clearTaskInstances` of the system issues, without another party in between.
-/

namespace Leoflow

open Lib (GoMap)
open Lib.Update List

/-- An absent flag is `none`. -/
structure ClearRequest where
  taskIDs : List String
  dagRunID : String
  onlyFailed : Option Bool := none
  onlyRunning : Option Bool := none
  resetDagRuns : Option Bool := none
  runOnLatestVersion : Option Bool := none
  dryRun : Option Bool := none
  includeUpstream : Bool := false
  includeDownstream : Bool := false
  includePast : Bool := false
  includeFuture : Bool := false
deriving DecidableEq

/-! ## The task set -/

/-- The `children` of `expandTaskIDs`: the tasks that depend on each task. -/
def childrenOf (tasks : List TaskSpec) : GoMap (List String) :=
  tasks.foldl (fun m t =>
    t.dependsOn.foldl (fun m d => m.insert d (GoMap.getD m d [] ++ [t.taskID])) m) ∅

/-- The ids a walk over the dependencies can meet. -/
def walkedIDs (tasks : List TaskSpec) (seeds : List String) : List String :=
  seeds ++ tasks.flatMap fun t => t.taskID :: t.dependsOn

/-- The body of the loop over the seeds. One `result` serves the walks in both directions. -/
def expandSeed (tasks : List TaskSpec) (fuel : Nat) (includeUpstream includeDownstream : Bool)
    (result : List String) (seed : String) : List String :=
  let result := result.insert seed
  let result := if includeUpstream then
    Lib.Marking.walk ((dependencies tasks).getD · []) fuel result seed else result
  if includeDownstream then
    Lib.Marking.walk ((childrenOf tasks).getD · []) fuel result seed else result

/-- The fuel exceeds the number of ids; the order of the result, which in the source
is that of a map, is that of marking. -/
def expandTaskIDs (tasks : List TaskSpec) (seeds : List String)
    (includeUpstream includeDownstream : Bool) : List String :=
  seeds.foldl (expandSeed tasks ((walkedIDs tasks seeds).length + 1) includeUpstream includeDownstream) []

/-- `expandClearTasks`, given what `GetCurrentSpec` answers. -/
def expandClearTasks (current : Option DAGSpec) (body : ClearRequest) : List String :=
  if body.taskIDs.isEmpty || (!body.includeUpstream && !body.includeDownstream) then body.taskIDs
  else
    match current with
    | none => body.taskIDs
    | some spec =>
      expandTaskIDs spec.tasks body.taskIDs body.includeUpstream body.includeDownstream

/-- The spec of a DAG's current version. -/
def Tables.getCurrentSpec (T : Tables) (dag : Dag) : Option DAGSpec :=
  dag.currentVersionId.bind fun id => (T.versions.find? fun v => v.id == id).map Version.spec

/-! ## The runs -/

namespace Site

variable {T : Tables} (s : Site T)

/-- The run of a DAG under its run id. -/
def getDagRun (dag runID : String) : Option RunRow :=
  s.runs.find? fun r => r.dag == dag && r.runId == runID

/-- A DAG's rows in the order of `ListDagRunsByDagWithVersion`: the latest logical dates first. -/
def dagRuns (dag : String) : List RunRow :=
  (s.runs.filter fun r => r.dag == dag).insertionSort fun a b => b.logicalDate ≤ a.logicalDate

/-- The run itself, then the earlier or later ones among the runs that `ListDagRuns` answers. -/
def clearTargetRuns (dag currentRunID : String) (includePast includeFuture : Bool) : List String :=
  if !includePast && !includeFuture then [currentRunID]
  else
    match s.getDagRun dag currentRunID with
    | none => [currentRunID]
    | some cur =>
      currentRunID :: ((Api.listDagRuns (s.dagRuns dag) Api.maxRunScan 0).1.filter fun r => r.runId != currentRunID &&
        ((includePast && decide (r.logicalDate < cur.logicalDate)) ||
          (includeFuture && decide (cur.logicalDate < r.logicalDate)))).map RunRow.runId

/-- The rows behind the previewed task instances. -/
def affectedTaskInstances (dag runID : String) (taskIDs : List String) (onlyFailed : Bool) :
    List TaskInstance :=
  match s.getDagRun dag runID with
  | none => []
  | some run =>
    (listTaskInstancesByRun (s.database 0) run.id).filter fun ti =>
      (taskIDs.isEmpty || taskIDs.contains ti.taskId) &&
        (!onlyFailed || ti.state == .failed || ti.state == .upstreamFailed)

end Site

/-! ## The writes -/

/-- The statements of a clear, in the order in which the system takes them. -/
def Clear.writes (c : Clear) : List Write :=
  c.resets.map (fun r => .task (r.statement c.run)) ++ (c.reopen.map fun o => .dagRun (o.statement c.run)).toList

/-- The writes of a clear, one after the other. -/
def Clear.apply (c : Clear) (db : Database) : Database := c.writes.foldl Database.write db

/-! ## The handler -/

/-- What the endpoint answers. -/
inductive ClearResponse where
  | problem (status : Nat) (title detail : String)
  | affected (rows : List TaskInstance)
deriving DecidableEq

namespace ClearResponse

/-- The answer where the DAG or the run is unknown. -/
def notFound : ClearResponse :=
  .problem 404 "not found" "the requested resource does not exist"

/-- The answer where the store fails. -/
def internalError : ClearResponse :=
  .problem 500 "internal error" "the request could not be completed; see the server logs"

end ClearResponse

/-- The clear of one run. Without a current version there is nothing to re-bind the run to. -/
def clearRun (dag : Dag) (taskIDs : List String) (onlyFailed : Bool) (opts : ClearOptions) (run : RunRow) : Clear :=
  match opts.runOnLatestVersion, dag.currentVersionId with
  | true, none => clearTaskInstances run.id taskIDs onlyFailed ⟨false, false⟩ ""
  | _, version => clearTaskInstances run.id taskIDs onlyFailed opts (version.getD "")

/-- `ResetDagRunToVersion` would write `NULL` to `dag_version_id`, which the column rejects. -/
def rebindFails (dag : Dag) (opts : ClearOptions) : Bool :=
  opts.resetDagRun && opts.runOnLatestVersion && dag.currentVersionId.isNone

/-- The loop of `ClearTaskInstances` over the runs. An error ends it, with what was written so far
in place. -/
def Site.clearRuns {T : Tables} (s : Site T) (dag : Dag) (taskIDs : List String) (onlyFailed : Bool)
    (opts : ClearOptions) : Database → List String → Option ClearResponse × Database
  | db, [] => (none, db)
  | db, runID :: runIDs =>
    match s.getDagRun dag.id runID with
    | none => (some .notFound, db)
    | some run =>
      let db := (clearRun dag taskIDs onlyFailed opts run).apply db
      if rebindFails dag opts then (some .internalError, db)
      else s.clearRuns dag taskIDs onlyFailed opts db runIDs

/-- The refusal of `only_running`. -/
def onlyRunningRefusal : String :=
  "only_running is not supported: Dexaflow cannot clear a running task instance. " ++
    "Airflow's equivalent sets the task to RESTARTING and kills it; this server has no such path, " ++
    "and honoring only_failed=false alone would clear every task instance named by the request, " ++
    "including ones that succeeded. Wait for the task to settle, or name the task instances explicitly."

/-- `clearTaskInstancesHandler` for a DAG that was found. -/
def clearTaskInstancesHandler {T : Tables} (s : Site T) (now : Time) (dag : Dag)
    (body : ClearRequest) : ClearResponse × Database :=
  if body.onlyRunning == some true then
    (.problem 400 "bad request" onlyRunningRefusal, s.database now)
  else
    let onlyFailed := body.onlyFailed.getD true
    let taskIDs := expandClearTasks (T.getCurrentSpec dag) body
    let targets := s.clearTargetRuns dag.id body.dagRunID body.includePast body.includeFuture
    let affected := targets.flatMap fun runID =>
      s.affectedTaskInstances dag.id runID taskIDs onlyFailed
    if body.dryRun.getD true then (.affected affected, s.database now)
    else
      let opts := ⟨body.resetDagRuns.getD true, body.runOnLatestVersion.getD false⟩
      match s.clearRuns dag taskIDs onlyFailed opts (s.database now) targets with
      | (none, db) => (.affected affected, db)
      | (some problem, db) => (problem, db)

/-! ## What a clear does to a row -/

namespace Statement

/-- What statements make of a row, one after another. -/
def rowAll (now : Time) (ss : List Statement) (r : TaskInstance) : TaskInstance :=
  ss.foldl (fun r s => (s.update now).row r) r

variable {now : Time} {ss : List Statement} {r : TaskInstance}

theorem rowAll_append (ss' : List Statement) : rowAll now (ss ++ ss') r = rowAll now ss' (rowAll now ss r) :=
  foldl_append

@[simp] theorem rowAll_key : (rowAll now ss r).key = r.key := by
  induction ss generalizing r with
  | nil => rfl
  | cons s ss ih => exact ih.trans (s.row_key now r)

theorem tryNumber_le_rowAll : r.tryNumber ≤ (rowAll now ss r).tryNumber := by
  induction ss generalizing r with
  | nil => exact Nat.le_refl _
  | cons s ss ih => exact Nat.le_trans (s.tryNumber_le_row now r) ih

theorem set_state_of_isClear {s : Statement} (hs : s.isClear) : ((s.update now).set r).state = .none := by
  cases s <;> first | rfl | cases hs

theorem startsTry_of_isClear {s : Statement} (hs : s.isClear) : s.startsTry := by
  cases s <;> first | rfl | cases hs

theorem rowAll_state_of_none (hss : ∀ s ∈ ss, s.isClear) (hr : r.state = .none) :
    (rowAll now ss r).state = .none := by
  induction ss generalizing r with
  | nil => exact hr
  | cons s ss ih =>
    obtain ⟨hs, hss⟩ := forall_mem_cons.mp hss
    apply ih hss
    show ((s.update now).row r).state = .none
    cases hg : (s.update now).guard r with
    | true => rw [row_of_guard _ hg, set_state_of_isClear hs]
    | false => rw [row_of_not_guard _ hg, hr]

/-- The statements of a clear reset a row exactly if one of their guards admits it. -/
theorem reset_iff (hss : ∀ s ∈ ss, s.isClear) :
    ((rowAll now ss r).state = .none ∧ r.tryNumber < (rowAll now ss r).tryNumber) ↔
      ∃ s ∈ ss, (s.update now).guard r := by
  induction ss with
  | nil =>
    constructor
    · intro h
      exact absurd h.2 (Nat.lt_irrefl _)
    · rintro ⟨s, hs, -⟩
      cases hs
  | cons s ss ih =>
    obtain ⟨hs, hss⟩ := forall_mem_cons.mp hss
    rw [exists_mem_cons_iff]
    cases hg : (s.update now).guard r with
    | false =>
      have hrow : rowAll now (s :: ss) r = rowAll now ss r :=
        congrArg (rowAll now ss) (row_of_not_guard _ hg)
      rw [hrow, ih hss]
      simp
    | true =>
      simp only [true_or, iff_true]
      have htry := s.row_tryNumber now r
      rw [hg, startsTry_of_isClear hs, Bool.and_true, if_pos rfl] at htry
      have hstate : ((s.update now).row r).state = .none := by
        rw [row_of_guard _ hg, set_state_of_isClear hs]
      have hle : ((s.update now).row r).tryNumber ≤
          (rowAll now ss ((s.update now).row r)).tryNumber := tryNumber_le_rowAll
      show (rowAll now ss ((s.update now).row r)).state = .none ∧
        r.tryNumber < (rowAll now ss ((s.update now).row r)).tryNumber
      constructor
      · exact rowAll_state_of_none hss hstate
      · omega

end Statement

/-- The resets of a clear. -/
def Clear.statements (c : Clear) : List Statement := c.resets.map (·.statement c.run)

theorem Clear.isClear_statements (c : Clear) : ∀ s ∈ c.statements, s.isClear := by
  intro s hs
  obtain ⟨r, -, rfl⟩ := mem_map.mp hs
  cases r <;> rfl

theorem Clear.guard_statements_iff {run : String} {taskIDs : List String} {onlyFailed : Bool}
    {now : Time} {r : TaskInstance} {opts : ClearOptions} {version : String} :
    (∃ s ∈ (clearTaskInstances run taskIDs onlyFailed opts version).statements, (s.update now).guard r) ↔
      r.dagRunId = run ∧ (r.taskId ∈ taskIDs ∨ taskIDs = [] ∧ onlyFailed) ∧
        (onlyFailed → r.state.isFailedish) := by
  unfold Clear.statements clearTaskInstances resetTaskInstances
  cases taskIDs with
  | nil =>
    cases onlyFailed with
    | false => simp
    | true => simp [Reset.statement, Statement.update, resetAllFailedTaskInstances]
  | cons t ts =>
    cases onlyFailed with
    | false =>
      simp [Reset.statement, Statement.update, resetTaskInstanceToNone, TaskInstance.isFor]
      grind
    | true =>
      simp [Reset.statement, Statement.update, resetFailedTaskInstance, TaskInstance.isFor]
      grind

namespace Clear

theorem foldl_write_tis (ss : List Statement) (db : Database) :
    ((ss.map Write.task).foldl Database.write db).tis = db.tis.map (Statement.rowAll db.now ss) ∧
      ((ss.map Write.task).foldl Database.write db).now = db.now := by
  induction ss generalizing db with
  | nil => exact ⟨(map_id _).symm, rfl⟩
  | cons s ss ih =>
    obtain ⟨htis, hnow⟩ := ih (db.execute s)
    constructor
    · refine htis.trans ?_
      show ((s.update db.now).exec db.tis).map (Statement.rowAll db.now ss) = _
      rw [exec, map_map]
      rfl
    · exact hnow

theorem apply_tis (c : Clear) (db : Database) :
    (c.apply db).tis = db.tis.map (Statement.rowAll db.now c.statements) ∧ (c.apply db).now = db.now := by
  have hwrites : c.writes = c.statements.map Write.task ++
      (c.reopen.map fun o => Write.dagRun (o.statement c.run)).toList := by
    rw [writes, statements, map_map]
    rfl
  have hresets := foldl_write_tis c.statements db
  unfold apply
  rw [hwrites, foldl_append]
  cases c.reopen with
  | none => exact hresets
  | some o => exact hresets

end Clear

theorem clearRun_statements (dag : Dag) (taskIDs : List String) (onlyFailed : Bool)
    (opts : ClearOptions) (run : RunRow) : (clearRun dag taskIDs onlyFailed opts run).statements =
      (clearTaskInstances run.id taskIDs onlyFailed opts "").statements := by
  unfold clearRun
  split <;> rfl

/-- The task instances that are reset between two states of the database: back to `none`, with a new
try. -/
def Database.Resets (db db' : Database) (key : String × String) : Prop :=
  ∃ r ∈ db.tis, ∃ r' ∈ db'.tis, r.key = key ∧ r'.key = key ∧ r'.state = .none ∧ r.tryNumber < r'.tryNumber

theorem Database.resets_iff {db db' : Database} (hkeys : (db.tis.map TaskInstance.key).Nodup)
    {ss : List Statement} (hss : ∀ s ∈ ss, s.isClear)
    (htis : db'.tis = db.tis.map (Statement.rowAll db.now ss)) {key : String × String} :
    db.Resets db' key ↔ ∃ r ∈ db.tis, r.key = key ∧ ∃ s ∈ ss, (s.update db.now).guard r := by
  unfold Database.Resets
  rw [htis]
  constructor
  · rintro ⟨r, hr, r', hr', hkey, hkey', hreset⟩
    obtain ⟨q, hq, rfl⟩ := mem_map.mp hr'
    rw [Statement.rowAll_key] at hkey'
    obtain rfl := inj_on_of_nodup_map hkeys hr hq (hkey.trans hkey'.symm)
    exact ⟨r, hr, hkey, (Statement.reset_iff hss).mp hreset⟩
  · rintro ⟨r, hr, hkey, hguard⟩
    obtain ⟨hstate, htry⟩ := (Statement.reset_iff hss).mpr hguard
    refine ⟨r, hr, _, mem_map_of_mem hr, hkey, ?_, hstate, htry⟩
    exact Statement.rowAll_key.trans hkey

namespace Site

variable {T : Tables} (s : Site T)

/-- The resets of a request, run by run. -/
def clearStatements (dag : Dag) (taskIDs : List String) (onlyFailed : Bool) (runIDs : List String) : List Statement :=
  runIDs.flatMap fun runID => (s.getDagRun dag.id runID).toList.flatMap fun run =>
    (clearTaskInstances run.id taskIDs onlyFailed ⟨false, false⟩ "").statements

theorem isClear_clearStatements (dag : Dag) (taskIDs : List String) (onlyFailed : Bool) (runIDs : List String) :
    ∀ st ∈ s.clearStatements dag taskIDs onlyFailed runIDs, st.isClear := by
  intro st hst
  obtain ⟨runID, -, hst⟩ := mem_flatMap.mp hst
  obtain ⟨run, -, hst⟩ := mem_flatMap.mp hst
  exact Clear.isClear_statements _ st hst

variable {dag : Dag} {taskIDs : List String} {onlyFailed : Bool} {opts : ClearOptions}

theorem clearRuns_tis (hgo : rebindFails dag opts = false) {runIDs : List String}
    (hfound : ∀ runID ∈ runIDs, ∃ run, s.getDagRun dag.id runID = some run) (db : Database) :
    (s.clearRuns dag taskIDs onlyFailed opts db runIDs).2.tis =
      db.tis.map (Statement.rowAll db.now (s.clearStatements dag taskIDs onlyFailed runIDs)) := by
  induction runIDs generalizing db with
  | nil => exact (map_id _).symm
  | cons runID runIDs ih =>
    obtain ⟨⟨run, hrun⟩, hfound⟩ := forall_mem_cons.mp hfound
    have hclear := Clear.apply_tis (clearRun dag taskIDs onlyFailed opts run) db
    have hhead : s.clearStatements dag taskIDs onlyFailed (runID :: runIDs) =
        (clearRun dag taskIDs onlyFailed opts run).statements ++
          s.clearStatements dag taskIDs onlyFailed runIDs := by
      rw [clearRun_statements]
      simp [clearStatements, hrun]
      rfl
    simp only [clearRuns, hrun, hgo, Bool.false_eq_true, if_false]
    rw [ih hfound, hclear.1, hclear.2, map_map, hhead]
    exact map_congr_left fun r _ => (Statement.rowAll_append _).symm

theorem resets_clearRuns_iff {now : Time} (hgo : rebindFails dag opts = false)
    {runIDs : List String} (hfound : ∀ runID ∈ runIDs, ∃ run, s.getDagRun dag.id runID = some run)
    {runID : String} (hmem : runID ∈ runIDs) {run : RunRow}
    (hrun : s.getDagRun dag.id runID = some run) {r : TaskInstance} (hr : r ∈ s.tis) (hid : r.dagRunId = run.id) :
    (s.database now).Resets (s.clearRuns dag taskIDs onlyFailed opts (s.database now) runIDs).2 r.key ↔
      (r.taskId ∈ taskIDs ∨ taskIDs = [] ∧ onlyFailed) ∧ (onlyFailed → r.state.isFailedish) := by
  rw [Database.resets_iff s.tisUnique (s.isClear_clearStatements dag taskIDs onlyFailed runIDs)
    (s.clearRuns_tis hgo hfound _)]
  constructor
  · rintro ⟨q, hq, hkey, st, hst, hguard⟩
    obtain rfl := inj_on_of_nodup_map s.tisUnique hq hr hkey
    obtain ⟨runID', -, hst⟩ := mem_flatMap.mp hst
    obtain ⟨run', -, hst⟩ := mem_flatMap.mp hst
    exact (Clear.guard_statements_iff.mp ⟨st, hst, hguard⟩).2
  · intro hsel
    obtain ⟨st, hst, hguard⟩ := Clear.guard_statements_iff.mpr ⟨hid, hsel⟩
    refine ⟨r, hr, rfl, st, mem_flatMap.mpr ⟨runID, hmem, ?_⟩, hguard⟩
    rw [hrun]
    exact mem_flatMap.mpr ⟨run, mem_singleton_self run, hst⟩

theorem exists_of_mem_clearTargetRuns {currentRunID : String} {includePast includeFuture : Bool}
    {cur : RunRow} (hcur : s.getDagRun dag.id currentRunID = some cur) :
    ∀ runID ∈ s.clearTargetRuns dag.id currentRunID includePast includeFuture,
      ∃ run, s.getDagRun dag.id runID = some run := by
  intro runID hmem
  unfold clearTargetRuns at hmem
  split at hmem
  · rw [mem_singleton.mp hmem]
    exact ⟨cur, hcur⟩
  · rw [hcur] at hmem
    rcases mem_cons.mp hmem with rfl | hmem
    · exact ⟨cur, hcur⟩
    · obtain ⟨run, hrun, rfl⟩ := mem_map.mp hmem
      have hlisted := mem_of_mem_drop (mem_of_mem_take (mem_of_mem_filter hrun))
      rw [dagRuns, mem_insertionSort, mem_filter] at hlisted
      apply Option.isSome_iff_exists.mp
      refine List.find?_isSome.mpr ⟨run, hlisted.1, ?_⟩
      simpa using hlisted.2

end Site

end Leoflow
