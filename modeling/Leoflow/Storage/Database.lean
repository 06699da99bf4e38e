import Mathlib.Data.List.Sort
import Leoflow.Storage.Statement

/-!
# What one write does to the database

The statements on `dag_runs`, the transaction `ReapRun`, the inserts, and the effect of each on the
tables. A writer between two of its statements has no effect, so the system is an interleaving of
these writes.
-/

namespace Leoflow

open Lib (Update)

/-! ## `dag_runs` -/

/-- An `UPDATE dag_runs` with its arguments. -/
inductive RunStatement where
  | stampDagRunState (id : String) (state : DagRunState)
  | reopenDagRunKeepingVersion (id : String)
  | resetDagRunToVersion (id version : String)
  | markRunOrphanedRun (id : String)
  | updateDagRunState (id : String) (state : DagRunState) (startedAt endedAt : Option Time)
deriving DecidableEq

/-- The re-open of a clear: back to `queued`, with the alert episode forgotten. -/
def DagRun.reopened (r : DagRun) : DagRun :=
  { r with
    state := .queued
    startedAt := none
    endedAt := none
    alertedAt := none
    alertAttempts := 0
    nextAlertAttemptAt := none }

/-- `StampDagRunState`: `started_at` on the first start, `ended_at` on every end. -/
def stampDagRunState (now : Time) (id : String) (state : DagRunState) : Update DagRun where
  guard r := r.id == id
  set r :=
    { r with
      state := state
      startedAt := stampIf (state == .running) now r.startedAt
      endedAt := if state.isTerminal then some now else r.endedAt }

/-- `ReopenDagRunKeepingVersion`. -/
def reopenDagRunKeepingVersion (id : String) : Update DagRun where
  guard r := r.id == id
  set r := r.reopened

/-- `ResetDagRunToVersion`: re-open the run on another version. -/
def resetDagRunToVersion (id version : String) : Update DagRun where
  guard r := r.id == id
  set r := { r.reopened with dagVersionId := version }

/-- `MarkRunOrphanedRun`. -/
def markRunOrphanedRun (now : Time) (id : String) : Update DagRun where
  guard r := r.id == id && r.state == .running
  set r :=
    { r with
      state := .failed
      endedAt := some now
      note := some "orphaned: no scheduler activity within the orphan window — see #120" }

/-- `UpdateDagRunState`: the state and both times as they are given. -/
def updateDagRunState (id : String) (state : DagRunState) (startedAt endedAt : Option Time) : Update DagRun where
  guard r := r.id == id
  set r := { r with state := state, startedAt := startedAt, endedAt := endedAt }

/-- Refused once delivered, out of budget, or before the backoff is over. -/
def claimAlertAttempt (now : Time) (id : String) (maxAttempts : Int) (backoff : Duration) : Update DagRun where
  guard r := r.id == id && r.alertedAt.isNone && decide ((r.alertAttempts : Int) < maxAttempts) &&
    r.nextAlertAttemptAt.all fun t => decide (t ≤ now)
  set r :=
    { r with
      alertAttempts := r.alertAttempts + 1
      nextAlertAttemptAt := some (now + backoff) }

/-- `MarkRunAlertDelivered`, for the attempt the send was claimed as. -/
def markRunAlertDelivered (now : Time) (id : String) (attempt : Int) : Update DagRun where
  guard r := r.id == id && (r.alertAttempts : Int) == attempt
  set r := { r with alertedAt := some now, nextAlertAttemptAt := none }

namespace RunStatement

/-- The guarded update of `dag_runs` a statement performs at time `now`. -/
def update (now : Time) : RunStatement → Update DagRun
  | stampDagRunState id state => Leoflow.stampDagRunState now id state
  | reopenDagRunKeepingVersion id => Leoflow.reopenDagRunKeepingVersion id
  | resetDagRunToVersion id version => Leoflow.resetDagRunToVersion id version
  | markRunOrphanedRun id => Leoflow.markRunOrphanedRun now id
  | updateDagRunState id state startedAt endedAt =>
    Leoflow.updateDagRunState id state startedAt endedAt

@[simp] theorem row_id (s : RunStatement) (now : Time) (r : DagRun) : ((s.update now).row r).id = r.id := by
  refine (s.update now).row_congr DagRun.id (fun r _ => ?_) r
  cases s <;> rfl

end RunStatement

/-! ## History -/

/-- The row the `archived` CTE inserts. -/
def TaskInstance.toHistory (r : TaskInstance) : HistoryRow where
  taskInstanceId := r.id
  tryNumber := r.tryNumber
  state := r.state
  queuedAt := r.queuedAt
  scheduledAt := r.scheduledAt
  startedAt := r.startedAt
  endedAt := r.endedAt
  duration := r.duration
  exitCode := r.exitCode
  errorMessage := r.errorMessage
  note := r.note

/-- `ON CONFLICT (task_instance_id, try_number) DO NOTHING`: the first archive of a try stays. -/
def archive (history : List HistoryRow) (rows : List TaskInstance) : List HistoryRow :=
  history ++ (rows.map TaskInstance.toHistory).filter fun h =>
    !history.any fun o => o.taskInstanceId == h.taskInstanceId && o.tryNumber == h.tryNumber

/-- The archived tries of the row and the row itself, by try number. -/
def listTaskInstanceAttempts (db : Database) (run task : String) : List HistoryRow :=
  let tis := db.tis.filter (TaskInstance.isFor run task)
  ((db.history.filter fun h => tis.any fun r => r.id == h.taskInstanceId) ++
    tis.map TaskInstance.toHistory).insertionSort fun a b => a.tryNumber ≤ b.tryNumber

/-- When the task was first rescheduled. -/
def taskInstanceFirstRescheduleAt (db : Database) (run task : String) : Option Time :=
  (db.tis.find? (TaskInstance.isFor run task)).bind TaskInstance.firstRescheduleAt

/-- The `FirstRescheduleAt` of `TaskSpec`. RFC 3339 without a fraction shows whole seconds. -/
def deliveredFirstRescheduleAt (db : Database) (run task : String) : Option Int :=
  (taskInstanceFirstRescheduleAt db run task).map (· / second)

/-! ## Writes -/

/-- One atomic write. `reapRun` is the transaction of `SchedulerStore.ReapRun`, the inserts are
`CreateDagRun` and the batched `CreateTaskInstances`. -/
inductive Write where
  | nothing
  | task (s : Statement)
  | dagRun (s : RunStatement)
  | reapRun (id : String)
  | createDagRun (d : DagRun)
  | createTaskInstances (rows : List TaskInstance)
deriving DecidableEq

namespace Database

/-- The run is there and running. -/
def isRunning (db : Database) (run : String) : Bool :=
  db.runs.any fun d => d.id == run && d.state == .running

/-- One statement on `task_instances`. -/
def execute (db : Database) (s : Statement) : Database :=
  { db with
    tis := (s.update db.now).exec db.tis
    history := if s.archives then archive db.history (db.tis.filter (s.update db.now).guard)
      else db.history }

/-- One statement on `dag_runs`. -/
def executeRun (db : Database) (s : RunStatement) : Database :=
  { db with runs := (s.update db.now).exec db.runs }

/-- The run first, guarded on `running`; a run that is no longer running rolls the
transaction back before any task instance is touched. -/
def reapRun (db : Database) (run : String) : Database :=
  if db.isRunning run then
    (db.executeRun (.markRunOrphanedRun run)).execute (.markRunOrphanedTaskInstances run)
  else db

/-- The database after a write. -/
def write (db : Database) : Write → Database
  | .nothing => db
  | .task s => db.execute s
  | .dagRun s => db.executeRun s
  | .reapRun id => db.reapRun id
  | .createDagRun d => { db with runs := db.runs ++ [d] }
  | .createTaskInstances rows => { db with tis := db.tis ++ rows }

end Database

namespace Write

/-- The statement on `task_instances` that a write makes. -/
def statement (db : Database) : Write → Option Statement
  | .task s => some s
  | .reapRun id => if db.isRunning id then some (.markRunOrphanedTaskInstances id) else none
  | _ => none

/-- The rows it inserts. -/
def inserted : Write → List TaskInstance
  | .createTaskInstances rows => rows
  | _ => []

/-- The rows it archives first. -/
def archived (db : Database) (w : Write) : List TaskInstance :=
  match w.statement db with
  | some s => if s.archives then db.tis.filter (s.update db.now).guard else []
  | none => []

/-- The statement on `dag_runs` that it makes. -/
def runStatement (db : Database) : Write → Option RunStatement
  | .dagRun s => some s
  | .reapRun id => if db.isRunning id then some (.markRunOrphanedRun id) else none
  | _ => none

/-- The runs it creates. -/
def createdRuns : Write → List DagRun
  | .createDagRun d => [d]
  | _ => []

/-- What it makes of a run. -/
def runRow (db : Database) (w : Write) (d : DagRun) : DagRun :=
  match w.runStatement db with
  | some s => (s.update db.now).row d
  | none => d

/-- What it makes of a task instance. -/
def row (db : Database) (w : Write) (r : TaskInstance) : TaskInstance :=
  match w.statement db with
  | some s => (s.update db.now).row r
  | none => r

variable {db : Database} {w : Write} {r : TaskInstance}

theorem archived_sublist : (w.archived db).Sublist db.tis := by
  unfold archived
  (repeat' split) <;> first | exact List.filter_sublist | exact List.nil_sublist _

theorem mem_tis_of_archived (h : r ∈ w.archived db) : r ∈ db.tis :=
  archived_sublist.subset h

theorem row_of_statement {s : Statement} (h : w.statement db = some s) : w.row db r = (s.update db.now).row r := by
  simp [row, h]

theorem row_of_none (h : w.statement db = none) : w.row db r = r := by
  simp [row, h]

theorem map_row_of_none (h : w.statement db = none) (rows : List TaskInstance) : rows.map (w.row db) = rows := by
  rw [show w.row db = id from funext fun _ => row_of_none h, List.map_id]

theorem statement_of_row_ne (h : w.row db r ≠ r) : ∃ s, w.statement db = some s ∧ (s.update db.now).guard r := by
  cases hs : w.statement db with
  | none => exact absurd (row_of_none hs) h
  | some s =>
    rw [row_of_statement hs] at h
    exact ⟨s, rfl, (s.update db.now).guard_of_row_ne h⟩

theorem row_eq_or_statement (db : Database) (w : Write) (r : TaskInstance) :
    ((∀ s, w.statement db = some s → (s.update db.now).guard r = false) ∧ w.row db r = r) ∨
    ∃ s, w.statement db = some s ∧ (s.update db.now).guard r ∧ w.row db r = (s.update db.now).row r := by
  cases hs : w.statement db with
  | none => exact .inl ⟨(fun _ h => by cases h), row_of_none hs⟩
  | some s =>
    cases hg : (s.update db.now).guard r with
    | true => exact .inr ⟨s, rfl, hg, row_of_statement hs⟩
    | false =>
      refine .inl ⟨fun s' h => Option.some.inj h ▸ hg, ?_⟩
      rw [row_of_statement hs, (s.update db.now).row_of_not_guard hg]

theorem row_congr {β : Type} (g : TaskInstance → β)
    (h : ∀ s, w.statement db = some s → ∀ r, g ((s.update db.now).set r) = g r) : g (w.row db r) = g r := by
  cases hs : w.statement db with
  | none => rw [row_of_none hs]
  | some s =>
    rw [row_of_statement hs]
    exact (s.update db.now).row_congr g (fun r _ => h s hs r) r

theorem row_tryNumber_of_running (h : (w.row db r).state = .running) : (w.row db r).tryNumber = r.tryNumber := by
  cases hs : w.statement db with
  | none => rw [row_of_none hs]
  | some s =>
    rw [row_of_statement hs] at h ⊢
    exact s.row_tryNumber_of_running db.now r h

theorem runRow_of_statement {s : RunStatement} (h : w.runStatement db = some s) (d : DagRun) :
    w.runRow db d = (s.update db.now).row d := by
  simp [runRow, h]

theorem runRow_of_none (h : w.runStatement db = none) (d : DagRun) : w.runRow db d = d := by
  simp [runRow, h]

@[simp] theorem runRow_id (d : DagRun) : (w.runRow db d).id = d.id := by
  cases hs : w.runStatement db <;> simp [runRow, hs]

@[simp] theorem row_id : (w.row db r).id = r.id := by
  cases hs : w.statement db <;> simp [row, hs]

@[simp] theorem row_key : (w.row db r).key = r.key := by
  cases hs : w.statement db <;> simp [row, hs]

@[simp] theorem row_dagRunId : (w.row db r).dagRunId = r.dagRunId := by
  cases hs : w.statement db <;> simp [row, hs]

@[simp] theorem row_taskId : (w.row db r).taskId = r.taskId := by
  cases hs : w.statement db <;> simp [row, hs]

end Write

namespace Database

section

variable (db : Database) (w : Write)
include db w

/-- **A write is local to rows.** The table after a write is the old rows, each mapped by the write,
and what the write inserts. -/
theorem write_tis : (db.write w).tis = db.tis.map (w.row db) ++ w.inserted := by
  cases w with
  | task s => simp [write, execute, Update.exec, Write.inserted, Write.row, Write.statement]
  | reapRun id =>
    by_cases h : db.isRunning id
    · simp [write, reapRun, h, execute, executeRun, Update.exec, Write.inserted, Write.row, Write.statement]
    · rw [Write.map_row_of_none (by simp [Write.statement, h])]
      simp [write, reapRun, h, Write.inserted]
  | _ => rw [Write.map_row_of_none rfl]; simp [write, executeRun, Write.inserted]

@[simp] theorem write_now : (db.write w).now = db.now := by
  cases w with
  | reapRun id =>
    simp only [write, reapRun]
    split <;> rfl
  | _ => rfl

theorem write_runs : (db.write w).runs = db.runs.map (w.runRow db) ++ w.createdRuns := by
  have hnone : ∀ w : Write, w.runStatement db = none → db.runs.map (w.runRow db) = db.runs := by
    intro w hw
    exact (List.map_congr_left fun d _ => Write.runRow_of_none hw d).trans (List.map_id _)
  cases w with
  | dagRun s => simp [write, executeRun, Update.exec, Write.createdRuns, Write.runRow, Write.runStatement]
  | reapRun id =>
    by_cases h : db.isRunning id
    · simp [write, reapRun, h, execute, executeRun, Update.exec, Write.createdRuns, Write.runRow, Write.runStatement]
    · rw [hnone _ (by simp [Write.runStatement, h])]
      simp [write, reapRun, h, Write.createdRuns]
  | _ => rw [hnone _ rfl]; simp [write, execute, Write.createdRuns]

theorem write_history : (db.write w).history = archive db.history (w.archived db) := by
  have hnil : archive db.history [] = db.history := by simp [archive]
  cases w with
  | task s =>
    simp only [write, execute, Write.archived, Write.statement]
    split
    · rfl
    · exact hnil.symm
  | reapRun id =>
    simp only [write, reapRun, Write.archived, Write.statement]
    split <;> exact hnil.symm
  | _ => exact hnil.symm

end

theorem write_task_tis (db : Database) (s : Statement) :
    (db.write (.task s)).tis = db.tis.map ((Write.task s).row db) := by
  rw [write_tis]
  exact List.append_nil _

end Database

end Leoflow
