import Leoflow.System.World

/-!
# One tick of the leader

`Step` and `ActiveRuns`: the active runs are listed, the rows of each are read one run after
another, and then the runs are advanced in that order. A run whose `advance` returns an error or
panics is left behind and the tick goes on.
-/

namespace Leoflow

open Lib (GoMap)

/-- The steps of a tick. `call` is one store call of `advance`; `ids` are the ids the database
generates when it is `MaterializeTasks`. -/
inductive TickAction where
  | begin
  | load
  | loaded
  | start
  | call (ids : List String)
  | dispatch (outcome : DispatchOutcome) (buffered : Bool)
  | skip
  | abandon
  | finish
  | stop
deriving DecidableEq

/-- What a tick reads of a run. -/
def snapshot (cfg : Config) (db : Database) (d : DagRun) : RunState :=
  runState d (cfg.spec d.dagVersionId) (listTaskInstancesByRun db d.id) db.now

/-- The queued and running tasks of each DAG. -/
def activeTaskCounts (runs : List RunState) : GoMap Int :=
  runs.foldl (fun m run =>
    m.addTo run.dagID (run.states.entries.filter fun e => e.2.isLive).length) ∅

/-- The queued and running tasks of each pool. -/
def activePoolCounts (runs : List RunState) : GoMap Int :=
  runs.foldl (fun m run =>
    run.tasks.foldl (fun m t =>
      if (run.states.lookup t.taskID).any TaskState.isLive then
        m.addTo (RunState.poolKey run.tenantID (RunState.resolvePool t.pool)) 1
      else m) m) ∅

/-- The budgets at the start of a tick. -/
def Budget.ofRuns (cfg : Config) (runs : List RunState) : Budget where
  activeTasks := activeTaskCounts runs
  poolsEnabled := cfg.poolsEnabled
  poolBudgets := if cfg.poolsEnabled then cfg.poolBudgets else ∅
  poolOccupied := if cfg.poolsEnabled then activePoolCounts runs else ∅

/-- Budgets without a cap. -/
def Budget.unlimited : Budget where
  activeTasks := ∅
  poolsEnabled := false
  poolBudgets := ∅
  poolOccupied := ∅

/-- What `Step` sets on a run before it advances it. -/
def Budget.prepare (b : Budget) (run : RunState) : RunState :=
  { run with
    activeTaskCount := b.activeTasks.getD run.dagID 0 + b.admittedTasks.getD run.dagID 0
    poolsEnabled := b.poolsEnabled
    poolBudgets := b.poolBudgets
    poolActive := b.poolOccupied }

@[simp] theorem Budget.prepare_runID (b : Budget) (run : RunState) : (b.prepare run).runID = run.runID := rfl

/-- What a finished `advance` charges: the tasks its plan promoted, per DAG and per pool. -/
def Budget.charge (b : Budget) (run : RunState) : Budget :=
  let promoted := (run.planRun.filter fun t => t.target == .queued).map PlannedTransition.taskID
  { b with
    admittedTasks := b.admittedTasks.addTo run.dagID promoted.length
    poolOccupied := if !b.poolsEnabled then b.poolOccupied
      else (run.tasks.filter fun t => promoted.contains t.taskID).foldl (fun m t =>
        m.addTo (RunState.poolKey run.tenantID (RunState.resolvePool t.pool)) 1)
        b.poolOccupied }

/-- The inserts the database accepts: fresh ids, and no row of the same run, task and try. -/
def Database.accepts (db : Database) (rows : List TaskInstance) : Bool :=
  decide (rows.map TaskInstance.id).Nodup && rows.all fun r =>
    !db.tis.any fun o => o.id == r.id || (o.key == r.key && o.tryNumber == r.tryNumber)

namespace Tick

/-- The tick after a step of it. -/
def next (cfg : Config) (db : Database) : Option Tick → TickAction → Option (Option Tick)
  | none, .begin => some (some (.loading (listActiveDagRuns db) []))
  | some (.loading (d :: todo) loaded), .load =>
    some (some (.loading todo (loaded ++ [snapshot cfg db d])))
  | some (.loading [] loaded), .loaded => some (some (.between (.ofRuns cfg loaded) loaded))
  | some (.between b (r :: rest)), .start =>
    let run := b.prepare r
    some (some (.advancing b run (run.advance cfg.dispatcher) rest))
  | some (.advancing b run (op :: ops) rest), .call ids =>
    if !op.isDispatch && db.accepts (op.write run ids).inserted &&
        (op != .materializeTasks || ids.length == run.tasks.length) then
      some (some (.advancing b run ops rest))
    else none
  | some (.advancing b run (.dispatch task :: ops) rest), .dispatch outcome _ =>
    some (some (.advancing b run (run.afterDispatch task db.now outcome :: ops) rest))
  | some (.advancing b run (op :: ops) rest), .skip =>
    if op.isBestEffort then some (some (.advancing b run ops rest)) else none
  | some (.advancing b _ _ rest), .abandon => some (some (.between b rest))
  | some (.advancing b run [] rest), .finish => some (some (.between (b.charge run) rest))
  | some _, .stop => some none
  | _, _ => none

/-- The write of a tick's next call. -/
def write : Option Tick → TickAction → Write
  | some (.advancing _ run (op :: _) _), .call ids => op.write run ids
  | _, _ => .nothing

/-- The dispatch that lands with a tick's action. -/
def dispatches : Option Tick → TickAction → Option (String × String × Bool)
  | some (.advancing _ run (.dispatch task :: _) _), .dispatch outcome buffered =>
    if outcome.landed then some (run.runID, task, buffered) else none
  | _, _ => none

end Tick

end Leoflow
