import Leoflow.Executor.Reapers
import Leoflow.Scheduler.Advance

/-!
# The parties of the control plane

What each party holds between two of its writes: the leader's tick, the dispatch requests on their
way, the agents and pods they started, the warm leases, the candidates of reaper sweeps and the
clears and run patches of operators. `Track` is bookkeeping of the proofs: what happened to a row, which no column
records.
-/

namespace Leoflow

open Lib (GoMap)

/-! ## Attempts -/

/-- The identity a pod or a warm worker executes under, read from the row when its dispatch was
resolved, and the number of the dispatch it was started by. -/
structure Attempt where
  taskInstanceID : String
  run : String
  task : String
  tryNumber : Nat
  placement : Nat
deriving DecidableEq

/-- How an attempt's process ended. -/
inductive AgentOutcome where
  | success
  | failed (exitCode : Int) (message : String)
  | skipped
  | reschedule (pokeAt : Time)
deriving DecidableEq

/-- An agent that still executes or has messages on their way. Heartbeats follow the RUNNING report, the final
report the end of the process. -/
structure Agent where
  attempt : Attempt
  running : Bool := false
  outcome : Option AgentOutcome := none
deriving DecidableEq

/-- An agent that may still report a reschedule. -/
def Agent.mayReschedule (a : Agent) : Bool :=
  match a.outcome with
  | none | some (.reschedule _) => true
  | _ => false

/-! ## Dispatch requests -/

/-- How far a dispatch has come: `ResolveTask` reads the row, then the pod is created or the attempt
is handed to a warm worker. -/
inductive RequestStage where
  | accepted
  | resolved (a : Attempt)
  | created (a : Attempt)
deriving DecidableEq

/-- A dispatch on its way. `tryNumber` is the try of the row when the scheduler asked for it;
`buffered` requests run in a worker of the `BufferedDispatcher`, which reports their failure. -/
structure Request where
  run : String
  task : String
  tryNumber : Nat
  placement : Nat
  buffered : Bool
  stage : RequestStage := .accepted
deriving DecidableEq

/-! ## Sweeps and clears -/

/-- A candidate of a sweep with the clock the sweep read. `marked` is empty until the mark is
written, and then says whether it changed the row. -/
structure Reap where
  candidate : Candidate
  clock : Time
  marked : Option Bool := none
deriving DecidableEq

/-- One reset of a clear. -/
inductive Reset where
  | task (taskID : String)
  | failedTask (taskID : String)
  | allFailed
deriving DecidableEq

/-- The run-level end of a clear with `reset_dag_runs`. -/
inductive Reopen where
  | keepingVersion
  | toVersion (version : String)
deriving DecidableEq

/-- A clear in progress: the resets and the re-open it has still to do. -/
structure Clear where
  run : String
  resets : List Reset
  reopen : Option Reopen
deriving DecidableEq

/-- A `SetDagRunState` between its read of the run and its write: the `started_at` it read is what it writes back. -/
structure RunPatch where
  run : String
  state : DagRunState
  startedAt : Option Time
  endedAt : Option Time
deriving DecidableEq

/-! ## The leader's tick -/

/-- The budgets `Step` threads through the runs of a tick. -/
structure Budget where
  activeTasks : GoMap Int
  admittedTasks : GoMap Int := ∅
  poolsEnabled : Bool
  poolBudgets : GoMap Int
  poolOccupied : GoMap Int

/-- A tick in progress: reading the active runs one after another, then advancing them. -/
inductive Tick where
  | loading (todo : List DagRun) (loaded : List RunState)
  | between (budget : Budget) (rest : List RunState)
  | advancing (budget : Budget) (run : RunState) (ops : List Op) (rest : List RunState)

/-! ## The world -/

/-- What the parties hold. -/
structure Control where
  tick : Option Tick := none
  requests : List Request := []
  agents : List Agent := []
  pods : List Attempt := []
  leases : List Attempt := []
  reaps : List Reap := []
  clears : List Clear := []
  patches : List RunPatch := []

/-- What happened to a row: how often it was dispatched, when it last entered `queued`, and the
placement and time of the last heartbeat recorded on it. -/
structure Track where
  placements : String → Nat := fun _ => 0
  enteredQueued : String → Time := fun _ => 0
  lastBeat : String → Option (Nat × Time) := fun _ => none

/-- A state of the system. -/
structure World where
  db : Database
  ctl : Control := {}
  track : Track := {}

/-- The deployment: the specs of the registered versions, whether pod dispatch is configured, the
pool budgets and the reapers' thresholds. -/
structure Config where
  spec : String → DAGSpec
  dispatcher : Bool := true
  poolsEnabled : Bool := false
  poolBudgets : GoMap Int := ∅
  reapers : ReaperConfig := {}

/-- A deployment with one DAG, of the given tasks in every version. -/
def Config.ofTasks (tasks : List TaskSpec) (h : (tasks.map TaskSpec.taskID).Nodup := by decide) : Config where
  spec _ := { dagID := "dag", tasks := tasks, distinct := h }

end Leoflow
