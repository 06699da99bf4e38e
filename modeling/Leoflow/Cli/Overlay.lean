import Leoflow.Domain.VersionSpec
import Leoflow.Lib.Strip

/-!
# Task overrides of the project file

`applyTaskOverride` and `validateTaskBindings` of `internal/cli/compile.go`: the `tasks` block of the
project file, written over the tasks the parser compiled.
-/

namespace Leoflow.Cli

open Lib (GoMap)

/-- Of `execution` the grace period is kept. -/
structure TaskConfig where
  retries : Option Int := none
  retryDelaySeconds : Option Int := none
  executionTimeoutSeconds : Option Int := none
  execution : Option (Option Int) := none
  secrets : SecretKind → List String := fun _ => []

/-- Go's `strings.Fields`. -/
def fields (s : String) : List String :=
  ((s.toList.splitOnP Lib.isSpace).filter (· ≠ [])).map String.ofList

/-- The word after `--dbt-profile`. -/
def profileConn : List String → String
  | f :: conn :: rest => if f = "--dbt-profile" then conn else profileConn (conn :: rest)
  | _ => ""

/-- The connection a dbt entrypoint reads its profile from. -/
def dbtProfileConn (entrypoint : String) : String := profileConn (fields entrypoint)

/-- The connections of an override, with the one the task's own profile step reads. -/
def withProfileConn (entrypoint : String) (conns : List String) : List String :=
  let conn := dbtProfileConn entrypoint
  if conn ≠ "" ∧ conns.contains conn = false then conns ++ [conn] else conns

/-- A task with what its `dexaflow.yaml` sets in place of its own. -/
def applyTaskOverride (task : AgentTask) (o : TaskConfig) : AgentTask :=
  { task with
    retries := o.retries.or task.retries
    retryDelaySeconds := o.retryDelaySeconds.or task.retryDelaySeconds
    executionTimeoutSeconds := o.executionTimeoutSeconds.or task.executionTimeoutSeconds
    terminationGracePeriodSeconds := o.execution.getD task.terminationGracePeriodSeconds
    secrets := fun
      | .conns =>
        if (o.secrets .conns).length > 0 then withProfileConn task.entrypoint (o.secrets .conns)
        else task.secrets .conns
      | .vars => if (o.secrets .vars).length > 0 then o.secrets .vars else task.secrets .vars }

/-- `validateTaskBindings`: the overrides that name no task. -/
def unboundOverrides (overrides : GoMap TaskConfig) (tasks : List AgentTask) : List String :=
  overrides.keys.filter fun id => tasks.all fun t => t.taskID ≠ id

/-- The tasks `overlayProject` writes back. -/
def overlayTasks (overrides : GoMap TaskConfig) (tasks : List AgentTask) :
    Except (List String) (List AgentTask) :=
  match unboundOverrides overrides tasks with
  | [] => .ok (tasks.map fun t =>
      match overrides.lookup t.taskID with
      | some o => applyTaskOverride t o
      | none => t)
  | ids => .error ids

end Leoflow.Cli
