import Leoflow.Domain.VersionSpec
import Leoflow.KubeExchange.Resolver
import Leoflow.Storage.Database

/-!
# The execution store

`ExecutionStore` of `internal/storage/agent_store.go` where it serves the agent: the task of a run in
the version the run points at, and the agent-facing `TaskSpec` made of it.
-/

namespace Leoflow

open Lib (GoMap Json)
open KubeExchange (AgentIdentity)

variable {spec : VersionSpec} {t : AgentTask}

/-- Why the store could not resolve a task. Only the last is a message the agent sees. -/
inductive ResolveError where
  | loadingRun
  | loadingVersion
  | taskNotFound (taskID runID : String)
deriving DecidableEq

/-- `ExecutionStore`: `GetDagRunByID` and the version cache. -/
structure ExecutionStore where
  run : (id : String) → Option DagRun
  version : (id : String) → Option VersionSpec

/-- The fields of `agentrpc.TaskSpec` the handlers read. -/
structure AgentTaskSpec where
  xcomInputMapping : GoMap (List String)
  xcomSchema : Option Json
  timeoutSeconds : Int
  dependsOn : List String
  maxTries : Int
  declared : SecretKind → List String

/-- `declaredVariables` and `declaredConnections`. -/
def declaredSecrets (kind : SecretKind) (task : AgentTask) (spec : VersionSpec) : List String :=
  if (task.secrets kind).length > 0 then task.secrets kind else spec.secrets kind

/-- The tries of a task: one, and one for each retry. -/
def maxTries (task : AgentTask) : Int :=
  match task.retries with
  | some r => r + 1
  | none => 1

/-- The timeout the agent and the dispatcher read off a task: its own, or none. -/
def timeoutOf (task : AgentTask) : Int := task.executionTimeoutSeconds.getD 0

/-- What `TaskSpec` returns for a task of a version. -/
def agentTaskSpec (task : AgentTask) (spec : VersionSpec) : AgentTaskSpec where
  xcomInputMapping := task.xcomInput
  xcomSchema := task.xcomSchema
  timeoutSeconds := timeoutOf task
  dependsOn := task.dependsOn
  maxTries := maxTries task
  declared := fun kind => declaredSecrets kind task spec

namespace ExecutionStore

variable (s : ExecutionStore)

/-- The task of a run and the spec of the run's version. -/
def resolve (runID taskID : String) : Except ResolveError (AgentTask × VersionSpec) :=
  match s.run runID with
  | none => .error .loadingRun
  | some run =>
    match s.version run.dagVersionId with
    | none => .error .loadingVersion
    | some spec =>
      match spec.tasks.find? (fun t => t.taskID == taskID) with
      | some t => .ok (t, spec)
      | none => .error (.taskNotFound taskID runID)

/-- `TaskSpec`: what an agent is told of its task. -/
def taskSpec (id : AgentIdentity) : Except ResolveError AgentTaskSpec :=
  (s.resolve id.runID id.taskID).map fun r => agentTaskSpec r.1 r.2

/-- The store resolves the run to the version. -/
def Serves (runID : String) (spec : VersionSpec) : Prop :=
  ∃ run, s.run runID = some run ∧ s.version run.dagVersionId = some spec

variable {s}

theorem resolve_of_serves {runID : String} (h : s.Serves runID spec) (ht : t ∈ spec.tasks) :
    s.resolve runID t.taskID = .ok (t, spec) := by
  obtain ⟨run, hrun, hver⟩ := h
  simp only [resolve, hrun, hver, spec.find_task ht]

theorem taskSpec_of_serves {id : AgentIdentity} (h : s.Serves id.runID spec) (ht : t ∈ spec.tasks)
    (hid : id.taskID = t.taskID) : s.taskSpec id = .ok (agentTaskSpec t spec) := by
  unfold taskSpec
  rw [hid, resolve_of_serves h ht]
  rfl

theorem resolve_ok {runID taskID : String} (h : s.resolve runID taskID = .ok (t, spec)) :
    s.Serves runID spec ∧ t ∈ spec.tasks ∧ t.taskID = taskID := by
  unfold resolve at h
  cases hrun : s.run runID with
  | none => simp only [hrun] at h; cases h
  | some run =>
    cases hver : s.version run.dagVersionId with
    | none => simp only [hrun, hver] at h; cases h
    | some spec' =>
      cases hfind : spec'.tasks.find? (fun t => t.taskID == taskID) with
      | none => simp only [hrun, hver, hfind] at h; cases h
      | some t' =>
        simp only [hrun, hver, hfind, Except.ok.injEq, Prod.mk.injEq] at h
        obtain ⟨rfl, rfl⟩ := h
        refine ⟨⟨run, hrun, hver⟩, List.mem_of_find?_eq_some hfind, ?_⟩
        have hid := List.find?_some hfind
        exact eq_of_beq hid

end ExecutionStore

end Leoflow
