import Leoflow.Executor.Pods

/-!
# The pod resolver of the token exchange

`PodResolver.ResolveAgent` of `internal/kubeexchange/kubeexchange.go`: the pod a reviewed token is
bound to, resolved to a warm worker by its labels or else to the task instance its annotation names.
-/

namespace Leoflow.KubeExchange

open Executor

/-- The scope of a warm worker's token. -/
def scopeWarmWorker : String := "warm-worker"

/-- Who an agent is. -/
structure AgentIdentity where
  taskInstanceID : String := ""
  tenantID : String := ""
  dagID : String := ""
  runID : String := ""
  taskID : String := ""
  tryNumber : Int64 := 0
  scope : String := ""
  dagVersionID : String := ""
  workerID : String := ""
deriving DecidableEq

/-- The identity of a task credential. -/
def AgentIdentity.ofPod (id : PodIdentity) : AgentIdentity where
  taskInstanceID := id.taskInstanceID
  tenantID := id.tenantID
  dagID := id.dagID
  runID := id.runID
  taskID := id.taskID
  tryNumber := id.tryNumber

/-- The fields of `agentrpc.ReviewedPod` the resolver reads. -/
structure ReviewedPod where
  ns : String
  podName : String
  podUID : String
deriving DecidableEq

/-- `Pods(ns).Get(name)`. -/
abbrev PodClient := (ns name : String) → Except String StoredPod

/-- What finds the pod behind a reviewed token. -/
structure PodResolver where
  client : PodClient
  ns : String

namespace PodResolver

variable (r : PodResolver) (pod : ReviewedPod)

/-- The namespace of the reviewed pod, by default the resolver's own. -/
def namespaceOf : String := if pod.ns = "" then r.ns else pod.ns

/-- `%q` of a printable ASCII text. -/
def quoted (s : String) : String := "\"" ++ s ++ "\""

/-- The pod that was reviewed, if it is still the same one. -/
def getReviewedPod : Except String Pod :=
  match r.client (r.namespaceOf pod) pod.podName with
  | .error e => .error ("getting pod " ++ r.namespaceOf pod ++ "/" ++ pod.podName ++ ": " ++ e)
  | .ok got =>
    if pod.podUID ≠ "" ∧ got.uid ≠ pod.podUID then
      .error ("pod " ++ r.namespaceOf pod ++ "/" ++ pod.podName ++ " uid mismatch: reviewed " ++
        quoted pod.podUID ++ ", current " ++ quoted got.uid ++ " (stale pod)")
    else .ok got.pod

/-- The attempt in the annotation of a task's pod. -/
def taskIdentityFromPod (ns podName : String) (got : Pod) : Except String AgentIdentity :=
  let raw := got.annotations.getD agentIdentityAnnotation ""
  if raw = "" then
    .error ("pod " ++ ns ++ "/" ++ podName ++ " has no " ++ agentIdentityAnnotation ++ " annotation")
  else
    match parseAgentIdentity raw with
    | .error e => .error e
    | .ok id =>
      if id.taskInstanceID = "" then
        .error ("pod " ++ ns ++ "/" ++ podName ++ " identity annotation carries no task instance id")
      else .ok (.ofPod id)

/-- `ResolveAgent`: the identity of a warm worker from its labels, of a task from its annotation. -/
def resolveAgent : Except String AgentIdentity :=
  match r.getReviewedPod pod with
  | .error e => .error e
  | .ok got =>
    if got.labels.getD warmWorkerLabel "" = warmWorkerLabelValue then
      let dagVersion := got.labels.getD warmDagVersionLabel ""
      if dagVersion = "" then
        .error ("warm pod " ++ r.namespaceOf pod ++ "/" ++ pod.podName ++ " has no " ++ warmDagVersionLabel ++ " label")
      else
        .ok { scope := scopeWarmWorker, dagVersionID := dagVersion
              tenantID := got.labels.getD warmTenantLabel ""
              workerID := if pod.podName = "" then pod.podUID else pod.podName }
    else taskIdentityFromPod (r.namespaceOf pod) pod.podName got

end PodResolver

end Leoflow.KubeExchange
