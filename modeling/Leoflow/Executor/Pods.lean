import Leoflow.Lib.GoMap
import Leoflow.Lib.Json

/-!
# Task pods

The identity of a task pod as `internal/executor/kubernetes.go` stamps it: labels that selectors
read, and annotations from which the token exchange resolves the pod to its task instance. A DAG
author's own labels and annotations are merged in. `ListWarmPods` of `warmpool_k8s.go` reads the same
labels.
-/

namespace Leoflow.Executor

open Lib (GoMap Json)

/-! ## The label contract -/

/-- The label that marks a warm worker's pod. -/
def warmWorkerLabel : String := "leoflow.io/warm-worker"

/-- Its value. -/
def warmWorkerLabelValue : String := "true"

/-- The label with the DAG version a warm pod serves. -/
def warmDagVersionLabel : String := "leoflow.io/dag-version-id"

/-- The label with the tenant of a pod. -/
def warmTenantLabel : String := "leoflow.io/tenant-id"

/-- The annotation that binds a pod to the attempt it was made for. -/
def agentIdentityAnnotation : String := "leoflow.io/agent-identity"

/-- The transport in which an agent exchanges its projected token. -/
def agentTransportExchange : String := "exchange"

/-- The audience of a projected token where none is configured. -/
def defaultAgentTokenAudience : String := "leoflow-control-plane"

/-- The shortest life the kubelet accepts for a projected token. -/
def minProjectedTokenExpirationSeconds : Int := 600

/-- `unicode.ToLower` where its result is a lower-case ASCII letter; any other character stays outside
`[a-z0-9-]`. -/
def lowerRune (c : Char) : Char :=
  if c.isUpper then c.toLower
  else if c = '\u0130' then 'i'
  else if c = '\u212a' then 'k'
  else c

/-- A letter, digit or dash stays; everything else becomes a dash. -/
def labelRune (c : Char) : Char :=
  if ('a' ≤ c ∧ c ≤ 'z') ∨ ('0' ≤ c ∧ c ≤ '9') ∨ c = '-' then c else '-'

/-- `strings.TrimRight(s, "-")`. -/
def trimRight (cs : List Char) : List Char := (cs.reverse.dropWhile (· == '-')).reverse

/-- A text as a label value: lower case, with dashes for what a label may not hold and none at its ends. -/
def sanitizeLabel (s : String) : String :=
  String.ofList (trimRight ((s.toList.map fun c => labelRune (lowerRune c)).dropWhile (· == '-')))

/-! ## Requests and pods -/

/-- The fields of `executor.Request` that reach the pod's metadata and its agent token. -/
structure Request where
  taskInstanceID : String
  tenantID : String
  dagID : String
  runID : String
  taskID : String
  tryNumber : Int64
  labels : GoMap String
  annotations : GoMap String
  agentTokenTransport : String
  agentTokenSecretName : String
  agentTokenAudience : String
  agentTokenExpirationSeconds : Int

/-- The projected ServiceAccount token volume. -/
structure ProjectedToken where
  audience : String
  expirationSeconds : Int
deriving DecidableEq

/-- The metadata of a pod and its projected token. -/
structure Pod where
  name : String
  labels : GoMap String
  annotations : GoMap String
  token : Option ProjectedToken := none

/-! ## The identity annotation -/

/-- The attempt a pod belongs to, as its annotation holds it. -/
structure PodIdentity where
  taskInstanceID : String := ""
  tenantID : String := ""
  dagID : String := ""
  runID : String := ""
  taskID : String := ""
  tryNumber : Int64 := 0
deriving DecidableEq

namespace PodIdentity

/-- The members of its JSON, in the order of the struct's fields. -/
def fields (id : PodIdentity) : List (String × Json.Field) :=
  [("ti", .string id.taskInstanceID), ("tenant", .string id.tenantID), ("dag", .string id.dagID),
    ("run", .string id.runID), ("task", .string id.taskID), ("try", .int id.tryNumber.toInt)]

/-- `json.Marshal` of a pod's identity. -/
def marshal (id : PodIdentity) : String := Json.write id.fields

/-- Store one member of the payload. -/
def set (id : PodIdentity) (key : String) (v : Json) : Option PodIdentity :=
  match Json.foldName key with
  | "ti" => (Json.storeString id.taskInstanceID v).map fun s => { id with taskInstanceID := s }
  | "tenant" => (Json.storeString id.tenantID v).map fun s => { id with tenantID := s }
  | "dag" => (Json.storeString id.dagID v).map fun s => { id with dagID := s }
  | "run" => (Json.storeString id.runID v).map fun s => { id with runID := s }
  | "task" => (Json.storeString id.taskID v).map fun s => { id with taskID := s }
  | "try" => (Json.storeInt id.tryNumber v).map fun n => { id with tryNumber := n }
  | _ => some id

end PodIdentity

/-- The error of the decoder is only told apart as syntax or type. -/
def parseAgentIdentity (raw : String) : Except String PodIdentity :=
  match Json.parse raw with
  | none => .error "decoding agent-identity annotation: invalid syntax"
  | some v =>
    match Json.decode PodIdentity.set {} v with
    | none => .error "decoding agent-identity annotation: cannot unmarshal value"
    | some id => .ok id

section Members

variable (id : PodIdentity) (s : String)

theorem set_ti : id.set "ti" (.string s) = some { id with taskInstanceID := s } := rfl
theorem set_tenant : id.set "tenant" (.string s) = some { id with tenantID := s } := rfl
theorem set_dag : id.set "dag" (.string s) = some { id with dagID := s } := rfl
theorem set_run : id.set "run" (.string s) = some { id with runID := s } := rfl
theorem set_task : id.set "task" (.string s) = some { id with taskID := s } := rfl

theorem set_try (n : Int64) : id.set "try" (.number n.toInt.repr) = some { id with tryNumber := n } := by
  have hstore : id.set "try" (.number n.toInt.repr) =
      (Json.parseInt64 n.toInt.repr).map fun n => { id with tryNumber := n } := rfl
  rw [hstore, Json.parseInt64_repr, Option.map_some]

end Members

/-- The annotation a pod is stamped with reads back as its identity. -/
theorem parseAgentIdentity_marshal (id : PodIdentity) : parseAgentIdentity id.marshal = .ok id := by
  have hdecode : Json.decode PodIdentity.set {}
      (.object (id.fields.map fun m => (m.1, m.2.json))) = some id := by
    simp [Json.decode, PodIdentity.fields, Json.Field.json, set_ti, set_tenant, set_dag, set_run, set_task, set_try]
  rw [parseAgentIdentity, PodIdentity.marshal, Json.parse_write]
  simp only [hdecode]

/-! ## `BuildPod` -/

/-- `podName`, with the random suffix of the pod. -/
def podName (suffix : String) (req : Request) : String :=
  let base := "leoflow-" ++ sanitizeLabel req.dagID ++ "-" ++ sanitizeLabel req.taskID ++ "-" ++
    req.tryNumber.toInt.repr
  let maxBase := 63 - suffix.length - 1
  let base := if base.length > maxBase then String.ofList (trimRight (base.toList.take maxBase))
    else base
  base ++ "-" ++ suffix

/-- The labels the executor sets on a task's pod. -/
def ownLabels (req : Request) : GoMap String :=
  .literal [("leoflow.io/dag-id", sanitizeLabel req.dagID),
    ("leoflow.io/task-id", sanitizeLabel req.taskID),
    ("leoflow.io/run-id", sanitizeLabel req.runID),
    ("leoflow.io/try-number", req.tryNumber.toInt.repr),
    ("leoflow.io/tenant-id", sanitizeLabel req.tenantID)]

/-- The annotations it sets. -/
def ownAnnotations (req : Request) : GoMap String :=
  .literal [("leoflow.io/task-instance-id", req.taskInstanceID)]

/-- A DAG's labels or annotations fill in what the executor did not set. -/
def mergeMetadata (own declared : GoMap String) : GoMap String := own.fill declared

/-- The identity `agentTokenOf` puts into the request's token. -/
def Request.identity (req : Request) : PodIdentity where
  taskInstanceID := req.taskInstanceID
  tenantID := req.tenantID
  dagID := req.dagID
  runID := req.runID
  taskID := req.taskID
  tryNumber := req.tryNumber

/-- The pod gets a projected token: the exchange transport without the Secret it may fall back to. -/
def Request.projects (req : Request) : Bool :=
  req.agentTokenTransport == agentTransportExchange && req.agentTokenSecretName == ""

/-- `mountAgentToken` for a task pod. -/
def mountAgentToken (pod : Pod) (req : Request) : Pod :=
  if req.projects then
    { pod with
      token := some
        { audience := if req.agentTokenAudience = "" then defaultAgentTokenAudience
            else req.agentTokenAudience
          expirationSeconds := max req.agentTokenExpirationSeconds minProjectedTokenExpirationSeconds }
      annotations := pod.annotations.insert agentIdentityAnnotation req.identity.marshal }
  else pod

/-- The pod of a request, with the agent's token mounted. -/
def buildPod (suffix : String) (req : Request) : Pod :=
  mountAgentToken
    { name := podName suffix req
      labels := mergeMetadata (ownLabels req) req.labels
      annotations := mergeMetadata (ownAnnotations req) req.annotations } req

/-! ## `ListWarmPods` -/

/-- A pod as the apiserver stores it. -/
structure StoredPod where
  pod : Pod
  uid : String
  terminal : Bool := false

/-- What the pool manager sees of a warm pod. -/
structure WarmPodInfo where
  name : String
  dagVersionID : String
  terminal : Bool
  tenantID : String
deriving DecidableEq

/-- The pod has the label of a warm worker. -/
def isWarmPod (pod : Pod) : Bool := pod.labels.lookup warmWorkerLabel == some warmWorkerLabelValue

/-- The warm pods of the cluster. -/
def listWarmPods (pods : List StoredPod) : List WarmPodInfo :=
  (pods.filter fun p => isWarmPod p.pod).map fun p =>
    { name := p.pod.name
      dagVersionID := p.pod.labels.getD warmDagVersionLabel ""
      terminal := p.terminal
      tenantID := p.pod.labels.getD warmTenantLabel "" }

end Leoflow.Executor
