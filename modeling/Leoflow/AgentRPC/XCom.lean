import Leoflow.AgentRPC.Server
import Leoflow.Executor.Labels

/-!
# XCom

`PushXCom` and `FetchXCom` of `internal/agentrpc/server.go` over the service of `internal/xcom/xcom.go`.
The backend is a map from key texts to entries that expire; it may also lose an entry at any time.
-/

namespace Leoflow.AgentRPC

open Lib (GoMap Json)
open KubeExchange (AgentIdentity)

namespace XCom

/-- The bytes of a value. -/
abbrev Bytes := List UInt8

/-- What a value is stored under. -/
structure Key where
  tenantID : String
  dagID : String
  runID : String
  taskID : String
  name : String
deriving DecidableEq

/-- The key in the store. -/
def Key.text (k : Key) : String :=
  "xcom:" ++ k.tenantID ++ ":" ++ k.dagID ++ ":" ++ k.runID ++ ":" ++ k.taskID ++ ":" ++ k.name

/-- A stored value. -/
structure Entry where
  value : Bytes
  contentType : String
  sizeBytes : Int
  createdAt : Time
deriving DecidableEq

/-- The backend: an entry and when it expires, under each key. -/
abbrev Backend := GoMap (Entry × Time)

/-- `Fetch`: what is stored and has not expired. -/
def Backend.fetch (b : Backend) (key : String) (now : Time) : Option Entry :=
  match b.lookup key with
  | some (e, expiresAt) => if expiresAt > now then some e else none
  | none => none

/-- The most a value may hold. -/
def maxSizeBytes : Nat := 256 * 1024

end XCom

open XCom

/-- The parts of `Server` and `xcom.Service` the XCom handlers read. `validSchema` is the JSON Schema
validator. -/
structure XComServer where
  auth : Authenticator
  store : ExecutionStore
  ttl : Duration
  validSchema : Json → Bytes → Bool

/-- A `PushXCom` call: its context and request, the clock, and whether the backend and the index
answer. -/
structure Push where
  ctx : Call
  key : String
  value : Bytes
  contentType : String
  now : Time
  backendOk : Bool := true
  indexOk : Bool := true

/-- What a push is answered with. -/
structure PushResponse where
  accepted : Bool
  rejectionReason : String := ""
deriving DecidableEq

/-- The name of an XCom. An absent key is `return_value`. -/
def keyName (name : String) : String := if name = "" then "return_value" else name

/-- The key of a task's value in the run of an identity. -/
def xcomKey (id : AgentIdentity) (taskID name : String) : Key :=
  ⟨id.tenantID, id.dagID, id.runID, taskID, keyName name⟩

namespace XComServer

variable (s : XComServer)

/-- The entry `Service.Push` stores. -/
def entryOf (p : Push) : Entry where
  value := p.value
  contentType := if p.contentType = "" then "application/json" else p.contentType
  sizeBytes := p.value.length
  createdAt := p.now

/-- `PushXCom`, with `Service.Push`. -/
def pushXCom (b : Backend) (p : Push) : Backend × Except Status PushResponse :=
  match attemptOf s.auth p.ctx with
  | .error e => (b, .error e)
  | .ok id =>
    match s.store.taskSpec id with
    | .error e => (b, .error (internalStatus "loading task spec" e))
    | .ok spec =>
      if p.value.length > maxSizeBytes then (b, .ok ⟨false, "payload_too_large"⟩)
      else if spec.xcomSchema.any (fun schema => !s.validSchema schema p.value) then
        (b, .ok ⟨false, "schema_mismatch"⟩)
      else if p.backendOk then
        let b' := b.insert (xcomKey id id.taskID p.key).text (entryOf p, p.now + s.ttl)
        if p.indexOk then (b', .ok ⟨true, ""⟩) else (b', .error (redactedStatus "storing xcom"))
      else (b, .error (redactedStatus "storing xcom"))

/-- A task asks for a value of an upstream task. -/
structure FetchRequest where
  upstreamTaskID : String
  key : String

/-- The value it gets. -/
structure FetchResponse where
  value : Bytes
  contentType : String
  sizeBytes : Int
  createdAt : Time
deriving DecidableEq

/-- The task's inputs name the upstream task. -/
def declaresUpstream (mapping : GoMap (List String)) (upstreamTaskID : String) : Bool :=
  mapping.entries.any fun e => e.2.contains upstreamTaskID

/-- The backend may fail. -/
def fetchXCom (b : Backend) (ctx : Call) (req : FetchRequest) (now : Time) (backendOk : Bool) :
    Except Status FetchResponse :=
  match attemptOf s.auth ctx with
  | .error e => .error e
  | .ok id =>
    match s.store.taskSpec id with
    | .error e => .error (internalStatus "loading task spec" e)
    | .ok spec =>
      if !declaresUpstream spec.xcomInputMapping req.upstreamTaskID && !spec.dependsOn.contains req.upstreamTaskID then
        .error ⟨.permissionDenied, "task " ++ KubeExchange.PodResolver.quoted id.taskID ++
          " may not read xcom from " ++ KubeExchange.PodResolver.quoted req.upstreamTaskID ++
          " (not a declared input or dependency)"⟩
      else if !backendOk then .error (redactedStatus "reading xcom")
      else
        match b.fetch (xcomKey id req.upstreamTaskID req.key).text now with
        | none => .error ⟨.notFound, "no xcom for task " ++ KubeExchange.PodResolver.quoted req.upstreamTaskID⟩
        | some e => .ok ⟨e.value, e.contentType, clampInt32 e.sizeBytes, e.createdAt⟩

/-! ## Histories -/

/-- What happens to the backend: a push, or the loss of an entry. -/
inductive Event where
  | push (p : Push)
  | evict (key : String)

/-- What an event leaves in the store. -/
def apply (b : Backend) : Event → Backend
  | .push p => (s.pushXCom b p).1
  | .evict key => b.erase key

/-- The store after a history. -/
def backendAfter (history : List Event) : Backend := history.foldl s.apply ∅

/-- The key and the entry of a push that reaches the backend. -/
def reached (p : Push) : Option (Key × Entry) :=
  match attemptOf s.auth p.ctx with
  | .error _ => none
  | .ok id =>
    match s.store.taskSpec id with
    | .error _ => none
    | .ok spec =>
      if p.value.length > maxSizeBytes then none
      else if spec.xcomSchema.any (fun schema => !s.validSchema schema p.value) then none
      else if p.backendOk then some (xcomKey id id.taskID p.key, entryOf p) else none

/-- The values that were stored, in order. -/
def pushes (history : List Event) : List (Key × Entry) :=
  history.filterMap fun
    | .push p => s.reached p
    | .evict _ => none

theorem pushXCom_backend (b : Backend) (p : Push) : (s.pushXCom b p).1 = match s.reached p with
    | some (k, e) => b.insert k.text (e, p.now + s.ttl)
    | none => b := by
  unfold pushXCom reached
  cases attemptOf s.auth p.ctx with
  | error e => rfl
  | ok id =>
    cases hspec : s.store.taskSpec id with
    | error e => simp only [hspec]
    | ok spec =>
      simp only [hspec]
      split
      · rfl
      · split
        · rfl
        · split
          · split
            · rfl
            · rfl
          · rfl

end XComServer

end Leoflow.AgentRPC
