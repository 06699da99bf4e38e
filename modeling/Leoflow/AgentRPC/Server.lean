import Leoflow.Storage.AgentStore

/-!
# The agent service

What the handlers of `internal/agentrpc/server.go` share: the identity of the caller, the scope of its
token, the redaction of errors, and `GetTaskSpec`.
-/

namespace Leoflow.AgentRPC

open Lib (GoMap)
open KubeExchange (AgentIdentity scopeWarmWorker)

/-- The `codes.Code` of a refused call. -/
inductive Code where
  | unauthenticated
  | permissionDenied
  | unavailable
  | notFound
  | internal
deriving DecidableEq

/-- A `status.Error`. -/
structure Status where
  code : Code
  message : String
deriving DecidableEq

/-- The context of a call: the bearer in its metadata and whether the channel is encrypted. -/
structure Call where
  bearer : Option String
  secure : Bool

/-- What a bearer token authenticates to. -/
abbrev Authenticator := (token : String) → Option AgentIdentity

variable {auth : Authenticator} {ctx : Call} {id : AgentIdentity}

/-- The identity behind a call. -/
def identify (auth : Authenticator) (ctx : Call) : Except Status AgentIdentity :=
  match ctx.bearer with
  | none => .error ⟨.unauthenticated, "missing authorization token"⟩
  | some token =>
    match auth token with
    | none => .error ⟨.unauthenticated, "invalid agent token"⟩
    | some id => .ok id

/-- The token of a warm worker is for no attempt. -/
def requireAttemptToken (id : AgentIdentity) : Except Status Unit :=
  if id.scope = scopeWarmWorker then
    .error ⟨.permissionDenied, "a warm-worker token authorizes only Register and AwaitAssignment, " ++
      "not secrets or task RPCs"⟩
  else .ok ()

theorem identify_ok : identify auth ctx = .ok id ↔ ∃ token, ctx.bearer = some token ∧ auth token = some id := by
  unfold identify
  cases ctx.bearer with
  | none => simp
  | some token => cases ha : auth token <;> simp [ha]

/-- The identity of a caller that holds a token of an attempt, as every task handler asks for it. -/
def attemptOf (auth : Authenticator) (ctx : Call) : Except Status AgentIdentity :=
  match identify auth ctx with
  | .error e => .error e
  | .ok id =>
    match requireAttemptToken id with
    | .error e => .error e
    | .ok () => .ok id

theorem attemptOf_ok : attemptOf auth ctx = .ok id ↔ identify auth ctx = .ok id ∧ requireAttemptToken id = .ok () := by
  unfold attemptOf
  cases identify auth ctx with
  | error e => simp
  | ok id' =>
    constructor
    · intro h
      cases hr : requireAttemptToken id' with
      | error e => simp only [hr] at h; cases h
      | ok u =>
        simp only [hr, Except.ok.injEq] at h
        exact ⟨congrArg _ h, h ▸ hr⟩
    · rintro ⟨h, hr⟩
      obtain rfl := Except.ok.inj h
      simp only [hr]

/-- Only an error composed for the agent keeps its text. -/
def safeMessage : ResolveError → String
  | .taskNotFound taskID runID =>
    "task " ++ KubeExchange.PodResolver.quoted taskID ++ " not found in run " ++ KubeExchange.PodResolver.quoted runID
  | _ => "the request could not be completed; see the control-plane logs"

/-- An error of the server's own, without what it must not show. -/
def internalStatus (op : String) (cause : ResolveError) : Status :=
  ⟨.internal, op ++ ": " ++ safeMessage cause⟩

/-- `internalStatus` of an error of the database or a backend. -/
def redactedStatus (op : String) : Status :=
  ⟨.internal, op ++ ": the request could not be completed; see the control-plane logs"⟩

/-- A number as a field of 32 bits takes it. -/
def clampInt32 (n : Int) : Int :=
  if n < 0 then 0 else if n > 2 ^ 31 - 1 then 2 ^ 31 - 1 else n

theorem clampInt32_of_range {n : Int} (h0 : 0 ≤ n) (h1 : n ≤ 2 ^ 31 - 1) : clampInt32 n = n := by
  unfold clampInt32
  rw [if_neg (by omega), if_neg (by omega)]

theorem clampInt32_pos {n : Int} (h : 0 < n) : 0 < clampInt32 n := by
  unfold clampInt32
  split_ifs <;> omega

/-- The fields of `agentv1.TaskSpec` that come from the version and decide how the agent runs. -/
structure ServedSpec where
  executionTimeoutSeconds : Int
  maxTries : Int
  dependsOn : List String
  xcomInputMapping : GoMap (List String)
  declared : SecretKind → List String

/-- What `GetTaskSpec` puts on the wire. -/
def servedSpec (spec : AgentTaskSpec) : ServedSpec where
  executionTimeoutSeconds := clampInt32 spec.timeoutSeconds
  maxTries := clampInt32 spec.maxTries
  dependsOn := spec.dependsOn
  xcomInputMapping := spec.xcomInputMapping
  declared := spec.declared

/-- `GetTaskSpec`: the task of the attempt, as its DAG version has it. -/
def getTaskSpec (auth : Authenticator) (store : ExecutionStore) (ctx : Call) :
    Except Status ServedSpec :=
  match attemptOf auth ctx with
  | .error e => .error e
  | .ok id =>
    match store.taskSpec id with
    | .error e => .error (internalStatus "loading task spec" e)
    | .ok spec => .ok (servedSpec spec)

theorem getTaskSpec_of_serves {store : ExecutionStore} (hid : attemptOf auth ctx = .ok id) {spec : VersionSpec}
    (h : store.Serves id.runID spec) {t : AgentTask} (ht : t ∈ spec.tasks) (htask : id.taskID = t.taskID) :
    getTaskSpec auth store ctx = .ok (servedSpec (agentTaskSpec t spec)) := by
  simp only [getTaskSpec, hid, ExecutionStore.taskSpec_of_serves h ht htask]

end Leoflow.AgentRPC
