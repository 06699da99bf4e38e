import Leoflow.AgentRPC.Server
import Leoflow.Storage.Vault

/-!
# Secret delivery

`GetVariables` and `GetConnections` of `internal/agentrpc/secrets.go`: the channel guard, the liveness
gate, and the scoping policy.
-/

namespace Leoflow.AgentRPC

open Lib (GoMap)
open KubeExchange (AgentIdentity)

/-- How far the declarations of a DAG limit which secrets its tasks get. -/
inductive ScopingPolicy where
  | permissive | enforce | off
deriving DecidableEq

/-- An unknown value is permissive. -/
def scopingPolicy (configured : String) : ScopingPolicy :=
  if configured = "enforce" then .enforce else if configured = "off" then .off else .permissive

/-- `IsTaskInstanceLive`, which may fail. -/
abbrev LivenessChecker := (runID taskID : String) → (tryNumber : Int64) → Except Unit Bool

/-- The parts of `Server` the secret path reads. -/
structure SecretServer where
  auth : Authenticator
  store : ExecutionStore
  secrets : Option Vault
  allowInsecureSecrets : Bool := false
  liveness : Option LivenessChecker := none
  enforceLiveness : Bool := false
  scoping : String := ""

namespace SecretServer

variable (s : SecretServer)

/-- Secrets go only over a secure channel, unless that is waived. -/
def guardSecretChannel (ctx : Call) : Except Status Vault :=
  match s.secrets with
  | none => .error ⟨.unavailable, "secrets delivery is not configured"⟩
  | some vault =>
    if s.allowInsecureSecrets || ctx.secure then .ok vault
    else .error ⟨.permissionDenied,
      "refusing to send secrets over an insecure channel; enable gRPC TLS (see issue #58)"⟩

/-- An inconclusive read never denies. -/
def checkLiveness (id : AgentIdentity) : Except Status Unit :=
  match s.liveness with
  | none => .ok ()
  | some live =>
    match live id.runID id.taskID id.tryNumber with
    | .error _ => .ok ()
    | .ok true => .ok ()
    | .ok false =>
      if s.enforceLiveness then .error ⟨.permissionDenied, "task instance is no longer live"⟩ else .ok ()

/-- The names the DAG declares for the attempt's task. -/
def declaredNames (id : AgentIdentity) (kind : SecretKind) : Except Status (List String) :=
  match s.store.taskSpec id with
  | .error e => .error (internalStatus "loading task spec for scope enforcement" e)
  | .ok spec => .ok (spec.declared kind)

/-- What an identified caller past the gates receives. -/
def deliver (kind : SecretKind) (op : String) (vault : Vault) (id : AgentIdentity) :
    Except Status (GoMap String) :=
  if scopingPolicy s.scoping = .enforce then
    match s.declaredNames id kind with
    | .error e => .error e
    | .ok declared =>
      (vault.secretsScoped kind id.tenantID declared).mapError fun _ => redactedStatus op
  else (vault.secrets kind id.tenantID).mapError fun _ => redactedStatus op

/-- What `GetVariables` and `GetConnections` do. -/
def getSecrets (kind : SecretKind) (op : String) (ctx : Call) : Except Status (GoMap String) :=
  match attemptOf s.auth ctx with
  | .error e => .error e
  | .ok id =>
    match s.guardSecretChannel ctx with
    | .error e => .error e
    | .ok vault =>
      match s.checkLiveness id with
      | .error e => .error e
      | .ok () => s.deliver kind op vault id

/-- `GetVariables`. -/
def getVariables (ctx : Call) : Except Status (GoMap String) :=
  s.getSecrets .vars "fetching variables" ctx

/-- `GetConnections`. -/
def getConnections (ctx : Call) : Except Status (GoMap String) :=
  s.getSecrets .conns "fetching connections" ctx

/-- The handler of each kind. -/
def handler : SecretKind → Call → Except Status (GoMap String)
  | .vars => s.getVariables
  | .conns => s.getConnections

variable {s}

/-- A served call passed every gate. -/
theorem getSecrets_ok {kind : SecretKind} {op : String} {ctx : Call} {delivered : GoMap String}
    (h : s.getSecrets kind op ctx = .ok delivered) : ∃ id vault, attemptOf s.auth ctx = .ok id ∧
      s.secrets = some vault ∧ s.deliver kind op vault id = .ok delivered := by
  unfold getSecrets at h
  cases hid : attemptOf s.auth ctx with
  | error e => simp only [hid] at h; cases h
  | ok id =>
    cases hg : s.guardSecretChannel ctx with
    | error e => simp only [hid, hg] at h; cases h
    | ok vault =>
      cases hl : s.checkLiveness id with
      | error e => simp only [hid, hg, hl] at h; cases h
      | ok u =>
        simp only [hid, hg, hl] at h
        refine ⟨id, vault, rfl, ?_, h⟩
        unfold guardSecretChannel at hg
        cases hv : s.secrets with
        | none => simp only [hv] at hg; cases hg
        | some vault' =>
          simp only [hv] at hg
          split at hg
          · exact congrArg some (Except.ok.inj hg)
          · cases hg

theorem deliver_enforced {kind : SecretKind} {op : String} {vault : Vault} {id : AgentIdentity}
    {delivered : GoMap String} (henforce : scopingPolicy s.scoping = .enforce)
    (h : s.deliver kind op vault id = .ok delivered) : ∃ spec, s.store.taskSpec id = .ok spec ∧
      vault.secretsScoped kind id.tenantID (spec.declared kind) = .ok delivered := by
  unfold deliver declaredNames at h
  rw [if_pos henforce] at h
  cases hspec : s.store.taskSpec id with
  | error e => simp only [hspec] at h; cases h
  | ok spec =>
    simp only [hspec] at h
    refine ⟨spec, rfl, ?_⟩
    cases hv : vault.secretsScoped kind id.tenantID (spec.declared kind) with
    | error e => rw [hv] at h; cases h
    | ok m =>
      rw [hv] at h
      exact congrArg Except.ok (Except.ok.inj h)

end SecretServer

end Leoflow.AgentRPC
