import Leoflow.AgentRPC.Secrets
import Leoflow.Cli.Overlay

/-!
# Task-level declarations of secrets

A DAG declares the secrets its tasks may have, and a task may declare fewer. Under `enforce` a task
receives what `declaredSecrets` resolves: its own list, or the DAG's where it has none. So its own list
takes the place of the DAG's and is not intersected with it, and it narrows the DAG's only if it was
written that way.
-/

namespace Leoflow.AgentRPC

open Lib (GoMap)
open KubeExchange (AgentIdentity)

section Scope

variable {s : SecretServer} {ctx : Call} {id : AgentIdentity} {spec : VersionSpec} {t : AgentTask}
  {vault : Vault} {kind : SecretKind} {delivered : GoMap String}

theorem mem_delivered (henforce : s.scoping = "enforce") (hid : attemptOf s.auth ctx = .ok id)
    (hstore : s.store.Serves id.runID spec) (ht : t ∈ spec.tasks) (htask : id.taskID = t.taskID)
    (hvault : s.secrets = some vault) (hcall : s.handler kind ctx = .ok delivered) {n : String} :
    n ∈ delivered ↔ n ∈ declaredSecrets kind t spec ∧ vault.Holds kind id.tenantID n := by
  have hserved : ∃ op, s.getSecrets kind op ctx = .ok delivered := by
    cases kind with
    | vars => exact ⟨_, hcall⟩
    | conns => exact ⟨_, hcall⟩
  obtain ⟨op, hget⟩ := hserved
  obtain ⟨id', vault', hid', hvault', hdel⟩ := SecretServer.getSecrets_ok hget
  obtain rfl := Except.ok.inj (hid.symm.trans hid')
  obtain rfl := Option.some.inj (hvault.symm.trans hvault')
  have hpolicy : scopingPolicy s.scoping = .enforce := by
    rw [henforce]
    rfl
  obtain ⟨told, htold, hread⟩ := SecretServer.deliver_enforced hpolicy hdel
  rw [ExecutionStore.taskSpec_of_serves hstore ht htask] at htold
  obtain rfl := Except.ok.inj htold
  exact Vault.mem_secretsScoped hread

theorem mem_declaredSecrets {n : String} : n ∈ declaredSecrets kind t spec ↔
    if t.secrets kind = [] then n ∈ spec.secrets kind else n ∈ t.secrets kind := by
  unfold declaredSecrets
  by_cases h : t.secrets kind = []
  · rw [if_pos h, if_neg (by rw [h]; exact Nat.lt_irrefl 0)]
  · rw [if_neg h, if_pos (List.length_pos_iff.mpr h)]

/-- What an attempt receives lies within the DAG's declaration, and within the task's own where it has
one, exactly when the names of the task's own list that its tenant has are names of the DAG's. -/
theorem secrets_narrow_iff (henforce : s.scoping = "enforce") (hid : attemptOf s.auth ctx = .ok id)
    (hstore : s.store.Serves id.runID spec) (ht : t ∈ spec.tasks) (htask : id.taskID = t.taskID)
    (hvault : s.secrets = some vault) (hcall : s.handler kind ctx = .ok delivered) :
    (∀ n ∈ delivered, n ∈ spec.secrets kind ∧ (t.secrets kind ≠ [] → n ∈ t.secrets kind)) ↔
      ∀ n ∈ t.secrets kind, vault.Holds kind id.tenantID n → n ∈ spec.secrets kind := by
  have hmem : ∀ n, n ∈ delivered ↔ n ∈ declaredSecrets kind t spec ∧ vault.Holds kind id.tenantID n :=
    fun n => mem_delivered henforce hid hstore ht htask hvault hcall
  by_cases hown : t.secrets kind = []
  · refine ⟨fun _ n hn => ?_, fun _ n hn => ⟨?_, fun h => absurd hown h⟩⟩
    · rw [hown] at hn
      cases hn
    · have hdecl := mem_declaredSecrets.mp ((hmem n).mp hn).1
      rw [if_pos hown] at hdecl
      exact hdecl
  · constructor
    · intro h n hn hholds
      refine (h n ((hmem n).mpr ⟨mem_declaredSecrets.mpr ?_, hholds⟩)).1
      rw [if_neg hown]
      exact hn
    · intro h n hn
      obtain ⟨hdecl, hholds⟩ := (hmem n).mp hn
      rw [mem_declaredSecrets, if_neg hown] at hdecl
      exact ⟨h n hdecl hholds, fun _ => hdecl⟩

end Scope

/-! ## From the project file to the pod -/

/-- The tenant's variables. -/
def teamVault : Vault where
  rows := fun
    | .vars => .ok [⟨"tenant", "region", some "eu"⟩, ⟨"tenant", "db_password", some "hunter2"⟩]
    | .conns => .ok []

/-- A project with `variables: [region]` and an override of `variables` for its one task. -/
def reportTasks (override : List String) : List AgentTask :=
  (Cli.overlayTasks (.literal [("report", { secrets := fun | .vars => override | .conns => [] })])
    [{ taskID := "report" }]).toOption.getD []

/-- A version whose task reads what the DAG declares. -/
def narrowSpec : VersionSpec where
  dagID := "etl"
  tasks := reportTasks ["region"]
  secrets := fun | .vars => ["region"] | .conns => []
  distinct := by decide
  inSchema := by decide

/-- A version whose task declares a secret of its own. -/
def wideSpec : VersionSpec where
  dagID := "etl"
  tasks := reportTasks ["db_password"]
  secrets := fun | .vars => ["region"] | .conns => []
  distinct := by decide
  inSchema := by decide

/-- The attempt of that task. -/
def reportAttempt : AgentIdentity :=
  { tenantID := "tenant", runID := "run", taskID := "report", tryNumber := 1 }

/-- A control plane that serves one run of the given version to one attempt. -/
def enforcing (spec : VersionSpec) : SecretServer where
  auth := fun token => if token = "token" then some reportAttempt else none
  store := {
    run := fun id => if id = "run" then some { id := "run", dagVersionId := "v1", queuedAt := 0 } else none
    version := fun id => if id = "v1" then some spec else none }
  secrets := some teamVault
  scoping := "enforce"

/-- A call with its token. -/
def reportCall : Call := { bearer := some "token", secure := true }

theorem enforcing_serves (spec : VersionSpec) : (enforcing spec).store.Serves "run" spec :=
  ⟨_, rfl, rfl⟩

/-- With a list that narrows the DAG's, the attempt receives `region`. -/
theorem secrets_narrow_region : (enforcing narrowSpec).getVariables reportCall = .ok (.literal [("region", "eu")]) ∧
      ∀ n ∈ (GoMap.literal [("region", "eu")] : GoMap String), n ∈ narrowSpec.secrets .vars ∧
        (narrowSpec.tasks.head (by decide)).secrets .vars ≠ [] ∧
        n ∈ (narrowSpec.tasks.head (by decide)).secrets .vars := by
  have hcall : (enforcing narrowSpec).handler .vars reportCall = .ok (.literal [("region", "eu")]) := rfl
  have hnarrow := (secrets_narrow_iff (t := narrowSpec.tasks.head (by decide)) rfl
    (show attemptOf (enforcing narrowSpec).auth reportCall = .ok reportAttempt from rfl)
    (enforcing_serves _) (List.head_mem _) rfl rfl hcall).mpr fun n hn _ => hn
  refine ⟨hcall, fun n hn => ⟨(hnarrow n hn).1, by decide, (hnarrow n hn).2 (by decide)⟩⟩

/-- An override that names another variable passes compilation and registration, and under `enforce` the
attempt receives that variable, which its DAG never declared. -/
theorem secret_beyond_dag : Cli.overlayTasks
        (.literal [("report", { secrets := fun | .vars => ["db_password"] | .conns => [] })])
        [{ taskID := "report" }] = .ok wideSpec.tasks ∧
    (∀ kind, teamVault.unknownSecrets kind "tenant" (fun _ => false) wideSpec = .ok []) ∧
    wideSpec.secrets .vars ≠ [] ∧
    (enforcing wideSpec).getVariables reportCall = .ok (.literal [("db_password", "hunter2")]) ∧
    "db_password" ∈ (GoMap.literal [("db_password", "hunter2")] : GoMap String) ∧
    "db_password" ∉ wideSpec.secrets .vars := by
  refine ⟨rfl, fun kind => ?_, by decide, rfl, by decide, by decide⟩
  cases kind with
  | vars => rfl
  | conns => rfl

end Leoflow.AgentRPC
