import Leoflow.AgentRPC.Server
import Leoflow.Executor.Deadline
import Leoflow.Scheduler.Advance

/-!
# The readers of `default_args`

The defaults of a version are read by the materialisation and the planner, over the scheduler's view, by the agent,
told by `GetTaskSpec`, and by the dispatcher with the pod's deadline. They agree when each treats a task that leaves a
field out as the same task with the default written into it. Only the scheduler fills anything in, and only `retries`.
-/

namespace Leoflow

open Lib (GoMap)
open KubeExchange (AgentIdentity)
open AgentRPC Executor List

/-! ## The defaults written out -/

/-- A field of a task, with the default where the task has none of its own. -/
def orDefault (own : Option Int) (default : Int) : Option Int :=
  own.or (if default = 0 then none else some default)

theorem getD_orDefault (own : Option Int) (default : Int) : (orDefault own default).getD 0 = own.getD default := by
  unfold orDefault
  cases own with
  | some n => rfl
  | none =>
    by_cases h : default = 0
    · rw [if_pos h, h]
      rfl
    · rw [if_neg h]
      rfl

/-- The task as its author would have written it without `default_args`. -/
def AgentTask.filled (d : DefaultArgs) (t : AgentTask) : AgentTask :=
  { t with
    retryDelaySeconds := orDefault t.retryDelaySeconds d.retryDelaySeconds
    executionTimeoutSeconds := orDefault t.executionTimeoutSeconds d.executionTimeoutSeconds }

theorem all_orDefault {p : Int → Bool} {own : Option Int} {default : Int} (hown : own.all p)
    (hd : default ≠ 0 → p default) : (orDefault own default).all p := by
  unfold orDefault
  cases own with
  | some n => exact hown
  | none =>
    by_cases h : default = 0
    · rw [if_pos h]
      rfl
    · rw [if_neg h]
      exact hd h

theorem AgentTask.inSchema_filled {d : DefaultArgs} {t : AgentTask} (hd : d.inSchema)
    (ht : t.inSchema) : (t.filled d).inSchema := by
  simp only [DefaultArgs.inSchema, Bool.and_eq_true, decide_eq_true_eq] at hd
  simp only [AgentTask.inSchema, Bool.and_eq_true] at ht ⊢
  refine ⟨⟨⟨⟨ht.1.1.1.1, all_orDefault ht.1.1.1.2 fun _ => ?_⟩, all_orDefault ht.1.1.2 fun hne => ?_⟩, ht.1.2⟩, ht.2⟩
  · exact decide_eq_true hd.1.2
  · have hnonneg := hd.2
    exact decide_eq_true (by omega)

/-- The version with the defaults of the two durations written into every task. -/
def VersionSpec.filled (spec : VersionSpec) : VersionSpec :=
  { spec with
    tasks := spec.tasks.map (AgentTask.filled spec.defaults)
    distinct := by
      rw [map_map]
      exact spec.distinct
    inSchema := by
      have h := spec.inSchema
      simp only [Bool.and_eq_true, all_eq_true] at h ⊢
      refine ⟨⟨⟨fun t' ht' => ?_, h.1.1.2⟩, h.1.2⟩, h.2⟩
      obtain ⟨t, ht, rfl⟩ := mem_map.mp ht'
      exact AgentTask.inSchema_filled spec.inSchema_defaults (h.1.1.1 t ht) }

/-- The store with the defaults written into every version. -/
def ExecutionStore.filled (s : ExecutionStore) : ExecutionStore :=
  { s with version := fun id => (s.version id).map VersionSpec.filled }

theorem ExecutionStore.serves_filled {s : ExecutionStore} {runID : String} {spec : VersionSpec}
    (h : s.Serves runID spec) : s.filled.Serves runID spec.filled := by
  obtain ⟨run, hrun, hver⟩ := h
  exact ⟨run, hrun, congrArg (Option.map VersionSpec.filled) hver⟩

/-! ## The scheduler's readers -/

section Scheduler

variable {spec : VersionSpec} {t : AgentTask}

theorem exists_applied (ht : t ∈ spec.tasks) : ∃ t' ∈ applyDefaultRetries spec.toDAGSpec,
    t'.taskID = t.taskID ∧ t'.retryDelaySeconds = t.retryDelaySeconds ∧
      t'.retries = t.retries.or (spec.defaultArgs.map DefaultArgs.retries) := by
  have hmem : t.toTaskSpec ∈ spec.toDAGSpec.tasks := mem_map_of_mem ht
  unfold applyDefaultRetries
  cases hd : spec.defaultArgs with
  | none =>
    rw [show spec.toDAGSpec.defaultRetries = none from congrArg (Option.map _) hd]
    refine ⟨t.toTaskSpec, hmem, rfl, rfl, ?_⟩
    rw [Option.map_none, Option.or_none]
  | some d =>
    rw [show spec.toDAGSpec.defaultRetries = some d.retries from congrArg (Option.map _) hd]
    refine ⟨_, mem_map_of_mem hmem, ?_⟩
    cases hr : t.retries with
    | none => exact ⟨rfl, rfl, rfl⟩
    | some r => exact ⟨rfl, rfl, hr⟩

theorem nodup_applied : ((applyDefaultRetries spec.toDAGSpec).map TaskSpec.taskID).Nodup := by
  rw [applyDefaultRetries_taskIDs]
  exact spec.toDAGSpec.distinct

theorem planned_delay (ht : t ∈ spec.tasks) (run : DagRun) (tis : List TaskInstance) (now : Time) :
    (runState run spec.toDAGSpec tis now).retryDelaySeconds.getD t.taskID 0 = t.retryDelaySeconds.getD 0 := by
  obtain ⟨t', ht', hid, hdelay, -⟩ := exists_applied ht
  have hlook : (GoMap.collect TaskSpec.taskID TaskSpec.retryDelaySeconds
      (applyDefaultRetries spec.toDAGSpec)).lookup t'.taskID = t'.retryDelaySeconds :=
    GoMap.lookup_collect nodup_applied ht'
  rw [hid, hdelay] at hlook
  exact congrArg (Option.getD · 0) hlook

/-- The budget `MaterializeTasks` stores for a number of retries. -/
def storedTries : Option Int → Int
  | none => 1
  | some r => toInt32 (r + 1)

theorem stored_maxTries (ht : t ∈ spec.tasks) {run : String} {ids : List String}
    {row : TaskInstance} (hrow : row ∈ materializedRows run (applyDefaultRetries spec.toDAGSpec) ids)
    (hid : row.taskId = t.taskID) :
    row.maxTries = storedTries (t.retries.or (spec.defaultArgs.map DefaultArgs.retries)) := by
  obtain ⟨p, hp, rfl⟩ := mem_map.mp hrow
  obtain ⟨t', ht', hid', -, hretries⟩ := exists_applied ht
  have heq : p.1 = t' :=
    inj_on_of_nodup_map nodup_applied (of_mem_zip hp).1 ht' (hid.trans hid'.symm)
  change storedTries p.1.retries = _
  rw [heq, hretries]

theorem exists_materialized (ht : t ∈ spec.tasks) (run : String) : ∃ ids,
    ∃ row ∈ materializedRows run (applyDefaultRetries spec.toDAGSpec) ids, row.taskId = t.taskID := by
  obtain ⟨t', ht', hid, -, -⟩ := exists_applied ht
  obtain ⟨n, hn, hget⟩ := getElem_of_mem ht'
  refine ⟨List.replicate (applyDefaultRetries spec.toDAGSpec).length "", materialized run t' "", ?_, hid⟩
  refine mem_map.mpr ⟨(t', ""), ?_, rfl⟩
  refine mem_iff_getElem.mpr ⟨n, ?_, ?_⟩
  · rw [length_zip, length_replicate, Nat.min_self]
    exact hn
  · rw [getElem_zip, hget, getElem_replicate]

theorem storedTries_defaults (spec : VersionSpec) :
    storedTries (spec.defaultArgs.map DefaultArgs.retries) = spec.defaults.retries + 1 := by
  have hrange := spec.defaults_retries_range
  unfold VersionSpec.defaults at hrange ⊢
  cases hd : spec.defaultArgs with
  | none => rfl
  | some d =>
    rw [hd] at hrange
    change 0 ≤ d.retries ∧ d.retries ≤ 100 at hrange
    change toInt32 (d.retries + 1) = d.retries + 1
    unfold toInt32
    rw [if_neg (by omega), min_eq_left (by omega)]

end Scheduler

/-! ## The agent's readers -/

section Agent

variable {auth : Authenticator} {store : ExecutionStore} {ctx : Call} {id : AgentIdentity}
  {spec : VersionSpec} {t : AgentTask}

theorem told_maxTries (ht : t ∈ spec.tasks) : (servedSpec (agentTaskSpec t spec)).maxTries = storedTries t.retries := by
  change clampInt32 (maxTries t) = storedTries t.retries
  unfold maxTries
  cases hr : t.retries with
  | none => rfl
  | some r =>
    have hrange := spec.retries_range ht hr
    change clampInt32 (r + 1) = toInt32 (r + 1)
    rw [clampInt32_of_range (by omega) (by omega)]
    unfold toInt32
    rw [if_neg (by omega), min_eq_left (by omega)]

theorem budgets_agree_iff (ht : t ∈ spec.tasks) : (servedSpec (agentTaskSpec t spec)).maxTries =
        storedTries (t.retries.or (spec.defaultArgs.map DefaultArgs.retries)) ↔
      (t.retries = none → spec.defaults.retries = 0) := by
  rw [told_maxTries ht]
  cases hr : t.retries with
  | some r => exact ⟨fun _ h => (by cases h), fun _ => rfl⟩
  | none =>
    rw [Option.none_or, storedTries_defaults]
    constructor
    · intro h _
      change (1 : Int) = _ at h
      omega
    · intro h
      rw [h rfl]
      rfl

theorem timeoutOf_filled : timeoutOf (t.filled spec.defaults) =
    t.executionTimeoutSeconds.getD spec.defaults.executionTimeoutSeconds :=
  getD_orDefault _ _

/-- `default_args` say the same to every reader of a task: `GetTaskSpec` tells the agent the budget
`MaterializeTasks` stored, and the planner's cooldown, the agent's timeout and the pod's deadline are those of the
task with the defaults written into it. -/
structure Uniform (auth : Authenticator) (store : ExecutionStore) (ctx : Call) (spec : VersionSpec)
    (t : AgentTask) : Prop where
  budget : ∀ served, getTaskSpec auth store ctx = .ok served → ∀ run tis now ids,
    ∀ row ∈ materializedRows run.id (runState run spec.toDAGSpec tis now).tasks ids,
      row.taskId = t.taskID → served.maxTries = row.maxTries
  cooldown : ∀ run tis now, (runState run spec.toDAGSpec tis now).retryDelaySeconds.getD t.taskID 0 =
      (runState run spec.filled.toDAGSpec tis now).retryDelaySeconds.getD t.taskID 0
  timeout : (getTaskSpec auth store ctx).map ServedSpec.executionTimeoutSeconds =
    (getTaskSpec auth store.filled ctx).map ServedSpec.executionTimeoutSeconds
  deadline : ∀ ceiling, podActiveDeadline (timedRequest t ceiling) =
    podActiveDeadline (timedRequest (t.filled spec.defaults) ceiling)

theorem mem_filled (ht : t ∈ spec.tasks) : t.filled spec.defaults ∈ spec.filled.tasks :=
  mem_map_of_mem ht

theorem cooldowns_agree_iff (ht : t ∈ spec.tasks) (run : DagRun) (tis : List TaskInstance) (now : Time) :
    (runState run spec.toDAGSpec tis now).retryDelaySeconds.getD t.taskID 0 =
        (runState run spec.filled.toDAGSpec tis now).retryDelaySeconds.getD t.taskID 0 ↔
      (t.retryDelaySeconds = none → spec.defaults.retryDelaySeconds = 0) := by
  have hfilled := planned_delay (mem_filled ht) run tis now
  change _ = (orDefault t.retryDelaySeconds spec.defaults.retryDelaySeconds).getD 0 at hfilled
  rw [getD_orDefault] at hfilled
  rw [planned_delay ht]
  refine Iff.trans (Eq.congr_right hfilled) ?_
  cases t.retryDelaySeconds with
  | some d => exact ⟨fun _ h => (by cases h), fun _ => rfl⟩
  | none => exact ⟨fun h _ => h.symm, fun h => (h rfl).symm⟩

theorem timeouts_agree_iff : clampInt32 (timeoutOf t) = clampInt32 (timeoutOf (t.filled spec.defaults)) ↔
      (t.executionTimeoutSeconds = none → spec.defaults.executionTimeoutSeconds = 0) := by
  rw [timeoutOf_filled]
  unfold timeoutOf
  cases t.executionTimeoutSeconds with
  | some s => exact ⟨fun _ h => (by cases h), fun _ => rfl⟩
  | none =>
    constructor
    · intro h _
      by_contra hne
      have hnonneg := spec.defaults_timeout_nonneg
      have hpos := clampInt32_pos (lt_of_le_of_ne hnonneg (Ne.symm hne))
      change clampInt32 0 = clampInt32 spec.defaults.executionTimeoutSeconds at h
      rw [← h] at hpos
      exact absurd hpos (by decide)
    · intro h
      change clampInt32 0 = clampInt32 spec.defaults.executionTimeoutSeconds
      rw [h rfl]

/-- The readers of `default_args` agree on a task exactly when the task sets for itself whatever the
version has a default for. -/
theorem default_args_uniform_iff (hid : attemptOf auth ctx = .ok id) (hstore : store.Serves id.runID spec)
    (ht : t ∈ spec.tasks) (htask : id.taskID = t.taskID) :
    Uniform auth store ctx spec t ↔ (t.retries = none → spec.defaults.retries = 0) ∧
      (t.retryDelaySeconds = none → spec.defaults.retryDelaySeconds = 0) ∧
      (t.executionTimeoutSeconds = none → spec.defaults.executionTimeoutSeconds = 0) := by
  have htold := getTaskSpec_of_serves hid hstore ht htask
  have hfilled := getTaskSpec_of_serves hid (ExecutionStore.serves_filled hstore) (mem_filled ht) htask
  constructor
  · intro h
    let run : DagRun := { id := id.runID, dagVersionId := "", queuedAt := 0 }
    refine ⟨(budgets_agree_iff ht).mp ?_, (cooldowns_agree_iff ht run [] 0).mp (h.cooldown run [] 0),
      timeouts_agree_iff.mp ?_⟩
    · obtain ⟨ids, row, hrow, hrid⟩ := exists_materialized ht run.id
      have hb := h.budget _ htold run [] 0 ids row hrow hrid
      rw [stored_maxTries ht hrow hrid] at hb
      exact hb
    · have htime := h.timeout
      rw [htold, hfilled] at htime
      exact Except.ok.inj htime
  · rintro ⟨hretries, hdelay, htimeout⟩
    refine ⟨fun served hs run tis now ids row hrow hrid => ?_, fun run tis now => ?_, ?_, fun ceiling => ?_⟩
    · obtain rfl := Except.ok.inj (htold.symm.trans hs)
      rw [stored_maxTries ht hrow hrid]
      exact (budgets_agree_iff ht).mpr hretries
    · exact (cooldowns_agree_iff ht run tis now).mpr hdelay
    · rw [htold, hfilled]
      exact congrArg Except.ok (timeouts_agree_iff.mpr htimeout)
    · -- the deadline reads the default through the timeout alone
      have htimes : timeoutOf t = timeoutOf (t.filled spec.defaults) := by
        rw [timeoutOf_filled]
        unfold timeoutOf
        cases hown : t.executionTimeoutSeconds with
        | some s => rfl
        | none => exact (htimeout hown).symm
      unfold timedRequest
      rw [htimes]
      rfl

end Agent

/-! ## A project with defaults -/

/-- A version of one task. -/
def oneTaskVersion (t : AgentTask) (d : DefaultArgs) (h : (t.inSchema && d.inSchema)) : VersionSpec where
  dagID := "etl"
  tasks := [t]
  defaultArgs := some d
  distinct := nodup_singleton _
  inSchema := by
    simp only [Bool.and_eq_true] at h
    simp only [all_cons, all_nil, Option.all_some, h.1, h.2]
    decide

/-- `defaults: {retries: 2, retry_delay_seconds: 300, execution_timeout_seconds: 600}`. -/
def projectDefaults : DefaultArgs := defaultArgs (some 2) (some 300) (some 600)

/-- A store with one run, of a version with this spec. -/
def storeOf (spec : VersionSpec) : ExecutionStore where
  run := fun id => if id = "run" then some { id := "run", dagVersionId := "v1", queuedAt := 0 } else none
  version := fun id => if id = "v1" then some spec else none

theorem storeOf_serves (spec : VersionSpec) : (storeOf spec).Serves "run" spec :=
  ⟨_, rfl, rfl⟩

/-- The attempt of its task. -/
def loadAttempt : AgentIdentity := { runID := "run", taskID := "load", tryNumber := 1 }

/-- The token of that attempt. -/
def loadAuth : Authenticator := fun token => if token = "token" then some loadAttempt else none

/-- A call with that token. -/
def loadCall : Call := { bearer := some "token", secure := true }

/-- A task that sets what the project has defaults for. -/
def ownLoad : AgentTask where
  taskID := "load"
  retries := some 1
  retryDelaySeconds := some 60
  executionTimeoutSeconds := some 120

theorem default_args_uniform_own :
    Uniform loadAuth (storeOf (oneTaskVersion ownLoad projectDefaults (by decide))) loadCall
      (oneTaskVersion ownLoad projectDefaults (by decide)) ownLoad :=
  (default_args_uniform_iff (show attemptOf loadAuth loadCall = .ok loadAttempt from rfl)
    (storeOf_serves _) mem_cons_self rfl).mpr
    ⟨fun h => (by cases h), fun h => (by cases h), fun h => (by cases h)⟩

/-- A task that leaves them to the project. -/
def bareLoad : AgentTask where
  taskID := "load"

/-- A version whose task leaves everything to the project. -/
def bareVersion : VersionSpec := oneTaskVersion bareLoad projectDefaults (by decide)

/-- The row of such a task has three tries, its agent is told one; and it is planned without a cooldown
and run without a timeout. -/
theorem defaults_not_uniform :
    attemptOf loadAuth loadCall = .ok loadAttempt ∧ (storeOf bareVersion).Serves "run" bareVersion ∧
    bareLoad ∈ bareVersion.tasks ∧
    (getTaskSpec loadAuth (storeOf bareVersion) loadCall).map
        (fun served => (served.maxTries, served.executionTimeoutSeconds)) = .ok (1, 0) ∧
    (materializedRows "run" (applyDefaultRetries bareVersion.toDAGSpec) ["ti"]).map TaskInstance.maxTries = [3] ∧
    (∀ run tis now, (runState run bareVersion.toDAGSpec tis now).retryDelaySeconds.getD "load" 0 = 0) ∧
    ¬Uniform loadAuth (storeOf bareVersion) loadCall bareVersion bareLoad := by
  refine ⟨rfl, storeOf_serves _, mem_cons_self, rfl, rfl, fun run tis now => ?_, fun h => ?_⟩
  · exact planned_delay (t := bareLoad) mem_cons_self run tis now
  · have hdelay := h.cooldown { id := "run", dagVersionId := "v1", queuedAt := 0 } [] 0
    rw [cooldowns_agree_iff (t := bareLoad) mem_cons_self] at hdelay
    exact absurd (hdelay rfl) (by decide)

end Leoflow
