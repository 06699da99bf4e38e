import Mathlib.Data.List.Nodup
import Leoflow.Domain.State

/-!
# Tenants, DAGs and the runs scheduling looks at

The rows of `tenants` and `dags`, and those columns of `dag_runs` that say which DAG a run is of and
for which logical date. The constraints of the three tables are fields, so that a table which breaks
one cannot be built; a logical date is in nanoseconds.
-/

namespace Leoflow

open List

/-- A row of `tenants`. -/
structure Tenant where
  id : String
  name : String
deriving DecidableEq

/-- A row of `dags`. -/
structure Dag where
  id : String
  tenantId : String
  dagId : String
  isPaused : Bool := false
  isActive : Bool := true
  schedule : Option String := none
  startDate : Option Time := none
  maxActiveRuns : Int := 16
  catchup : Bool := false
  currentVersionId : Option String := none
deriving DecidableEq

/-- The `run_type` of a run. -/
inductive Trigger where
  | scheduled | manual | backfill | dataset
deriving DecidableEq

/-- A row of `dag_runs`; `dag` is its `dag_id`, the id of a row of `dags`. -/
structure RunEntry where
  tenantId : String
  dag : String
  dagVersionId : String
  runId : String
  logicalDate : Time
  state : DagRunState := .queued
  trigger : Trigger
deriving DecidableEq

/-- The columns of `dag_runs_unique`. -/
def RunEntry.key (r : RunEntry) : String × String := (r.dag, r.runId)

/-- The tables with their constraints. -/
structure Catalog where
  tenants : List Tenant := []
  dags : List Dag := []
  runs : List RunEntry := []
  tenantIds : (tenants.map Tenant.id).Nodup
  tenantNames : (tenants.map Tenant.name).Nodup
  dagIds : (dags.map Dag.id).Nodup
  dagsUniquePerTenant : (dags.map fun d => (d.tenantId, d.dagId)).Nodup
  dagRunsUnique : (runs.map RunEntry.key).Nodup

namespace Catalog

variable (c : Catalog)

/-- The `JOIN tenants`: the tenant a DAG belongs to has this name. -/
def belongsTo (name : String) (d : Dag) : Bool :=
  c.tenants.any fun t => t.id == d.tenantId && t.name == name

/-- The runs of a DAG. -/
def runsOf (d : Dag) : List RunEntry := c.runs.filter fun r => r.dag == d.id

/-- There is a run under the key. -/
def hasRun (key : String × String) : Bool := c.runs.any fun r => r.key == key

/-- `INSERT INTO dag_runs … ON CONFLICT (dag_id, run_id) DO NOTHING`. -/
def insertRun (r : RunEntry) : Catalog :=
  if h : c.hasRun r.key then c
  else
    { c with
      runs := c.runs ++ [r]
      dagRunsUnique := by
        have hnew : r.key ∉ c.runs.map RunEntry.key := by
          simpa [hasRun, mem_map] using h
        rw [map_append, map_singleton, nodup_append]
        refine ⟨c.dagRunsUnique, nodup_singleton _, ?_⟩
        rintro k hk _ hr rfl
        exact hnew (mem_singleton.mp hr ▸ hk) }

/-- One insert for each DAG the statement selects. -/
def createScheduledRunByDagID (tenant dagID runID : String) (logical : Time) : Catalog :=
  (c.dags.filter fun d => c.belongsTo tenant d && d.dagId == dagID).foldl (fun c d =>
    match d.currentVersionId with
    | some v => c.insertRun
        { tenantId := d.tenantId, dag := d.id, dagVersionId := v, runId := runID,
          logicalDate := logical, trigger := .scheduled }
    | none => c) c

/-- `CountActiveDagRunsByDagID`: the runs that are not over. -/
def countActiveDagRunsByDagID (d : Dag) : Nat :=
  (c.runsOf d).countP fun r => !r.state.isTerminal

/-- The DAG of a tenant, both by name. -/
def resolveDag (tenant dagID : String) : Option Dag :=
  c.dags.find? fun d => c.belongsTo tenant d && d.dagId == dagID

/-- `CreateDagRun` of the API: refused at the cap, without a version and where the run id is taken. -/
def createDagRun (tenant dagID runID : String) (logical : Time) : Option Catalog := do
  let d ← c.resolveDag tenant dagID
  let v ← d.currentVersionId
  let r : RunEntry :=
    { tenantId := d.tenantId, dag := d.id, dagVersionId := v, runId := runID,
      logicalDate := logical, trigger := .manual }
  if 0 < d.maxActiveRuns ∧ d.maxActiveRuns ≤ c.countActiveDagRunsByDagID d then none
  else if c.hasRun r.key then none
  else some (c.insertRun r)

/-- A write of a run's state. -/
def setState (key : String × String) (state : DagRunState) : Catalog :=
  { c with
    runs := c.runs.map fun r => if r.key = key then { r with state := state } else r
    dagRunsUnique := by
      have hkeys : (c.runs.map fun r => if r.key = key then { r with state := state } else r).map
          RunEntry.key = c.runs.map RunEntry.key := by
        rw [map_map]
        refine map_congr_left fun r _ => ?_
        simp only [Function.comp_apply]
        split <;> rfl
      rw [hkeys]
      exact c.dagRunsUnique }

section Insert

variable {c : Catalog} {d e : Dag}

theorem insertRun_of_hasRun {r : RunEntry} (h : c.hasRun r.key) : c.insertRun r = c := by
  unfold insertRun
  rw [dif_pos h]

theorem runs_insertRun {r : RunEntry} (h : c.hasRun r.key = false) : (c.insertRun r).runs = c.runs ++ [r] := by
  have hnot : ¬ c.hasRun r.key := by rw [h]; decide
  unfold insertRun
  rw [dif_neg hnot]

@[simp] theorem dags_insertRun (r : RunEntry) : (c.insertRun r).dags = c.dags := by
  unfold insertRun
  split <;> rfl

@[simp] theorem tenants_insertRun (r : RunEntry) : (c.insertRun r).tenants = c.tenants := by
  unfold insertRun
  split <;> rfl

theorem runsOf_insertRun (r : RunEntry) : (c.insertRun r).runsOf d =
    if r.dag = d.id ∧ c.hasRun r.key = false then c.runsOf d ++ [r] else c.runsOf d := by
  unfold runsOf
  cases h : c.hasRun r.key with
  | true => simp [insertRun_of_hasRun h]
  | false =>
    rw [runs_insertRun h, filter_append]
    by_cases hdag : r.dag = d.id <;> simp [hdag]

theorem hasRun_insertRun {r : RunEntry} {key : String × String} :
    (c.insertRun r).hasRun key ↔ c.hasRun key ∨ r.key = key := by
  cases h : c.hasRun r.key with
  | true =>
    rw [insertRun_of_hasRun h]
    refine (or_iff_left_of_imp fun hkey => ?_).symm
    exact hkey ▸ h
  | false =>
    unfold hasRun
    rw [runs_insertRun h, any_append, Bool.or_eq_true]
    simp

theorem hasRun_iff {key : String × String} : c.hasRun key ↔ ∃ r ∈ c.runs, r.key = key := by
  simp [hasRun]

theorem mem_runsOf {r : RunEntry} : r ∈ c.runsOf d ↔ r ∈ c.runs ∧ r.dag = d.id := by
  simp [runsOf]

theorem eq_of_belongsTo {name : String} (hd : d ∈ c.dags) (he : e ∈ c.dags)
    (hbd : c.belongsTo name d) (hbe : c.belongsTo name e) (hid : d.dagId = e.dagId) : d = e := by
  simp only [belongsTo, any_eq_true, Bool.and_eq_true, beq_iff_eq] at hbd hbe
  obtain ⟨t, ht, hdt, hname⟩ := hbd
  obtain ⟨u, hu, heu, hname'⟩ := hbe
  have htu : t = u := inj_on_of_nodup_map c.tenantNames ht hu (hname.trans hname'.symm)
  refine inj_on_of_nodup_map c.dagsUniquePerTenant hd he ?_
  rw [← hdt, ← heu, htu, hid]

end Insert

end Catalog

end Leoflow
