import Leoflow.Scheduler.DueRuns
import Leoflow.Scheduler.RunState

/-!
# The database of several tenants

`Tables` are the tenants with what they have deployed, `Site` the runs and task instances over them.
Both carry what the schema and `RegisterDagVersion` guarantee. A tick reads a site in two ways: the
scheduling part as a `Catalog`, the active runs as a `Database`.
-/

namespace Leoflow

/-- A row of `dag_versions`, its spec decoded. -/
structure Version where
  id : String
  dag : String
  spec : DAGSpec

/-- The tenants, their DAGs and the versions of these. A version is deployed under the `dag_id` of
its spec, and an id is a UUID. -/
structure Tables where
  tenants : List Tenant
  dags : List Dag
  versions : List Version
  tenantIds : (tenants.map Tenant.id).Nodup
  tenantNames : (tenants.map Tenant.name).Nodup
  dagIds : (dags.map Dag.id).Nodup
  dagsUniquePerTenant : (dags.map fun d => (d.tenantId, d.dagId)).Nodup
  versionIds : (versions.map Version.id).Nodup
  owned : ∀ d ∈ dags, d.tenantId ∈ tenants.map Tenant.id
  deployed : ∀ v ∈ versions, ∃ d ∈ dags, d.id = v.dag ∧ d.dagId = v.spec.dagID
  current : ∀ d ∈ dags, ∀ id, d.currentVersionId = some id → ∃ v ∈ versions, v.id = id ∧ v.dag = d.id
  uuids : ∀ t ∈ tenants, '\x00' ∉ t.id.toList

/-- A row of `dag_runs` with the columns that say which DAG and slot it is of. -/
structure RunRow extends DagRun where
  dag : String
  runId : String
  logicalDate : Time
  trigger : Trigger

/-- The identity columns of a run. -/
def RunRow.entry (r : RunRow) : RunEntry where
  tenantId := r.tenantId
  dag := r.dag
  dagVersionId := r.dagVersionId
  runId := r.runId
  logicalDate := r.logicalDate
  state := r.state
  trigger := r.trigger

/-- The runs and task instances over the tables. -/
structure Site (T : Tables) where
  runs : List RunRow
  tis : List TaskInstance
  runIds : (runs.map fun r => r.id).Nodup
  dagRunsUnique : (runs.map fun r => r.entry.key).Nodup
  bound : ∀ r ∈ runs, ∃ d ∈ T.dags, ∃ v ∈ T.versions,
    d.id = r.dag ∧ d.tenantId = r.tenantId ∧ v.id = r.dagVersionId ∧ v.dag = d.id
  placed : ∀ i ∈ tis, ∃ r ∈ runs, r.id = i.dagRunId
  tisUnique : (tis.map TaskInstance.key).Nodup

namespace Tables

variable (T : Tables)

/-- The spec of a version; an unknown one has no task. -/
def specOf (id : String) : DAGSpec :=
  ((T.versions.find? fun v => v.id == id).map Version.spec).getD
    { dagID := "", tasks := [], distinct := List.nodup_nil }

end Tables

namespace Site

variable {T : Tables} (s : Site T)

/-- What `ActiveRuns` reads of a site. -/
def database (now : Time) : Database where
  now := now
  runs := s.runs.map RunRow.toDagRun
  tis := s.tis

end Site

end Leoflow
