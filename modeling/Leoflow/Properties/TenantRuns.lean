import Leoflow.Scheduler.DueRuns

/-!
# Scheduled runs of every tenant

`ListScheduledDags` lists the DAGs of all tenants, but `ScheduledDAG` keeps only the `dag_id` text and
`CreateScheduledRun` looks it up again in the tenant named `default`. A slot of another tenant's DAG
is created for the default tenant's DAG of that name, or not at all.
-/

namespace Leoflow

open Lib (GoMap)

namespace Catalog

/-- The creation of a slot inserts the DAG's own row for it, unless it is there, and no other. -/
def CreatesOwnRun (c : Catalog) (d : Dag) (logical : Time) : Prop :=
  (c.createScheduledRun d.dagId logical).runs = (c.insertRun (d.scheduledEntry logical)).runs

/-- Neither the DAG nor its namesake in the default tenant is to get a row. -/
def nothingToCreate (c : Catalog) (d : Dag) (logical : Time) : Bool :=
  c.hasRun (d.id, scheduledRunID logical) && c.dags.all fun e =>
    !(c.belongsTo "default" e && e.dagId == d.dagId && e.currentVersionId.isSome) ||
      c.hasRun (e.id, scheduledRunID logical)

variable {c : Catalog} {d e : Dag} {logical : Time}

theorem nothingToCreate_iff : c.nothingToCreate d logical ↔ c.hasRun (d.id, scheduledRunID logical) ∧
      ∀ e ∈ c.dags, c.belongsTo "default" e → e.dagId = d.dagId →
        e.currentVersionId.isSome → c.hasRun (e.id, scheduledRunID logical) := by
  unfold nothingToCreate
  rw [Bool.and_eq_true, List.all_eq_true]
  refine and_congr_right fun _ => forall₂_congr fun e _ => ?_
  rw [Bool.or_eq_true, Bool.not_eq_true', Bool.and_eq_false_iff, Bool.and_eq_false_iff, beq_eq_false_iff_ne]
  cases c.belongsTo "default" e <;> cases e.currentVersionId <;> simp [imp_iff_not_or]

/-- A DAG of another tenant gets no row; its namesake in the default tenant may. -/
theorem creates_own_run_of_other (hd : d ∈ c.dags) (hdefault : ¬ c.belongsTo "default" d) :
    c.CreatesOwnRun d logical ↔ c.nothingToCreate d logical := by
  -- What is inserted is the row of another DAG.
  have hother : ∀ e ∈ c.dags, c.belongsTo "default" e → e.scheduledEntry logical ≠ d.scheduledEntry logical := by
    intro e he hb hentry
    have hid : e.id = d.id := congrArg RunEntry.dag hentry
    exact hdefault (List.inj_on_of_nodup_map c.dagIds he hd hid ▸ hb)
  have hkey : ∀ e : Dag, (e.scheduledEntry logical).key = (e.id, scheduledRunID logical) :=
    fun _ => rfl
  have hself : c.runs ++ [d.scheduledEntry logical] ≠ c.runs := by
    intro he
    have hlen := congrArg List.length he
    simp at hlen
  unfold CreatesOwnRun
  rw [nothingToCreate_iff]
  cases hhas : c.hasRun (d.id, scheduledRunID logical) with
  | true =>
    rw [insertRun_of_hasRun (by rw [hkey]; exact hhas)]
    rcases createScheduledRun_cases c d.dagId logical with
      ⟨hrun, hnone⟩ | ⟨e, he, hb, hid, hv, hrun⟩
    · rw [hrun]
      refine iff_of_true rfl ⟨rfl, fun e he hb hid hv => ?_⟩
      rw [hnone e he hb hid] at hv
      cases hv
    · rw [hrun]
      cases hhas' : c.hasRun (e.id, scheduledRunID logical) with
      | true =>
        rw [insertRun_of_hasRun (by rw [hkey]; exact hhas')]
        refine iff_of_true rfl ⟨rfl, fun e' he' hb' hid' _ => ?_⟩
        rw [eq_of_belongsTo he' he hb' hb (hid'.trans hid.symm)]
        exact hhas'
      | false =>
        rw [runs_insertRun (by rw [hkey]; exact hhas')]
        refine iff_of_false (by simp) fun hall => ?_
        rw [hall.2 e he hb hid hv] at hhas'
        cases hhas'
  | false =>
    rw [runs_insertRun (by rw [hkey]; exact hhas)]
    refine iff_of_false (fun heq => ?_) fun hall => by cases hall.1
    rcases createScheduledRun_cases c d.dagId logical with ⟨hrun, -⟩ | ⟨e, he, hb, -, -, hrun⟩
    · rw [hrun] at heq
      exact hself heq.symm
    · rw [hrun] at heq
      cases hhas' : c.hasRun (e.id, scheduledRunID logical) with
      | true =>
        rw [insertRun_of_hasRun (by rw [hkey]; exact hhas')] at heq
        exact hself heq.symm
      | false =>
        rw [runs_insertRun (by rw [hkey]; exact hhas')] at heq
        exact hother e he hb (List.singleton_inj.mp (List.append_cancel_left heq))

/-- **Scheduled runs belong to the DAG's tenant** where the tenant is the default one. The runs may have
changed since the DAGs were listed. -/
theorem creates_own_run_iff {parseStandard : String → Option Cron} {now : Time} {active : GoMap Int}
    (hdue : (d, logical) ∈ dueRuns now active (dueSlots parseStandard now) c.scheduledDAG
      (c.dags.filter Dag.isListed) ∅) {c' : Catalog} (hdags : c'.dags = c.dags) :
    c'.CreatesOwnRun d logical ↔ c'.belongsTo "default" d ∨ c'.nothingToCreate d logical := by
  obtain ⟨hd, hlisted⟩ := List.mem_filter.mp (exists_of_mem_dueRuns hdue).1
  rw [← hdags] at hd
  have hversion : d.currentVersionId.isSome := by
    simp only [Dag.isListed, Bool.and_eq_true] at hlisted
    exact hlisted.2
  by_cases hdefault : c'.belongsTo "default" d
  · refine iff_of_true ?_ (.inl hdefault)
    rcases createScheduledRun_cases c' d.dagId logical with ⟨-, hnone⟩ | ⟨e, he, hb, hid, -, hrun⟩
    · rw [hnone d hd hdefault rfl] at hversion
      cases hversion
    · unfold CreatesOwnRun
      rw [hrun, eq_of_belongsTo he hd hb hdefault hid]
  · rw [or_iff_right hdefault]
    exact creates_own_run_of_other hd hdefault

/-- A DAG of the given tenant with a run due every hour. -/
def hourlyDag (id tenantId : String) : Dag where
  id := id
  tenantId := tenantId
  dagId := "etl"
  schedule := some "0 * * * *"
  startDate := some 0
  catchup := true
  currentVersionId := some "v1"

/-- The default tenant with such a DAG. -/
def oneTenant : Catalog where
  tenants := [⟨"t0", "default"⟩]
  dags := [hourlyDag "d0" "t0"]
  tenantIds := by decide
  tenantNames := by decide
  dagIds := by decide
  dagsUniquePerTenant := by decide
  dagRunsUnique := by decide

theorem creates_own_run_iff_default :
    (hourlyDag "d0" "t0", 0) ∈ dueRuns 0 ∅ (dueSlots (fun _ => some .hourly) 0) oneTenant.scheduledDAG
        (oneTenant.dags.filter Dag.isListed) ∅ ∧
      (oneTenant.CreatesOwnRun (hourlyDag "d0" "t0") 0 ↔ oneTenant.belongsTo "default" (hourlyDag "d0" "t0") ∨
        oneTenant.nothingToCreate (hourlyDag "d0" "t0") 0) := by
  have hdue : (hourlyDag "d0" "t0", 0) ∈ dueRuns 0 ∅ (dueSlots (fun _ => some .hourly) 0) oneTenant.scheduledDAG
      (oneTenant.dags.filter Dag.isListed) ∅ := by
    decide +kernel
  exact ⟨hdue, creates_own_run_iff hdue rfl⟩

/-- The default tenant has a DAG of the name that is not scheduled, another tenant one that is. -/
def twoTenants : Catalog where
  tenants := [⟨"t0", "default"⟩, ⟨"t1", "acme"⟩]
  dags := [{ hourlyDag "d0" "t0" with schedule := none }, hourlyDag "d1" "t1"]
  tenantIds := by decide
  tenantNames := by decide
  dagIds := by decide
  dagsUniquePerTenant := by decide
  dagRunsUnique := by decide

/-- The run of the one is created for the other. -/
theorem creates_run_of_namesake : ¬ ∀ (parseStandard : String → Option Cron) (now : Time)
    (active : GoMap Int) (c : Catalog) (d : Dag) (logical : Time),
    (d, logical) ∈ dueRuns now active (dueSlots parseStandard now) c.scheduledDAG (c.dags.filter Dag.isListed) ∅ →
      c.CreatesOwnRun d logical := by
  intro h
  have hown := h (fun _ => some .hourly) 0 ∅ twoTenants (hourlyDag "d1" "t1") 0 (by decide +kernel)
  unfold CreatesOwnRun at hown
  exact absurd hown (by decide +kernel)

end Catalog

end Leoflow
