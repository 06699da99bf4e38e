import Leoflow.Lib.Calendar
import Leoflow.Lib.GoMap
import Leoflow.Lib.Strip
import Leoflow.Scheduler.Catchup
import Leoflow.Storage.Catalog

/-!
# Creating the due runs

`createDueRuns` of `internal/scheduler/scheduler.go` and the two store calls it makes. The DAGs are
listed once, so which slots a tick tries to create depends on the listing alone: `dueRuns` gives them
in order, and `createScheduledRun` is the insert of each.
-/

namespace Leoflow

open Lib (GoMap)
open Lib.GoMap List

variable {ρ : Type} {created : GoMap Int} {s : Time} {d : ScheduledDAG}

/-! ## Schedules that are no cron expression -/

/-- The schedule is `@once`, in any case. -/
def isOnceSchedule (expr : String) : Bool := (Lib.trimSpace expr).toList.map Char.toLower == "@once".toList

/-- The schedule is empty, `@once` or `@continuous`. -/
def isCronlessSchedule (expr : String) : Bool :=
  let e := (Lib.trimSpace expr).toList.map Char.toLower
  e.isEmpty || e == "@once".toList || e == "@continuous".toList

theorem isOnceSchedule_of_cron {expr : String} (h : isCronlessSchedule expr = false) : isOnceSchedule expr = false := by
  simp only [isCronlessSchedule, Bool.or_eq_false_iff] at h
  exact h.1.2

/-! ## The store -/

/-- What the scheduler reads of a DAG to find its due runs. -/
structure ScheduledDAG where
  dagID : String
  schedule : String
  lastLogical : Option Time
  startDate : Option Time
  catchup : Bool
  maxActiveRuns : Int
deriving DecidableEq

/-- `ListScheduledDags`: active, not paused, with a schedule and a version. -/
def Dag.isListed (d : Dag) : Bool :=
  d.isActive && !d.isPaused && d.schedule.isSome && d.currentVersionId.isSome

namespace Catalog

variable (c : Catalog)

/-- The latest logical date of a DAG's runs. -/
def lastLogical (d : Dag) : Option Time := ((c.runsOf d).map RunEntry.logicalDate).max?

/-- A listed row as `ScheduledDAGs` projects it. -/
def scheduledDAG (d : Dag) : ScheduledDAG where
  dagID := d.dagId
  schedule := d.schedule.getD ""
  lastLogical := c.lastLogical d
  startDate := d.startDate
  catchup := d.catchup
  maxActiveRuns := d.maxActiveRuns

/-- The DAGs the scheduler reads. -/
def scheduledDAGs : List ScheduledDAG := (c.dags.filter Dag.isListed).map c.scheduledDAG

end Catalog

variable (c : Catalog) (dagID : String)

/-- The run id of a logical date. -/
def scheduledRunID (logical : Time) : String := "scheduled__" ++ Lib.rfc3339 (logical / second)

/-- The row a slot of a DAG is to be created as. -/
def Dag.scheduledEntry (d : Dag) (logical : Time) : RunEntry where
  tenantId := d.tenantId
  dag := d.id
  dagVersionId := d.currentVersionId.getD ""
  runId := scheduledRunID logical
  logicalDate := logical
  trigger := .scheduled

/-- `CreateScheduledRun`, which creates for the tenant `default`. -/
def Catalog.createScheduledRun (c : Catalog) (dagID : String) (logical : Time) : Catalog :=
  c.createScheduledRunByDagID "default" dagID (scheduledRunID logical) logical

namespace Catalog

theorem selected_cases : (∀ e ∈ c.dags, c.belongsTo "default" e → e.dagId ≠ dagID) ∧
      (c.dags.filter fun e => c.belongsTo "default" e && e.dagId == dagID) = [] ∨
    ∃ e ∈ c.dags, c.belongsTo "default" e ∧ e.dagId = dagID ∧
      (c.dags.filter fun e => c.belongsTo "default" e && e.dagId == dagID) = [e] := by
  have hmem : ∀ e, e ∈ (c.dags.filter fun e => c.belongsTo "default" e && e.dagId == dagID) ↔
      e ∈ c.dags ∧ c.belongsTo "default" e ∧ e.dagId = dagID := by
    intro e
    rw [mem_filter, Bool.and_eq_true, beq_iff_eq]
  have hnodup : (c.dags.filter fun e => c.belongsTo "default" e && e.dagId == dagID).Nodup :=
    (List.Nodup.of_map _ c.dagIds).filter _
  generalize (c.dags.filter fun e => c.belongsTo "default" e && e.dagId == dagID) = l at hmem hnodup
  match l, hmem, hnodup with
  | [], hmem, _ =>
    exact .inl ⟨fun e he hb hid => (not_mem_nil ((hmem e).mpr ⟨he, hb, hid⟩)).elim, rfl⟩
  | [e], hmem, _ =>
    obtain ⟨he, hb, hid⟩ := (hmem e).mp mem_cons_self
    exact .inr ⟨e, he, hb, hid, rfl⟩
  | e :: e' :: l, hmem, hnodup =>
    obtain ⟨he, hb, hid⟩ := (hmem e).mp mem_cons_self
    obtain ⟨he', hb', hid'⟩ := (hmem e').mp (mem_cons_of_mem _ mem_cons_self)
    have hsame := eq_of_belongsTo he he' hb hb' (hid.trans hid'.symm)
    exact absurd (hsame ▸ mem_cons_self) (nodup_cons.mp hnodup).1

/-- What the creation of a slot does: the default tenant's DAG of the name, if it has a version, gets
its row. -/
theorem createScheduledRun_cases (logical : Time) :
    (c.createScheduledRun dagID logical = c ∧ ∀ e ∈ c.dags, c.belongsTo "default" e →
      e.dagId = dagID → e.currentVersionId = none) ∨
    ∃ e ∈ c.dags, c.belongsTo "default" e ∧ e.dagId = dagID ∧ e.currentVersionId.isSome ∧
      c.createScheduledRun dagID logical = c.insertRun (e.scheduledEntry logical) := by
  unfold createScheduledRun createScheduledRunByDagID
  rcases selected_cases c dagID with ⟨hnone, hsel⟩ | ⟨e, he, hb, hid, hsel⟩
  · rw [hsel]
    exact .inl ⟨rfl, fun e he hb hid => absurd hid (hnone e he hb)⟩
  · rw [hsel, foldl_cons, foldl_nil]
    cases hv : e.currentVersionId with
    | none =>
      refine .inl ⟨rfl, fun e' he' hb' hid' => ?_⟩
      rw [eq_of_belongsTo he' he hb' hb (hid'.trans hid.symm), hv]
    | some v =>
      refine .inr ⟨e, he, hb, hid, by rw [hv]; rfl, ?_⟩
      simp [Dag.scheduledEntry, hv]

theorem createScheduledRun_grows (logical : Time) :
    (c.createScheduledRun dagID logical).dags = c.dags ∧ (c.createScheduledRun dagID logical).tenants = c.tenants ∧
      ∀ key, c.hasRun key → (c.createScheduledRun dagID logical).hasRun key := by
  rcases createScheduledRun_cases c dagID logical with ⟨hrun, -⟩ | ⟨e, -, -, -, -, hrun⟩
  · rw [hrun]
    exact ⟨rfl, rfl, fun _ h => h⟩
  · rw [hrun, dags_insertRun, tenants_insertRun]
    exact ⟨rfl, rfl, fun _ h => hasRun_insertRun.mpr (.inl h)⟩

end Catalog

/-! ## The tick -/

/-- The most slots of a DAG in one tick. -/
def maxCatchupSlotsPerTick : Nat := 100

/-- Another run of the DAG stays within its `max_active_runs`. -/
def hasHeadroom (d : ScheduledDAG) (active justCreated : GoMap Int) : Bool :=
  if d.maxActiveRuns ≤ 0 then true
  else active.getD d.dagID 0 + justCreated.getD d.dagID 0 < d.maxActiveRuns

/-- The slots of a DAG that pass the cap, with the creations of the tick after them. -/
def passCap (d : ScheduledDAG) (active : GoMap Int) : List Time → GoMap Int → List Time × GoMap Int
  | [], created => ([], created)
  | s :: slots, created =>
    if hasHeadroom d active created then
      let (passed, created) := passCap d active slots (created.addTo d.dagID 1)
      (s :: passed, created)
    else ([], created)

section Tick

variable (parseStandard : String → Option Cron) (now : Time) (active : GoMap Int)

/-- The slots of a DAG that are due, before the cap. -/
def dueSlots (d : ScheduledDAG) : List Time :=
  match parseStandard d.schedule with
  | none => []
  | some schedule =>
    if d.lastLogical.isNone && d.startDate.isNone then
      (schedule.toSchedule.nextScheduledRun d.lastLogical now).toList
    else schedule.dueScheduledSlots d.lastLogical d.startDate now d.catchup maxCatchupSlotsPerTick

/-- The body of the loop in `createDueRuns`: the slots it creates a run for, whatever slots are due. -/
def createdSlots (due : ScheduledDAG → List Time) (d : ScheduledDAG) (created : GoMap Int) : List Time × GoMap Int :=
  if isOnceSchedule d.schedule then
    if d.lastLogical.isNone then ([now], created.addTo d.dagID 1) else ([], created)
  else if isCronlessSchedule d.schedule then ([], created)
  else passCap d active (due d) created

/-- The loop of `createDueRuns`: the slots it creates a run for, DAG by DAG, with the row each DAG was
read from. -/
def dueRuns {ρ : Type} (due : ScheduledDAG → List Time) (row : ρ → ScheduledDAG) :
    List ρ → GoMap Int → List (ρ × Time)
  | [], _ => []
  | d :: dags, created =>
    let (slots, created) := createdSlots now active due (row d) created
    slots.map (d, ·) ++ dueRuns due row dags created

/-- `createDueRuns` with every insert going through. -/
def createDueRuns (c : Catalog) : Catalog :=
  (dueRuns now active (dueSlots parseStandard now) id c.scheduledDAGs ∅).foldl
    (fun c s => c.createScheduledRun s.1.dagID s.2) c

variable {parseStandard now active} {due : ScheduledDAG → List Time}

theorem dueRuns_cons (row : ρ → ScheduledDAG) (d : ρ) (rows : List ρ) (created : GoMap Int) :
    dueRuns now active due row (d :: rows) created =
      (createdSlots now active due (row d) created).1.map (d, ·) ++ dueRuns now active due row rows
          (createdSlots now active due (row d) created).2 := by
  rw [dueRuns]

theorem dueRuns_map (row : ρ → ScheduledDAG) (rows : List ρ) (created : GoMap Int) :
    dueRuns now active due id (rows.map row) created =
      (dueRuns now active due row rows created).map fun p => (row p.1, p.2) := by
  induction rows generalizing created with
  | nil => rfl
  | cons d rows ih =>
    simp only [map_cons, dueRuns_cons, id_eq, ih, map_append, map_map]
    rfl

theorem getD_le_passCap (d : ScheduledDAG) (slots : List Time) (created : GoMap Int) (k : String) :
    created.getD k 0 ≤ getD (passCap d active slots created).2 k 0 := by
  induction slots generalizing created with
  | nil => exact Int.le_refl _
  | cons s slots ih =>
    simp only [passCap]
    split
    · refine Int.le_trans ?_ (ih _)
      rw [getD_addTo]
      split <;> omega
    · exact Int.le_refl _

theorem getD_le_createdSlots (d : ScheduledDAG) (created : GoMap Int) (k : String) :
    created.getD k 0 ≤ getD (createdSlots now active due d created).2 k 0 := by
  unfold createdSlots
  split
  · split
    · rw [getD_addTo]
      split <;> omega
    · exact Int.le_refl _
  · split
    · exact Int.le_refl _
    · exact getD_le_passCap ..

theorem exists_of_mem_dueRuns {row : ρ → ScheduledDAG} {rows : List ρ} {d : ρ}
    (h : (d, s) ∈ dueRuns now active due row rows created) :
    d ∈ rows ∧ ∃ created', (∀ k, created.getD k 0 ≤ created'.getD k 0) ∧
      s ∈ (createdSlots now active due (row d) created').1 := by
  induction rows generalizing created with
  | nil => cases h
  | cons d' rows ih =>
    rw [dueRuns_cons] at h
    rcases mem_append.mp h with hmem | hmem
    · obtain ⟨_, hs, he⟩ := mem_map.mp hmem
      cases he
      exact ⟨mem_cons_self, created, fun _ => Int.le_refl _, hs⟩
    · obtain ⟨hd, created', hle, hs⟩ := ih hmem
      refine ⟨mem_cons_of_mem _ hd, created', fun k => ?_, hs⟩
      exact Int.le_trans (getD_le_createdSlots _ _ k) (hle k)

theorem mem_of_mem_passCap {slots : List Time} (h : s ∈ (passCap d active slots created).1) : s ∈ slots := by
  induction slots generalizing created with
  | nil => cases h
  | cons s' slots ih =>
    simp only [passCap] at h
    split at h
    · rcases mem_cons.mp h with rfl | h
      · exact mem_cons_self
      · exact mem_cons_of_mem _ (ih h)
    · cases h

theorem of_mem_createdSlots {start : Time} {schedule : Cron} (hcron : isCronlessSchedule d.schedule = false)
    (hparse : parseStandard d.schedule = some schedule) (hstart : d.startDate = some start)
    (h : s ∈ (createdSlots now active (dueSlots parseStandard now) d created).1) :
    schedule.isActivation s ∧ start ≤ s := by
  simp only [createdSlots, isOnceSchedule_of_cron hcron, hcron, Bool.false_eq_true, if_false] at h
  have hdue := mem_of_mem_passCap h
  simp only [dueSlots, hparse, hstart, Option.isNone_some, Bool.and_false, Bool.false_eq_true, if_false] at hdue
  obtain ⟨hact, hfrom⟩ := Cron.of_mem_dueScheduledSlots (.inr rfl) (by decide) hdue
  exact ⟨hact, hfrom start rfl⟩

theorem getD_passCap {slots : List Time} {k : String} (hk : k ≠ d.dagID) :
    getD (passCap d active slots created).2 k 0 = created.getD k 0 := by
  induction slots generalizing created with
  | nil => rfl
  | cons s slots ih =>
    simp only [passCap]
    split
    · rw [ih, getD_addTo, if_neg hk, Int.add_zero]
    · rfl

theorem getD_createdSlots {k : String} (hk : k ≠ d.dagID) :
    getD (createdSlots now active due d created).2 k 0 = created.getD k 0 := by
  unfold createdSlots
  split
  · split
    · rw [getD_addTo, if_neg hk, Int.add_zero]
    · rfl
  · split
    · rfl
    · exact getD_passCap hk

/-- The first due slot of a DAG with headroom is among the due runs, if no other row of its id creates any. -/
theorem mem_dueRuns {row : ρ → ScheduledDAG} {rows : List ρ} {d : ρ} (hd : d ∈ rows)
    (hsole : ∀ e ∈ rows, (row e).dagID = (row d).dagID → e = d ∨
      ∀ created, createdSlots now active due (row e) created = ([], created))
    (hcron : isCronlessSchedule (row d).schedule = false)
    (hroom : hasHeadroom (row d) active ∅) (hcreated : created.getD (row d).dagID 0 = 0)
    (hdue : (due (row d)).head? = some s) :
    (d, s) ∈ dueRuns now active due row rows created := by
  induction rows generalizing created with
  | nil => cases hd
  | cons e rows ih =>
    rw [dueRuns_cons]
    by_cases he : e = d
    · subst he
      refine mem_append_left _ (mem_map_of_mem ?_)
      have hroom' : hasHeadroom (row e) active created := by
        simp only [hasHeadroom, hcreated] at hroom ⊢
        exact hroom
      simp only [createdSlots, isOnceSchedule_of_cron hcron, hcron, Bool.false_eq_true, if_false]
      cases hslots : due (row e) with
      | nil =>
        rw [hslots] at hdue
        cases hdue
      | cons s' slots =>
        rw [hslots] at hdue
        cases hdue
        simp only [passCap, hroom', if_true]
        exact mem_cons_self
    · have hmem : d ∈ rows := (mem_cons.mp hd).resolve_left (Ne.symm he)
      refine mem_append_right _ (ih hmem ?_ ?_)
      · exact fun e' he' => hsole e' (mem_cons_of_mem _ he')
      · by_cases hid : (row e).dagID = (row d).dagID
        · rw [(hsole e mem_cons_self hid).resolve_left he created, hcreated]
        · rw [getD_createdSlots (Ne.symm hid), hcreated]

end Tick

end Leoflow
