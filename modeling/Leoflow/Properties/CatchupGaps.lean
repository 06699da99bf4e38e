import Leoflow.Lib.Runs
import Leoflow.Properties.TenantRuns

/-!
# Catching up without a gap

How far a DAG has been scheduled is read off `max(logical_date)` over all of its runs. A manual run
with a later logical date, or a slot created after an earlier one of the same tick failed, moves it
over activations that have no run, and no later tick goes back to them.
-/

namespace Leoflow

open Lib (GoMap)
open Catalog List

variable {a now : Time} {r : RunEntry} {s : Backfill}

/-- The tables and the slots a tick in progress has still to create. -/
structure Backfill where
  catalog : Catalog
  pending : List (ScheduledDAG × Time) := []

/-- A tick lists the DAGs and then creates its slots one after another, each of which may fail; it may also stop.
Manual triggers and the runs go on in between. -/
inductive BackfillAction where
  | tick (now : Time) (active : GoMap Int)
  | create
  | createFails
  | stop
  | trigger (tenant dagID runID : String) (logical : Time)
  | setState (key : String × String) (state : DagRunState)

namespace Backfill

/-- A tick finds what is due, and creates it or fails to, one run after the other. -/
def step (parseStandard : String → Option Cron) (s : Backfill) : BackfillAction → Option Backfill
  | .tick now active =>
    if s.pending.isEmpty then
      some { s with
        pending := dueRuns now active (dueSlots parseStandard now) id s.catalog.scheduledDAGs ∅ }
    else none
  | .create =>
    match s.pending with
    | (d, slot) :: rest => some ⟨s.catalog.createScheduledRun d.dagID slot, rest⟩
    | [] => none
  | .createFails =>
    match s.pending with
    | _ :: rest => some { s with pending := rest }
    | [] => none
  | .stop => some { s with pending := [] }
  | .trigger tenant dagID runID logical =>
    (s.catalog.createDagRun tenant dagID runID logical).map ({ s with catalog := · })
  | .setState key state => some { s with catalog := s.catalog.setState key state }

/-- Any tenants and DAGs, before their first run. -/
def system (parseStandard : String → Option Cron) : Lib.System Backfill BackfillAction where
  init s := s.catalog.runs = [] ∧ s.pending = []
  step := step parseStandard

end Backfill

/-- A DAG that catches up with a cron schedule from its start date on. -/
structure CatchesUp (parseStandard : String → Option Cron) (c : Catalog) (d : Dag) (schedule : Cron)
    (start : Time) : Prop where
  mem : d ∈ c.dags
  listed : d.isListed
  catchup : d.catchup
  cron : isCronlessSchedule (d.schedule.getD "") = false
  parses : parseStandard (d.schedule.getD "") = some schedule
  startDate : d.startDate = some start

/-- The DAG is of the tenant its scheduled runs are created in, and no other scheduled DAG has its
name. -/
structure SoleInDefault (c : Catalog) (d : Dag) : Prop where
  default : c.belongsTo "default" d
  sole : ∀ e ∈ c.dags, e.isListed → e.dagId = d.dagId → e = d

namespace Catalog

/-- Exactly one scheduled run for each activation from the start date to now. -/
def Covers (c : Catalog) (d : Dag) (schedule : Cron) (start now : Time) : Prop :=
  ∀ a, schedule.isActivation a → start ≤ a → a ≤ now →
    (c.runsOf d).countP (fun r => r.trigger == .scheduled && r.logicalDate == a) = 1

/-- The first activation from the start date on that comes after every run of the DAG. -/
def nextDue (c : Catalog) (d : Dag) (schedule : Cron) (start : Time) : Time :=
  schedule.next ((c.lastLogical d).elim (start - 1) (max (start - 1)))

end Catalog

/-- A slot of the DAG is created only in its turn, and a manual run is dated before the next
activation and not named as a later one. -/
def KeepsOrder (d : Dag) (schedule : Cron) (start : Time) (s : Backfill) : BackfillAction → Prop
  | .create => ∀ e slot, s.pending.head? = some (e, slot) → e.dagID = d.dagId →
      slot ≤ s.catalog.nextDue d schedule start
  | .trigger tenant dagID runID logical => s.catalog.resolveDag tenant dagID = some d →
      logical < s.catalog.nextDue d schedule start ∧
      ∀ a, schedule.isActivation a → s.catalog.nextDue d schedule start ≤ a → runID ≠ scheduledRunID a
  | _ => True

/-! ## The next activation -/

theorem scheduledRunID_injective {schedule : Cron} {b : Time} (ha : schedule.isActivation a)
    (hb : schedule.isActivation b) (h : scheduledRunID a = scheduledRunID b) : a = b := by
  have hsec : a / second = b / second := by
    refine Lib.rfc3339_injective ?_
    have hlist := congrArg String.toList h
    simp only [scheduledRunID, String.toList_append] at hlist
    exact String.toList_injective (append_cancel_left hlist)
  have hea := Int.ediv_mul_cancel (Int.dvd_of_emod_eq_zero (schedule.wholeSecond ha))
  have heb := Int.ediv_mul_cancel (Int.dvd_of_emod_eq_zero (schedule.wholeSecond hb))
  rw [← hea, ← heb, hsec]

namespace Catalog

variable {c c' : Catalog} {d : Dag} {schedule : Cron} {start : Time}

theorem isActivation_nextDue : schedule.isActivation (c.nextDue d schedule start) :=
  schedule.isActivation_next _

theorem start_le_nextDue : start ≤ c.nextDue d schedule start := by
  have hlt := schedule.lt_next ((c.lastLogical d).elim (start - 1) (max (start - 1)))
  have hfloor : start - 1 ≤ (c.lastLogical d).elim (start - 1) (max (start - 1)) := by
    cases c.lastLogical d with
    | none => exact le_refl _
    | some last => exact le_max_left _ _
  exact Int.le_of_sub_one_lt (hfloor.trans_lt hlt)

theorem lt_nextDue (hr : r ∈ c.runsOf d) : r.logicalDate < c.nextDue d schedule start := by
  have hlt := schedule.lt_next ((c.lastLogical d).elim (start - 1) (max (start - 1)))
  refine lt_of_le_of_lt ?_ hlt
  unfold lastLogical
  have hmem := mem_map_of_mem (f := RunEntry.logicalDate) hr
  cases hmax : ((c.runsOf d).map RunEntry.logicalDate).max? with
  | none =>
    rw [List.max?_eq_none_iff] at hmax
    rw [hmax] at hmem
    cases hmem
  | some last =>
    exact ((List.max?_eq_some_iff.mp hmax).2 _ hmem).trans (le_max_right _ _)

theorem nextDue_le (ha : schedule.isActivation a) (hstart : start ≤ a)
    (hruns : ∀ r ∈ c.runsOf d, r.logicalDate < a) : c.nextDue d schedule start ≤ a := by
  refine schedule.next_le ha ?_
  have hbefore : start - 1 < a := (Int.sub_one_lt_iff.mpr le_rfl).trans_le hstart
  unfold lastLogical
  cases hmax : ((c.runsOf d).map RunEntry.logicalDate).max? with
  | none => exact hbefore
  | some last =>
    obtain ⟨r, hr, hlast⟩ := mem_map.mp (List.max?_eq_some_iff.mp hmax).1
    exact max_lt hbefore (hlast ▸ hruns r hr)

theorem nextDue_of_runsOf_append (hruns : c'.runsOf d = c.runsOf d ++ [r])
    (hr : r.logicalDate < c.nextDue d schedule start) : c'.nextDue d schedule start = c.nextDue d schedule start := by
  refine le_antisymm ?_ ?_
  · refine nextDue_le isActivation_nextDue start_le_nextDue fun r' hr' => ?_
    rw [hruns] at hr'
    rcases mem_append.mp hr' with hr' | hr'
    · exact lt_nextDue hr'
    · rw [mem_singleton.mp hr']
      exact hr
  · refine nextDue_le isActivation_nextDue start_le_nextDue fun r' hr' => ?_
    refine lt_nextDue ?_
    rw [hruns]
    exact mem_append_left _ hr'

end Catalog

/-! ## The invariant -/

/-- Up to the next activation there is a scheduled run for every one, and its id is free for it. -/
structure InTurn (c : Catalog) (d : Dag) (schedule : Cron) (start : Time) : Prop where
  scheduled : ∀ r ∈ c.runsOf d, r.trigger = .scheduled →
    r.runId = scheduledRunID r.logicalDate ∧ schedule.isActivation r.logicalDate
  others : ∀ r ∈ c.runsOf d, r.trigger ≠ .scheduled → ∀ a, schedule.isActivation a →
    c.nextDue d schedule start ≤ a → r.runId ≠ scheduledRunID a
  filled : ∀ a, schedule.isActivation a → start ≤ a → a < c.nextDue d schedule start →
    ∃ r ∈ c.runsOf d, r.trigger = .scheduled ∧ r.logicalDate = a

namespace InTurn

variable {c c' : Catalog} {d : Dag} {schedule : Cron} {start : Time}

section

variable (h : InTurn c d schedule start)
include h

theorem hasRun_eq_false (ha : schedule.isActivation a) (hdue : c.nextDue d schedule start ≤ a) :
    c.hasRun (d.id, scheduledRunID a) = false := by
  rw [Bool.eq_false_iff]
  intro htaken
  obtain ⟨r, hr, hkey⟩ := hasRun_iff.mp htaken
  obtain ⟨hdag, hid⟩ := Prod.mk.inj hkey
  have hof : r ∈ c.runsOf d := mem_runsOf.mpr ⟨hr, hdag⟩
  by_cases hsched : r.trigger = .scheduled
  · obtain ⟨hrunid, hact⟩ := h.scheduled r hof hsched
    have hdate := scheduledRunID_injective hact ha (hrunid.symm.trans hid)
    exact absurd (Catalog.lt_nextDue hof) (not_lt.mpr (hdate ▸ hdue))
  · exact h.others r hof hsched a ha hdue hid

theorem of_runsOf_eq (hruns : c'.runsOf d = c.runsOf d) : InTurn c' d schedule start := by
  have hnext : c'.nextDue d schedule start = c.nextDue d schedule start := by
    unfold Catalog.nextDue Catalog.lastLogical
    rw [hruns]
  refine ⟨?_, ?_, ?_⟩ <;> rw [hruns]
  · exact h.scheduled
  · rw [hnext]
    exact h.others
  · rw [hnext]
    exact h.filled

theorem manual (hruns : c'.runsOf d = c.runsOf d ++ [r])
    (htrigger : r.trigger ≠ .scheduled) (hdate : r.logicalDate < c.nextDue d schedule start)
    (hid : ∀ a, schedule.isActivation a → c.nextDue d schedule start ≤ a →
      r.runId ≠ scheduledRunID a) : InTurn c' d schedule start := by
  have hnext := Catalog.nextDue_of_runsOf_append hruns hdate
  refine ⟨?_, ?_, ?_⟩ <;> rw [hruns]
  · refine forall_mem_append.mpr ⟨h.scheduled, forall_mem_singleton.mpr fun hsched => ?_⟩
    exact absurd hsched htrigger
  · rw [hnext]
    exact forall_mem_append.mpr ⟨h.others, forall_mem_singleton.mpr fun _ => hid⟩
  · rw [hnext]
    intro a ha hstart hbefore
    obtain ⟨r', hr', hfor⟩ := h.filled a ha hstart hbefore
    exact ⟨r', mem_append_left _ hr', hfor⟩

theorem created (hruns : c'.runsOf d = c.runsOf d ++ [r])
    (htrigger : r.trigger = .scheduled) (hid : r.runId = scheduledRunID r.logicalDate)
    (hdate : r.logicalDate = c.nextDue d schedule start) : InTurn c' d schedule start := by
  have hact : schedule.isActivation r.logicalDate := by
    rw [hdate]
    exact Catalog.isActivation_nextDue
  have hlater : c.nextDue d schedule start ≤ c'.nextDue d schedule start := by
    refine Catalog.nextDue_le Catalog.isActivation_nextDue Catalog.start_le_nextDue fun r' hr' => ?_
    refine Catalog.lt_nextDue ?_
    rw [hruns]
    exact mem_append_left _ hr'
  refine ⟨?_, ?_, ?_⟩ <;> rw [hruns]
  · exact forall_mem_append.mpr ⟨h.scheduled, forall_mem_singleton.mpr fun _ => ⟨hid, hact⟩⟩
  · refine forall_mem_append.mpr ⟨fun r' hr' hother a ha hle => ?_,
      forall_mem_singleton.mpr fun hother => absurd htrigger hother⟩
    exact h.others r' hr' hother a ha (hlater.trans hle)
  · intro a ha hstart hbefore
    rcases lt_trichotomy a (c.nextDue d schedule start) with hlt | heq | hgt
    · obtain ⟨r', hr', hfor⟩ := h.filled a ha hstart hlt
      exact ⟨r', mem_append_left _ hr', hfor⟩
    · exact ⟨r, mem_append_right _ mem_cons_self, htrigger, hdate.trans heq.symm⟩
    · -- Nothing lies between two neighbouring activations.
      have hle : c'.nextDue d schedule start ≤ a := by
        refine Catalog.nextDue_le ha hstart ?_
        rw [hruns]
        refine forall_mem_append.mpr ⟨fun r' hr' => (Catalog.lt_nextDue hr').trans hgt, ?_⟩
        exact forall_mem_singleton.mpr (hdate ▸ hgt)
      exact absurd hbefore (not_lt.mpr hle)

theorem setState (key : String × String) (state : DagRunState) : InTurn (c.setState key state) d schedule start := by
  have hruns : (c.setState key state).runsOf d =
      (c.runsOf d).map fun r => if r.key = key then { r with state := state } else r := by
    unfold runsOf Catalog.setState
    rw [filter_map]
    refine congrArg _ (filter_congr fun r _ => ?_)
    simp only [Function.comp_apply]
    split <;> rfl
  have hkeep : ∀ r' ∈ (c.setState key state).runsOf d, ∃ r ∈ c.runsOf d,
      r'.trigger = r.trigger ∧ r'.runId = r.runId ∧ r'.logicalDate = r.logicalDate := by
    intro r' hr'
    rw [hruns] at hr'
    obtain ⟨r, hr, rfl⟩ := mem_map.mp hr'
    refine ⟨r, hr, ?_⟩
    split <;> exact ⟨rfl, rfl, rfl⟩
  have hnext : (c.setState key state).nextDue d schedule start = c.nextDue d schedule start := by
    unfold Catalog.nextDue Catalog.lastLogical
    rw [hruns, map_map]
    refine congrArg (fun l => schedule.next ((List.max? l).elim (start - 1) (max (start - 1)))) ?_
    refine map_congr_left fun r _ => ?_
    simp only [Function.comp_apply]
    split <;> rfl
  refine ⟨?_, ?_, ?_⟩
  · intro r' hr' hsched
    obtain ⟨r, hr, htrigger, hid, hdate⟩ := hkeep r' hr'
    rw [hid, hdate]
    exact h.scheduled r hr (htrigger ▸ hsched)
  · intro r' hr' hother
    obtain ⟨r, hr, htrigger, hid, -⟩ := hkeep r' hr'
    rw [hnext, hid]
    exact h.others r hr (htrigger ▸ hother)
  · rw [hnext, hruns]
    intro a ha hstart hbefore
    obtain ⟨r, hr, htrigger, hdate⟩ := h.filled a ha hstart hbefore
    refine ⟨_, mem_map_of_mem hr, ?_⟩
    split <;> exact ⟨htrigger, hdate⟩

end

end InTurn

section Step

variable {parseStandard : String → Option Cron} {c : Catalog} {d e : Dag} {schedule : Cron}
  {start : Time}

theorem createScheduledRun_sole (hd : CatchesUp parseStandard c d schedule start)
    (hsole : SoleInDefault c d) (slot : Time) :
    c.createScheduledRun d.dagId slot = c.insertRun (d.scheduledEntry slot) := by
  rcases createScheduledRun_cases c d.dagId slot with ⟨-, hnone⟩ | ⟨e, he, hb, hid, -, hrun⟩
  · have hversion := hd.listed
    simp only [Dag.isListed, Bool.and_eq_true, hnone d hd.mem hsole.default rfl] at hversion
    cases hversion.2
  · rw [hrun, eq_of_belongsTo he hd.mem hb hsole.default hid]

theorem runsOf_createScheduledRun_of_ne (hd : d ∈ c.dags) {dagID : String} (hne : dagID ≠ d.dagId)
    (slot : Time) : (c.createScheduledRun dagID slot).runsOf d = c.runsOf d := by
  rcases createScheduledRun_cases c dagID slot with ⟨hrun, -⟩ | ⟨e, he, -, hid, -, hrun⟩
  · rw [hrun]
  · rw [hrun, runsOf_insertRun, if_neg]
    rintro ⟨hsame, -⟩
    have hed : e = d := inj_on_of_nodup_map c.dagIds he hd hsame
    exact hne (hid.symm.trans (congrArg Dag.dagId hed))

theorem InTurn.create (h : InTurn c d schedule start) (hd : CatchesUp parseStandard c d schedule start)
    (hsole : SoleInDefault c d) {slot : Time} (hact : schedule.isActivation slot)
    (hstart : start ≤ slot) (hturn : slot ≤ c.nextDue d schedule start) :
    InTurn (c.createScheduledRun d.dagId slot) d schedule start := by
  rw [createScheduledRun_sole hd hsole]
  rcases lt_or_eq_of_le hturn with hlt | heq
  · obtain ⟨r, hr, hsched, hdate⟩ := h.filled slot hact hstart hlt
    have hid := (h.scheduled r hr hsched).1
    obtain ⟨hmem, hdag⟩ := mem_runsOf.mp hr
    have htaken : c.hasRun (d.scheduledEntry slot).key := by
      refine hasRun_iff.mpr ⟨r, hmem, Prod.ext hdag ?_⟩
      exact hid.trans (congrArg scheduledRunID hdate)
    rw [insertRun_of_hasRun htaken]
    exact h
  · have hfree := h.hasRun_eq_false hact (le_of_eq heq.symm)
    refine h.created (r := d.scheduledEntry slot) ?_ rfl rfl heq
    rw [runsOf_insertRun, if_pos ⟨rfl, hfree⟩]

theorem createDagRun_eq_some {c' : Catalog} {tenant dagID runID : String} {logical : Time}
    (h : c.createDagRun tenant dagID runID logical = some c') :
    ∃ e v, c.resolveDag tenant dagID = some e ∧ c' = c.insertRun ⟨e.tenantId, e.id, v, runID, logical,
      .queued, .manual⟩ ∧ c.hasRun (e.id, runID) = false := by
  simp only [createDagRun, Option.bind_eq_bind, Option.bind_eq_some_iff,
    Option.ite_none_left_eq_some, Option.some.injEq, Bool.not_eq_true] at h
  obtain ⟨e, he, v, -, -, hfree, rfl⟩ := h
  exact ⟨e, v, he, rfl, hfree⟩

/-- Both are about the tables that stay as they are. -/
theorem CatchesUp.of_dags {c' : Catalog} (hd : CatchesUp parseStandard c' d schedule start)
    (hdags : c'.dags = c.dags) : CatchesUp parseStandard c d schedule start :=
  { hd with mem := hdags ▸ hd.mem }

theorem SoleInDefault.of_tables {c' : Catalog} (hsole : SoleInDefault c' d)
    (hdags : c'.dags = c.dags) (htenants : c'.tenants = c.tenants) : SoleInDefault c d where
  default := by
    have hbelongs := hsole.default
    unfold belongsTo at hbelongs ⊢
    rwa [← htenants]
  sole := hdags ▸ hsole.sole

/-- No step changes the DAGs or the tenants. -/
theorem Backfill.tables_step {s' : Backfill} {a : BackfillAction} (h : s.step parseStandard a = some s') :
    s'.catalog.dags = s.catalog.dags ∧ s'.catalog.tenants = s.catalog.tenants := by
  cases a with
  | tick now active =>
    simp only [step, Lib.guard_eq_some] at h
    obtain ⟨-, rfl⟩ := h
    exact ⟨rfl, rfl⟩
  | create =>
    simp only [step] at h
    split at h
    · cases h
      obtain ⟨hdags, htenants, -⟩ := createScheduledRun_grows s.catalog _ _
      exact ⟨hdags, htenants⟩
    · cases h
  | createFails =>
    simp only [step] at h
    split at h
    · cases h
      exact ⟨rfl, rfl⟩
    · cases h
  | trigger tenant dagID runID logical =>
    simp only [step, Option.map_eq_some_iff] at h
    obtain ⟨c', hc', rfl⟩ := h
    obtain ⟨e, v, -, rfl, -⟩ := createDagRun_eq_some hc'
    exact ⟨dags_insertRun _, tenants_insertRun _⟩
  | stop | setState key state =>
    cases h
    exact ⟨rfl, rfl⟩

/-- The slots a tick is to create for the DAG are activations from its start date on. -/
def PendingInTime (s : Backfill) (d : Dag) (schedule : Cron) (start : Time) : Prop :=
  ∀ p ∈ s.pending, p.1.dagID = d.dagId → schedule.isActivation p.2 ∧ start ≤ p.2

theorem pendingInTime_tick (hd : CatchesUp parseStandard c d schedule start)
    (hsole : SoleInDefault c d) {active : GoMap Int} :
    PendingInTime ⟨c, dueRuns now active (dueSlots parseStandard now) id c.scheduledDAGs ∅⟩ d schedule start := by
  intro p hmem hname
  unfold scheduledDAGs at hmem
  obtain ⟨he, created, -, hslot⟩ := exists_of_mem_dueRuns (d := p.1) (s := p.2) hmem
  obtain ⟨row, hrow, heq⟩ := mem_map.mp he
  obtain ⟨hrow, hlisted⟩ := mem_filter.mp hrow
  rw [← heq] at hname
  have hsame : row = d := hsole.sole row hrow hlisted hname
  rw [id_eq, ← heq, hsame] at hslot
  exact of_mem_createdSlots (d := c.scheduledDAG d) hd.cron hd.parses hd.startDate hslot

/-- Up to the next activation there stays a run for every one, if the step keeps the order. -/
theorem inTurn_step {s' : Backfill} {a : BackfillAction} (hi : InTurn s.catalog d schedule start)
    (hp : PendingInTime s d schedule start)
    (hd : CatchesUp parseStandard s.catalog d schedule start) (hsole : SoleInDefault s.catalog d)
    (hc : KeepsOrder d schedule start s a) (h : s.step parseStandard a = some s') :
    InTurn s'.catalog d schedule start ∧ PendingInTime s' d schedule start := by
  cases a with
  | tick now active =>
    simp only [Backfill.step, Lib.guard_eq_some] at h
    obtain ⟨-, rfl⟩ := h
    exact ⟨hi, pendingInTime_tick hd hsole⟩
  | create =>
    simp only [Backfill.step] at h
    split at h
    next e slot rest hpending =>
      cases h
      refine ⟨?_, fun p hmem => hp p (hpending ▸ mem_cons_of_mem _ hmem)⟩
      by_cases hname : e.dagID = d.dagId
      · obtain ⟨hact, hstart⟩ := hp (e, slot) (hpending ▸ mem_cons_self) hname
        rw [hname]
        exact hi.create hd hsole hact hstart (hc e slot (by rw [hpending]; rfl) hname)
      · exact hi.of_runsOf_eq (runsOf_createScheduledRun_of_ne hd.mem hname slot)
    · cases h
  | createFails =>
    simp only [Backfill.step] at h
    split at h
    next first rest hpending =>
      cases h
      exact ⟨hi, fun p hmem => hp p (hpending ▸ mem_cons_of_mem _ hmem)⟩
    · cases h
  | stop =>
    cases h
    exact ⟨hi, forall_mem_nil _⟩
  | trigger tenant dagID runID logical =>
    simp only [Backfill.step, Option.map_eq_some_iff] at h
    obtain ⟨c', hc', rfl⟩ := h
    refine ⟨?_, hp⟩
    obtain ⟨e, v, hresolve, rfl, hfree⟩ := createDagRun_eq_some hc'
    have he : e ∈ s.catalog.dags := mem_of_find?_eq_some hresolve
    by_cases hed : e = d
    · subst hed
      obtain ⟨hdate, hid⟩ := hc hresolve
      refine hi.manual (r := ⟨e.tenantId, e.id, v, runID, logical, .queued, .manual⟩) ?_ ?_ hdate hid
      · rw [runsOf_insertRun, if_pos ⟨rfl, hfree⟩]
      · exact fun hsched => by cases hsched
    · refine hi.of_runsOf_eq ?_
      rw [runsOf_insertRun, if_neg]
      rintro ⟨hsame, -⟩
      exact hed (inj_on_of_nodup_map s.catalog.dagIds he hd.mem hsame)
  | setState key state =>
    cases h
    exact ⟨hi.setState key state, hp⟩

/-! ## A tick with nothing to create -/

/-- The inserts of a tick leave a run for each slot of the DAG among them. -/
theorem hasRun_foldl {calls : List (ScheduledDAG × Time)} {p : ScheduledDAG × Time}
    (hd : CatchesUp parseStandard c d schedule start) (hsole : SoleInDefault c d)
    (hp : p ∈ calls) (hname : p.1.dagID = d.dagId) :
    (calls.foldl (fun c s => c.createScheduledRun s.1.dagID s.2) c).hasRun (d.id, scheduledRunID p.2) := by
  -- A run that is there stays there through the rest of the tick.
  have hstays : ∀ (rest : List (ScheduledDAG × Time)) (c : Catalog) (key : String × String), c.hasRun key →
      (rest.foldl (fun c s => c.createScheduledRun s.1.dagID s.2) c).hasRun key := by
    intro rest
    induction rest with
    | nil => exact fun _ _ h => h
    | cons q rest ih =>
      exact fun c key h => ih _ key ((createScheduledRun_grows c _ _).2.2 key h)
  induction calls generalizing c with
  | nil => cases hp
  | cons q calls ih =>
    rw [foldl_cons]
    rcases mem_cons.mp hp with rfl | hp
    · refine hstays calls _ _ ?_
      rw [hname, createScheduledRun_sole hd hsole]
      exact hasRun_insertRun.mpr (.inr rfl)
    · obtain ⟨hdags, htenants, -⟩ := createScheduledRun_grows c q.1.dagID q.2
      exact ih (hd.of_dags hdags.symm) (hsole.of_tables hdags.symm htenants.symm) hp

/-- The first slot a tick finds due for the DAG is the next activation, once it has come. -/
theorem head?_dueSlots (hd : CatchesUp parseStandard c d schedule start) (hnow : c.nextDue d schedule start ≤ now) :
    (dueSlots parseStandard now (c.scheduledDAG d)).head? = some (c.nextDue d schedule start) := by
  have hparse : parseStandard (c.scheduledDAG d).schedule = some schedule := hd.parses
  have hstart : (c.scheduledDAG d).startDate = some start := hd.startDate
  have hcatchup : (c.scheduledDAG d).catchup := hd.catchup
  have hlast : ∀ a, (∀ last ∈ c.lastLogical d, last < a) ↔ ∀ r ∈ c.runsOf d, r.logicalDate < a := by
    intro a
    cases hmax : c.lastLogical d with
    | none =>
      have hnone : c.runsOf d = [] := map_eq_nil_iff.mp (List.max?_eq_none_iff.mp hmax)
      simp [hnone]
    | some last =>
      obtain ⟨hmem, hge⟩ := List.max?_eq_some_iff.mp hmax
      obtain ⟨r, hr, hdate⟩ := mem_map.mp hmem
      simp only [Option.mem_some_iff, forall_eq']
      exact ⟨fun h r' hr' => (hge _ (mem_map_of_mem hr')).trans_lt h, fun h => hdate ▸ h r hr⟩
  obtain ⟨seed, hseed, hafter⟩ : ∃ seed,
      schedule.toSchedule.catchupSeed (c.lastLogical d) (some start) now = some seed ∧
        ∀ s, schedule.toSchedule.Slot (some start) s → (seed < s ↔ ∀ last ∈ c.lastLogical d, last < s) :=
    Cron.exists_catchupSeed (.inr rfl)
  have hslot : schedule.toSchedule.Slot (some start) (c.nextDue d schedule start) :=
    ⟨Catalog.isActivation_nextDue, fun _ h => Option.some.inj h ▸ Catalog.start_le_nextDue⟩
  have hnext : seed < c.nextDue d schedule start :=
    (hafter _ hslot).mpr ((hlast _).mpr fun r hr => Catalog.lt_nextDue hr)
  have hleast : ∀ s, schedule.toSchedule.Slot (some start) s → seed < s → c.nextDue d schedule start ≤ s :=
    fun s hs hlt => Catalog.nextDue_le hs.1 (hs.2 start rfl) ((hlast s).mp ((hafter s hs).mp hlt))
  simp only [dueSlots, hparse, hstart, hcatchup, Option.isNone_some, Bool.and_false, Bool.false_eq_true, if_false]
  rw [show (c.scheduledDAG d).lastLogical = c.lastLogical d from rfl, Cron.dueScheduledSlots_eq hseed (by decide),
    if_pos rfl, Cron.dueSlots, Lib.inOrder_pointsIn_least hslot hnext hleast hnow]
  rfl

/-- A tick that has headroom and creates nothing finds the next activation still to come. -/
theorem lt_nextDue_of_quiet {active : GoMap Int} (hi : InTurn c d schedule start)
    (hd : CatchesUp parseStandard c d schedule start) (hsole : SoleInDefault c d)
    (hroom : hasHeadroom (c.scheduledDAG d) active ∅)
    (hquiet : (createDueRuns parseStandard now active c).runsOf d = c.runsOf d) : now < c.nextDue d schedule start := by
  rw [← not_le]
  intro hnow
  have hmem : (d, c.nextDue d schedule start) ∈
      dueRuns now active (dueSlots parseStandard now) c.scheduledDAG (c.dags.filter Dag.isListed) ∅ := by
    refine mem_dueRuns (mem_filter.mpr ⟨hd.mem, hd.listed⟩) ?_ hd.cron hroom rfl (head?_dueSlots hd hnow)
    intro e he hname
    obtain ⟨he, hlisted⟩ := mem_filter.mp he
    exact .inl (hsole.sole e he hlisted hname)
  have hcall : (c.scheduledDAG d, c.nextDue d schedule start) ∈
      dueRuns now active (dueSlots parseStandard now) id c.scheduledDAGs ∅ := by
    unfold scheduledDAGs
    rw [dueRuns_map]
    exact mem_map_of_mem (f := fun p : Dag × Time => (c.scheduledDAG p.1, p.2)) hmem
  have htaken : (createDueRuns parseStandard now active c).hasRun
      (d.id, scheduledRunID (c.nextDue d schedule start)) :=
    hasRun_foldl (p := (c.scheduledDAG d, c.nextDue d schedule start)) hd hsole hcall rfl
  have hfree := hi.hasRun_eq_false Catalog.isActivation_nextDue le_rfl
  obtain ⟨r, hr, hkey⟩ := hasRun_iff.mp htaken
  have hr' : r ∈ c.runsOf d := by
    rw [← hquiet]
    exact mem_runsOf.mpr ⟨hr, (Prod.mk.inj hkey).1⟩
  have hhas := hasRun_iff.mpr ⟨r, (mem_runsOf.mp hr').1, hkey⟩
  exact absurd hhas (Bool.eq_false_iff.mp hfree)

theorem InTurn.countP_eq_one (hi : InTurn c d schedule start) (ha : schedule.isActivation a)
    (hstart : start ≤ a) (hbefore : a < c.nextDue d schedule start) :
    (c.runsOf d).countP (fun r => r.trigger == .scheduled && r.logicalDate == a) = 1 := by
  obtain ⟨r, hr, htrigger, hdate⟩ := hi.filled a ha hstart hbefore
  have hone : (c.runsOf d).countP (fun r => r.trigger == .scheduled && r.logicalDate == a) =
      (c.runsOf d).countP (· == r) := by
    refine countP_congr fun r' hr' => ?_
    simp only [Bool.and_eq_true, beq_iff_eq]
    constructor
    · rintro ⟨htrigger', hdate'⟩
      -- Two scheduled runs of one instant have one run id.
      have hid : r'.key = r.key := by
        obtain ⟨hid', -⟩ := hi.scheduled r' hr' htrigger'
        obtain ⟨hid, -⟩ := hi.scheduled r hr htrigger
        refine Prod.ext ?_ ?_
        · exact (mem_runsOf.mp hr').2.trans (mem_runsOf.mp hr).2.symm
        · change r'.runId = r.runId
          rw [hid', hid, hdate', hdate]
      exact inj_on_of_nodup_map c.dagRunsUnique (mem_runsOf.mp hr').1 (mem_runsOf.mp hr).1 hid
    · rintro rfl
      exact ⟨htrigger, hdate⟩
  have hnodup : (c.runsOf d).Nodup := (List.Nodup.of_map _ c.dagRunsUnique).filter _
  rw [hone]
  exact count_eq_one_of_mem hnodup hr

/-- So it is in every state reached. -/
theorem inTurn_of_reaches (h : (Backfill.system parseStandard).Reaches (KeepsOrder d schedule start) s)
    (hd : CatchesUp parseStandard s.catalog d schedule start) (hsole : SoleInDefault s.catalog d) :
    InTurn s.catalog d schedule start ∧ PendingInTime s d schedule start := by
  induction h with
  | @init s hinit =>
    obtain ⟨hruns, hpending⟩ := hinit
    have hnone : s.catalog.runsOf d = [] := by
      unfold runsOf
      rw [hruns]
      rfl
    refine ⟨⟨?_, ?_, ?_⟩, ?_⟩
    · rw [hnone]
      exact forall_mem_nil _
    · rw [hnone]
      exact forall_mem_nil _
    · intro a ha hstart hbefore
      refine absurd hbefore (not_lt.mpr (Catalog.nextDue_le ha hstart ?_))
      rw [hnone]
      exact forall_mem_nil _
    · intro p hp
      rw [hpending] at hp
      cases hp
  | @step s s' a _ hc hstep ih =>
    obtain ⟨hdags, htenants⟩ := Backfill.tables_step hstep
    have hd' := hd.of_dags hdags
    have hsole' := hsole.of_tables hdags htenants
    obtain ⟨hi, hp⟩ := ih hd' hsole'
    exact inTurn_step hi hp hd' hsole' hc hstep

end Step

/-- **Catching up leaves no gap** if the runs of the DAG are created in the order of their dates. -/
theorem catchup_leaves_no_gap {parseStandard : String → Option Cron} {d : Dag} {schedule : Cron}
    {start now : Time} {s : Backfill} (active : GoMap Int)
    (h : (Backfill.system parseStandard).Reaches (KeepsOrder d schedule start) s)
    (hd : CatchesUp parseStandard s.catalog d schedule start) (hsole : SoleInDefault s.catalog d)
    (hroom : hasHeadroom (s.catalog.scheduledDAG d) active ∅)
    (hquiet : (createDueRuns parseStandard now active s.catalog).runsOf d = s.catalog.runsOf d) :
    s.catalog.Covers d schedule start now := by
  obtain ⟨hi, -⟩ := inTurn_of_reaches h hd hsole
  have hnow := lt_nextDue_of_quiet hi hd hsole hroom hquiet
  intro a ha hstart hle
  exact hi.countP_eq_one ha hstart (hle.trans_lt hnow)

/-- A check of the order for manual runs under an id of the form the API gives them. -/
def ordered (d : Dag) (schedule : Cron) (start : Time) (s : Backfill) : BackfillAction → Bool
  | .create => s.pending.head?.all fun p =>
      p.1.dagID != d.dagId || decide (p.2 ≤ s.catalog.nextDue d schedule start)
  | .trigger _ _ runID logical =>
    "manual__".toList.isPrefixOf runID.toList && decide (logical < s.catalog.nextDue d schedule start)
  | _ => true

theorem keepsOrder_of_ordered {d : Dag} {schedule : Cron} {start : Time} {a : BackfillAction}
    (h : ordered d schedule start s a) : KeepsOrder d schedule start s a := by
  cases a with
  | create =>
    intro e slot hhead hname
    simp only [ordered, hhead, Option.all_some, hname, bne_self_eq_false, Bool.false_or, decide_eq_true_eq] at h
    exact h
  | trigger tenant dagID runID logical =>
    simp only [ordered, Bool.and_eq_true, isPrefixOf_iff_prefix, decide_eq_true_eq] at h
    obtain ⟨⟨rest, hid⟩, hdate⟩ := h
    refine fun _ => ⟨hdate, fun a _ _ hsame => ?_⟩
    rw [hsame, scheduledRunID, String.toList_append] at hid
    have hfirst := congrArg List.head? hid
    simp at hfirst
  | tick | createFails | stop | setState => exact trivial

/-- The period of the hourly schedule. -/
def hour : Duration := 3600 * second

/-- A manual run between two ticks. -/
def orderedRun : List BackfillAction :=
  [.tick 0 ∅, .create, .trigger "default" "etl" "manual__1" (hour / 2), .tick (2 * hour) ∅, .create, .create]

theorem catchup_leaves_no_gap_ordered : ∃ s : Backfill,
    (Backfill.system fun _ => some .hourly).runIf (ordered (hourlyDag "d0" "t0") .hourly 0)
      ⟨oneTenant, []⟩ orderedRun = some s ∧
    s.catalog.runs.length = 4 ∧
    s.catalog.Covers (hourlyDag "d0" "t0") .hourly 0 (2 * hour) := by
  have hrun := (Option.some_get (x := (Backfill.system fun _ => some .hourly).runIf
    (ordered (hourlyDag "d0" "t0") .hourly 0) ⟨oneTenant, []⟩ orderedRun)
    (by decide +kernel)).symm
  refine ⟨_, hrun, by decide +kernel, ?_⟩
  have hreach : (Backfill.system fun _ => some .hourly).Reaches (KeepsOrder (hourlyDag "d0" "t0") .hourly 0) _ :=
    Lib.System.Reaches.runIf (.init ⟨rfl, rfl⟩) (fun _ _ => keepsOrder_of_ordered) hrun
  refine catchup_leaves_no_gap ∅ hreach ⟨?_, ?_, rfl, ?_, rfl, rfl⟩ ⟨?_, ?_⟩ ?_ ?_ <;> decide +kernel

/-- A manual run dated ahead of the activations that have no run yet. -/
def aheadRun : List BackfillAction :=
  [.trigger "default" "etl" "manual__1" (hour + hour / 2), .tick (2 * hour) ∅, .create]

/-- The tick goes on after it and the first activation gets no run. -/
theorem catchup_skips_activation : ¬ ∀ (parseStandard : String → Option Cron) (d : Dag)
    (schedule : Cron) (start now : Time) (active : GoMap Int) (s : Backfill),
    (Backfill.system parseStandard).Reachable s → CatchesUp parseStandard s.catalog d schedule start →
    hasHeadroom (s.catalog.scheduledDAG d) active ∅ →
    (createDueRuns parseStandard now active s.catalog).runsOf d = s.catalog.runsOf d →
    s.catalog.Covers d schedule start now := by
  intro h
  have hrun := (Option.some_get (x := (Backfill.system fun _ => some .hourly).run
    ⟨oneTenant, []⟩ aheadRun) (by decide +kernel)).symm
  have hreach : (Backfill.system fun _ => some .hourly).Reachable _ :=
    Lib.System.Reachable.run (.init ⟨rfl, rfl⟩) hrun
  have hcovers := h (fun _ => some .hourly) (hourlyDag "d0" "t0") .hourly 0 (2 * hour) ∅ _
    hreach ⟨by decide +kernel, by decide +kernel, rfl, by decide +kernel, rfl, rfl⟩
    (by decide +kernel) (by decide +kernel)
  exact absurd (hcovers 0 (by decide +kernel) le_rfl (by decide +kernel)) (by decide +kernel)

end Leoflow
