import Leoflow.Scheduler.Settled

/-!
# What the trigger rules mean

The planner evaluates a trigger rule over states the retry rail has rewritten: a failed upstream that is
still owed a try counts as active. Here the rule is said of the recorded states instead. An upstream is
lost when it failed and nothing recovers it, and settled when it is lost or has ended in another way.
-/

namespace Leoflow

open Lib (GoMap)
open Option

variable {id : String} {s : TaskState}

/-! ## Decisions -/

section Decisions

variable {rule : TriggerRule} {upstreams : List (Option TaskState)}

/-- The upstream has ended. -/
def Ended (u : Option TaskState) : Prop := ∃ s : TaskState, u = some s ∧ s.isTerminal

theorem ended_iff {u : Option TaskState} : Ended u ↔
    u = some .success ∨ u = some .skipped ∨ u = some .upstreamFailed ∨ u = some .failed := by
  constructor
  · rintro ⟨s, rfl, hs⟩
    cases s <;> simp_all [TaskState.isTerminal]
  · rintro (rfl | rfl | rfl | rfl) <;> exact ⟨_, rfl, rfl⟩

/-- What a rule asks of upstreams that have all ended. -/
def TriggerRule.HoldsOf (upstreams : List (Option TaskState)) : TriggerRule → Prop
  | .allSuccess => ∀ u ∈ upstreams, u = some .success
  | .allFailed => ∀ u ∈ upstreams, u = some .failed
  | .allDone => True
  | .oneSuccess => some .success ∈ upstreams ∧ some .upstreamFailed ∉ upstreams
  | .oneFailed => some .failed ∈ upstreams ∧ some .upstreamFailed ∉ upstreams
  | .other _ => False

theorem failed_pos : (countUpstreams upstreams).failed > 0 ↔ some .failed ∈ upstreams := by
  rw [countUpstreams_eq]
  exact List.count_pos_iff

theorem skipped_pos : (countUpstreams upstreams).skipped > 0 ↔ some .skipped ∈ upstreams := by
  rw [countUpstreams_eq]
  exact List.count_pos_iff

theorem success_pos : (countUpstreams upstreams).success > 0 ↔ some .success ∈ upstreams := by
  rw [countUpstreams_eq]
  exact List.count_pos_iff

theorem upstreamFailed_pos : (countUpstreams upstreams).upstreamFailed > 0 ↔ some .upstreamFailed ∈ upstreams := by
  rw [countUpstreams_eq]
  exact List.count_pos_iff

theorem active_pos : (countUpstreams upstreams).active > 0 ↔ ¬ ∀ u ∈ upstreams, Ended u := by
  rw [gt_iff_lt, Nat.pos_iff_ne_zero, ne_eq, active_eq_zero]
  rfl

theorem failed_eq_total : (countUpstreams upstreams).failed = (countUpstreams upstreams).total ↔
    ∀ u ∈ upstreams, u = some .failed := by
  rw [countUpstreams_eq, List.count_eq_length]
  exact forall₂_congr fun u _ => eq_comm

/-- Upstreams that have ended without failure or skip have succeeded. -/
theorem all_success_iff : (∀ u ∈ upstreams, u = some .success) ↔ (∀ u ∈ upstreams, Ended u) ∧
    some .failed ∉ upstreams ∧ some .skipped ∉ upstreams ∧ some .upstreamFailed ∉ upstreams := by
  constructor
  · intro h
    refine ⟨fun u hu => ended_iff.mpr (.inl (h u hu)), ?_, ?_, ?_⟩ <;>
    · intro hmem
      cases h _ hmem
  · rintro ⟨hended, hfailed, hskipped, hupstream⟩ u hu
    rcases ended_iff.mp (hended u hu) with rfl | rfl | rfl | rfl
    · rfl
    · exact absurd hu hskipped
    · exact absurd hu hupstream
    · exact absurd hu hfailed

variable (rule upstreams)

/-- The rule cannot hold any more because of a failure. -/
def Condemns : Prop :=
  (rule ≠ .allDone ∧ some .upstreamFailed ∈ upstreams) ∨ (rule = .allSuccess ∧ some .failed ∈ upstreams)

/-- The task may start. -/
def Releases : Prop :=
  upstreams = [] ∨ (∀ u ∈ upstreams, Ended u) ∧ rule.HoldsOf upstreams

/-- The task is skipped. -/
def PassesOver : Prop :=
  ¬ Condemns rule upstreams ∧ ¬ Releases rule upstreams ∧
    ((rule = .allSuccess ∧ some .skipped ∈ upstreams) ∨ ∀ u ∈ upstreams, Ended u)

variable {rule upstreams}

/-- **A supported rule decides as it says.** -/
theorem evaluateTriggerRule_iff (hrule : ∀ name, rule ≠ .other name) :
    (evaluateTriggerRule rule upstreams = .upstreamFailed ↔ Condemns rule upstreams) ∧
    (evaluateTriggerRule rule upstreams = .schedule ↔ Releases rule upstreams) ∧
    (evaluateTriggerRule rule upstreams = .skip ↔ PassesOver rule upstreams) := by
  by_cases hnil : upstreams = []
  · subst hnil
    simp [evaluateTriggerRule, Condemns, Releases, PassesOver]
  have hactive := @active_pos upstreams
  have hsuccess := @all_success_iff upstreams
  have htotal := @failed_eq_total upstreams
  simp only [evaluateTriggerRule, List.isEmpty_iff, hnil, if_false, upstreamFailed_pos, Condemns, Releases,
    PassesOver, false_or]
  cases rule with
  | allSuccess =>
    simp only [evalAllSuccess, failed_pos, skipped_pos, TriggerRule.HoldsOf]
    grind
  | allFailed =>
    simp only [evalAllFailed, TriggerRule.HoldsOf]
    grind
  | allDone =>
    simp only [evalAllDone, TriggerRule.HoldsOf]
    grind
  | oneSuccess =>
    simp only [evalOneOf, success_pos, TriggerRule.HoldsOf]
    grind
  | oneFailed =>
    simp only [evalOneOf, failed_pos, TriggerRule.HoldsOf]
    grind
  | other name => exact absurd rfl (hrule name)

end Decisions

namespace RunState

variable (run : RunState)

/-! ## Upstreams of a run -/

/-- The upstream failed and is owed neither a placement nor a try. What is no task of the run is owed
nothing. -/
structure Lost (id : String) : Prop where
  failed : run.states.lookup id = some .failed
  spent : (∃ t ∈ run.tasks, t.taskID = id) →
    if run.infraFailed.getD id false then infraMaxAttempts ≤ run.infraAttempts.getD id 0
    else run.maxTries.getD id 0 ≤ run.tries.getD id 0

/-- Nothing changes the upstream any more. -/
def UpstreamSettled (id : String) : Prop :=
  run.states.lookup id = some .success ∨ run.states.lookup id = some .skipped ∨
    run.states.lookup id = some .upstreamFailed ∨ run.Lost id

/-- What the rule of a task asks of settled upstreams. -/
def RuleHolds (t : TaskSpec) : Prop :=
  match triggerRuleOf t with
  | .allSuccess => ∀ d ∈ t.dependsOn, run.states.lookup d = some .success
  | .allFailed => ∀ d ∈ t.dependsOn, run.Lost d
  | .allDone => True
  | .oneSuccess => (∃ d ∈ t.dependsOn, run.states.lookup d = some .success) ∧
    ¬ ∃ d ∈ t.dependsOn, run.states.lookup d = some .upstreamFailed
  | .oneFailed => (∃ d ∈ t.dependsOn, run.Lost d) ∧ ¬ ∃ d ∈ t.dependsOn, run.states.lookup d = some .upstreamFailed
  | .other _ => False

/-- The same of a task of a run, over what the run records. -/
def CondemnedTask (t : TaskSpec) : Prop :=
  (triggerRuleOf t ≠ .allDone ∧ ∃ d ∈ t.dependsOn, run.states.lookup d = some .upstreamFailed) ∨
    (triggerRuleOf t = .allSuccess ∧ ∃ d ∈ t.dependsOn, run.Lost d)

/-- The same of a task of a run. -/
def ReleasedTask (t : TaskSpec) : Prop :=
  t.dependsOn = [] ∨ (∀ d ∈ t.dependsOn, run.UpstreamSettled d) ∧ run.RuleHolds t

/-- The same of a task of a run. -/
def PassedOverTask (t : TaskSpec) : Prop :=
  ¬ run.CondemnedTask t ∧ ¬ run.ReleasedTask t ∧
    ((triggerRuleOf t = .allSuccess ∧ ∃ d ∈ t.dependsOn, run.states.lookup d = some .skipped) ∨
      ∀ d ∈ t.dependsOn, run.UpstreamSettled d)

variable {run}

theorem rail_not_ended (h : (run.retryDecision id).effective = some s) : s.isTerminal = false := by
  unfold retryDecision at h
  split at h <;> (repeat' split at h) <;> simp_all <;> subst h <;> rfl

/-- The rail hides a failure that is owed a placement or a try. -/
theorem rail_hides_iff (hfailed : run.states.lookup id = some .failed) : (run.retryDecision id).effective = none ↔
      if run.infraFailed.getD id false then infraMaxAttempts ≤ run.infraAttempts.getD id 0
      else run.maxTries.getD id 0 ≤ run.tries.getD id 0 := by
  rw [retryDecision, hfailed]
  dsimp only
  cases hinfra : run.infraFailed.getD id false with
  | true =>
    by_cases hspent : infraMaxAttempts ≤ run.infraAttempts.getD id 0
    · simp [infraReplaceable, hspent, Int.not_lt.mpr hspent]
    · simp only [infraReplaceable, hinfra, hspent, Int.not_le.mp hspent, decide_true, Bool.and_true, if_true]
      split <;> simp
  | false =>
    by_cases hspent : run.maxTries.getD id 0 ≤ run.tries.getD id 0
    · simp [retriable, hspent, Int.not_lt.mpr hspent]
    · simp [retriable, hspent, Int.not_le.mp hspent]

/-- Downstream sees a failure exactly where the upstream is lost. -/
theorem effective_eq_failed : run.effective.lookup id = some .failed ↔ run.Lost id := by
  rw [effective_lookup]
  split
  next htask =>
    cases hrail : (run.retryDecision id).effective with
    | none =>
      rw [none_or]
      exact ⟨fun hfailed => ⟨hfailed, fun _ => (rail_hides_iff hfailed).mp hrail⟩, Lost.failed⟩
    | some s =>
      rw [some_or]
      constructor
      · intro hs
        rw [some_inj.mp hs] at hrail
        cases rail_not_ended hrail
      · intro hlost
        rw [(rail_hides_iff hlost.failed).mpr (hlost.spent htask)] at hrail
        cases hrail
  next htask =>
    exact ⟨fun hfailed => ⟨hfailed, fun h => absurd h htask⟩, Lost.failed⟩

/-- An upstream that ended otherwise is seen as it is recorded. -/
theorem effective_eq_ended (hs : s.isTerminal) (hne : s ≠ .failed) :
    run.effective.lookup id = some s ↔ run.states.lookup id = some s := by
  rw [effective_lookup]
  split
  · cases hrail : (run.retryDecision id).effective with
    | none => rw [none_or]
    | some s' =>
      rw [some_or]
      constructor
      · intro he
        rw [some_inj.mp he] at hrail
        rw [rail_not_ended hrail] at hs
        cases hs
      · intro he
        have hrecorded : (run.retryDecision id).effective = none := by
          cases s <;> simp_all [retryDecision, TaskState.isTerminal]
        rw [hrecorded] at hrail
        cases hrail
  · exact Iff.rfl

theorem ended_effective : Ended (run.effective.lookup id) ↔ run.UpstreamSettled id := by
  rw [ended_iff, effective_eq_ended rfl (by decide), effective_eq_ended rfl (by decide),
    effective_eq_ended rfl (by decide), effective_eq_failed]
  rfl

/-! ## The rule over the effective states -/

section Effective

variable {t : TaskSpec}

theorem mem_effective :
    some s ∈ t.dependsOn.map run.effective.lookup ↔ ∃ d ∈ t.dependsOn, run.effective.lookup d = some s :=
  List.mem_map

theorem all_ended_iff : (∀ u ∈ t.dependsOn.map run.effective.lookup, Ended u) ↔
    ∀ d ∈ t.dependsOn, run.UpstreamSettled d := by
  simp only [List.forall_mem_map, ended_effective]

theorem condemns_iff : Condemns (triggerRuleOf t) (t.dependsOn.map run.effective.lookup) ↔ run.CondemnedTask t := by
  simp [Condemns, CondemnedTask, mem_effective, effective_eq_failed,
    effective_eq_ended (s := .upstreamFailed) rfl (by decide)]

theorem holdsOf_iff : (triggerRuleOf t).HoldsOf (t.dependsOn.map run.effective.lookup) ↔ run.RuleHolds t := by
  unfold TriggerRule.HoldsOf RuleHolds
  cases triggerRuleOf t <;> simp only [List.forall_mem_map, mem_effective, effective_eq_failed,
      effective_eq_ended (s := .success) rfl (by decide),
      effective_eq_ended (s := .upstreamFailed) rfl (by decide)]

theorem releases_iff : Releases (triggerRuleOf t) (t.dependsOn.map run.effective.lookup) ↔ run.ReleasedTask t := by
  rw [Releases, ReleasedTask, List.map_eq_nil_iff, all_ended_iff, holdsOf_iff]

theorem passesOver_iff :
    PassesOver (triggerRuleOf t) (t.dependsOn.map run.effective.lookup) ↔ run.PassedOverTask t := by
  rw [PassesOver, PassedOverTask, condemns_iff, releases_iff, all_ended_iff, mem_effective]
  simp only [effective_eq_ended (s := .skipped) rfl (by decide)]

end Effective

/-! ## Emissions -/

section Emissions

variable {t : TaskSpec} (hnd : (run.tasks.map TaskSpec.taskID).Nodup) (ht : t ∈ run.tasks)
  (hnone : run.states.lookup t.taskID = some .none)
include hnd ht hnone

theorem mem_planRun_of_none {target : TaskState} : ⟨t.taskID, target⟩ ∈ run.planRun ↔
    decideStart t t.dependsOn run.effective = some target := by
  have hund : (run.retryDecision t.taskID).decided = false := by simp [retryDecision, hnone]
  have heff : run.effective.lookup t.taskID = some .none := (run.effective_of_undecided hund).trans hnone
  have hups : run.upstreams.getD t.taskID [] = t.dependsOn := by
    rw [GoMap.getD, upstreams, GoMap.lookup_collect hnd ht]
    rfl
  constructor
  · intro hmem
    obtain ⟨t', ht', hid, hemit | hstarts⟩ := run.mem_planRun hmem
    · rw [run.retryDecision_of_undecided hund] at hemit
      cases hemit
    · have htask : t' = t := List.inj_on_of_nodup_map hnd ht' ht hid
      subst htask
      rcases hstarts.rail with ⟨_, hstart⟩ | ⟨hscheduled, _⟩
      · rw [← hups]
        exact hstart
      · rw [heff] at hscheduled
        cases hscheduled
  · intro hstart
    rw [← hups] at hstart
    exact run.mem_planRun_of_decideStart ht hund heff hstart

end Emissions

end RunState

open RunState

/-- **Trigger semantics.** A task that has not started is condemned, released or passed over by its upstreams
as recorded, where an upstream that is still owed a placement or a try counts as under way. -/
theorem trigger_semantics {run : RunState} (hnd : (run.tasks.map TaskSpec.taskID).Nodup) {t : TaskSpec}
    (ht : t ∈ run.tasks) (hrule : ∀ name, t.triggerRule ≠ some (.other name))
    (hnone : run.states.lookup t.taskID = some .none) :
    (⟨t.taskID, .upstreamFailed⟩ ∈ run.planRun ↔ run.CondemnedTask t) ∧
    (⟨t.taskID, .scheduled⟩ ∈ run.planRun ↔ run.ReleasedTask t) ∧
    (⟨t.taskID, .skipped⟩ ∈ run.planRun ↔ run.PassedOverTask t) := by
  have hsupported : ∀ name, triggerRuleOf t ≠ .other name := by
    intro name hname
    cases htrigger : t.triggerRule with
    | none => simp [triggerRuleOf, htrigger] at hname
    | some rule =>
      rw [triggerRuleOf, htrigger, getD_some] at hname
      exact hrule name (hname ▸ htrigger)
  obtain ⟨hcondemns, hreleases, hpasses⟩ :=
    @evaluateTriggerRule_iff _ (t.dependsOn.map run.effective.lookup) hsupported
  simp only [mem_planRun_of_none hnd ht hnone, ← condemns_iff, ← releases_iff, ← passesOver_iff, ← hcondemns,
    ← hreleases, ← hpasses, decideStart]
  cases evaluateTriggerRule (triggerRuleOf t) (t.dependsOn.map run.effective.lookup) <;> simp

/-- A load that failed its last try beside an extract that lost its pod for the first time. -/
def halfLostRun : RunState where
  runID := "run"
  dagID := "dag"
  dagVersionID := "v1"
  tenantID := "tenant"
  state := .running
  tasks := [{ taskID := "extract" }, { taskID := "load" }, { taskID := "report", dependsOn := ["extract", "load"] }]
  states := .literal [("extract", .failed), ("load", .failed), ("report", .none)]
  tries := .literal [("extract", 1), ("load", 1)]
  maxTries := .literal [("extract", 1), ("load", 1)]
  endedAt := .literal [("extract", 1), ("load", 2)]
  retryDelaySeconds := ∅
  rescheduleAt := ∅
  nextDispatchAt := ∅
  dispatchAttempts := ∅
  infraFailed := .literal [("extract", true)]
  infraAttempts := ∅
  now := 3
  maxActiveTasks := 0

theorem trigger_semantics_halfLost : ⟨"report", .upstreamFailed⟩ ∈ halfLostRun.planRun :=
  (trigger_semantics (t := { taskID := "report", dependsOn := ["extract", "load"] }) (by decide) (by decide)
    (fun _ h => by cases h) (by decide)).1.mpr
    (.inr ⟨rfl, "load", by decide, by decide, fun _ => by decide⟩)

end Leoflow
