import Leoflow.Lib.Fence
import Leoflow.System.Holdings
import Leoflow.System.WellFormed

/-!
# Placement fencing

An infra re-placement and a redispatch after a reschedule keep the row's id and its try, so two
placements of a row carry the same `(id, try_number)`. What separates them is only that nothing of
the earlier one is left: the placement a party was started by is a token that goes stale when the row
is dispatched again.
-/

namespace Leoflow

open Lib (Fence)
open World Option

/-- The attempt an action is of. -/
def Action.attempt? : Action → Option Attempt
  | .reportRunning g | .reportOutcome g | .heartbeat g => some g.attempt
  | .settle p _ => some p
  | _ => none

/-- A message or a pod of one placement leaves the state, `reschedule_at` and `last_heartbeat_at` of a
row alone while another placement of it is current. -/
def WritesOwnPlacement (w : World) (a : Action) : Prop :=
  ∀ att ∈ a.attempt?, ∀ r ∈ w.db.tis, w.track.placements r.id ≠ att.placement →
    ((w.write a).row w.db r).state = r.state ∧
    ((w.write a).row w.db r).rescheduleAt = r.rescheduleAt ∧
    ((w.write a).row w.db r).lastHeartbeatAt = r.lastHeartbeatAt

instance (w : World) (a : Action) : Decidable (WritesOwnPlacement w a) := by
  unfold WritesOwnPlacement
  infer_instance

/-! ## The placement as a token -/

/-- What a party was started for. A party that writes `anyTry` is not held back by `try_number`. -/
structure Placed where
  tryNumber : Nat
  placement : Nat
  anyTry : Bool

variable {k : Handle} {p : Placed} {r : TaskInstance}

/-- What of a placement may still write the row: a dispatch on its way, an agent with messages to send, and a pod
the reconciler may settle. Without `all`, only what may still record a heartbeat. -/
inductive PlacementHolder (all : Bool) (w : World) : Handle → Placed → Prop where
  | accepted {q : Request} (hq : q ∈ w.ctl.requests) (hs : q.stage = .accepted) :
      PlacementHolder all w (.key q.run q.task) ⟨0, q.placement, true⟩
  | resolved {q : Request} {att : Attempt} (hq : q ∈ w.ctl.requests) (hs : q.stage = .resolved att) :
      PlacementHolder all w (.key att.run att.task) ⟨att.tryNumber, att.placement, all⟩
  | resolvedPod {q : Request} {att : Attempt} (hall : all) (hq : q ∈ w.ctl.requests)
      (hs : q.stage = .resolved att) :
      PlacementHolder all w (.id att.taskInstanceID) ⟨att.tryNumber, att.placement, false⟩
  | agent {g : Agent} (hg : g ∈ w.ctl.agents) :
      PlacementHolder all w (.key g.attempt.run g.attempt.task)
        ⟨g.attempt.tryNumber, g.attempt.placement, all && g.mayReschedule⟩
  | pod {p : Attempt} (hall : all) (hp : p ∈ w.ctl.pods) :
      PlacementHolder all w (.id p.taskInstanceID) ⟨p.tryNumber, p.placement, false⟩

/-- A row is dispatched only when nothing of an earlier placement can still write it: what is left of
earlier placements belongs to another try and compares it. -/
def DispatchesAlone (all : Bool) (w : World) (a : Action) : Prop :=
  ∀ t d, a = .tick t → Tick.dispatches w.ctl.tick t = some d →
    ∀ r ∈ w.db.tis, r.isFor d.1 d.2.1 →
      ∀ h k, PlacementHolder all w h k → h.covers r →
        k.anyTry = false ∧ r.tryNumber ≠ k.tryNumber

/-- A row's token is its placement, for a party of another try only if it writes any try. -/
def placementFence (all : Bool) : Fence World Handle Placed where
  token w h k := ∃ r ∈ w.db.tis, h.covers r ∧ k.tryNumber ≤ r.tryNumber ∧
    (k.anyTry ∨ r.tryNumber = k.tryNumber → w.track.placements r.id = k.placement)
  holds := PlacementHolder all

section Step

variable {cfg : Config} {all : Bool} {w w' : World} {a : Action}

theorem tryNumber_le_write (wr : Write) (db : Database) (r : TaskInstance) : r.tryNumber ≤ (wr.row db r).tryNumber := by
  cases hs : wr.statement db with
  | none => rw [Write.row_of_none hs]
  | some s => rw [Write.row_of_statement hs]; exact s.tryNumber_le_row _ _

theorem placementFence_token_step (hw : w.WellFormed) (hc : DispatchesAlone all w a) (h : w.step cfg a = some w')
    (hold : PlacementHolder all w k p) (ht : (placementFence all).token w k p) : (placementFence all).token w' k p := by
  obtain ⟨r, hr, hcov, hle, hplace⟩ := ht
  have hle' := tryNumber_le_write (w.write a) w.db r
  refine ⟨_, (mem_step_tis h).mpr (.inl ⟨r, hr, rfl⟩), Handle.covers_row.trans hcov,
    hle.trans hle', fun hap => ?_⟩
  rw [Write.row_id, step_track h]
  by_cases hd : ∃ t d, a = .tick t ∧ Tick.dispatches w.ctl.tick t = some d ∧
      r.isFor d.1 d.2.1
  · obtain ⟨t, d, rfl, hd, hf⟩ := hd
    obtain ⟨hany, hne⟩ := hc t d rfl hd r hr hf k p hold hcov
    rw [write_of_dispatches hd, Write.row_of_none rfl] at hap
    rcases hap with hap | hap
    · rw [hany] at hap; cases hap
    · exact absurd hap hne
  · rw [placements_of_not_dispatches]
    · refine hplace (hap.imp_right fun he => ?_)
      exact le_antisymm (hle'.trans he.le) hle
    · intro t d hat hd' s hs hf hid
      rw [hw.keyed.eq_of_id hs hr hid] at hf
      exact hd ⟨t, d, hat, hd', hf⟩

/-- The same party with less it may write. -/
theorem placementFence_token_weaken {n m : Nat} {any less : Bool} (hless : less → any)
    (ht : (placementFence all).token w k ⟨n, m, any⟩) : (placementFence all).token w k ⟨n, m, less⟩ := by
  obtain ⟨r, hr, hcov, hle, hplace⟩ := ht
  exact ⟨r, hr, hcov, hle, fun hap => hplace (hap.imp_left hless)⟩

theorem placementFence_token_of_quiet (h : w.step cfg a = some w') (hn : w.write a = .nothing) (ha : ∀ t, a ≠ .tick t)
    (ht : (placementFence all).token w k p) : (placementFence all).token w' k p := by
  have hplace : ∀ id, w'.track.placements id = w.track.placements id := fun id => by
    rw [step_track h]
    exact placements_of_not_dispatches fun t _ hat => absurd hat (ha t)
  simpa only [placementFence, tis_of_nothing h hn, hplace] using ht

section

variable (hw : w.WellFormed) (hcur : (placementFence all).Current w)
include hw hcur

theorem placementFence_resolve {q : Request} (hq : q ∈ w.ctl.requests) (hs : q.stage = .accepted)
    (hr : w.rowFor q.run q.task = some r) : w.track.placements r.id = q.placement := by
  obtain ⟨r₀, hr₀, hcov, -, hplace⟩ := hcur _ _ (.accepted hq hs)
  obtain ⟨hmem, hf⟩ := rowFor_mem hr
  rw [hw.keyed.eq_of_isFor hmem hr₀ hf hcov]
  exact hplace (.inl rfl)

/-- Every step respects the fence, if rows are dispatched alone. -/
theorem placementFence_respects
    (hc : DispatchesAlone all w a) (h : w.step cfg a = some w') : (placementFence all).Respects w w' := by
  have hn := step_ctl h
  have hkeep : ∀ {k p}, PlacementHolder all w k p → (placementFence all).holds w k p ∧
      ((placementFence all).token w k p → (placementFence all).token w' k p) :=
    fun hold => ⟨hold, placementFence_token_step hw hc h hold⟩
  intro k p hold
  cases hold with
  | accepted hq hs =>
    rcases mem_requests hn hq with hq | ⟨t, run, task, buffered, rfl, hd, rfl⟩ |
        ⟨q, hq, r, -, -, -, rfl⟩ | ⟨q, hq, att, -, rfl⟩
    · exact .inr (hkeep (.accepted hq hs))
    · obtain ⟨r, hr, hf, hp⟩ := placement_of_dispatches hw hd h
      exact .inl ⟨r, hr, hf, Nat.zero_le _, fun _ => hp⟩
    · cases hs
    · cases hs
  | resolved hq hs =>
    rcases mem_requests hn hq with hq | ⟨t, run, task, buffered, rfl, hd, rfl⟩ |
        ⟨q, hq₀, r, rfl, hacc, hr, rfl⟩ | ⟨q, hq, att, -, rfl⟩
    · exact .inr (hkeep (.resolved hq hs))
    · cases hs
    · cases hs
      refine .inl (placementFence_token_of_quiet h rfl (by simp) ?_)
      exact ⟨r, (rowFor_mem hr).1, (rowFor_mem hr).2, le_rfl,
        fun _ => placementFence_resolve hw hcur hq₀ hacc hr⟩
    · cases hs
  | resolvedPod hall hq hs =>
    rcases mem_requests hn hq with hq | ⟨t, run, task, buffered, rfl, hd, rfl⟩ |
        ⟨q, hq₀, r, rfl, hacc, hr, rfl⟩ | ⟨q, hq, att, -, rfl⟩
    · exact .inr (hkeep (.resolvedPod hall hq hs))
    · cases hs
    · cases hs
      refine .inl (placementFence_token_of_quiet h rfl (by simp) ?_)
      exact ⟨r, (rowFor_mem hr).1, beq_self_eq_true _, le_rfl,
        fun _ => placementFence_resolve hw hcur hq₀ hacc hr⟩
    · cases hs
  | agent hg =>
    rcases mem_agents hn hg with hg | ⟨q, hq, -, att, -, hs, rfl⟩ | ⟨g, hg₀, -, rfl⟩ |
        ⟨g, hg₀, o, -, ho, rfl⟩
    · exact .inr (hkeep (.agent hg))
    · refine .inl (placementFence_token_weaken ?_ ((hkeep (.resolved hq hs)).2
        (hcur _ _ (.resolved hq hs))))
      exact fun h => (Bool.and_eq_true_iff.mp h).1
    · exact .inr (hkeep (.agent (g := g) hg₀))
    · -- The outcome is known now, so the agent may write less than before.
      refine .inl (placementFence_token_weaken ?_ ((hkeep (.agent hg₀)).2 (hcur _ _ (.agent hg₀))))
      intro h
      simpa [Agent.mayReschedule, ho] using (Bool.and_eq_true_iff.mp h).1
  | pod hall hp =>
    rcases mem_pods hn hp with hp | ⟨q, hq, hs⟩
    · exact .inr (hkeep (.pod hall hp))
    · exact .inr (hkeep (.resolvedPod hall hq hs))

/-- The row a party writes is in the party's placement. -/
theorem PlacementHolder.placement_eq (hold : PlacementHolder all w k p) (hr : r ∈ w.db.tis) (hcov : k.covers r)
    (htry : p.anyTry ∨ r.tryNumber = p.tryNumber) : w.track.placements r.id = p.placement := by
  obtain ⟨r₀, hr₀, hcov₀, -, hplace⟩ := hcur _ _ hold
  rw [Handle.eq_of_covers hw.keyed hr₀ hr hcov₀ hcov] at hplace
  exact hplace htry

/-- A state report or heartbeat that matches a row is of the row's placement. -/
theorem placement_of_agent {g : Agent} (hg : g ∈ w.ctl.agents) (hr : r ∈ w.db.tis)
    (hf : r.isFor g.attempt.run g.attempt.task) (htry : (all && g.mayReschedule) ∨ r.tryNumber = g.attempt.tryNumber) :
    w.track.placements r.id = g.attempt.placement :=
  (PlacementHolder.agent hg).placement_eq hw hcur hr hf htry

end

/-- A row that a statement's guard admits is of the placement the writer holds. -/
theorem placement_of_guard (hw : w.WellFormed) (hcur : (placementFence true).Current w) (h : w.step cfg a = some w')
    {att : Attempt} (ha : a.attempt? = some att) {s : Statement} (hs : (w.write a).statement w.db = some s)
    (hr : r ∈ w.db.tis) (hg : (s.update w.db.now).guard r) : w.track.placements r.id = att.placement := by
  have hctl := step_ctl h
  cases a with
  | reportRunning g | heartbeat g =>
    cases ha
    cases hs
    simp only [World.next, ite_none_right_eq_some] at hctl
    simp only [Statement.update, reportTaskResult, recordTaskHeartbeat, Bool.and_eq_true,
      beq_iff_eq] at hg
    exact placement_of_agent hw hcur (by first | exact hctl.1 | exact hctl.1.1) hr hg.1.1 (.inr hg.1.2)
  | reportOutcome g =>
    cases ha
    simp only [World.next, ite_none_right_eq_some] at hctl
    simp only [World.write] at hs
    split at hs
    · rename_i o ho
      cases o with
      | reschedule pokeAt =>
        cases hs
        simp only [AgentOutcome.statement, Statement.update, rescheduleTaskInstance,
          Bool.and_eq_true] at hg
        exact placement_of_agent hw hcur hctl.1.1 hr hg.1 (.inl (by simp [Agent.mayReschedule, ho]))
      | _ =>
        cases hs
        simp only [AgentOutcome.statement, Statement.update, reportTaskResult, Bool.and_eq_true,
          beq_iff_eq] at hg
        exact placement_of_agent hw hcur hctl.1.1 hr hg.1.1 (.inr hg.1.2)
    · cases hs
  | settle p v =>
    cases ha
    simp only [World.next, ite_none_right_eq_some] at hctl
    refine (PlacementHolder.pod rfl hctl.1).placement_eq hw hcur hr ?_ (.inr ?_)
    all_goals
      cases v <;> cases hs <;>
      · simp only [Settle.statement, Statement.update, succeedTaskInstanceIfActive,
          failTaskInstanceIfActive, rescheduleTaskInstanceByIDIfActive, Bool.and_eq_true,
          beq_iff_eq] at hg
        simp [Handle.covers, hg]
  | _ => cases ha

end Step

/-- No holder of a placement is stale in runs whose dispatches find the row alone. -/
theorem placementFence_current {cfg : Config} {all : Bool} {cond : World → Action → Prop}
    (hcond : ∀ w a, cond w a → DispatchesAlone all w a) {w : World}
    (h : (World.system cfg).Reaches cond w) : (placementFence all).Current w := by
  refine h.invariant (fun w hi => ?_) fun w a w' hr hw hc hs => ?_
  · obtain ⟨now, rfl⟩ := hi
    rintro k p (⟨hq, -⟩ | ⟨hq, -⟩ | ⟨-, hq, -⟩ | ⟨hg⟩ | ⟨-, hp⟩)
    all_goals contradiction
  · exact hw.step (placementFence_respects (wellFormed_reaches hr) hw (hcond w a hc) hs)

/-- **Placement fencing.** In every run in which each dispatch of a row finds nothing of an earlier
placement that can still write it, no message and no pod of an earlier placement changes the row. -/
theorem writes_own_placement {cfg : Config} {w w' : World} {a : Action}
    (h : (World.system cfg).Reaches (DispatchesAlone true) w) (hs : w.step cfg a = some w') :
    WritesOwnPlacement w a := by
  intro att hatt r hr hne
  have hrow : (w.write a).row w.db r = r := by
    by_contra hrow
    obtain ⟨s, hst, hg⟩ := Write.statement_of_row_ne hrow
    exact hne (placement_of_guard (wellFormed_reaches h) (placementFence_current (fun _ _ hc => hc) h)
      hs hatt hst hr hg)
  rw [hrow]
  exact ⟨rfl, rfl, rfl⟩

/-- Dispatches happen only where nobody is on the way. -/
def dispatchesIdle (w : World) : Action → Bool
  | .tick t => (Tick.dispatches w.ctl.tick t).isNone ||
    (w.ctl.requests.isEmpty && w.ctl.agents.isEmpty && w.ctl.pods.isEmpty)
  | _ => true

theorem dispatchesAlone_of_check (w : World) (a : Action) (h : dispatchesIdle w a) :
    DispatchesAlone true w a := by
  rintro t d rfl hd r _ _ k p hold
  simp only [dispatchesIdle, hd, isNone_some, Bool.false_or, Bool.and_eq_true,
    List.isEmpty_iff] at h
  obtain ⟨⟨h1, h2⟩, h3⟩ := h
  cases hold with
  | accepted hq => rw [h1] at hq; cases hq
  | resolved hq => rw [h1] at hq; cases hq
  | resolvedPod _ hq => rw [h1] at hq; cases hq
  | agent hg => rw [h2] at hg; cases hg
  | pod _ hp => rw [h3] at hp; cases hp

/-- The first placement of a sensor asks for a reschedule and its agent is gone. -/
def firstPoke : List Action :=
  firstRunning ++
    [.requestDone { firstRequest with stage := .created firstAttempt },
      .processEnds firstAgent (.reschedule 1),
      .reportOutcome { firstAgent with outcome := some (.reschedule 1) },
      .agentGone { firstAgent with outcome := some (.reschedule 1) }]

/-- The sensor is placed a second time. -/
def secondPlacement : List Action :=
  quietTick [.call []] ++ quietTick [.call []] ++ tickStarts ++
    [.tick (.dispatch .dispatched true), .tick (.call []), .tick .finish, .tick .stop]

/-- The second placement starts after the pod of the first was collected, and reports RUNNING. -/
theorem writes_own_placement_second :
    ∃ w, (World.system oneTask).runIf dispatchesIdle (.empty 1)
        (firstPoke ++ [.collect firstAttempt] ++ secondPlacement ++
          [.resolve ⟨"run", "task", 1, 2, true, .accepted⟩,
            .create ⟨"run", "task", 1, 2, true, .resolved ⟨"ti", "run", "task", 1, 2⟩⟩ false]) =
        some w ∧
      w.track.placements "ti" = 2 ∧
      WritesOwnPlacement w (.reportRunning ⟨⟨"ti", "run", "task", 1, 2⟩, false, none⟩) := by
  refine Lib.exists_eq_some (by decide +kernel) fun hrun => ?_
  exact ⟨by decide +kernel, writes_own_placement
    (Lib.System.Reaches.runIf (.init ⟨1, rfl⟩) dispatchesAlone_of_check hrun)
    (some_get (by decide +kernel)).symm⟩

/-- The reconciler settles the pod of the first placement after the row was queued again, and parks
the second one. -/
theorem settle_of_old_placement_applies :
    ¬ ∀ cfg w a w', (World.system cfg).Reachable w → w.step cfg a = some w' →
      WritesOwnPlacement w a := by
  intro h
  have hr : (World.system oneTask).Reachable
      (((World.system oneTask).run (.empty 1) (firstPoke ++ secondPlacement)).get
        (by decide +kernel)) :=
    .run (.init ⟨1, rfl⟩) (some_get _).symm
  exact absurd (h oneTask _ (.settle firstAttempt (.reschedule 1)) _ hr
    (some_get (by decide +kernel)).symm) (by decide +kernel)

end Leoflow
