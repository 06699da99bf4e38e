import Leoflow.AgentRPC.Liveness
import Leoflow.System.Provenance

/-!
# A current attempt is served

`launchQueued` dispatches first and writes `queued` afterwards, so an agent may ask for its secrets while its row is
still `scheduled`; the gate and the heartbeat take that for the row of a dead attempt.
-/

namespace Leoflow

open World

/-- The action settles, resets or reclaims the row: a new try, a state that is not active, or back to `scheduled`
by `RequeueForRedispatch`. -/
def World.voids (w : World) (a : Action) (r : TaskInstance) : Bool :=
  let r' := (w.write a).row w.db r
  r'.tryNumber != r.tryNumber || (r'.state != r.state && (!r'.state.isActive || a.channel == some .requeue))

/-- The last placement of each row that was settled, reset or reclaimed. -/
def noteVoided (w : World) (a : Action) (_ : World) (voided : String → Nat) (id : String) : Nat :=
  if w.db.tis.any fun r => r.id == id && w.voids a r then w.track.placements id else voided id

/-- The system with that record. -/
abbrev voidSystem (cfg : Config) : Lib.System (World × (String → Nat)) Action :=
  (World.system cfg).withGhost (fun _ => 0) noteVoided

/-- The row is of the agent's attempt and was not settled, reset or reclaimed since its dispatch. -/
structure Agent.Current (g : Agent) (voided : String → Nat) (r : TaskInstance) : Prop where
  row : r.isFor g.attempt.run g.attempt.task
  tryNumber : r.tryNumber = g.attempt.tryNumber
  unvoided : voided r.id < g.attempt.placement

instance (g : Agent) (voided : String → Nat) (r : TaskInstance) : Decidable (g.Current voided r) :=
  decidable_of_iff (r.isFor g.attempt.run g.attempt.task ∧
    r.tryNumber = g.attempt.tryNumber ∧ voided r.id < g.attempt.placement)
    ⟨fun h => ⟨h.1, h.2.1, h.2.2⟩, fun h => ⟨h.1, h.2, h.3⟩⟩

/-- No call of an agent whose attempt is current is answered as one of a dead attempt. -/
def ServesCurrent (w : World) (voided : String → Nat) : Prop :=
  ∀ g ∈ w.ctl.agents, ∀ r ∈ w.db.tis, g.Current voided r →
    ∀ call fault, g.makes call → g.isTreatedAsDead w.db fault call = false

/-- An agent starts only on a row that is queued or running, and no call of the tick puts such a row
back to `scheduled`. -/
structure StartsLive (w : World) (a : Action) : Prop where
  created : ∀ q warm att, a = .create q warm → q.stage = .resolved att → ∀ r ∈ w.db.tis,
    r.isFor att.run att.task → r.tryNumber = att.tryNumber → r.state.isLive
  kept : ∀ t, a = .tick t → ∀ r ∈ w.db.tis, r.state.isLive → ((w.write a).row w.db r).state ≠ .scheduled

/-! ## Leaving the live states -/

section Live

variable {cfg : Config} {w w' : World} {a : Action}

theorem World.scheduled_of_row {r : TaskInstance} (h : ((w.write a).row w.db r).state = .scheduled)
    (hne : r.state ≠ .scheduled) : (∃ t, a = .tick t) ∨ a.channel = some .requeue := by
  rcases Write.row_eq_or_statement w.db (w.write a) r with ⟨-, hrow⟩ | ⟨s, hs, hg, hrow⟩
  · exact absurd (hrow ▸ h) hne
  have hchan := channel_of_statement hs
  by_cases htick : s.channel = .tick
  · obtain ⟨ids, _, _, _, _, _, rfl, -⟩ := call_of_statement hs htick
    exact .inl ⟨_, rfl⟩
  right
  rw [hchan]
  rw [hrow, (s.update w.db.now).row_of_guard hg] at h
  cases s with
  | requeueForRedispatch => rfl
  | reportTaskResult => rcases target_of_report hs with rfl | rfl | rfl | rfl <;> cases h
  | recordTaskHeartbeat | bindWarmAttempt => exact absurd h hne
  | updateTaskInstanceStateByRunTask | updateTaskInstanceStatesByRunTasks
  | resetTaskInstanceForRetry | resetTaskInstanceInfraReplace | redispatchRescheduledTaskInstance
  | recordDispatchFailure | recordDispatchBackpressure | failDispatchExhausted
  | setTaskInstanceNote => exact absurd rfl htick
  | _ => cases h

theorem isLive_step (hc : StartsLive w a) {r : TaskInstance} (hr : r ∈ w.db.tis)
    (hlive : r.state.isLive) (hv : w.voids a r = false) : ((w.write a).row w.db r).state.isLive := by
  simp only [voids, Bool.or_eq_false_iff, bne_eq_false_iff_eq, Bool.and_eq_false_iff,
    Bool.not_eq_false', beq_eq_false_iff_ne] at hv
  rcases hv.2 with hsame | ⟨hactive, hnot⟩
  · rwa [hsame]
  have hsched : ((w.write a).row w.db r).state ≠ .scheduled := by
    intro h
    have hne : r.state ≠ .scheduled := fun he => by simp [he, TaskState.isLive] at hlive
    rcases scheduled_of_row h hne with ⟨t, rfl⟩ | hreq
    · exact hc.kept t rfl r hr hlive h
    · exact hnot hreq
  generalize ((w.write a).row w.db r).state = s at hactive hsched
  cases s <;> simp_all [TaskState.isLive, TaskState.isActive]

theorem noteVoided_of_mem (hk : w.db.Keyed) {r : TaskInstance} (hr : r ∈ w.db.tis)
    (voided : String → Nat) : noteVoided w a w' voided r.id =
      if w.voids a r then w.track.placements r.id else voided r.id := by
  rw [noteVoided, hk.any_id hr (w.voids a)]

theorem current_of_step (hk : w.db.Keyed) {g : Agent} {voided : String → Nat} {r : TaskInstance}
    (hr : r ∈ w.db.tis) (hp : DispatchedAs w g.attempt.run g.attempt.task g.attempt.placement)
    (h : g.Current (noteVoided w a w' voided) ((w.write a).row w.db r)) : g.Current voided r ∧ w.voids a r = false := by
  have hf : r.isFor g.attempt.run g.attempt.task := by
    simpa [TaskInstance.isFor] using h.row
  obtain ⟨r0, hr0, hf0, hle⟩ := hp
  rw [hk.eq_of_isFor hr0 hr hf0 hf] at hle
  have hun := h.unvoided
  rw [Write.row_id, noteVoided_of_mem hk hr] at hun
  have hv : w.voids a r = false := by
    by_contra hv
    rw [if_pos (by simpa using hv)] at hun
    omega
  rw [hv] at hun
  refine ⟨⟨hf, ?_, hun⟩, hv⟩
  simp only [voids, Bool.or_eq_false_iff, bne_eq_false_iff_eq] at hv
  rw [← hv.1]
  exact h.tryNumber

/-- The row of every current attempt is queued or running. -/
def CurrentLive (w : World) (voided : String → Nat) : Prop :=
  ∀ g ∈ w.ctl.agents, ∀ r ∈ w.db.tis, g.Current voided r → r.state.isLive

/-- The row of a current attempt with an agent stays live, if attempts start live. -/
theorem currentLive_step (hw : w.WellFormed) {voided : String → Nat} (hv : CurrentLive w voided)
    (hst : ∀ {run task p}, Started w run task p → DispatchedAs w run task p) (hc : StartsLive w a)
    (h : w.step cfg a = some w') : CurrentLive w' (noteVoided w a w' voided) := by
  intro g' hg' r' hr' hcur
  -- The attempt was started before the step, and where it had no agent the step creates it.
  have hbefore : Started w g'.attempt.run g'.attempt.task g'.attempt.placement ∧
      ((∃ g ∈ w.ctl.agents, g.attempt = g'.attempt) ∨
        ∃ q warm, a = .create q warm ∧ q.stage = .resolved g'.attempt) := by
    rcases mem_agents (step_ctl h) hg' with hg | ⟨q, hq, warm, att, ha, hres, rfl⟩ |
        ⟨g, hg, -, rfl⟩ | ⟨g, hg, o, -, -, rfl⟩
    · exact ⟨.agent hg, .inl ⟨g', hg, rfl⟩⟩
    · exact ⟨.resolved hq hres, .inr ⟨q, warm, ha, hres⟩⟩
    · exact ⟨.agent (g := g) hg, .inl ⟨g, hg, rfl⟩⟩
    · exact ⟨.agent (g := g) hg, .inl ⟨g, hg, rfl⟩⟩
  obtain ⟨hstarted, hagent⟩ := hbefore
  have hrow := hst hstarted
  rcases (mem_step_tis h).mp hr' with ⟨r, hr, rfl⟩ | hins
  · obtain ⟨hcur0, hnv⟩ := current_of_step hw.keyed hr hrow hcur
    rcases hagent with ⟨g, hg, he⟩ | ⟨q, warm, rfl, hres⟩
    · refine isLive_step hc hr (hv g hg r hr ?_) hnv
      exact ⟨he ▸ hcur0.row, he ▸ hcur0.tryNumber, he ▸ hcur0.unvoided⟩
    · exact isLive_step hc hr (hc.created q warm _ rfl hres r hr hcur0.row hcur0.tryNumber) hnv
  · obtain ⟨r, hr, hf, -⟩ := hrow
    have hcov := hcur.row
    simp only [TaskInstance.isFor, Bool.and_eq_true, beq_iff_eq] at hf hcov
    refine absurd ?_ (inserted_key_ne hw hins hr)
    simp [TaskInstance.key, hf, hcov]

end Live

/-- **A current attempt is served.** In every run in which agents start on queued or running rows and
the tick puts no such row back to `scheduled`, no call of an agent whose attempt is current is answered
as one of a dead attempt. -/
theorem current_attempt_is_served {cfg : Config} {p : World × (String → Nat)}
    (h : (voidSystem cfg).Reaches (fun p a => StartsLive p.1 a) p) : ServesCurrent p.1 p.2 := by
  have hlive : CurrentLive p.1 p.2 := by
    refine Lib.System.Reaches.ghost_invariant (fun w hi => ?_) (fun w a w' v hr hv hc hs => ?_) h
    · obtain ⟨now, rfl⟩ := hi
      exact fun g hg => by cases hg
    · exact currentLive_step (wellFormed_reaches hr) hv (started_reaches hr) hc hs
  intro g hg r hr hcur call fault _
  exact g.not_isTreatedAsDead hr hcur.row hcur.tryNumber (hlive g hg r hr hcur) fault call

/-- The condition, tested on the rows there are. -/
def startsLive (w : World) : Action → Bool
  | .create q _ =>
    match q.stage with
    | .resolved att => w.db.tis.all fun r =>
      !(r.isFor att.run att.task && r.tryNumber == att.tryNumber) || r.state.isLive
    | _ => true
  | .tick t => w.db.tis.all fun r =>
    !r.state.isLive || ((w.write (.tick t)).row w.db r).state != .scheduled
  | _ => true

theorem startsLive_of_check (w : World) (a : Action) (h : startsLive w a) : StartsLive w a := by
  constructor
  · rintro q warm att rfl hres r hr hf htry
    simp only [startsLive, hres, List.all_eq_true, Bool.or_eq_true, Bool.not_eq_true'] at h
    exact (h r hr).resolve_left (by simp [hf, htry])
  · rintro t rfl r hr hlive
    simp only [startsLive, List.all_eq_true, Bool.or_eq_true, Bool.not_eq_true', bne_iff_ne] at h
    exact (h r hr).resolve_left (by simp [hlive])

/-- The agent of a first attempt that was queued before its pod started. -/
theorem current_attempt_is_served_first :
    ∃ p, (voidSystem oneTask).runIf (fun p a => startsLive p.1 a) (.empty 1, fun _ => 0) firstRunning = some p ∧
      (∃ g ∈ p.1.ctl.agents, ∃ r ∈ p.1.db.tis, g.Current p.2 r ∧ g.makes .heartbeat) ∧
      ServesCurrent p.1 p.2 := by
  refine Lib.exists_eq_some (by decide +kernel) fun hrun => ?_
  exact ⟨by decide +kernel, current_attempt_is_served (Lib.System.Reaches.runIf
    (.init ⟨⟨1, rfl⟩, rfl⟩) (fun p a hc => startsLive_of_check p.1 a hc) hrun)⟩

/-! ## An agent that is faster than the `queued` write -/

/-- The pod of the dispatch starts before the tick has written `queued`. -/
def startsBeforeQueued : List Action :=
  dispatched ++ [.resolve firstRequest, .create { firstRequest with stage := .resolved firstAttempt } false]

/-- The gate denies the first call of an agent whose row is still `scheduled`. -/
theorem early_agent_is_denied : ¬ ∀ cfg p, (voidSystem cfg).Reachable p → ServesCurrent p.1 p.2 := by
  intro h
  have hr : (voidSystem oneTask).Reachable (((voidSystem oneTask).run (.empty 1, fun _ => 0)
      startsBeforeQueued).get (by decide +kernel)) :=
    .run (.init ⟨⟨1, rfl⟩, rfl⟩) (Option.some_get _).symm
  generalize hp : ((voidSystem oneTask).run (.empty 1, fun _ => 0) startsBeforeQueued).get (by decide +kernel) = p at hr
  have hdenied : ∃ g ∈ p.1.ctl.agents, ∃ r ∈ p.1.db.tis, g.Current p.2 r ∧
      g.makes .getVariables ∧ g.isTreatedAsDead p.1.db none .getVariables := by
    rw [← hp]
    decide +kernel
  obtain ⟨g, hg, r, hmem, hcur, hmakes, hdead⟩ := hdenied
  have hserved := h oneTask p hr g hg r hmem hcur .getVariables none hmakes
  rw [hdead] at hserved
  cases hserved

end Leoflow
