import Leoflow.Properties.PlacementFencing

/-!
# What the agent-lost reaper marks

The reaper fails a running row whose `last_heartbeat_at` is old. The column survives every reset, and the mark
does not read it again.
-/

namespace Leoflow

open World Option

/-- The rows an agent-lost mark fails have had a heartbeat of their current placement, the last one at least the
threshold before. -/
def MarksSilent (cfg : Config) (w : World) (a : Action) : Prop :=
  match a with
  | .mark ⟨.agentLost _, _, _⟩ =>
    ∀ r ∈ w.db.tis, (w.write a).row w.db r ≠ r → ∃ b ∈ w.track.lastBeat r.id, b.1 = w.track.placements r.id ∧
        b.2 ≤ w.db.now - cfg.reapers.agentLostThreshold
  | _ => True

instance (cfg : Config) (w : World) (a : Action) : Decidable (MarksSilent cfg w a) := by
  unfold MarksSilent
  split <;> infer_instance

/-- Heartbeats belong to the placement that is dispatched: a row is dispatched with `last_heartbeat_at` empty and
with nothing of an earlier placement that could still record one, and none is recorded between a listing and its
mark. -/
structure BeatsFresh (w : World) (a : Action) : Prop where
  alone : DispatchesAlone false w a
  unset : ∀ t d, a = .tick t → Tick.dispatches w.ctl.tick t = some d →
    ∀ r ∈ w.db.tis, r.isFor d.1 d.2.1 → r.lastHeartbeatAt = none
  unlisted : ∀ g, a = .heartbeat g → ∀ i ∈ w.ctl.reaps, i.marked = none →
    ∀ c, i.candidate = .agentLost c → ∀ r ∈ w.db.tis, r.id = c.taskInstanceID →
      (recordTaskHeartbeat w.db.now g.attempt.run g.attempt.task g.attempt.tryNumber).guard r = false

/-! ## The column -/

theorem Statement.set_lastHeartbeatAt {s : Statement} (now : Time) (r : TaskInstance)
    (h : ∀ run task n, s ≠ .recordTaskHeartbeat run task n) :
    ((s.update now).set r).lastHeartbeatAt = r.lastHeartbeatAt := by
  cases s with
  | recordTaskHeartbeat run task n => exact absurd rfl (h run task n)
  | _ => rfl

namespace World

variable {cfg : Config} {w w' : World} {a : Action}

theorem heartbeat_of_statement {run task : String} {n : Nat}
    (h : (w.write a).statement w.db = some (.recordTaskHeartbeat run task n)) : ∃ g, a = .heartbeat g := by
  have hc := channel_of_statement h
  cases a with
  | heartbeat g => exact ⟨g, rfl⟩
  | _ => cases hc

theorem row_lastHeartbeatAt (ha : ∀ g, a ≠ .heartbeat g) (r : TaskInstance) :
    ((w.write a).row w.db r).lastHeartbeatAt = r.lastHeartbeatAt := by
  refine Write.row_congr TaskInstance.lastHeartbeatAt fun s hs r => ?_
  refine Statement.set_lastHeartbeatAt _ r fun run task n he => ?_
  obtain ⟨g, rfl⟩ := heartbeat_of_statement (he ▸ hs)
  exact ha g rfl

theorem lastBeat_of_not_heartbeat (ha : ∀ g, a ≠ .heartbeat g) : (w.tracked a).lastBeat = w.track.lastBeat := by
  cases a with
  | heartbeat g => exact absurd rfl (ha g)
  | _ => rfl

end World

/-! ## The invariant -/

/-- The column holds the last heartbeat recorded, which is one of the row's current placement; and a candidate of
the reaper shows the column as it is. -/
structure BeatsOk (T : Duration) (w : World) : Prop where
  recorded : ∀ r ∈ w.db.tis, r.lastHeartbeatAt = (w.track.lastBeat r.id).map Prod.snd
  absent : ∀ id, (∀ r ∈ w.db.tis, r.id ≠ id) → w.track.lastBeat id = none
  current : ∀ r ∈ w.db.tis, ∀ b ∈ w.track.lastBeat r.id, b.1 = w.track.placements r.id
  listed : ∀ i ∈ w.ctl.reaps, i.marked = none → ∀ c, i.candidate = .agentLost c → c.lastHeartbeat ≤ i.clock - T ∧
      ∃ r ∈ w.db.tis, r.id = c.taskInstanceID ∧ r.lastHeartbeatAt = some c.lastHeartbeat

section Step

variable {cfg : Config} {T : Duration} {w w' : World} {a : Action}

theorem BeatsOk.lastBeat_inserted (hb : BeatsOk T w) (h : w.step cfg a = some w') {r : TaskInstance}
    (hr : r ∈ (w.write a).inserted) : w.track.lastBeat r.id = none := by
  exact hb.absent r.id (inserted_id_ne h hr)

theorem lastHeartbeatAt_of_inserted {r : TaskInstance} (hr : r ∈ (w.write a).inserted) : r.lastHeartbeatAt = none := by
  obtain ⟨_, _, _, _, _, _, _, -, -, -, rfl⟩ := mem_inserted hr
  rfl

/-- The heartbeat an agent sends to the server. -/
abbrev Agent.beat (now : Time) (g : Agent) : Lib.Update TaskInstance :=
  recordTaskHeartbeat now g.attempt.run g.attempt.task g.attempt.tryNumber

theorem lastBeat_heartbeat (hk : w.db.Keyed) {g : Agent} {r : TaskInstance} (hr : r ∈ w.db.tis) :
    (w.tracked (.heartbeat g)).lastBeat r.id = if (g.beat w.db.now).guard r then some (g.attempt.placement, w.db.now)
      else w.track.lastBeat r.id := by
  have hany : (w.db.tis.any fun s => s.id == r.id && (g.beat w.db.now).guard s) = (g.beat w.db.now).guard r := by
    rw [Bool.eq_iff_iff, List.any_eq_true]
    constructor
    · rintro ⟨s, hs, hg⟩
      simp only [Bool.and_eq_true, beq_iff_eq] at hg
      exact hk.eq_of_id hs hr hg.1 ▸ hg.2
    · exact fun hg => ⟨r, hr, by simp [hg]⟩
  simp only [tracked, hany]

theorem row_heartbeat (g : Agent) (r : TaskInstance) : ((w.write (.heartbeat g)).row w.db r).lastHeartbeatAt =
      if (g.beat w.db.now).guard r then some w.db.now else r.lastHeartbeatAt := by
  have hrow : (w.write (.heartbeat g)).row w.db r = (g.beat w.db.now).row r := rfl
  rw [hrow]
  cases hg : (g.beat w.db.now).guard r with
  | true => simp only [Lib.Update.row_of_guard _ hg, if_true]; rfl
  | false => simp [Lib.Update.row_of_not_guard _ hg]

theorem recorded_step (hw : w.WellFormed) (hb : BeatsOk T w) (h : w.step cfg a = some w') :
    ∀ r ∈ w'.db.tis, r.lastHeartbeatAt = (w'.track.lastBeat r.id).map Prod.snd := by
  intro r' hr'
  rw [step_track h]
  rcases (mem_step_tis h).mp hr' with ⟨r, hr, rfl⟩ | hins
  · rw [Write.row_id]
    by_cases ha : ∃ g, a = .heartbeat g
    · obtain ⟨g, rfl⟩ := ha
      rw [row_heartbeat, lastBeat_heartbeat hw.keyed hr]
      split
      · rfl
      · exact hb.recorded r hr
    · have ha' : ∀ g, a ≠ .heartbeat g := fun g he => ha ⟨g, he⟩
      rw [World.row_lastHeartbeatAt ha', World.lastBeat_of_not_heartbeat ha']
      exact hb.recorded r hr
  · have ha' : ∀ g, a ≠ .heartbeat g := by
      rintro g rfl
      cases hins
    rw [World.lastBeat_of_not_heartbeat ha', hb.lastBeat_inserted h hins, lastHeartbeatAt_of_inserted hins]
    rfl

theorem absent_step (hb : BeatsOk T w) (h : w.step cfg a = some w') (id : String)
    (hid : ∀ r ∈ w'.db.tis, r.id ≠ id) : w'.track.lastBeat id = none := by
  have hid' : ∀ r ∈ w.db.tis, r.id ≠ id := fun r hr => by
    simpa using hid _ ((mem_step_tis h).mpr (.inl ⟨r, hr, rfl⟩))
  rw [step_track h]
  by_cases ha : ∃ g, a = .heartbeat g
  · obtain ⟨g, rfl⟩ := ha
    have hany : ¬ (w.db.tis.any fun s => s.id == id && (g.beat w.db.now).guard s) := by
      rw [List.any_eq_true]
      rintro ⟨s, hs, hg⟩
      simp only [Bool.and_eq_true, beq_iff_eq] at hg
      exact hid' s hs hg.1
    simp only [tracked, if_neg hany]
    exact hb.absent id hid'
  · rw [World.lastBeat_of_not_heartbeat fun g he => ha ⟨g, he⟩]
    exact hb.absent id hid'

/-- The last beat of a row stays that of its placement. -/
theorem current_step (hw : w.WellFormed) (hcur : (placementFence false).Current w)
    (hb : BeatsOk T w) (hc : BeatsFresh w a) (h : w.step cfg a = some w') :
    ∀ r ∈ w'.db.tis, ∀ b ∈ w'.track.lastBeat r.id, b.1 = w'.track.placements r.id := by
  intro r' hr' b hbeat
  rw [step_track h] at hbeat ⊢
  rcases (mem_step_tis h).mp hr' with ⟨r, hr, rfl⟩ | hins
  · rw [Write.row_id] at hbeat ⊢
    by_cases ha : ∃ g, a = .heartbeat g
    · obtain ⟨g, rfl⟩ := ha
      rw [placements_of_not_dispatches (by simp)]
      rw [lastBeat_heartbeat hw.keyed hr] at hbeat
      split at hbeat
      next hg =>
        cases hbeat
        have hctl := step_ctl h
        simp only [World.next, ite_none_right_eq_some] at hctl
        simp only [recordTaskHeartbeat, Bool.and_eq_true, beq_iff_eq] at hg
        exact (placement_of_agent hw hcur hctl.1.1 hr hg.1.1 (.inr hg.1.2)).symm
      · exact hb.current r hr b hbeat
    · rw [World.lastBeat_of_not_heartbeat fun g he => ha ⟨g, he⟩] at hbeat
      rw [placements_of_not_dispatches]
      · exact hb.current r hr b hbeat
      · -- A dispatch found the column empty, so no heartbeat is recorded.
        intro t d hat hd s hs hf hid
        have hs' := hb.recorded s hs
        rw [hc.unset t d hat hd s hs hf, hid, hbeat] at hs'
        cases hs'
  · have ha' : ∀ g, a ≠ .heartbeat g := by
      rintro g rfl
      cases hins
    rw [World.lastBeat_of_not_heartbeat ha', hb.lastBeat_inserted h hins] at hbeat
    cases hbeat

theorem listed_of_taken {cfg : ReaperConfig} {db : Database} {clock : Time} {c : AgentLostCandidate}
    (h : (Candidate.agentLost c).taken cfg db clock) : c.lastHeartbeat ≤ clock - cfg.agentLostThreshold ∧
      ∃ r ∈ db.tis, r.id = c.taskInstanceID ∧ r.lastHeartbeatAt = some c.lastHeartbeat := by
  simp only [Candidate.taken, isAgentLost, Bool.and_eq_true, List.contains_iff_mem,
    decide_eq_true_eq, listAgentLostCandidates, List.mem_map] at h
  obtain ⟨⟨⟨r, hr, rfl⟩, -, hlate⟩, -⟩ := h
  obtain ⟨hmem, hkeep⟩ := mem_of_mem_listTasks hr
  simp only [Bool.and_eq_true] at hkeep
  obtain ⟨t, ht⟩ := isSome_iff_exists.mp hkeep.2
  exact ⟨Int.le_sub_left_of_add_le (Int.add_le_of_le_sub_right hlate), r, hmem, rfl, by simp [ht]⟩

theorem listed_step (hb : BeatsOk cfg.reapers.agentLostThreshold w) (hc : BeatsFresh w a)
    (h : w.step cfg a = some w') : ∀ i ∈ w'.ctl.reaps, i.marked = none →
      ∀ c, i.candidate = .agentLost c → c.lastHeartbeat ≤ i.clock - cfg.reapers.agentLostThreshold ∧
        ∃ r ∈ w'.db.tis, r.id = c.taskInstanceID ∧ r.lastHeartbeatAt = some c.lastHeartbeat := by
  intro i hi hm c hcand
  rcases mem_reaps (step_ctl h) hi with hi | ⟨c', clock, rfl, htaken, rfl⟩ | ⟨i0, -, -, -, rfl⟩
  · obtain ⟨hlate, r, hr, hid, hlast⟩ := hb.listed i hi hm c hcand
    refine ⟨hlate, _, (mem_step_tis h).mpr (.inl ⟨r, hr, rfl⟩), by simpa using hid, ?_⟩
    by_cases ha : ∃ g, a = .heartbeat g
    · obtain ⟨g, rfl⟩ := ha
      rw [row_heartbeat, hc.unlisted g rfl i hi hm c hcand r hr hid]
      exact hlast
    · rw [World.row_lastHeartbeatAt fun g he => ha ⟨g, he⟩]
      exact hlast
  · subst hcand
    rw [tis_of_nothing h rfl]
    exact listed_of_taken htaken
  · cases hm

end Step

theorem beatsOk_reaches {cfg : Config} {w : World} (h : (World.system cfg).Reaches BeatsFresh w) :
    BeatsOk cfg.reapers.agentLostThreshold w := by
  refine h.invariant (fun w hi => ?_) fun w a w' hr hb hc hs => ?_
  · obtain ⟨now, rfl⟩ := hi
    exact ⟨(fun _ hr => by cases hr), fun _ _ => rfl, (fun _ hr => by cases hr), fun _ hi => by cases hi⟩
  · have hw := wellFormed_reaches hr
    have hcur := placementFence_current (fun _ _ hc => BeatsFresh.alone hc) hr
    exact ⟨recorded_step hw hb hs, absent_step hb hs, current_step hw hcur hb hc hs, listed_step hb hc hs⟩

/-- **Agent-lost soundness.** In every run whose heartbeats belong to the placement that is
dispatched, the agent-lost reaper fails a row only where the row's own placement has beaten, the last
time at least the threshold ago. -/
theorem agent_lost_is_silent {cfg : Config} {w w' : World} {a : Action}
    (h : (World.system cfg).Reaches BeatsFresh w) (hs : w.step cfg a = some w') :
    MarksSilent cfg w a := by
  have hb := beatsOk_reaches h
  have hctl := step_ctl hs
  unfold MarksSilent
  split
  next c clock marked =>
    simp only [World.next, ite_none_right_eq_some] at hctl
    obtain ⟨⟨hi, hm, hclock⟩, -⟩ := hctl
    intro r hr hrow
    obtain ⟨s, hst, hg⟩ := Write.statement_of_row_ne hrow
    cases hst
    simp only [Statement.update, markTaskAgentLost, Bool.and_eq_true, beq_iff_eq] at hg
    obtain ⟨hlate, r0, hr0, hid, hlast⟩ := hb.listed _ hi hm c rfl
    rw [(wellFormed_reaches h).keyed.eq_of_id hr0 hr (hid.trans hg.1.symm), hb.recorded r hr, map_eq_some_iff] at hlast
    obtain ⟨b, hbeat, hb2⟩ := hlast
    refine ⟨b, hbeat, hb.current r hr b hbeat, ?_⟩
    rw [hb2]
    exact hlate.trans (Int.sub_le_sub_right hclock _)
  · trivial

/-- Rows are dispatched before any heartbeat and with nobody on the way, and heartbeats come with no
sweep under way. -/
def beatsInOrder (w : World) : Action → Bool
  | .tick t => (Tick.dispatches w.ctl.tick t).isNone || (w.ctl.requests.isEmpty &&
      w.ctl.agents.isEmpty && w.db.tis.all fun r => r.lastHeartbeatAt.isNone)
  | .heartbeat _ => w.ctl.reaps.isEmpty
  | _ => true

theorem beatsFresh_of_check (w : World) (a : Action) (h : beatsInOrder w a) : BeatsFresh w a := by
  refine ⟨?_, ?_, ?_⟩
  · rintro t d rfl hd r _ _ k p hold
    simp only [beatsInOrder, hd, isNone_some, Bool.false_or, Bool.and_eq_true, List.isEmpty_iff] at h
    cases hold with
    | accepted hq => rw [h.1.1] at hq; cases hq
    | resolved hq => rw [h.1.1] at hq; cases hq
    | resolvedPod hall => cases hall
    | agent hg => rw [h.1.2] at hg; cases hg
    | pod hall => cases hall
  · rintro t d rfl hd r hr -
    simp only [beatsInOrder, hd, isNone_some, Bool.false_or, Bool.and_eq_true, List.all_eq_true] at h
    simpa using h.2 r hr
  · rintro g rfl i hi
    simp only [beatsInOrder, List.isEmpty_iff] at h
    rw [h] at hi
    cases hi

/-- What a sweep shows of the first attempt after its only heartbeat. -/
def silentCandidate : AgentLostCandidate := ⟨"ti", "run", "task", 1, 1⟩

/-- An agent that beats once and is silent for the threshold is marked. -/
theorem agent_lost_is_silent_once : ∃ w, (World.system oneTask).runIf beatsInOrder (.empty 1)
        (firstRunning ++ [.heartbeat firstAgent, .clock 90000000000,
          .take (.agentLost silentCandidate) 90000000001]) = some w ∧
      (Candidate.agentLost silentCandidate).applied w.db ∧
      MarksSilent oneTask w (.mark ⟨.agentLost silentCandidate, 90000000001, none⟩) := by
  refine Lib.exists_eq_some (by decide +kernel) fun hrun => ?_
  exact ⟨by decide +kernel, agent_lost_is_silent (Lib.System.Reaches.runIf (.init ⟨1, rfl⟩) beatsFresh_of_check hrun)
    (some_get (by decide +kernel)).symm⟩

/-- The first try beats and fails; the second one has just reported RUNNING when the sweep lists it. -/
def retriedAfterBeat : List Action :=
  firstRunning ++ [.heartbeat firstAgent] ++ failsThenRetries ++
    [.clock 90000000000, .reportRunning ⟨⟨"ti", "run", "task", 2, 2⟩, false, none⟩,
      .take (.agentLost ⟨"ti", "run", "task", 2, 1⟩) 90000000001]

/-- The heartbeat of the first try makes the second one lost, which has not beaten yet. -/
theorem old_heartbeat_marks_new_try : ¬ ∀ cfg w a w', (World.system cfg).Reachable w → w.step cfg a = some w' →
      MarksSilent cfg w a := by
  intro h
  have hr : (World.system oneRetry).Reachable
      (((World.system oneRetry).run (.empty 1) retriedAfterBeat).get (by decide +kernel)) :=
    .run (.init ⟨1, rfl⟩) (some_get _).symm
  exact absurd (h oneRetry _ (.mark ⟨.agentLost ⟨"ti", "run", "task", 2, 1⟩, 90000000001, none⟩) _ hr
    (some_get (by decide +kernel)).symm) (by decide +kernel)

end Leoflow
