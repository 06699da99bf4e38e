import Leoflow.System.Alerts

/-!
# Pages that are not delivered

A tick lists the queued and the running runs, so a run that has failed is not visited again and
`maybeAlertFailure` is called once for it, by the tick that fails it. A page is therefore delivered
where that one attempt is, and where the tick is what fails the run.
-/

namespace Leoflow

open Lib.Update World List Option

variable {w : World} {run : String}

namespace AlertWorld

/-- An undelivered page that may be attempted now, with nothing under way. -/
structure Due (cfg : AlertConfig) (p : AlertWorld) (d : DagRun) : Prop where
  failed : d.state = .failed
  rules : cfg.onFailure d.dagVersionId ≠ 0
  undelivered : d.alertedAt = none
  budget : (d.alertAttempts : Int) < alertMaxAttempts
  backoff : ∀ t, d.nextAlertAttemptAt = some t → t ≤ p.world.db.now
  idle : ∀ s ∈ p.sends, s.run ≠ d.id

/-- The steps of a tick whose store calls succeed. -/
def isTickStep : AlertAction → Bool
  | .world (.tick .load) | .world (.tick .loaded) | .world (.tick .start) | .world (.tick (.call _))
  | .world (.tick (.dispatch ..)) | .world (.tick .finish) | .claim .. => true
  | _ => false

/-- The tick has no run left. -/
def isOver : Tick → Bool
  | .between _ [] => true
  | _ => false

/-- A whole tick that leads from one state to another. -/
structure WholeTick (cfg : AlertConfig) (p : AlertWorld) (as : List AlertAction) (p' : AlertWorld) : Prop where
  steps : ∀ a ∈ as, isTickStep a
  ran : (system cfg).run p (.world (.tick .begin) :: as) = some p'
  ends : p'.world.ctl.tick.any isOver

/-- The next tick claims an attempt for every page that is due, and sends it if there is room. -/
def ReOffered (cfg : AlertConfig) (p : AlertWorld) : Prop :=
  ∀ d ∈ p.world.db.runs, p.Due cfg d → ∀ as p', WholeTick cfg p as p' →
    ∃ room, .claim d.id room ∈ as ∧ (room = true → ∃ s ∈ p'.sends, s.run = d.id)

/-- The send would stamp its run. -/
def isCurrent (p : AlertWorld) (s : Send) : Bool :=
  p.world.db.runs.any (markRunAlertDelivered p.world.db.now s.run s.attempt).guard

/-- The version a run is bound to has no rules. -/
def hasNoRules (cfg : AlertConfig) (p : AlertWorld) (run : String) : Bool :=
  p.world.db.runs.all fun d => d.id != run || cfg.onFailure d.dagVersionId == 0

/-- Every attempt finds room and delivers, nothing stops between a verdict and its claim, and a run with rules is
failed by a tick that knows them. -/
def delivers (cfg : AlertConfig) (p : AlertWorld) : AlertAction → Bool
  | .claim run room => room || p.world.claimedAttempt run == 0
  | .claimFails .. => false
  | .returns s delivered => delivered || !p.isCurrent s
  | .stampFails s | .lost s => !p.isCurrent s
  | .world (.tick .stop) => p.pending.isNone
  | .world (.tick (.call _)) =>
    match p.world.ctl.tick with
    | some (.advancing _ run (.setRunState .failed :: _) _) =>
      cfg.onFailure run.dagVersionID != 0 || p.hasNoRules cfg run.runID
    | _ => true
  | .world (.mark i) =>
    match i.candidate.mark with
    | .reapRun id => p.hasNoRules cfg id
    | _ => true
  | .world (.updateDagRunState ⟨run, .failed, _, _⟩) => p.hasNoRules cfg run
  | _ => true

/-- The check as a condition. -/
abbrev Delivers (cfg : AlertConfig) (p : AlertWorld) (a : AlertAction) : Prop :=
  p.delivers cfg a

end AlertWorld

/-- The invariant: an attempt that is not delivered is in flight, and a run with rules that failed
has been claimed for or is about to be. -/
structure Offered (onFailure : String → Nat) (runs : List DagRun) (sends : List Send)
    (pending : Option String) : Prop where
  keyed : (runs.map DagRun.id).Nodup
  backoff : ∀ d ∈ runs, d.nextAlertAttemptAt.isSome → d.alertAttempts ≠ 0
  inFlight : ∀ d ∈ runs, d.alertedAt = none → d.alertAttempts ≠ 0 →
    ∃ s ∈ sends, s.run = d.id ∧ s.attempt = d.alertAttempts
  claimed : ∀ d ∈ runs, d.state = .failed → onFailure d.dagVersionId ≠ 0 →
    d.alertedAt.isSome ∨ d.alertAttempts ≠ 0 ∨ pending = some d.id

namespace Offered

variable {onFailure : String → Nat} {runs : List DagRun} {sends : List Send} {pending : Option String}
  {s : Send}

theorem world {cfg : Config} {w' : World} {a : Action} {pending' : Option String}
    (hp : Offered onFailure w.db.runs sends pending) (h : w.step cfg a = some w')
    (hpending : ∀ run, pending = some run → pending' = some run)
    (hfails : ∀ d ∈ w.db.runs, ((w.write a).runRow w.db d).state = .failed →
      onFailure d.dagVersionId ≠ 0 → d.state = .failed ∨ pending' = some d.id) :
    Offered onFailure w'.db.runs sends pending' := by
  refine ⟨runs_step hp.keyed h, ?_, ?_, ?_⟩
  · intro d' hd' hnext
    rcases alert_step h hd' with hun | ⟨d, hd, -, hsame, -⟩
    · rw [hun.nextAlertAttemptAt] at hnext
      cases hnext
    · rw [hsame.nextAlertAttemptAt] at hnext
      rw [hsame.alertAttempts]
      exact hp.backoff d hd hnext
  · intro d' hd' hundelivered hattempts
    rcases alert_step h hd' with hun | ⟨d, hd, -, hsame, -⟩
    · exact absurd hun.alertAttempts hattempts
    · rw [hsame.alertedAt] at hundelivered
      rw [hsame.alertAttempts] at hattempts
      rw [hsame.id, hsame.alertAttempts]
      exact hp.inFlight d hd hundelivered hattempts
  · intro d' hd' hfailed hrules
    rcases alert_step h hd' with hun | ⟨d, hd, hrow, hsame, -⟩
    · rw [hun.state] at hfailed
      cases hfailed
    · rw [hsame.dagVersionId] at hrules
      rw [hsame.id, hsame.alertedAt, hsame.alertAttempts]
      rcases hfails d hd (hrow ▸ hfailed) hrules with hstate | hclaims
      · exact (hp.claimed d hd hstate hrules).imp_right (Or.imp_right (hpending d.id))
      · exact .inr (.inr hclaims)

theorem claimedAttempt_eq {d : DagRun} (hkeyed : (w.db.runs.map DagRun.id).Nodup) (hd : d ∈ w.db.runs)
    (hg : (w.claimUpdate run).guard d) : w.claimedAttempt run = d.alertAttempts + 1 := by
  have hid : ∀ {d : DagRun}, (w.claimUpdate run).guard d → d.id = run := by
    intro d hg
    simp only [claimUpdate, claimAlertAttempt, Bool.and_eq_true, beq_iff_eq] at hg
    exact hg.1.1.1
  cases hfind : w.db.runs.find? (w.claimUpdate run).guard with
  | none => exact absurd hg (List.find?_eq_none.mp hfind d hd)
  | some d0 =>
    have hd0 : d0 = d := inj_on_of_nodup_map hkeyed (mem_of_find?_eq_some hfind) hd
      ((hid (List.find?_some hfind)).trans (hid hg).symm)
    rw [claimedAttempt, hfind, hd0]
    rfl

theorem of_refused (hp : Offered onFailure runs sends pending) {now : Time} {d : DagRun} (hd : d ∈ runs)
    (hid : d.id = run) (hg : (claimAlertAttempt now run alertMaxAttempts alertRetryBackoff).guard d = false) :
    d.alertedAt.isSome ∨ d.alertAttempts ≠ 0 := by
  by_contra hnone
  push Not at hnone
  obtain ⟨halerted, hattempts⟩ := hnone
  have hnext : d.nextAlertAttemptAt = none := by
    cases hn : d.nextAlertAttemptAt with
    | none => rfl
    | some t => exact absurd hattempts (hp.backoff d hd (by rw [hn]; rfl))
  have hundelivered : d.alertedAt = none := not_isSome_iff_eq_none.mp halerted
  simp [claimAlertAttempt, hid, hundelivered, hattempts, hnext, alertMaxAttempts] at hg

theorem claim {room : Bool} {episode : Nat} (hp : Offered onFailure w.db.runs sends (some run))
    (hroom : room ∨ w.claimedAttempt run = 0) :
    Offered onFailure ((w.claimUpdate run).exec w.db.runs) (if w.claimedAttempt run = 0 then sends
        else if room then ⟨run, w.claimedAttempt run, episode, false⟩ :: sends else sends) none := by
  have hmore : ∀ s ∈ sends, s ∈ (if w.claimedAttempt run = 0 then sends
      else if room then ⟨run, w.claimedAttempt run, episode, false⟩ :: sends else sends) := by
    intro s hs
    (repeat' split) <;> first | exact hs | exact mem_cons_of_mem _ hs
  refine ⟨?_, ?_, ?_, ?_⟩
  · rw [map_exec _ DagRun.id (Lib.Update.row_congr _ _ fun _ _ => rfl)]
    exact hp.keyed
  · exact forall_exec _ (fun d _ _ _ => Nat.succ_ne_zero _) fun d hd _ => hp.backoff d hd
  · refine forall_exec _ (fun d hd hg _ _ => ?_) fun d hd _ hundelivered hattempts => ?_
    · have hwon := claimedAttempt_eq hp.keyed hd hg
      have hne : w.claimedAttempt run ≠ 0 := by omega
      rw [if_neg hne, if_pos (hroom.resolve_right hne)]
      simp only [claimUpdate, claimAlertAttempt, Bool.and_eq_true, beq_iff_eq] at hg
      exact ⟨_, mem_cons_self, hg.1.1.1.symm, by rw [hwon]; rfl⟩
    · obtain ⟨s, hs, hfor⟩ := hp.inFlight d hd hundelivered hattempts
      exact ⟨s, hmore s hs, hfor⟩
  · refine forall_exec _ (fun d _ _ _ _ => .inr (.inl (Nat.succ_ne_zero _))) fun d hd hg hfailed hrules => ?_
    rcases hp.claimed d hd hfailed hrules with halerted | hattempts | hpending
    · exact .inl halerted
    · exact .inr (.inl hattempts)
    · exact (hp.of_refused hd (Option.some.inj hpending).symm hg).imp_right .inl

section

variable (hp : Offered onFailure runs sends pending)
include hp

/-- A send gives way to one of the same run and attempt. -/
theorem returns : Offered onFailure runs ({ s with returned := true } :: sends.erase s) pending := by
  refine ⟨hp.keyed, hp.backoff, ?_, hp.claimed⟩
  intro d hd hundelivered hattempts
  obtain ⟨s', hs', hfor⟩ := hp.inFlight d hd hundelivered hattempts
  by_cases he : s' = s
  · exact ⟨_, mem_cons_self, he ▸ hfor⟩
  · exact ⟨s', mem_cons_of_mem _ ((mem_erase_of_ne he).mpr hs'), hfor⟩

/-- A send that stamps nothing leaves no page undelivered. -/
theorem drop {now : Time} (hs : ∀ d ∈ runs, (markRunAlertDelivered now s.run s.attempt).guard d = false) :
    Offered onFailure runs (sends.erase s) pending := by
  refine ⟨hp.keyed, hp.backoff, ?_, hp.claimed⟩
  intro d hd hundelivered hattempts
  obtain ⟨s', hs', hrun, hattempt⟩ := hp.inFlight d hd hundelivered hattempts
  refine ⟨s', (mem_erase_of_ne ?_).mpr hs', hrun, hattempt⟩
  rintro rfl
  simpa [markRunAlertDelivered, hrun, hattempt] using hs d hd

theorem stamp (now : Time) : Offered onFailure ((markRunAlertDelivered now s.run s.attempt).exec runs) (sends.erase s)
      pending := by
  refine ⟨?_, ?_, ?_, ?_⟩
  · rw [map_exec _ DagRun.id (Lib.Update.row_congr _ _ fun _ _ => rfl)]
    exact hp.keyed
  · exact forall_exec _ (fun d _ _ hnext => by cases hnext) fun d hd _ => hp.backoff d hd
  · refine forall_exec _ (fun d _ _ hundelivered => by cases hundelivered) fun d hd hg hundelivered hattempts => ?_
    obtain ⟨s', hs', hrun, hattempt⟩ := hp.inFlight d hd hundelivered hattempts
    refine ⟨s', (mem_erase_of_ne ?_).mpr hs', hrun, hattempt⟩
    rintro rfl
    simp [markRunAlertDelivered, hrun, hattempt] at hg
  · exact forall_exec _ (fun d _ _ _ _ => .inl rfl) fun d hd _ => hp.claimed d hd

end

end Offered

namespace AlertWorld

section Step

variable {cfg : AlertConfig} {p p' : AlertWorld} {a : Action} {d : DagRun}

theorem rules_eq_zero (h : p.hasNoRules cfg run) (hd : d ∈ p.world.db.runs) (hid : d.id = run) :
    cfg.onFailure d.dagVersionId = 0 := by
  have hall := all_eq_true.mp h d hd
  simpa [hid] using hall

theorem nextPending_of_pending (hb : p.blocks a = false) (hc : p.Delivers cfg (.world a)) (hr : p.pending = some run) :
    p.nextPending cfg a = some run := by
  cases a with
  | tick t =>
    cases t with
    | stop => simp [Delivers, delivers, hr] at hc
    | _ => simp [blocks, hr] at hb
  | _ => exact hr

/-- A run with rules that fails is claimed next. -/
theorem fails_or_claims (hc : p.Delivers cfg (.world a)) (hd : d ∈ p.world.db.runs)
    (hfailed : ((p.world.write a).runRow p.world.db d).state = .failed) (hrules : cfg.onFailure d.dagVersionId ≠ 0) :
    d.state = .failed ∨ p.nextPending cfg a = some d.id := by
  cases hs : (p.world.write a).runStatement p.world.db with
  | none =>
    rw [Write.runRow_of_none hs] at hfailed
    exact .inl hfailed
  | some s =>
    rw [Write.runRow_of_statement hs] at hfailed
    cases hg : (s.update p.world.db.now).guard d with
    | false =>
      rw [(s.update p.world.db.now).row_of_not_guard hg] at hfailed
      exact .inl hfailed
    | true =>
      rw [(s.update p.world.db.now).row_of_guard hg] at hfailed
      cases runWriter hs with
      | @tick ids b run target ops rest ha ht =>
        subst ha
        have hid : d.id = run.runID := beq_iff_eq.mp hg
        have htarget : target = .failed := hfailed
        subst htarget
        simp only [Delivers, delivers, ht, Bool.or_eq_true, bne_iff_ne] at hc
        have hknown := hc.resolve_right fun hno => hrules (rules_eq_zero hno hd hid)
        right
        simp [nextPending, alertsFor, ht, hknown, hid]
      | clear ha hr ho =>
        rw [(Reopen.unalerted _ _ _ _).state] at hfailed
        cases hfailed
      | @reaper i id ha hm =>
        subst ha
        simp only [Delivers, delivers, hm] at hc
        have hid : d.id = id := beq_iff_eq.mp (Bool.and_eq_true_iff.mp hg).1
        exact absurd (rules_eq_zero hc hd hid) hrules
      | @operator patch ha =>
        obtain ⟨run, state, startedAt, endedAt⟩ := patch
        subst ha
        have hstate : state = .failed := hfailed
        subst hstate
        exact absurd (rules_eq_zero hc hd (beq_iff_eq.mp hg)) hrules

/-- A step that delivers keeps every undelivered failure offered. -/
theorem offered_step {a : AlertAction}
    (hp : Offered cfg.onFailure p.world.db.runs p.sends p.pending) (hc : p.Delivers cfg a)
    (h : p.step cfg a = some p') : Offered cfg.onFailure p'.world.db.runs p'.sends p'.pending := by
  have hdrop : ∀ s, p.isCurrent s = false →
      Offered cfg.onFailure p.world.db.runs (p.sends.erase s) p.pending := fun s hs =>
    hp.drop fun d hd => by simpa using any_eq_false.mp hs d hd
  cases a with
  | world a =>
    simp only [step, ite_none_left_eq_some, map_eq_some_iff] at h
    obtain ⟨hb, w, hw, rfl⟩ := h
    exact hp.world hw (fun run => nextPending_of_pending (eq_false_of_ne_true hb) hc) fun d hd => fails_or_claims hc hd
  | claim run room =>
    simp only [step, Lib.guard_eq_some] at h
    obtain ⟨hpending, rfl⟩ := h
    simp only [Delivers, delivers, Bool.or_eq_true, beq_iff_eq] at hc
    exact Offered.claim (hpending ▸ hp) hc
  | claimFails => cases hc
  | returns s delivered =>
    simp only [step, Lib.guard_eq_some] at h
    obtain ⟨-, rfl⟩ := h
    cases delivered with
    | true => exact hp.returns
    | false => exact hdrop s (by simpa [Delivers, delivers] using hc)
  | stamp s =>
    simp only [step, Lib.guard_eq_some] at h
    obtain ⟨-, rfl⟩ := h
    exact hp.stamp p.world.db.now
  | stampFails s | lost s =>
    simp only [step, Lib.guard_eq_some] at h
    obtain ⟨-, rfl⟩ := h
    exact hdrop s (by simpa [Delivers, delivers] using hc)

/-- A claim is pending only within a tick. -/
theorem tick_of_pending_step {a : AlertAction}
    (hp : p.pending.isSome → p.world.ctl.tick.isSome) (h : p.step cfg a = some p') :
    p'.pending.isSome → p'.world.ctl.tick.isSome := by
  intro hpending
  cases a with
  | world a =>
    simp only [step, ite_none_left_eq_some, map_eq_some_iff] at h
    obtain ⟨hb, w, hw, rfl⟩ := h
    by_cases ha : ∃ t, a = .tick t
    · obtain ⟨t, rfl⟩ := ha
      have hm := tick_moves hw
      generalize p.world.ctl.tick = t0 at hm
      generalize w.ctl.tick = t' at hm ⊢
      cases hm with
      | stop => cases hpending
      | _ => rfl
    · have hkeep : p.nextPending cfg a = p.pending := by
        cases a <;> first | rfl | exact absurd ⟨_, rfl⟩ ha
      rw [tick_of_not_tick hw (not_exists.mp ha)]
      exact hp (hkeep ▸ hpending)
  | claim run room | claimFails run committed room =>
    simp only [step, Lib.guard_eq_some] at h
    obtain ⟨-, rfl⟩ := h
    cases hpending
  | returns s delivered | stamp s | stampFails s | lost s =>
    simp only [step, Lib.guard_eq_some] at h
    obtain ⟨-, rfl⟩ := h
    exact hp hpending

end Step

/-- **No page is left undelivered.** A run with rules that failed is delivered, or its send is in
flight, or the tick is about to claim for it; so whatever is due, the next tick offers again. -/
theorem undelivered_is_offered {cfg : AlertConfig} {p : AlertWorld} (h : (system cfg).Reaches (Delivers cfg) p) :
    p.ReOffered cfg ∧ ∀ d ∈ p.world.db.runs, d.state = .failed → cfg.onFailure d.dagVersionId ≠ 0 →
      d.alertedAt.isSome ∨ (∃ s ∈ p.sends, s.run = d.id) ∨ p.pending = some d.id := by
  have hp : Offered cfg.onFailure p.world.db.runs p.sends p.pending := by
    refine h.invariant (I := fun p => Offered cfg.onFailure p.world.db.runs p.sends p.pending) ?_ ?_
    · rintro p ⟨now, rfl⟩
      exact ⟨nodup_nil, forall_mem_nil _, forall_mem_nil _, forall_mem_nil _⟩
    · intro p a p' _ hp hc hs
      exact offered_step hp hc hs
  have htick : p.pending.isSome → p.world.ctl.tick.isSome := by
    refine h.invariant (I := fun p => p.pending.isSome → p.world.ctl.tick.isSome) ?_ ?_
    · rintro p ⟨now, rfl⟩ hpending
      cases hpending
    · intro p a p' _ hp _ hs
      exact tick_of_pending_step hp hs
  have hunder : ∀ d ∈ p.world.db.runs, d.state = .failed → cfg.onFailure d.dagVersionId ≠ 0 →
      d.alertedAt.isSome ∨ (∃ s ∈ p.sends, s.run = d.id) ∨ p.pending = some d.id := by
    intro d hd hfailed hrules
    cases halerted : d.alertedAt with
    | some t => exact .inl rfl
    | none =>
      rcases hp.claimed d hd hfailed hrules with hsome | hattempts | hpending
      · rw [halerted] at hsome
        cases hsome
      · obtain ⟨s, hs, hrun, -⟩ := hp.inFlight d hd halerted hattempts
        exact .inr (.inl ⟨s, hs, hrun⟩)
      · exact .inr (.inr hpending)
  refine ⟨?_, hunder⟩
  intro d hd hdue as p' hwhole
  -- A tick begins only where none is under way, so the claim cannot be pending.
  have hnone : p.world.ctl.tick = none := by
    have hran := hwhole.ran
    simp only [Lib.System.run, Lib.System.runIf, if_true, bind_eq_some_iff] at hran
    obtain ⟨p1, hstep, -⟩ := hran
    simp only [system, step, ite_none_left_eq_some, map_eq_some_iff] at hstep
    obtain ⟨-, w, hw, -⟩ := hstep
    have hm := tick_moves hw
    generalize p.world.ctl.tick = t at hm
    generalize w.ctl.tick = t' at hm
    cases hm
    rfl
  rcases hunder d hd hdue.failed hdue.rules with halerted | ⟨s, hs, hrun⟩ | hpending
  · rw [hdue.undelivered] at halerted
    cases halerted
  · exact absurd hrun (hdue.idle s hs)
  · rw [hpending, hnone] at htick
    cases htick rfl

/-- The page of the first failure is delivered at once. -/
def pagedAtOnce : List AlertAction :=
  firstFailure ++ [.claim "run" true, .world (.tick .finish), .world (.tick .stop),
    .returns ⟨"run", 1, 0, false⟩ true, .stamp ⟨"run", 1, 0, true⟩]

theorem undelivered_is_offered_paged :
    ∃ p, (system oneTaskAlerted).runIf (delivers oneTaskAlerted) { world := .empty 1 } pagedAtOnce =
        some p ∧ p.world.db.runs.map (fun d => (d.state, d.alertedAt)) = [(.failed, some 1)] ∧
      p.ReOffered oneTaskAlerted := by
  refine Lib.exists_eq_some (by decide +kernel) fun hrun => ?_
  exact ⟨by decide +kernel, (undelivered_is_offered
    (Lib.System.Reaches.runIf (.init ⟨1, rfl⟩) (fun _ _ hc => hc) hrun)).1⟩

/-- The semaphore is full when the run fails; two minutes later the attempt may be repeated. -/
def droppedAttempt : List AlertAction :=
  firstFailure ++ [.claim "run" false, .world (.tick .finish), .world (.tick .stop), .world (.clock 120000000000)]

/-- The run it leaves. -/
def undeliveredRun : DagRun where
  id := "run"
  dagVersionId := "v1"
  state := .failed
  queuedAt := 1
  startedAt := some 1
  endedAt := some 1
  alertAttempts := 1
  nextAlertAttemptAt := some 120000000001

/-- The next tick does not visit the failed run. -/
theorem undelivered_is_not_visited : ¬ ∀ (cfg : AlertConfig) (p : AlertWorld),
    (system cfg).Reachable p → p.ReOffered cfg := by
  intro h
  have hrun := (some_get (x := (system oneTaskAlerted).run { world := .empty 1 }
    droppedAttempt) (by decide +kernel)).symm
  have hinit : (system oneTaskAlerted).Reachable { world := .empty 1 } := .init ⟨1, rfl⟩
  have hwhole : WholeTick oneTaskAlerted (((system oneTaskAlerted).run { world := .empty 1 }
      droppedAttempt).get (by decide +kernel)) [.world (.tick .loaded)] _ :=
    ⟨by decide, (some_get (x := (system oneTaskAlerted).run _ [_, _]) (by decide +kernel)).symm, by decide +kernel⟩
  have hdue : (((system oneTaskAlerted).run { world := .empty 1 }
      droppedAttempt).get (by decide +kernel)).Due oneTaskAlerted undeliveredRun :=
    ⟨rfl, by decide, rfl, by decide, by decide +kernel, by decide +kernel⟩
  obtain ⟨room, hclaim, -⟩ :=
    h oneTaskAlerted _ (hinit.run hrun) undeliveredRun (by decide +kernel) hdue _ _ hwhole
  cases mem_singleton.mp hclaim

end AlertWorld

end Leoflow
