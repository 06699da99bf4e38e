import Leoflow.System.Alerts

/-!
# Delivered for this episode

A send stamps the run for the attempt it was claimed as, and the attempts start again at one when an
operator re-opens the run. As long as no attempt is claimed while a send of the same number is still
in flight, a stamp that matches is one of the current episode.
-/

namespace Leoflow

open List Lib.Update

namespace AlertWorld

/-- A claim that wins its attempt finds no send of that number in flight. -/
def winsFresh (p : AlertWorld) : AlertAction → Bool
  | .claim run _ | .claimFails run true _ =>
    p.world.db.runs.all fun d => !(p.world.claimUpdate run).guard d ||
      p.sends.all fun s => s.run != run || s.attempt != d.alertAttempts + 1
  | _ => true

/-- The check as a condition. -/
abbrev WinsFresh (p : AlertWorld) (a : AlertAction) : Prop := p.winsFresh a

/-- What is delivered was delivered by a send that was claimed in this episode, and what a send would
stamp is of the episode it was claimed in. -/
structure EpisodeSafe (p : AlertWorld) : Prop where
  delivered : ∀ d ∈ p.world.db.runs, d.alertedAt.isSome →
    ∃ s ∈ p.paged, s.run = d.id ∧ s.episode = p.reopens d.id ∧ 0 < s.attempt
  stamps : ∀ s ∈ p.sends, ∀ d ∈ p.world.db.runs,
    (markRunAlertDelivered p.world.db.now s.run s.attempt).guard d → s.episode = p.reopens d.id

end AlertWorld

/-- The invariant behind it, over the runs, the sends in flight, those that returned true, and the
re-opens. -/
structure Episodic (runs : List DagRun) (sends paged : List Send) (reopens : String → Nat) : Prop where
  numbered : ∀ s ∈ sends, s.attempt ≠ 0
  current : ∀ s ∈ sends, ∀ d ∈ runs, s.run = d.id → s.attempt = d.alertAttempts → s.episode = reopens d.id
  returned : ∀ s ∈ sends, s.returned → s ∈ paged
  delivered : ∀ d ∈ runs, d.alertedAt.isSome →
    ∃ s ∈ paged, s.run = d.id ∧ s.episode = reopens d.id ∧ 0 < s.attempt

namespace Episodic

variable {runs : List DagRun} {sends paged : List Send} {reopens : String → Nat} {s : Send}

/-- A step of the rest of the system starts an episode of a run or goes on with the one it has. -/
theorem world {cfg : Config} {w w' : World} {a : Action} {reopens' : String → Nat}
    (hp : Episodic w.db.runs sends paged reopens) (h : w.step cfg a = some w')
    (hr : ∀ run, World.reopened a ≠ some run → reopens' run = reopens run) :
    Episodic w'.db.runs sends paged reopens' := by
  refine ⟨hp.numbered, ?_, hp.returned, ?_⟩
  · intro s hs d' hd' hrun hattempt
    rcases World.alert_step h hd' with hun | ⟨d, hd, -, hsame, hne⟩
    · rw [hun.alertAttempts] at hattempt
      exact absurd hattempt (hp.numbered s hs)
    · rw [hsame.alertAttempts] at hattempt
      rw [hsame.id, hr d.id hne]
      exact hp.current s hs d hd (hrun.trans hsame.id) hattempt
  · intro d' hd' halerted
    rcases World.alert_step h hd' with hun | ⟨d, hd, -, hsame, hne⟩
    · rw [hun.alertedAt] at halerted
      cases halerted
    · rw [hsame.alertedAt] at halerted
      rw [hsame.id, hr d.id hne]
      exact hp.delivered d hd halerted

section

variable (hp : Episodic runs sends paged reopens)
include hp

theorem claimed {now : Time} {run : String} {max : Int} {backoff : Duration}
    (hfresh : ∀ d ∈ runs, (claimAlertAttempt now run max backoff).guard d →
      ∀ s ∈ sends, s.run = run → s.attempt ≠ d.alertAttempts + 1) :
    Episodic ((claimAlertAttempt now run max backoff).exec runs) sends paged reopens := by
  refine ⟨hp.numbered, fun s hs => ?_, hp.returned, ?_⟩
  · refine forall_exec _ (fun d hd hg hrun hattempt => ?_) fun d hd _ => hp.current s hs d hd
    have hid : d.id = run := by
      simp only [claimAlertAttempt, Bool.and_eq_true, beq_iff_eq] at hg
      exact hg.1.1.1
    exact absurd hattempt (hfresh d hd hg s hs (hrun.trans hid))
  · exact forall_exec _ (fun d hd _ => hp.delivered d hd) fun d hd _ => hp.delivered d hd

theorem start {run : String} {attempt : Int}
    (hattempt : attempt ≠ 0) : Episodic runs (⟨run, attempt, reopens run, false⟩ :: sends) paged reopens := by
  refine ⟨?_, ?_, ?_, hp.delivered⟩
  · exact forall_mem_cons.mpr ⟨hattempt, hp.numbered⟩
  · refine forall_mem_cons.mpr ⟨fun d _ hrun _ => congrArg reopens hrun, hp.current⟩
  · exact forall_mem_cons.mpr ⟨(fun h => by cases h), hp.returned⟩

theorem erase (s : Send) : Episodic runs (sends.erase s) paged reopens :=
  ⟨fun s' hs' => hp.numbered s' (mem_of_mem_erase hs'), fun s' hs' => hp.current s' (mem_of_mem_erase hs'),
    fun s' hs' => hp.returned s' (mem_of_mem_erase hs'), hp.delivered⟩

theorem returns (hs : s ∈ sends) :
    Episodic runs ({ s with returned := true } :: sends.erase s) ({ s with returned := true } :: paged)
      reopens := by
  have he := hp.erase s
  refine ⟨?_, ?_, ?_, ?_⟩
  · exact forall_mem_cons.mpr ⟨hp.numbered s hs, he.numbered⟩
  · exact forall_mem_cons.mpr ⟨hp.current s hs, he.current⟩
  · exact forall_mem_cons.mpr ⟨fun _ => mem_cons_self, fun s' hs' hr => mem_cons_of_mem _ (he.returned s' hs' hr)⟩
  · intro d hd halerted
    obtain ⟨s', hs', hfor⟩ := hp.delivered d hd halerted
    exact ⟨s', mem_cons_of_mem _ hs', hfor⟩

theorem stamp (hs : s ∈ sends) (hr : s.returned) (now : Time) :
    Episodic ((markRunAlertDelivered now s.run s.attempt).exec runs) (sends.erase s) paged reopens := by
  have he := hp.erase s
  refine ⟨he.numbered, fun s' hs' => ?_, he.returned, ?_⟩
  · exact forall_exec _ (fun d hd _ => he.current s' hs' d hd) fun d hd _ =>
      he.current s' hs' d hd
  · refine forall_exec _ (fun d hd hg _ => ?_) fun d hd _ => hp.delivered d hd
    simp only [markRunAlertDelivered, Bool.and_eq_true, beq_iff_eq] at hg
    refine ⟨s, hp.returned s hs hr, hg.1.symm, hp.current s hs d hd hg.1.symm hg.2.symm, ?_⟩
    have hne := hp.numbered s hs
    omega

end

end Episodic

namespace AlertWorld

theorem fresh_of_all {p : AlertWorld} {run : String}
    (h : (p.world.db.runs.all fun d => !(p.world.claimUpdate run).guard d ||
      p.sends.all fun s => s.run != run || s.attempt != d.alertAttempts + 1)) :
    ∀ d ∈ p.world.db.runs, (p.world.claimUpdate run).guard d →
      ∀ s ∈ p.sends, s.run = run → s.attempt ≠ d.alertAttempts + 1 := by
  intro d hd hg s hs hrun
  have hd' := all_eq_true.mp h d hd
  simp only [hg, Bool.not_true, Bool.false_or, all_eq_true, Bool.or_eq_true, bne_iff_ne] at hd'
  exact (hd' s hs).resolve_left fun hne => hne hrun

/-- A step that wins only fresh stamps keeps deliveries in their episode. -/
theorem episodic_step {cfg : AlertConfig} {p p' : AlertWorld} {a : AlertAction}
    (hp : Episodic p.world.db.runs p.sends p.paged p.reopens) (hc : p.WinsFresh a)
    (h : p.step cfg a = some p') : Episodic p'.world.db.runs p'.sends p'.paged p'.reopens := by
  cases a with
  | world a =>
    simp only [step, Option.ite_none_left_eq_some, Option.map_eq_some_iff] at h
    obtain ⟨-, w, hw, rfl⟩ := h
    exact hp.world hw fun run hne => if_neg hne
  | claim run room =>
    simp only [step, Lib.guard_eq_some] at h
    obtain ⟨-, rfl⟩ := h
    have hclaim := hp.claimed (fresh_of_all hc)
    by_cases hzero : p.world.claimedAttempt run = 0
    · simp only [hzero, if_true]
      exact hclaim
    · simp only [hzero, if_false, start]
      split
      · exact hclaim.start hzero
      · exact hclaim
  | claimFails run committed room =>
    simp only [step, Lib.guard_eq_some] at h
    obtain ⟨-, rfl⟩ := h
    have hclaim : Episodic (if committed then p.world.executeAlert (p.world.claimUpdate run)
        else p.world).db.runs p.sends p.paged p.reopens := by
      cases committed with
      | false => exact hp
      | true => exact hp.claimed (fresh_of_all hc)
    have hunknown : alertAttemptUnknown ≠ 0 := by decide
    cases room with
    | true => exact hclaim.start hunknown
    | false => exact hclaim
  | returns s delivered =>
    simp only [step, Lib.guard_eq_some] at h
    obtain ⟨⟨hs, -⟩, rfl⟩ := h
    cases delivered with
    | true => exact hp.returns hs
    | false => exact hp.erase s
  | stamp s =>
    simp only [step, Lib.guard_eq_some] at h
    obtain ⟨⟨hs, hr⟩, rfl⟩ := h
    exact hp.stamp hs hr p.world.db.now
  | stampFails s | lost s =>
    simp only [step, Lib.guard_eq_some] at h
    obtain ⟨-, rfl⟩ := h
    exact hp.erase s

/-- **Delivered means delivered for this episode.** -/
theorem delivered_in_this_episode {cfg : AlertConfig} {p : AlertWorld}
    (h : (system cfg).Reaches WinsFresh p) : p.EpisodeSafe := by
  have hp : Episodic p.world.db.runs p.sends p.paged p.reopens := by
    refine h.invariant (I := fun p => Episodic p.world.db.runs p.sends p.paged p.reopens) ?_ ?_
    · rintro p ⟨now, rfl⟩
      exact ⟨forall_mem_nil _, forall_mem_nil _, forall_mem_nil _, forall_mem_nil _⟩
    · intro p a p' _ hp hc hs
      exact episodic_step hp hc hs
  refine ⟨hp.delivered, ?_⟩
  intro s hs d hd hg
  simp only [markRunAlertDelivered, Bool.and_eq_true, beq_iff_eq] at hg
  exact hp.current s hs d hd hg.1.symm hg.2.symm

/-- Each failure is sent and stamped before the next one is claimed. -/
def pagedTwice : List AlertAction :=
  firstFailure ++ [.claim "run" true, .returns ⟨"run", 1, 0, false⟩ true, .stamp ⟨"run", 1, 0, true⟩] ++
    nextFailure ++ [.claim "run" true, .returns ⟨"run", 1, 1, false⟩ true, .stamp ⟨"run", 1, 1, true⟩]

theorem delivered_in_this_episode_twice :
    ∃ p, (system oneTaskAlerted).runIf winsFresh { world := .empty 1 } pagedTwice = some p ∧
      p.reopens "run" = 1 ∧ p.world.db.runs.any (fun d => d.alertedAt.isSome) ∧
      p.EpisodeSafe := by
  refine Lib.exists_eq_some (by decide +kernel) fun hrun => ?_
  exact ⟨by decide +kernel, by decide +kernel, delivered_in_this_episode
    (Lib.System.Reaches.runIf (.init ⟨1, rfl⟩) (fun _ _ hc => hc) hrun)⟩

/-- The first send is slow: it returns after the run was cleared and has failed again, at the same
attempt. -/
def stampsTheNext : List AlertAction :=
  firstFailure ++ [.claim "run" true] ++ nextFailure ++
    [.claim "run" true, .returns ⟨"run", 1, 0, false⟩ true, .stamp ⟨"run", 1, 0, true⟩]

/-- A send of an earlier episode stamps a later one. -/
theorem stamped_by_the_episode_before : ¬ ∀ (cfg : AlertConfig) (p : AlertWorld),
    (system cfg).Reachable p → p.EpisodeSafe := by
  intro h
  have hrun := (Option.some_get (x := (system oneTaskAlerted).run { world := .empty 1 }
    stampsTheNext) (by decide +kernel)).symm
  have hinit : (system oneTaskAlerted).Reachable { world := .empty 1 } := .init ⟨1, rfl⟩
  have hsafe := (h oneTaskAlerted _ (hinit.run hrun)).delivered
  exact absurd hsafe (by decide +kernel)

end AlertWorld

end Leoflow
