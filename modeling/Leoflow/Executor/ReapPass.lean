import Leoflow.Executor.Sweeps

/-!
# One pass of the reapers

`Reaper.ReapOnce` of `internal/executor/reaper.go`: the destructive gate and the settling gate on entry, and then
the five reapers, each of which asks the destructive gate again before every mark and every teardown. Each gate is
asked at a moment of its own, and a write is made at the moment of its gate. A reaper that panics is recovered and
leaves out the rest of its candidates.
-/

namespace Leoflow

/-! ## The gates -/

/-- `mayReap`; a predicate that is not wired closes nothing. -/
def mayReap (ctxErr : Bool) (inStepDown leading : Option Bool) : Bool :=
  if ctxErr then false
  else if inStepDown == some true then false
  else if leading == some false then false
  else true

theorem mayReap_wired {ctxErr inStepDown leading : Bool} : mayReap ctxErr (some inStepDown) (some leading) ↔
      ctxErr = false ∧ inStepDown = false ∧ leading := by
  cases ctxErr <;> cases inStepDown <;> cases leading <;> decide

/-- What the settling gate decides, and what it still waits for. -/
structure SettlingVerdict where
  hold : Bool := false
  valve : Bool := false
  pending : String := ""
  elapsed : Duration := 0
deriving DecidableEq

/-- What a new leader still waits for: the grace, the informer, or a sweep of its own. -/
def settlingPending (grace : Duration) (informerSynced : Option Bool)
    (lastSweepCompleted : Option Time) (since : Time) (elapsed : Duration) : String :=
  if elapsed < grace then "grace"
  else if informerSynced == some false then "informer_unsynced"
  else if lastSweepCompleted.any fun t => decide (t < since) then "no_sweep_since_leadership"
  else ""

/-- The outer option of the stamp says whether `leaderSince` is wired, the inner one whether
the stamp is set. Twice the grace is an `int64` product. -/
def settling (grace : Duration) (leaderSince : Option (Option Time)) (informerSynced : Option Bool)
    (lastSweepCompleted : Option Time) (now : Time) : SettlingVerdict :=
  match leaderSince with
  | none => {}
  | some since =>
    if grace ≤ 0 then {}
    else match since with
      | none => {}
      | some since =>
        let elapsed := now - since
        let pending := settlingPending grace informerSynced lastSweepCompleted since elapsed
        if pending = "" then { elapsed := elapsed }
        else if elapsed ≥ wrap64 (2 * grace) then { valve := true, pending := pending, elapsed := elapsed }
        else { hold := true, pending := pending, elapsed := elapsed }

/-- A leader that is not held has settled or has led for two graces, if these do not overflow. -/
theorem settled_of_not_hold {grace : Duration} (hgrace : 0 < grace) (hlt : grace < 2 ^ 62)
    {since now lastSweep : Time} {synced : Bool}
    (h : (settling grace (some (some since)) (some synced) (some lastSweep) now).hold = false) :
    grace ≤ now - since ∧ (synced ∧ since ≤ lastSweep ∨ 2 * grace ≤ now - since) := by
  have htwice : ∀ g : Int, 0 < g → g < 2 ^ 62 → g ≤ 2 * g ∧ wrap64 (2 * g) = 2 * g :=
    fun g hg hlt => ⟨by omega, wrap64_of_lt (by omega) (by omega)⟩
  obtain ⟨hdouble, hwrap⟩ := htwice grace hgrace hlt
  simp only [settling, if_neg (Int.not_le.mpr hgrace), hwrap] at h
  split at h
  next hpending =>
    simp only [settlingPending] at hpending
    split at hpending
    · exact absurd hpending (by decide)
    · split at hpending
      · exact absurd hpending (by decide)
      · split at hpending
        · exact absurd hpending (by decide)
        next helapsed hsynced hsweep =>
          refine ⟨Int.not_lt.mp helapsed, .inl ⟨?_, ?_⟩⟩
          · cases synced with
            | false => exact absurd rfl hsynced
            | true => rfl
          · exact Int.not_lt.mp fun hlt => hsweep (decide_eq_true hlt)
  · split at h
    next hvalve =>
      exact ⟨Int.le_trans hdouble hvalve, .inr hvalve⟩
    · cases h

/-! ## Sweeps with their moments -/

/-- When the gates before the mark and before the teardown of a candidate are asked. -/
structure GateMoments where
  mark : Nat
  teardown : Nat
deriving DecidableEq

section Sweep

variable {γ : Type}

/-- The moment at which the gate of a call is asked. -/
def GateMoments.of (ms : GateMoments) : SweepCall γ → Nat
  | .mark _ => ms.mark
  | .deleteTaskPod _ => ms.teardown

/-- A sweep's listing, clock, answers, and the moments of its gates. -/
structure SweepReads (γ : Type) where
  candidates : Except String (List γ)
  now : Time := 0
  answers : Nat → Answers := fun _ => {}
  moments : Nat → GateMoments

namespace SweepReads

/-- The answers with the gates as they are at their moments. -/
def gated (r : SweepReads γ) (gate : Nat → Bool) (i : Nat) : Answers :=
  { r.answers i with
    gate := gate (r.moments i).mark
    teardownGate := gate (r.moments i).teardown }

/-- The calls of a run, each with its moment; a listing that fails leaves nothing to do. -/
def timed (r : SweepReads γ) (run : Except String (List (Nat × SweepCall γ))) : List (Nat × SweepCall γ) :=
  (run.toOption.getD []).map fun c => ((r.moments c.1).of c.2, c.2)

theorem open_of_mem_timed {r : SweepReads γ} {gate : Nat → Bool} {run : Except String (List (Nat × SweepCall γ))}
    (hrun : Opened (r.gated gate) run) {m : Nat} {call : SweepCall γ} (h : (m, call) ∈ r.timed run) :
    gate m ∧ ∃ i, m = (r.moments i).mark ∨ m = (r.moments i).teardown := by
  cases run with
  | error => cases h
  | ok calls =>
    obtain ⟨⟨i, call'⟩, hcall, heq⟩ := List.mem_map.mp h
    have hopen := hrun calls rfl _ hcall
    cases heq
    cases call' with
    | mark c => exact ⟨hopen, i, .inl rfl⟩
    | deleteTaskPod c => exact ⟨hopen, i, .inr rfl⟩

end SweepReads

end Sweep

/-! ## The pass -/

/-- The call about another candidate. -/
def SweepCall.map {γ δ : Type} (f : γ → δ) : SweepCall γ → SweepCall δ
  | .mark c => .mark (f c)
  | .deleteTaskPod c => .deleteTaskPod (f c)

/-- A call of `ReapOnce` with all it reads: its context, which may be cancelled at any moment, the moments of its
gates, and the reads of its five reapers. -/
structure ReapPass where
  ctxErr : Nat → Bool
  entry : Nat
  settle : Nat
  cfg : ReaperConfig := {}
  pods : Bool := true
  cache : Bool := true
  orphan : SweepReads ReapCandidate
  agentLost : SweepReads AgentLostCandidate
  dispatchLost : SweepReads StaleQueuedCandidate
  dispatchLostWarmPods : Option (Except String (List WarmPodInfo))
  podLost : SweepReads PodLostCandidate
  warmWorkerLost : SweepReads WarmBoundTI
  warmPods : Option (Except String (List WarmPodInfo))
  entered : entry ≤ settle
  orphanLater : ∀ i, settle ≤ (orphan.moments i).mark ∧ settle ≤ (orphan.moments i).teardown
  agentLostLater : ∀ i, settle ≤ (agentLost.moments i).mark ∧ settle ≤ (agentLost.moments i).teardown
  dispatchLostLater : ∀ i, settle ≤ (dispatchLost.moments i).mark ∧ settle ≤ (dispatchLost.moments i).teardown
  podLostLater : ∀ i, settle ≤ (podLost.moments i).mark ∧ settle ≤ (podLost.moments i).teardown
  warmWorkerLostLater : ∀ i, settle ≤ (warmWorkerLost.moments i).mark ∧ settle ≤ (warmWorkerLost.moments i).teardown

namespace ReapPass

variable (p : ReapPass) (gate : Nat → Bool)

/-- `orphanReaper.run`. Its teardown is `DeleteRunPods`. -/
def orphanWrites : List (Nat × SweepCall ReapCandidate) :=
  p.orphan.timed <| p.orphan.candidates.map fun cs =>
    sweepCalls (fun c _ => isOrphaned c p.cfg.orphanThreshold p.orphan.now) (fun _ => p.pods) cs (p.orphan.gated gate)

/-- `agentLostReaper.run`. -/
def agentLostWrites : List (Nat × SweepCall AgentLostCandidate) :=
  p.agentLost.timed <| p.agentLost.candidates.map fun cs =>
    sweepCalls (fun c _ => isAgentLost c p.cfg.agentLostThreshold p.agentLost.now) (fun applied => applied && p.pods) cs
      (p.agentLost.gated gate)

/-- The sweep of `dispatchLostReaper` behind the gate. -/
def dispatchLostSweep : DispatchLostSweep where
  threshold := p.cfg.dispatchLostThreshold
  pods := p.pods
  cache := p.cache
  candidates := p.dispatchLost.candidates
  warmPods := p.dispatchLostWarmPods
  now := p.dispatchLost.now
  answers := p.dispatchLost.gated gate

/-- What the dispatch-lost reaper writes, each call with the moment of its gate. -/
def dispatchLostWrites : List (Nat × SweepCall StaleQueuedCandidate) :=
  p.dispatchLost.timed (p.dispatchLostSweep gate).calls

/-- What the pod-lost reaper writes. -/
def podLostWrites : List (Nat × SweepCall PodLostCandidate) :=
  p.podLost.timed <| podLostCalls p.cfg.podLostGrace p.pods p.cache p.podLost.candidates p.podLost.now
    (p.podLost.gated gate)

/-- What the warm-worker-lost reaper writes. -/
def warmWorkerLostWrites : List (Nat × SweepCall WarmBoundTI) :=
  p.warmWorkerLost.timed <| warmWorkerLostCalls p.warmWorkerLost.candidates p.warmPods (p.warmWorkerLost.gated gate)

/-- The marks and deletes of `ReapOnce`, each with its moment. -/
def reapOnce (verdict : SettlingVerdict) : List (Nat × SweepCall Candidate) :=
  if !gate p.entry then []
  else if verdict.hold then []
  else (p.orphanWrites gate).map (Prod.map id (.map .orphan)) ++
    (p.agentLostWrites gate).map (Prod.map id (.map .agentLost)) ++
    (p.dispatchLostWrites gate).map (Prod.map id (.map .dispatchLost)) ++
    (p.podLostWrites gate).map (Prod.map id (.map .podLost)) ++
    (p.warmWorkerLostWrites gate).map (Prod.map id (.map .warmWorkerLost))

variable {p gate}

theorem later_of_mem {γ δ : Type} {r : SweepReads γ} {run : Except String (List (Nat × SweepCall γ))}
    {f : γ → δ} {m : Nat} {call : SweepCall δ}
    (hlater : ∀ i, p.settle ≤ (r.moments i).mark ∧ p.settle ≤ (r.moments i).teardown)
    (hrun : Opened (r.gated gate) run) (h : (m, call) ∈ (r.timed run).map (Prod.map id (.map f))) :
    gate m ∧ p.settle ≤ m := by
  obtain ⟨w, hw, heq⟩ := List.mem_map.mp h
  obtain ⟨hopen, i, hm⟩ := SweepReads.open_of_mem_timed hrun hw
  obtain rfl : w.1 = m := congrArg Prod.fst heq
  refine ⟨hopen, ?_⟩
  rcases hm with hm | hm
  · rw [hm]
    exact (hlater i).1
  · rw [hm]
    exact (hlater i).2

/-- A pass writes only if it was let in and not held, and then through an open gate. -/
theorem open_of_mem_reapOnce {verdict : SettlingVerdict} {m : Nat} {call : SweepCall Candidate}
    (h : (m, call) ∈ p.reapOnce gate verdict) :
    gate p.entry ∧ verdict.hold = false ∧ gate m ∧ p.settle ≤ m := by
  unfold reapOnce at h
  split at h
  · cases h
  next hentry =>
    split at h
    · cases h
    next hhold =>
      refine ⟨by simpa using hentry, by simpa using hhold, ?_⟩
      simp only [List.mem_append] at h
      rcases h with (((h | h) | h) | h) | h
      · exact later_of_mem p.orphanLater (opened_map _ _ _ _) h
      · exact later_of_mem p.agentLostLater (opened_map _ _ _ _) h
      · exact later_of_mem p.dispatchLostLater (opened_map _ _ _ _) h
      · exact later_of_mem p.podLostLater (opened_podLostCalls _ _ _ _ _ _) h
      · exact later_of_mem p.warmWorkerLostLater (opened_warmWorkerLostCalls _ _ _) h

end ReapPass

end Leoflow
