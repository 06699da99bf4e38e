import Leoflow.Executor.ReapPass
import Leoflow.Scheduler.Leadership

/-!
# Reapers write only for a settled leader

The settling gate is asked once in a pass and the destructive gate before every write. `SetLeading` clears the stamp
before the flag, so that a stamp of zero means no more writes rests on the campaign loop: it marks the step-down
before it gives leadership up, and keeps the mark until the next campaign.
-/

namespace Leoflow

/-! ## A pass in a history -/

/-- The destructive gate at a moment of the history. -/
def ReapPass.gateAt (p : ReapPass) (τ : Timeline) (m : Nat) : Bool :=
  mayReap (p.ctxErr m) (some (τ.state m).steppingDown) (some (τ.state m).leading)

/-- What the settling gate of a pass decides in a history. -/
def ReapPass.verdictIn (p : ReapPass) (grace : Duration) (τ : Timeline) : SettlingVerdict :=
  settling grace (some (τ.state p.settle).leaderSince) (some (τ.state p.settle).informerSynced)
    (some (τ.state p.settle).lastSweepCompleted) (τ.state p.settle).now

/-- What a pass writes in a history. -/
def ReapPass.writesIn (p : ReapPass) (grace : Duration) (τ : Timeline) : List (Nat × SweepCall Candidate) :=
  p.reapOnce (p.gateAt τ) (p.verdictIn grace τ)

/-- The pass is of the maintenance loop: its context is a child of the process's, and cancelled before a later
term begins. -/
structure ReapPass.InTerm (p : ReapPass) (τ : Timeline) : Prop where
  child : ∀ m, (τ.state m).shutdown → p.ctxErr m
  ended : ∀ m, p.entry ≤ m → (τ.state m).term ≠ (τ.state p.entry).term → p.ctxErr m

/-- What is promised of a write at the moment `m`. -/
structure SettledWrite (p : ReapPass) (grace : Duration) (τ : Timeline) (m : Nat) : Prop where
  live : p.ctxErr m = false
  leads : (τ.state m).leading
  stays : (τ.state m).steppingDown = false
  settled : ∃ since, (τ.state m).termStart = some since ∧ grace ≤ (τ.state m).now - since ∧
    (τ.state p.settle).termStart = some since ∧
    ((τ.state p.settle).informerSynced ∧ since ≤ (τ.state p.settle).lastSweepCompleted ∨
      2 * grace ≤ (τ.state p.settle).now - since)

/-! ## The campaign loop -/

/-- `campaignAndRun` and `runAsLeader`: leadership is given up after the step-down was marked or at shutdown, and
the mark is taken back before the next term. -/
structure Campaign (τ : Timeline) : Prop where
  release : ∀ n, τ.action n = .clearStamp → (τ.state n).steppingDown ∨ (τ.state n).shutdown
  clear : ∀ n, τ.action n = .clearSteppingDown → (τ.state n).leading = false

/-- While leading without a stamp, the instance steps down or shuts down. -/
theorem Campaign.stampless {τ : Timeline} (h : Campaign τ) (n : Nat)
    (hlead : (τ.state n).leading) (hstamp : (τ.state n).leaderSince = none) :
    (τ.state n).steppingDown ∨ (τ.state n).shutdown := by
  induction n with
  | zero => cases τ.start.2.symm.trans hlead
  | succ n ih =>
    have hstep := τ.step n
    cases ha : τ.action n with
    | storeStamp =>
      rw [ha] at hstep
      simp only [Leadership.step] at hstep
      split at hstep
      · cases hstep
      · rw [← Option.some.inj hstep] at hstamp
        cases hstamp
    | storeFlag =>
      rw [ha] at hstep
      simp only [Leadership.step] at hstep
      split at hstep
      · cases hstep
      next hopen =>
        rw [← Option.some.inj hstep] at hstamp
        simp [show (τ.state n).leaderSince = none from hstamp] at hopen
    | clearStamp =>
      have hmarked := h.release n ha
      rw [ha] at hstep
      simp only [Leadership.step] at hstep
      split at hstep
      · rw [← Option.some.inj hstep]
        exact hmarked
      · cases hstep
    | clearFlag =>
      rw [ha] at hstep
      simp only [Leadership.step] at hstep
      split at hstep
      · rw [← Option.some.inj hstep] at hlead
        cases hlead
      · cases hstep
    | clearSteppingDown =>
      have hfollower := h.clear n ha
      rw [ha] at hstep
      rw [← Option.some.inj hstep] at hlead
      cases hfollower.symm.trans hlead
    | markSteppingDown =>
      rw [ha] at hstep
      rw [← Option.some.inj hstep]
      exact .inl rfl
    | shutdown =>
      rw [ha] at hstep
      rw [← Option.some.inj hstep]
      exact .inr rfl
    | advance | informer | sweepCompleted =>
      rw [ha] at hstep
      rw [← Option.some.inj hstep] at hlead hstamp ⊢
      exact ih hlead hstamp

/-- **Leader settling** under the campaign loop: whatever the interleaving, every mark and delete of a pass
is made by a settled leader. Twice the grace must be a duration: from `2 ^ 62` nanoseconds on it overflows, and the
valve opens at once. -/
theorem reapers_settled {τ : Timeline} (hcampaign : Campaign τ) {p : ReapPass} (hterm : p.InTerm τ)
    {grace : Duration} (hgrace : 0 < grace) (hlt : grace < 2 ^ 62) {m : Nat} {call : SweepCall Candidate}
    (h : (m, call) ∈ p.writesIn grace τ) : SettledWrite p grace τ m := by
  obtain ⟨hentry, hhold, hopen, hlater⟩ := ReapPass.open_of_mem_reapOnce h
  obtain ⟨hlive, hstays, hleads⟩ := mayReap_wired.mp hopen
  have hsame : ∀ n, p.entry ≤ n → n ≤ m → (τ.state n).term = (τ.state m).term := by
    intro n hn hnm
    have hm : (τ.state m).term = (τ.state p.entry).term := by
      by_contra hne
      have := hterm.ended m (hn.trans hnm) hne
      cases hlive.symm.trans this
    have hlow := τ.term_mono hn
    have hhigh := τ.term_mono hnm
    omega
  -- the write's moment has a stamp, which then stood when the settling gate was asked
  obtain ⟨since, hsince⟩ : ∃ since, (τ.state m).leaderSince = some since := by
    cases hl : (τ.state m).leaderSince with
    | some since => exact ⟨since, rfl⟩
    | none =>
      rcases hcampaign.stampless m hleads hl with hdown | hshut
      · cases hstays.symm.trans hdown
      · cases hlive.symm.trans (hterm.child m hshut)
  have hstamp := τ.stamp_before hlater (hsame _ p.entered hlater) hsince
  rw [ReapPass.verdictIn, hstamp] at hhold
  obtain ⟨helapsed, hfacts⟩ := settled_of_not_hold hgrace hlt hhold
  refine ⟨hlive, hleads, hstays, since, (τ.sound m).stamp _ hsince, ?_, (τ.sound _).stamp _ hstamp, hfacts⟩
  exact Int.le_trans helapsed (Int.sub_le_sub_right (τ.now_mono hlater) since)

/-! ## Histories of given actions -/

/-- The states that actions lead to; one that is not enabled changes nothing. -/
def Leadership.after (actions : Nat → LeaderAction) : Nat → Leadership
  | 0 => { now := 0 }
  | n + 1 => ((after actions n).step (actions n)).getD (after actions n)

/-- The history of some actions; one that is not enabled is left out. -/
def Timeline.of (actions : Nat → LeaderAction) : Timeline where
  state := Leadership.after actions
  action n := if ((Leadership.after actions n).step (actions n)).isSome then actions n else .advance 0
  start := ⟨rfl, rfl⟩
  step n := by
    show _ = some (((Leadership.after actions n).step (actions n)).getD _)
    cases h : (Leadership.after actions n).step (actions n) with
    | some s => simp [h]
    | none => simp [Leadership.step]

/-- A pass that finds one orphaned run, with all its gates at one moment and a context as the maintenance
loop arranges it. -/
def passIn (τ : Timeline) (m : Nat) : ReapPass where
  ctxErr n := (τ.state n).shutdown || (τ.state n).term != (τ.state m).term
  entry := m
  settle := m
  orphan := { candidates := .ok [⟨"run", 0⟩], moments := fun _ => ⟨m, m⟩ }
  agentLost := { candidates := .ok [], moments := fun _ => ⟨m, m⟩ }
  dispatchLost := { candidates := .ok [], moments := fun _ => ⟨m, m⟩ }
  dispatchLostWarmPods := none
  podLost := { candidates := .ok [], moments := fun _ => ⟨m, m⟩ }
  warmWorkerLost := { candidates := .ok [], moments := fun _ => ⟨m, m⟩ }
  warmPods := none
  entered := Nat.le_refl m
  orphanLater _ := ⟨Nat.le_refl m, Nat.le_refl m⟩
  agentLostLater _ := ⟨Nat.le_refl m, Nat.le_refl m⟩
  dispatchLostLater _ := ⟨Nat.le_refl m, Nat.le_refl m⟩
  podLostLater _ := ⟨Nat.le_refl m, Nat.le_refl m⟩
  warmWorkerLostLater _ := ⟨Nat.le_refl m, Nat.le_refl m⟩

theorem passIn_inTerm (τ : Timeline) (m : Nat) : (passIn τ m).InTerm τ where
  child n hn := by
    show ((τ.state n).shutdown || _)
    rw [hn, Bool.true_or]
  ended n _ hne := by
    have hne : (τ.state n).term ≠ (τ.state m).term := hne
    show (_ || (τ.state n).term != (τ.state m).term)
    rw [bne_iff_ne.mpr hne, Bool.or_true]

/-- A leader that settles within a minute and steps down later. -/
def settledTerm : Timeline := .of fun n =>
  [.storeStamp, .storeFlag, .informer true, .sweepCompleted, .advance minute.toNat, .markSteppingDown,
    .clearStamp, .clearFlag].getD n (.advance 0)

theorem settledTerm_campaign : Campaign settledTerm where
  release n h := by
    match n with
    | 0 | 1 | 2 | 3 | 4 | 5 | 7 => exact absurd h (by decide)
    | 6 => exact .inl (by decide)
    | n + 8 =>
      simp [settledTerm, Timeline.of] at h
  clear n h := by
    match n with
    | 0 | 1 | 2 | 3 | 4 | 5 | 6 | 7 => exact absurd h (by decide)
    | n + 8 => simp [settledTerm, Timeline.of] at h

theorem reapers_settled_orphan : SettledWrite (passIn settledTerm 5) minute settledTerm 5 := by
  have hmark : (5, .mark (.orphan ⟨"run", 0⟩)) ∈ (passIn settledTerm 5).writesIn minute settledTerm := by
    decide +kernel
  exact reapers_settled settledTerm_campaign (passIn_inTerm _ _) (by decide) (by decide) hmark

/-! ## Without the campaign loop -/

/-- `SetLeading(false)` right after the election, with nothing marked. -/
def droppedTerm : Timeline := .of fun n =>
  [.storeStamp, .storeFlag, .clearStamp, .clearFlag].getD n (.advance 0)

/-- Between the two stores of `SetLeading(false)` a pass finds the flag set and the stamp cleared: it is
not held, and marks a run in the instant of the election. -/
theorem reap_before_settling : ¬ ∀ (τ : Timeline) (p : ReapPass) (grace : Duration), p.InTerm τ →
    0 < grace → ∀ m call, (m, call) ∈ p.writesIn grace τ → SettledWrite p grace τ m := by
  intro h
  obtain ⟨since, hstart, helapsed, -⟩ := (h droppedTerm (passIn droppedTerm 3) minute (passIn_inTerm _ _)
    (by decide) 3 (.mark (.orphan ⟨"run", 0⟩)) (by decide +kernel)).settled
  have hzero : (droppedTerm.state 3).termStart = some 0 := by decide
  obtain rfl := Option.some.inj (hzero.symm.trans hstart)
  exact absurd helapsed (by decide)

end Leoflow
