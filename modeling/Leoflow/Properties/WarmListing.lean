import Leoflow.Executor.Sweeps

/-!
# A failed warm-pod listing

A queued attempt that a warm worker acked has no task pod, so only the listing of the warm pods can
tell the dispatch-lost reaper that its worker is gone. `liveWarmPodNames` answers a LIST error with
the empty set, which shows every worker gone: the attempt is then marked unless something else defers
it.
-/

namespace Leoflow

open Executor (WarmPodInfo)

namespace DispatchLostSweep

variable (s : DispatchLostSweep)

/-- The sweep marks an attempt bound to a warm worker only if its own listing succeeded and showed
the worker absent or terminal. -/
def KillsAreListed : Prop :=
  ∀ calls, s.run = .ok calls → ∀ c, .mark c ∈ calls → c.warmWorkerID ≠ "" →
    ∃ pods, s.warmPods = some (.ok pods) ∧ ∀ p ∈ pods, p.name = c.warmWorkerID → p.terminal

/-- The sweep's listing of the warm pods succeeded. -/
def Listed : Prop := ∃ pods, s.warmPods = some (.ok pods)

/-- Every bound candidate past the threshold is deferred by the presence cache or by the read of its
own pods, or finds the gate closed. -/
def Shielded : Prop :=
  ∀ cs, s.candidates = .ok cs → ∀ i c, cs[i]? = some c → c.warmWorkerID ≠ "" →
    isDispatchLost c s.threshold s.now →
    s.podDefers (s.answers i) ∨ (s.answers i).gate = false

variable {s}

theorem run_eq_ok {calls : List (SweepCall StaleQueuedCandidate)} (h : s.run = .ok calls) :
    ∃ cs, s.candidates = .ok cs ∧ calls = sweep s.takes (fun _ => s.pods) cs s.answers := by
  unfold run DispatchLostSweep.calls at h
  cases hc : s.candidates with
  | error e =>
    rw [hc] at h
    cases h
  | ok cs =>
    rw [hc] at h
    cases h
    exact ⟨cs, rfl, rfl⟩

theorem takes_iff {c : StaleQueuedCandidate} {ans : Answers} (hc : c.warmWorkerID ≠ "") :
    s.takes c ans ↔ isDispatchLost c s.threshold s.now ∧
      c.warmWorkerID ∉ liveWarmPodNames s.warmPods ∧ s.podDefers ans = false := by
  simp only [takes]
  split
  · simp_all
  · split
    · simp_all
    · simp_all

/-- Without a successful listing no worker counts as live. -/
theorem liveWarmPodNames_of_not_listed (h : ¬ s.Listed) : liveWarmPodNames s.warmPods = [] := by
  cases hw : s.warmPods with
  | none => rfl
  | some listed =>
    cases listed with
    | error => rfl
    | ok pods => exact absurd ⟨pods, hw⟩ h

end DispatchLostSweep

open DispatchLostSweep

/-- **Marks of bound attempts.** A sweep marks bound attempts only on a listing that shows their
worker gone exactly when the listing succeeds or every bound candidate past the threshold is deferred
by something else. -/
theorem kills_are_listed_iff (s : DispatchLostSweep) : s.KillsAreListed ↔ s.Listed ∨ s.Shielded := by
  constructor
  · intro h
    by_cases hl : s.Listed
    · exact .inl hl
    · refine .inr fun cs hcs i c hi hc hlost => ?_
      by_contra hno
      rw [not_or] at hno
      have hgate : (s.answers i).gate := by simpa using hno.2
      have htakes : s.takes c (s.answers i) := by
        rw [takes_iff hc, liveWarmPodNames_of_not_listed hl]
        exact ⟨hlost, List.not_mem_nil, by simpa using hno.1⟩
      have hrun : s.run = .ok (sweep s.takes (fun _ => s.pods) cs s.answers) := by
        unfold run DispatchLostSweep.calls
        rw [hcs]
        rfl
      obtain ⟨pods, hpods, -⟩ := h _ hrun c (mark_mem_sweep.mpr ⟨i, hi, htakes, hgate⟩) hc
      exact hl ⟨pods, hpods⟩
  · intro h calls hrun c hm hc
    obtain ⟨cs, hcs, rfl⟩ := run_eq_ok hrun
    obtain ⟨i, hi, ht, hgate⟩ := mark_mem_sweep.mp hm
    obtain ⟨hlost, hlive, hdefer⟩ := (takes_iff hc).mp ht
    rcases h with ⟨pods, hpods⟩ | h
    · refine ⟨pods, hpods, ?_⟩
      rw [hpods] at hlive
      exact not_mem_liveNames.mp hlive
    · rcases h cs hcs i c hi hc hlost with hd | hg
      · cases hdefer.symm.trans hd
      · cases hgate.symm.trans hg

/-- An attempt bound to the worker `warm-1` three minutes ago, in a sweep whose LIST of the warm pods
fails. -/
def failedListing : DispatchLostSweep where
  threshold := 3 * minute
  candidates := .ok [⟨"ti", "run", "task", 1, 1, "warm-1"⟩]
  warmPods := some (.error "apiserver unavailable")
  now := 180000000001
  answers _ := {}

/-- The sweep marks the attempt. -/
theorem failed_listing_kills : ¬ ∀ s : DispatchLostSweep, s.KillsAreListed := by
  intro h
  have hrun : failedListing.run = .ok [.mark ⟨"ti", "run", "task", 1, 1, "warm-1"⟩,
      .deleteTaskPod ⟨"ti", "run", "task", 1, 1, "warm-1"⟩] := by rfl
  obtain ⟨pods, hpods, -⟩ := h failedListing _ hrun _ List.mem_cons_self (by decide)
  cases hpods

end Leoflow
