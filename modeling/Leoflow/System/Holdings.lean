import Leoflow.System.Effects

/-!
# What the parties hold after a step

Where each request, agent, pod, lease and candidate of a sweep comes from: it was there before, or
the step is the one that made it.
-/

namespace Leoflow

open List

namespace World

variable {cfg : Config} {w : World} {a : Action} {ctl : Control}

theorem next_resolve {q : Request} (h : w.next cfg (.resolve q) = some ctl) :
    q ∈ w.ctl.requests ∧ q.stage = .accepted ∧ ∃ r, w.rowFor q.run q.task = some r ∧ ctl = { w.ctl with
        requests := { q with stage := .resolved ⟨r.id, q.run, q.task, r.tryNumber, q.placement⟩ } ::
          w.ctl.requests.erase q } := by
  simp only [next, Option.ite_none_right_eq_some, Option.map_eq_some_iff] at h
  obtain ⟨⟨hq, hs⟩, r, hr, rfl⟩ := h
  exact ⟨hq, hs, r, hr, rfl⟩

theorem next_create {q : Request} {warm : Bool} (h : w.next cfg (.create q warm) = some ctl) :
    ∃ a, q.stage = .resolved a ∧ q ∈ w.ctl.requests ∧ ctl = { w.ctl with
        requests := { q with stage := .created a } :: w.ctl.requests.erase q
        agents := { attempt := a } :: w.ctl.agents
        pods := if warm then w.ctl.pods else a :: w.ctl.pods
        leases := if warm then a :: w.ctl.leases else w.ctl.leases } := by
  simp only [next] at h
  split at h
  next att hs =>
    simp only [Lib.guard_eq_some] at h
    exact ⟨att, hs, h.1, h.2.symm⟩
  · cases h

theorem next_tick_requests {t : TickAction} (h : w.next cfg (.tick t) = some ctl) : ctl.requests = w.ctl.requests ++
      ((Tick.dispatches w.ctl.tick t).map fun d => w.request d.1 d.2.1 d.2.2).toList ∧
    ctl.agents = w.ctl.agents ∧ ctl.pods = w.ctl.pods ∧ ctl.leases = w.ctl.leases ∧
    ctl.reaps = w.ctl.reaps ∧ ctl.clears = w.ctl.clears := by
  simp only [next, Option.map_eq_some_iff] at h
  obtain ⟨t', -, rfl⟩ := h
  exact ⟨rfl, rfl, rfl, rfl, rfl, rfl⟩

section

variable (h : w.next cfg a = some ctl)
include h

/-- A request was there, or was handed over, resolved or carried out by the step. -/
theorem mem_requests {q : Request} (hq : q ∈ ctl.requests) : q ∈ w.ctl.requests ∨ (∃ t run task buffered, a = .tick t ∧
      Tick.dispatches w.ctl.tick t = some (run, task, buffered) ∧ q = w.request run task buffered) ∨
    (∃ q0 ∈ w.ctl.requests, ∃ r, a = .resolve q0 ∧ q0.stage = .accepted ∧ w.rowFor q0.run q0.task = some r ∧
      q = { q0 with stage := .resolved ⟨r.id, q0.run, q0.task, r.tryNumber, q0.placement⟩ }) ∨
    (∃ q0 ∈ w.ctl.requests, ∃ att, q0.stage = .resolved att ∧ q = { q0 with stage := .created att }) := by
  cases a with
  | tick t =>
    rw [(next_tick_requests h).1, mem_append, Option.mem_toList, Option.map_eq_some_iff] at hq
    rcases hq with hq | ⟨⟨run, task, buffered⟩, hd, rfl⟩
    · exact .inl hq
    · exact .inr (.inl ⟨t, run, task, buffered, rfl, hd, rfl⟩)
  | resolve q0 =>
    obtain ⟨hq0, hs, r, hr, rfl⟩ := next_resolve h
    rcases mem_cons.mp hq with rfl | hq
    · exact .inr (.inr (.inl ⟨q0, hq0, r, rfl, hs, hr, rfl⟩))
    · exact .inl (mem_of_mem_erase hq)
  | create q0 warm =>
    obtain ⟨att, hs, hq0, rfl⟩ := next_create h
    rcases mem_cons.mp hq with rfl | hq
    · exact .inr (.inr (.inr ⟨q0, hq0, att, hs, rfl⟩))
    · exact .inl (mem_of_mem_erase hq)
  | requestFails q0 | requestDone q0 =>
    simp only [next, Lib.guard_eq_some] at h
    rw [← h.2] at hq
    exact .inl (mem_of_mem_erase hq)
  | clock => cases h; exact .inl hq
  | setDagRunState =>
    obtain ⟨d, -, rfl⟩ := Option.map_eq_some_iff.mp h
    exact .inl hq
  | _ =>
    simp only [next, Lib.guard_eq_some] at h
    rw [← h.2] at hq
    exact .inl hq

/-- An agent was there, was started by the step, or made a step of its own. -/
theorem mem_agents {g : Agent} (hg : g ∈ ctl.agents) : g ∈ w.ctl.agents ∨
    (∃ q ∈ w.ctl.requests, ∃ warm att, a = .create q warm ∧ q.stage = .resolved att ∧ g = { attempt := att }) ∨
    (∃ g0 ∈ w.ctl.agents, a = .reportRunning g0 ∧ g = { g0 with running := true }) ∨
    (∃ g0 ∈ w.ctl.agents, ∃ o, a = .processEnds g0 o ∧ g0.outcome = none ∧ g = { g0 with outcome := some o }) := by
  cases a with
  | tick t => exact .inl ((next_tick_requests h).2.1 ▸ hg)
  | resolve q =>
    obtain ⟨-, -, r, -, rfl⟩ := next_resolve h
    exact .inl hg
  | create q warm =>
    obtain ⟨att, hs, hq, rfl⟩ := next_create h
    rcases mem_cons.mp hg with rfl | hg
    · exact .inr (.inl ⟨q, hq, warm, att, rfl, hs, rfl⟩)
    · exact .inl hg
  | reportRunning g0 =>
    simp only [next, Lib.guard_eq_some] at h
    rw [← h.2] at hg
    rcases mem_cons.mp hg with rfl | hg
    · exact .inr (.inr (.inl ⟨g0, h.1, rfl, rfl⟩))
    · exact .inl (mem_of_mem_erase hg)
  | processEnds g0 o =>
    simp only [next, Lib.guard_eq_some] at h
    rw [← h.2] at hg
    rcases mem_cons.mp hg with rfl | hg
    · exact .inr (.inr (.inr ⟨g0, h.1.1, o, rfl, h.1.2, rfl⟩))
    · exact .inl (mem_of_mem_erase hg)
  | agentGone g0 =>
    simp only [next, Lib.guard_eq_some] at h
    rw [← h.2] at hg
    exact .inl (mem_of_mem_erase hg)
  | clock => cases h; exact .inl hg
  | setDagRunState =>
    obtain ⟨d, -, rfl⟩ := Option.map_eq_some_iff.mp h
    exact .inl hg
  | _ =>
    simp only [next, Lib.guard_eq_some] at h
    rw [← h.2] at hg
    exact .inl hg

/-- A pod after a step was there before or is that of a resolved request. -/
theorem mem_pods {p : Attempt} (hp : p ∈ ctl.pods) : p ∈ w.ctl.pods ∨ ∃ q ∈ w.ctl.requests, q.stage = .resolved p := by
  cases a with
  | tick t => exact .inl ((next_tick_requests h).2.2.1 ▸ hp)
  | resolve q =>
    obtain ⟨-, -, r, -, rfl⟩ := next_resolve h
    exact .inl hp
  | create q warm =>
    obtain ⟨att, hs, hq, rfl⟩ := next_create h
    cases warm with
    | true => exact .inl hp
    | false =>
      rcases mem_cons.mp hp with rfl | hp
      · exact .inr ⟨q, hq, hs⟩
      · exact .inl hp
  | collect p0 =>
    simp only [next, Lib.guard_eq_some] at h
    rw [← h.2] at hp
    exact .inl (mem_of_mem_erase hp)
  | clock => cases h; exact .inl hp
  | setDagRunState =>
    obtain ⟨d, -, rfl⟩ := Option.map_eq_some_iff.mp h
    exact .inl hp
  | _ =>
    simp only [next, Lib.guard_eq_some] at h
    rw [← h.2] at hp
    exact .inl hp

/-- A candidate of a sweep was there, was taken by the step or was marked by it. -/
theorem mem_reaps {i : Reap} (hi : i ∈ ctl.reaps) : i ∈ w.ctl.reaps ∨
    (∃ c clock, a = .take c clock ∧ c.taken cfg.reapers w.db clock ∧ i = { candidate := c, clock := clock }) ∨
    (∃ i0 ∈ w.ctl.reaps, a = .mark i0 ∧ i0.marked = none ∧
      i = { i0 with marked := some (i0.candidate.applied w.db) }) := by
  cases a with
  | tick t => exact .inl ((next_tick_requests h).2.2.2.2.1 ▸ hi)
  | resolve q =>
    obtain ⟨-, -, r, -, rfl⟩ := next_resolve h
    exact .inl hi
  | create q warm =>
    obtain ⟨att, hs, hq, rfl⟩ := next_create h
    exact .inl hi
  | take c clock =>
    simp only [next, Lib.guard_eq_some] at h
    rw [← h.2] at hi
    rcases mem_cons.mp hi with rfl | hi
    · exact .inr (.inl ⟨c, clock, rfl, h.1, rfl⟩)
    · exact .inl hi
  | mark i0 =>
    simp only [next, Lib.guard_eq_some] at h
    rw [← h.2] at hi
    rcases mem_cons.mp hi with rfl | hi
    · exact .inr (.inr ⟨i0, h.1.1, rfl, h.1.2.1, rfl⟩)
    · exact .inl (mem_of_mem_erase hi)
  | teardown i0 | dropReap i0 =>
    simp only [next, Lib.guard_eq_some] at h
    rw [← h.2] at hi
    exact .inl (mem_of_mem_erase hi)
  | clock => cases h; exact .inl hi
  | setDagRunState =>
    obtain ⟨d, -, rfl⟩ := Option.map_eq_some_iff.mp h
    exact .inl hi
  | _ =>
    simp only [next, Lib.guard_eq_some] at h
    rw [← h.2] at hi
    exact .inl hi

theorem clears_of_next (hc : ∀ run taskIDs onlyFailed opts v, a ≠ .clear run taskIDs onlyFailed opts v)
    (hn : ∀ c, a ≠ .clearNext c) (hf : ∀ c, a ≠ .clearFails c) : ctl.clears = w.ctl.clears := by
  cases a with
  | tick t => exact (next_tick_requests h).2.2.2.2.2
  | resolve q =>
    obtain ⟨-, -, r, -, rfl⟩ := next_resolve h
    rfl
  | create q warm =>
    obtain ⟨att, hs, hq, rfl⟩ := next_create h
    rfl
  | clear run taskIDs onlyFailed opts v => exact absurd rfl (hc run taskIDs onlyFailed opts v)
  | clearNext c => exact absurd rfl (hn c)
  | clearFails c => exact absurd rfl (hf c)
  | clock => cases h; rfl
  | setDagRunState =>
    obtain ⟨d, -, rfl⟩ := Option.map_eq_some_iff.mp h
    rfl
  | _ =>
    simp only [next, Lib.guard_eq_some] at h
    rw [← h.2]

end

end World

end Leoflow
