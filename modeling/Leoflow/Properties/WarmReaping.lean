import Leoflow.Properties.WarmReclaim
import Leoflow.System.ReapedPool

/-!
# Reaping warm attempts

The `warm_worker_id` of a running row decides which of the two reapers owns it. `BindWarmAttempt` writes the
column when the ack is handled, unless the row is not queued yet or the lease is over by then, and it writes
even an empty pod name. An attempt left unbound has no pod of its own, so the pod-lost reaper fails it after
the grace.
-/

namespace Leoflow

open List

/-- The row is bound to `pod`, or to no worker and too young for `ListRunningTasks`. -/
def TaskInstance.Shielded (r : TaskInstance) (now : Time) (grace : Duration) (pod : String) : Prop :=
  r.warmWorkerId = some pod ∨ (r.warmWorkerId = none ∧ ∀ t ∈ r.startedAt, now - grace < t)

instance (r : TaskInstance) (now : Time) (grace : Duration) (pod : String) :
    Decidable (r.Shielded now grace pod) := by
  unfold TaskInstance.Shielded
  infer_instance

namespace ReapedPool

section Statements

variable (cfg : ReaperConfig) (home : String → String) (p : ReapedPool)

/-- No mark that is due matches the row of an attempt that a registered worker executes in a live
pod. `home` is the pod the worker of an identity runs in, whatever it has registered with. -/
def SparesLive : Prop :=
  ∀ c ∈ p.sweeps, c.isDue → ∀ i ∈ p.pool.served, home i.1 ∈ liveNames (c.listing p.pods) →
    ∀ r ∈ p.pool.db.tis, r.attempt = i.2 →
      (Leoflow.markTaskPodLost p.pool.db.now c.taskInstanceID).guard r = false

/-- No sweep has the row as that of another worker or of none. -/
def Unswept (r : TaskInstance) (pod : String) : Prop :=
  ∀ c ∈ p.sweeps, c.taskInstanceID = r.id → c.worker = some pod

/-- A worker that starts an attempt whose row is running finds the row bound to its pod, or unbound and within the
grace, and in no sweep as that of another. Every other step leaves the running row of an executed attempt bound or
within the grace, and a row that has just come to be running is in no sweep as that of another. -/
def BindsInTime : ReapAction → Prop
  | .pool a =>
    (∀ i ∈ p.pool.starts a, ∀ r ∈ p.pool.db.tis, r.attempt = i.2 → r.state = .running →
      r.Shielded p.pool.db.now cfg.podLostGrace (home i.1) ∧ p.Unswept r (home i.1)) ∧
    ∀ i ∈ p.pool.served, ∀ r ∈ p.pool.db.tis, r.attempt = i.2 →
      (a.writes.row p.pool.db r).state = .running →
        (a.writes.row p.pool.db r).Shielded (p.pool.db.now + a.elapsed) cfg.podLostGrace
          (home i.1) ∧ (r.state = .running ∨ p.Unswept r (home i.1))
  | _ => True

instance : Decidable (p.SparesLive home) := by
  unfold SparesLive
  infer_instance

instance (r : TaskInstance) (pod : String) : Decidable (p.Unswept r pod) := by
  unfold Unswept
  infer_instance

instance (a : ReapAction) : Decidable (p.BindsInTime cfg home a) := by
  unfold BindsInTime
  split <;> infer_instance

/-! ## The invariant -/

/-- The running row of an executed attempt is shielded, and a sweep has it only as that of its
worker. -/
structure Guarded : Prop where
  aligned : p.pool.Aligned
  distinct : (p.pool.db.tis.map TaskInstance.id).Nodup
  gone : ∀ {c pods}, .gone c pods ∈ p.sweeps → c.warmWorkerID ∉ liveNames pods
  shielded : ∀ {i}, i ∈ p.pool.served → ∀ {r}, r ∈ p.pool.db.tis → r.attempt = i.2 →
    r.state = .running → r.Shielded p.pool.db.now cfg.podLostGrace (home i.1)
  unswept : ∀ {i}, i ∈ p.pool.served → ∀ {r}, r ∈ p.pool.db.tis → r.attempt = i.2 →
    r.state = .running → p.Unswept r (home i.1)

end Statements

variable {cfg : ReaperConfig} {home : String → String} {p p' : ReapedPool}

theorem Guarded.sparesLive (h : p.Guarded cfg home) : p.SparesLive home := by
  intro c hc hdue i hi hlive r hr hatt
  by_contra hg
  obtain ⟨hid, hrunning⟩ : r.id = c.taskInstanceID ∧ r.state = .running := by
    simpa [Leoflow.markTaskPodLost] using hg
  have hworker := h.unswept hi hr hatt hrunning c hc hid.symm
  cases c with
  | running | bound => cases hdue
  | absent => cases hworker
  | gone c pods => exact h.gone hc (Option.some.inj hworker ▸ hlive)

/-! ## A step of the sweeps -/

theorem eq_of_id (h : (p.pool.db.tis.map TaskInstance.id).Nodup) {r r' : TaskInstance}
    (hr : r ∈ p.pool.db.tis) (hr' : r' ∈ p.pool.db.tis) (hid : r.id = r'.id) : r = r' :=
  inj_on_of_nodup_map h hr hr' hid

/-- Where the pool is left alone, only what is new in a sweep has to be looked at. -/
theorem Guarded.of_sweeps (h : p.Guarded cfg home) (hpool : p'.pool = p.pool)
    (hgone : ∀ {c pods}, .gone c pods ∈ p'.sweeps → .gone c pods ∈ p.sweeps ∨ c.warmWorkerID ∉ liveNames pods)
    (hnew : ∀ c ∈ p'.sweeps, c ∉ p.sweeps → ∀ i ∈ p.pool.served, ∀ r ∈ p.pool.db.tis,
      r.attempt = i.2 → r.state = .running → c.taskInstanceID = r.id → c.worker = some (home i.1)) :
    p'.Guarded cfg home where
  aligned := hpool ▸ h.aligned
  distinct := hpool ▸ h.distinct
  gone hc := (hgone hc).elim h.gone id
  shielded := by
    rw [hpool]
    exact h.shielded
  unswept := by
    rw [hpool]
    intro i hi r hr hatt hrunning c hc hid
    by_cases hold : c ∈ p.sweeps
    · exact h.unswept hi hr hatt hrunning c hold hid
    · exact hnew c hc hold i hi r hr hatt hrunning hid

theorem Guarded.listed (h : p.Guarded cfg home) {i : String × AttemptKey} (hi : i ∈ p.pool.served)
    {r : TaskInstance} (hr : r ∈ p.pool.db.tis) (hatt : r.attempt = i.2) (hrunning : r.state = .running) :
    (∀ c ∈ listRunningTasks p.pool.db cfg.podLostGrace, c.taskInstanceID ≠ r.id) ∧
      ∀ c ∈ listWarmBoundRunningTIs p.pool.db, c.taskInstanceID = r.id → c.warmWorkerID = home i.1 := by
  have hshield := h.shielded hi hr hatt hrunning
  constructor
  · intro c hc hid
    obtain ⟨r', hr', rfl⟩ := mem_map.mp hc
    obtain ⟨hmem, hkeep⟩ := mem_of_mem_listTasks hr'
    cases eq_of_id h.distinct hmem hr hid
    simp only [Bool.and_eq_true, Option.isNone_iff_eq_none, Option.any_eq_true,
      decide_eq_true_eq] at hkeep
    obtain ⟨⟨-, hnone⟩, t, ht, hle⟩ := hkeep
    rcases hshield with hbound | ⟨-, hyoung⟩
    · cases hnone.symm.trans hbound
    · exact absurd hle (not_le.mpr (hyoung t ht))
  · intro c hc hid
    obtain ⟨r', hr', rfl⟩ := mem_map.mp hc
    obtain ⟨hmem, hkeep⟩ := mem_of_mem_listTasks hr'
    cases eq_of_id h.distinct hmem hr hid
    obtain ⟨-, hsome⟩ := (Bool.and_eq_true _ _).mp hkeep
    rcases hshield with hbound | ⟨hnone, -⟩
    · simp [hbound]
    · rw [hnone] at hsome
      cases hsome

theorem Guarded.advance (h : p.Guarded cfg home) {c c' : SweptRow} (hc : c ∈ p.sweeps)
    (hid : c'.taskInstanceID = c.taskInstanceID) (hworker : c'.worker = c.worker)
    (hgone : ∀ {b pods}, c' = .gone b pods → b.warmWorkerID ∉ liveNames pods) :
    Guarded cfg home { p with sweeps := c' :: p.sweeps.erase c } := by
  refine h.of_sweeps rfl (fun hb => ?_) fun b hb hnew i hi r hr hatt hrunning hrow => ?_
  · rcases mem_cons.mp hb with he | hb
    · exact .inr (hgone he.symm)
    · exact .inl (mem_of_mem_erase hb)
  · rcases mem_cons.mp hb with rfl | hb
    · rw [hworker]
      exact h.unswept hi hr hatt hrunning c hc (hid ▸ hrow)
    · exact absurd (mem_of_mem_erase hb) hnew

theorem Guarded.list (h : p.Guarded cfg home) {c : SweptRow} (hdue : c.isDue = false)
    (hnew : ∀ i ∈ p.pool.served, ∀ r ∈ p.pool.db.tis, r.attempt = i.2 → r.state = .running →
      c.taskInstanceID = r.id → c.worker = some (home i.1)) : Guarded cfg home { p with sweeps := c :: p.sweeps } := by
  refine h.of_sweeps rfl (fun hb => ?_) fun b hb hold => ?_
  · rcases mem_cons.mp hb with rfl | hb
    · cases hdue
    · exact .inl hb
  · rcases mem_cons.mp hb with rfl | hb
    · exact hnew
    · exact absurd hb hold

theorem Guarded.mark (h : p.Guarded cfg home) (c : SweptRow) : Guarded cfg home { p with
        pool.db := p.pool.db.write (.task (.markTaskPodLost c.taskInstanceID))
        sweeps := p.sweeps.erase c } := by
  -- A row that is still running is one the mark did not match.
  have hrow : ∀ {r'}, r' ∈ (p.pool.db.write (.task (.markTaskPodLost c.taskInstanceID))).tis →
      r'.state = .running → r' ∈ p.pool.db.tis := by
    intro r' hr' hrunning
    rw [Database.write_task_tis] at hr'
    obtain ⟨r, hr, rfl⟩ := mem_map.mp hr'
    rcases Write.row_eq_or_statement p.pool.db (.task (.markTaskPodLost c.taskInstanceID)) r with
      ⟨-, he⟩ | ⟨s, hs, hg, he⟩
    · rwa [he]
    · cases hs
      rw [he, Lib.Update.row_of_guard _ hg] at hrunning
      cases hrunning
  exact
    { aligned := h.aligned
      distinct := by
        rw [Database.write_task_tis, map_map]
        simpa [Function.comp_def] using h.distinct
      gone := fun hc => h.gone (mem_of_mem_erase hc)
      shielded := fun hi r hr hatt hrunning => h.shielded hi (hrow hr hrunning) hatt hrunning
      unswept := fun hi r hr hatt hrunning b hb =>
        h.unswept hi (hrow hr hrunning) hatt hrunning b (mem_of_mem_erase hb) }

/-! ## A step of the pool -/

/-- The steps of the pool. -/
theorem Guarded.pool_step (h : p.Guarded cfg home) {a : PoolAction} {pool : WarmPool}
    (hc : p.BindsInTime cfg home (.pool a)) (hs : p.pool.step a = some pool) : Guarded cfg home { p with pool } := by
  obtain ⟨htis, hnow⟩ := WarmPool.db_step hs
  -- The rows after the step, each with what the condition says of it.
  have hrows : ∀ {i}, i ∈ pool.served → ∀ {r}, r ∈ pool.db.tis → r.attempt = i.2 →
      r.state = .running → r.Shielded pool.db.now cfg.podLostGrace (home i.1) ∧
        p.Unswept r (home i.1) := by
    intro i hi r' hr' hatt hrunning
    rw [htis] at hr'
    obtain ⟨r, hr, rfl⟩ := mem_map.mp hr'
    rw [hnow]
    have hatt : r.attempt = i.2 := by
      rw [← hatt]
      simp [TaskInstance.attempt, Write.row_tryNumber_of_running hrunning]
    rcases WarmPool.served_step h.aligned hs hi with hi | hi
    · obtain ⟨hshield, hkept⟩ := hc.2 i hi r hr hatt hrunning
      refine ⟨hshield, fun b hb hid => ?_⟩
      rw [Write.row_id] at hid
      exact hkept.elim (fun hrun => h.unswept hi hr hatt hrun b hb hid) fun hfree => hfree b hb hid
    · obtain ⟨hwrites, helapsed⟩ := WarmPool.write_of_starts hi
      rw [hwrites, Write.row_of_none rfl] at hrunning ⊢
      rw [helapsed]
      obtain ⟨hshield, hfree⟩ := hc.1 i hi r hr hatt hrunning
      exact ⟨by simpa using hshield, hfree⟩
  exact
    { aligned := WarmPool.aligned_step h.aligned (WarmPool.step_effect hs)
      distinct := by
        rw [htis, map_map]
        simpa [Function.comp_def] using h.distinct
      gone := h.gone
      shielded := fun hi r hr hatt hrunning => (hrows hi hr hatt hrunning).1
      unswept := fun hi r hr hatt hrunning => (hrows hi hr hatt hrunning).2 }

/-- A step that binds in time keeps the running rows of executed attempts shielded. -/
theorem guarded_step {a : ReapAction} (h : p.Guarded cfg home) (hc : p.BindsInTime cfg home a)
    (hs : p.step cfg a = some p') : p'.Guarded cfg home := by
  cases a with
  | pool a =>
    obtain ⟨pool, hpool, rfl⟩ := Option.map_eq_some_iff.mp hs
    exact h.pool_step hc hpool
  | podsChange pods =>
    cases hs
    exact h.of_sweeps rfl .inl fun c hc hnew => absurd hc hnew
  | listRunningTasks c now =>
    simp only [step, Option.ite_none_right_eq_some] at hs
    obtain ⟨htaken, hs⟩ := hs
    cases hs
    simp only [Candidate.taken, Bool.and_eq_true, contains_iff_mem] at htaken
    refine h.list rfl fun i hi r hr hatt hrunning hid => ?_
    exact absurd hid ((h.listed hi hr hatt hrunning).1 c htaken.1.1)
  | taskPodPresence c ans =>
    simp only [step, Option.ite_none_right_eq_some] at hs
    obtain ⟨⟨hc, -⟩, hs⟩ := hs
    cases hs
    refine h.advance hc rfl rfl fun he => ?_
    cases he
  | listWarmBoundRunningTIs c =>
    simp only [step, Option.ite_none_right_eq_some, Candidate.taken, contains_iff_mem] at hs
    obtain ⟨htaken, hs⟩ := hs
    cases hs
    refine h.list rfl fun i hi r hr hatt hrunning hid => ?_
    exact congrArg some ((h.listed hi hr hatt hrunning).2 c htaken hid)
  | listWarmPods c =>
    simp only [step, Option.ite_none_right_eq_some] at hs
    obtain ⟨⟨hc, hgone⟩, hs⟩ := hs
    cases hs
    refine h.advance hc rfl rfl fun he => ?_
    cases he
    exact hgone
  | markTaskPodLost c =>
    simp only [step, Option.ite_none_right_eq_some] at hs
    obtain ⟨-, hs⟩ := hs
    cases hs
    exact h.mark c
  | leave c =>
    cases hs
    refine h.of_sweeps rfl (fun hc => .inl (mem_of_mem_erase hc)) fun b hb hnew => ?_
    exact absurd (mem_of_mem_erase hb) hnew

theorem guarded_reaches (h : (system cfg).Reaches (BindsInTime cfg home) p) : p.Guarded cfg home := by
  refine h.invariant (fun p hi => ?_) fun p a p' _ hp hc hs => guarded_step hp hc hs
  obtain ⟨db, hdb, rfl⟩ := hi
  exact
    { aligned := rfl
      distinct := hdb
      gone := fun hc => by cases hc
      shielded := fun hi => by cases hi
      unswept := fun hi => by cases hi }

end ReapedPool

open ReapedPool

/-- **A live worker's attempt is not reaped.** In every run in which the running rows of the attempts
that registered workers execute are bound to the worker's pod before the grace is over, neither
reaper is about to mark an attempt that a registered worker executes in a live pod. -/
theorem warm_attempt_is_spared {cfg : ReaperConfig} {home : String → String} {p : ReapedPool}
    (h : (system cfg).Reaches (BindsInTime cfg home) p) : p.SparesLive home :=
  (guarded_reaches h).sparesLive

/-! ## Schedules -/

/-- The ack of the attempt is handled and its binding written. -/
def bindsAttempt : List PoolAction :=
  [.pump 0, .bindWarmAttempt ⟨"run", "task", 1, "w1"⟩ true]

/-- The worker executes the attempt, reports it as running, and the grace goes by. -/
def outlivesGrace : List PoolAction :=
  [.stream 0 .runOneAttempt, .write (.reportTaskResult "run" "task" .running none none 1),
    .clock (60 * second).toNat]

/-- A worker's pod goes away while it executes a bound attempt, and the warm-worker-lost reaper is
about to mark it. -/
theorem warm_attempt_is_spared_bound :
    ∃ p, (system {}).runIf (fun p a => decide (p.BindsInTime {} id a)) { pool := scheduledTask }
        ((handsOut "w1" "a1" ++ acks 0 ++ bindsAttempt ++ outlivesGrace).map .pool ++
          [.listWarmBoundRunningTIs ⟨"ti", "run", "task", 1, "w1"⟩,
            .listWarmPods ⟨"ti", "run", "task", 1, "w1"⟩]) = some p ∧
      p.pool.served = [("w1", "run", "task", 1)] ∧ (∃ c ∈ p.sweeps, c.isDue) ∧
      p.SparesLive id := by
  refine Lib.exists_eq_some (by decide +kernel) fun hrun => ?_
  exact ⟨by decide +kernel, by decide +kernel, warm_attempt_is_spared
    (Lib.System.Reaches.runIf (.init ⟨_, by decide, rfl⟩) (fun _ _ hc => of_decide_eq_true hc) hrun)⟩

/-- The worker acks the assignment before the scheduler records it as queued. -/
def acksEarly : List PoolAction :=
  [.connect "w1" "v1" (.register "v1" "w1"), .assign "v1" ⟨"a1", "run", "task", 1⟩ "w1"] ++
    acks 0 ++ bindsAttempt ++ [.write (.updateTaskInstanceStateByRunTask "run" "task" .queued)]

/-- The ack is handled before the row is queued, so the binding matches nothing, and the pod-lost
reaper finds no pod of an attempt that a worker executes in a live pod. -/
theorem early_ack_is_reaped :
    ¬ ∀ cfg home p, (system cfg).Reachable p → p.SparesLive home := by
  intro h
  have hr : (system {}).Reachable (((system {}).run { pool := scheduledTask }
      ([.podsChange [⟨"w1", "v1", false, "tenant"⟩]] ++
        (acksEarly ++ outlivesGrace).map .pool ++
        [.listRunningTasks ⟨"ti", "run", "task", 1, 1⟩ (1 + 60 * second),
          .taskPodPresence ⟨"ti", "run", "task", 1, 1⟩ {}])).get (by decide +kernel)) :=
    .run (.init ⟨_, by decide, rfl⟩) (Option.some_get _).symm
  exact absurd (h {} id _ hr) (by decide +kernel)

end Leoflow
