import Leoflow.AgentRPC.ServedAttempts
import Leoflow.Executor.Sweeps

/-!
# The warm pool and its reapers

The warm pool together with the sweeps that split the running rows by `warm_worker_id`: the pod-lost reaper takes the
rows without one and asks for a pod of the attempt, the warm-worker-lost reaper takes the others and asks whether the
worker's pod is listed. Each candidate is listed, decided and marked in steps of its own.
-/

namespace Leoflow

open Executor (WarmPodInfo)

/-- A candidate of one of the two sweeps: listed, or found without a pod and about to be marked. One of the
warm-worker-lost reaper goes with the pods its sweep has listed. -/
inductive SweptRow where
  | running (c : PodLostCandidate)
  | absent (c : PodLostCandidate)
  | bound (c : WarmBoundTI)
  | gone (c : WarmBoundTI) (pods : List WarmPodInfo)
deriving DecidableEq

namespace SweptRow

/-- The row that a sweep has listed. -/
def taskInstanceID : SweptRow → String
  | running c | absent c => c.taskInstanceID
  | bound c | gone c _ => c.taskInstanceID

/-- The worker the row was listed with. -/
def worker : SweptRow → Option String
  | running _ | absent _ => none
  | bound c | gone c _ => some c.warmWorkerID

/-- Only the mark is left to do. -/
def isDue : SweptRow → Bool
  | absent _ | gone .. => true
  | running _ | bound _ => false

/-- The warm pods as the candidate's sweep has listed them. The pod-lost reaper lists none, so for
it these are the pods `ListWarmPods` would answer with. -/
def listing (answer : List WarmPodInfo) : SweptRow → List WarmPodInfo
  | gone _ pods => pods
  | _ => answer

end SweptRow

/-- The pool, what `ListWarmPods` answers, and the candidates of the sweeps. -/
structure ReapedPool where
  pool : WarmPool
  pods : List WarmPodInfo := []
  sweeps : List SweptRow := []

/-- The steps of the pool, of the cluster, and of the sweeps. `now` is the clock as the pod-lost
reaper has read it. -/
inductive ReapAction where
  | pool (a : PoolAction)
  | podsChange (pods : List WarmPodInfo)
  | listRunningTasks (c : PodLostCandidate) (now : Time)
  | taskPodPresence (c : PodLostCandidate) (ans : Answers)
  | listWarmBoundRunningTIs (c : WarmBoundTI)
  | listWarmPods (c : WarmBoundTI)
  | markTaskPodLost (c : SweptRow)
  | leave (c : SweptRow)

namespace ReapedPool

/-- One step. A presence cache that is not wired shows no pod. `leave` is a candidate that is deferred, finds the
gate closed or is dropped with its sweep. -/
def step (cfg : ReaperConfig) (p : ReapedPool) : ReapAction → Option ReapedPool
  | .pool a => (p.pool.step a).map fun pool => { p with pool }
  | .podsChange pods => some { p with pods }
  | .listRunningTasks c now =>
    if (Candidate.podLost c).taken cfg p.pool.db now then
      some { p with sweeps := .running c :: p.sweeps }
    else none
  | .taskPodPresence c ans =>
    if .running c ∈ p.sweeps ∧ podIsAbsent true ans then
      some { p with sweeps := .absent c :: p.sweeps.erase (.running c) }
    else none
  | .listWarmBoundRunningTIs c =>
    if (Candidate.warmWorkerLost c).taken cfg p.pool.db p.pool.db.now then
      some { p with sweeps := .bound c :: p.sweeps }
    else none
  | .listWarmPods c =>
    if .bound c ∈ p.sweeps ∧ c.warmWorkerID ∉ liveNames p.pods then
      some { p with sweeps := .gone c p.pods :: p.sweeps.erase (.bound c) }
    else none
  | .markTaskPodLost c =>
    if c ∈ p.sweeps ∧ c.isDue then
      some { p with
        pool.db := p.pool.db.write (.task (.markTaskPodLost c.taskInstanceID))
        sweeps := p.sweeps.erase c }
    else none
  | .leave c => some { p with sweeps := p.sweeps.erase c }

/-- The warm pool under the sweeps of two reapers. -/
def system (cfg : ReaperConfig) : Lib.System ReapedPool ReapAction where
  init p := ∃ db : Database, (db.tis.map TaskInstance.id).Nodup ∧ p = { pool := { db } }
  step := step cfg

/-- Two attempts that have been running for the grace, one in a pod of its own and one of a warm worker. -/
def twoRunning : ReapedPool where
  pool := { db := {
    now := 1 + 60 * second
    runs := []
    tis := [("ti", "task", none), ("ti2", "task2", some "w1")].map fun (id, taskId, warmWorkerId) =>
      { id, taskId, warmWorkerId, dagRunId := "run", tryNumber := 1, maxTries := 1, state := .running
        startedAt := some 1 }
  } }

/-- What a run of the pod-lost reaper marks is listed and found absent by steps of the system. -/
theorem due_of_podLostRun {cache : Bool} {now : Time} {answers : Nat → Answers}
    {calls : List (SweepCall PodLostCandidate)} {c : PodLostCandidate} (hnow : now ≤ p.pool.db.now)
    (h : podLostRun cfg.podLostGrace true cache
      (.ok (listRunningTasks p.pool.db cfg.podLostGrace)) now answers = .ok calls) (hc : .mark c ∈ calls) :
    ∃ ans p', (system cfg).run p [.listRunningTasks c now, .taskPodPresence c ans] = some p' ∧
      p'.pool = p.pool ∧ .absent c ∈ p'.sweeps := by
  cases h
  obtain ⟨i, hi, htakes, -⟩ := mark_mem_sweep.mp hc
  obtain ⟨hpast, habsent⟩ := (Bool.and_eq_true _ _).mp htakes
  have hlisted : (Candidate.podLost c).taken cfg p.pool.db now := by
    simp [Candidate.taken, List.mem_of_getElem? hi, hpast, hnow]
  let ans : Answers := { answers i with cachedPodActive := cache && (answers i).cachedPodActive }
  have hans : podIsAbsent true ans := by simpa [podIsAbsent, ans] using habsent
  refine ⟨ans, { p with sweeps := .absent c :: p.sweeps }, ?_, rfl, List.mem_cons_self⟩
  simp [Lib.System.run, Lib.System.runIf, system, step, hlisted, hans]

theorem due_of_podLostRun_first : ∃ ans p', (system {}).run twoRunning [.listRunningTasks ⟨"ti", "run", "task", 1, 1⟩
      (1 + 60 * second), .taskPodPresence ⟨"ti", "run", "task", 1, 1⟩ ans] = some p' ∧
    p'.pool = twoRunning.pool ∧ .absent ⟨"ti", "run", "task", 1, 1⟩ ∈ p'.sweeps :=
  due_of_podLostRun (by decide) (rfl : podLostRun _ true false _ _ (fun _ => {}) = _) (by decide +kernel)

/-- What a run of the warm-worker-lost reaper marks is listed and found gone by steps of the
system. -/
theorem due_of_warmWorkerLostRun {answers : Nat → Answers} {calls : List (SweepCall WarmBoundTI)} {c : WarmBoundTI}
    (h : warmWorkerLostRun (.ok (listWarmBoundRunningTIs p.pool.db)) (some (.ok p.pods)) answers =
      .ok calls) (hc : .mark c ∈ calls) :
    ∃ p', (system cfg).run p [.listWarmBoundRunningTIs c, .listWarmPods c] = some p' ∧
      p'.pool = p.pool ∧ .gone c p.pods ∈ p'.sweeps := by
  simp only [warmWorkerLostRun, warmWorkerLostCalls, Except.bind] at h
  split at h <;> cases h
  · cases hc
  · obtain ⟨i, hi, htakes, -⟩ := mark_mem_sweep.mp hc
    have hgone : c.warmWorkerID ∉ liveNames p.pods := by simpa using htakes
    have hlisted : (Candidate.warmWorkerLost c).taken cfg p.pool.db p.pool.db.now := by
      simp [Candidate.taken, List.mem_of_getElem? hi]
    refine ⟨{ p with sweeps := .gone c p.pods :: p.sweeps }, ?_, rfl, List.mem_cons_self⟩
    simp [Lib.System.run, Lib.System.runIf, system, step, hlisted, hgone]

theorem due_of_warmWorkerLostRun_second : ∃ p', (system {}).run twoRunning [.listWarmBoundRunningTIs
      ⟨"ti2", "run", "task2", 1, "w1"⟩, .listWarmPods ⟨"ti2", "run", "task2", 1, "w1"⟩] = some p' ∧
    p'.pool = twoRunning.pool ∧ .gone ⟨"ti2", "run", "task2", 1, "w1"⟩ [] ∈ p'.sweeps :=
  due_of_warmWorkerLostRun (rfl : warmWorkerLostRun _ _ (fun _ => {}) = _) (by decide +kernel)

end ReapedPool

end Leoflow
