import Leoflow.Storage.Database

/-!
# The reapers

The five reapers of `internal/executor`: what each lists, which listed candidates it takes, the mark
it writes and the teardown that follows. A sweep lists once and then works its candidates off one by
one, so other writers run between a listing and its marks.
-/

namespace Leoflow

/-! ## Candidates -/

/-- A running run and when something last happened in it. -/
structure ReapCandidate where
  runID : String
  lastActivity : Time
deriving DecidableEq

/-- A running task instance and its last heartbeat. -/
structure AgentLostCandidate where
  taskInstanceID : String
  dagRunID : String
  taskID : String
  tryNumber : Nat
  lastHeartbeat : Time
deriving DecidableEq

/-- A `NULL` `queued_at` is the zero time. -/
structure StaleQueuedCandidate where
  taskInstanceID : String
  dagRunID : String
  taskID : String
  tryNumber : Nat
  queuedAt : Time
  warmWorkerID : String
deriving DecidableEq

/-- A running task instance and when it started. -/
structure PodLostCandidate where
  taskInstanceID : String
  dagRunID : String
  taskID : String
  tryNumber : Nat
  runningSince : Time
deriving DecidableEq

/-- A running task instance that is bound to a warm worker. -/
structure WarmBoundTI where
  taskInstanceID : String
  dagRunID : String
  taskID : String
  tryNumber : Nat
  warmWorkerID : String
deriving DecidableEq

/-! ## Thresholds -/

/-- Nothing has happened in the run for the threshold. -/
def isOrphaned (c : ReapCandidate) (threshold : Duration) (now : Time) : Bool :=
  c.lastActivity == 0 || decide (now - c.lastActivity ≥ threshold)

/-- The agent has been silent for the threshold. One that never sent a heartbeat is not. -/
def isAgentLost (c : AgentLostCandidate) (threshold : Duration) (now : Time) : Bool :=
  c.lastHeartbeat != 0 && decide (now - c.lastHeartbeat ≥ threshold)

/-- The task has been queued for the threshold. -/
def isDispatchLost (c : StaleQueuedCandidate) (threshold : Duration) (now : Time) : Bool :=
  c.queuedAt != 0 && decide (now - c.queuedAt ≥ threshold)

/-- The task has been running for the grace, so its pod should be there. -/
def isPodLostCandidate (c : PodLostCandidate) (grace : Duration) (now : Time) : Bool :=
  c.runningSince != 0 && decide (now - c.runningSince ≥ grace)

/-! ## Listings -/

/-- The Unix epoch, which `COALESCE` gives for a missing time. -/
def epoch : Time := 62135596800 * second

/-- `GREATEST(COALESCE(MAX(ti.ended_at), 'epoch'), …, dr.queued_at)`. -/
def lastActivity (d : DagRun) (tis : List TaskInstance) : Time :=
  (tis.filterMap TaskInstance.endedAt ++ tis.filterMap TaskInstance.startedAt ++
    d.startedAt.toList ++ [epoch]).foldl max d.queuedAt

/-- A run `ListOrphanCandidates` selects: running, with no task instance scheduled, queued or
running. -/
def isOrphanCandidate (db : Database) (d : DagRun) : Bool :=
  d.state == .running && !db.tis.any fun r => r.dagRunId == d.id && r.state.isActive

/-- `ListOrphanCandidates`: the first hundred, oldest first. -/
def listOrphanCandidates (db : Database) : List ReapCandidate :=
  (((db.runs.filter (isOrphanCandidate db)).insertionSort fun a b => a.queuedAt ≤ b.queuedAt).take
    100).map fun d => ⟨d.id, lastActivity d (db.tis.filter fun r => r.dagRunId == d.id)⟩

theorem mem_of_mem_listOrphanCandidates {db : Database} {c : ReapCandidate}
    (h : c ∈ listOrphanCandidates db) : ∃ d ∈ db.runs, isOrphanCandidate db d ∧
      c = ⟨d.id, lastActivity d (db.tis.filter fun r => r.dagRunId == d.id)⟩ := by
  obtain ⟨d, hd, rfl⟩ := List.mem_map.mp h
  have hd := List.mem_of_mem_take hd
  rw [List.mem_insertionSort, List.mem_filter] at hd
  exact ⟨d, hd.1, hd.2, rfl⟩

theorem le_foldl_max (l : List Time) (a : Time) : a ≤ l.foldl max a ∧ ∀ x ∈ l, x ≤ l.foldl max a := by
  induction l generalizing a with
  | nil => exact ⟨le_rfl, fun x hx => by cases hx⟩
  | cons y l ih =>
    obtain ⟨hacc, hmem⟩ := ih (max a y)
    refine ⟨(le_max_left a y).trans hacc, fun x hx => ?_⟩
    rcases List.mem_cons.mp hx with rfl | hx
    · exact (le_max_right a x).trans hacc
    · exact hmem x hx

/-- The last activity is at least every end of a task, and never before the epoch. -/
theorem le_lastActivity (d : DagRun) (tis : List TaskInstance) : epoch ≤ lastActivity d tis ∧
      ∀ r ∈ tis, ∀ t ∈ r.endedAt, t ≤ lastActivity d tis := by
  have hle := (le_foldl_max (tis.filterMap TaskInstance.endedAt ++
    tis.filterMap TaskInstance.startedAt ++ d.startedAt.toList ++ [epoch]) d.queuedAt).2
  refine ⟨hle epoch (by simp), fun r hr t ht => hle t ?_⟩
  simp only [List.mem_append, List.mem_filterMap]
  exact .inl (.inl (.inl ⟨r, hr, ht⟩))

/-- `ORDER BY col`, the `NULL`s last. -/
def nullsLast (a b : Option Time) : Bool :=
  match a, b with
  | some x, some y => decide (x ≤ y)
  | none, some _ => false
  | _, none => true

/-- The rows of one of the task listings: a filter, an order and `LIMIT 100`. -/
def listTasks (db : Database) (keep : TaskInstance → Bool) (by_ : TaskInstance → Option Time) :
    List TaskInstance :=
  ((db.tis.filter keep).insertionSort fun a b => nullsLast (by_ a) (by_ b)).take 100

theorem mem_of_mem_listTasks {db : Database} {keep : TaskInstance → Bool}
    {by_ : TaskInstance → Option Time} {r : TaskInstance} (h : r ∈ listTasks db keep by_) :
    r ∈ db.tis ∧ keep r := by
  have h := List.mem_of_mem_take h
  rw [List.mem_insertionSort, List.mem_filter] at h
  exact h

/-- `ListAgentLostCandidates`. -/
def listAgentLostCandidates (db : Database) : List AgentLostCandidate :=
  (listTasks db (fun r => r.state == .running && r.lastHeartbeatAt.isSome) TaskInstance.lastHeartbeatAt).map fun r =>
    ⟨r.id, r.dagRunId, r.taskId, r.tryNumber, r.lastHeartbeatAt.getD 0⟩

/-- `ListStaleQueuedCandidates`. -/
def listStaleQueuedCandidates (db : Database) : List StaleQueuedCandidate :=
  (listTasks db (fun r => r.state == .queued) TaskInstance.queuedAt).map fun r =>
    ⟨r.id, r.dagRunId, r.taskId, r.tryNumber, r.queuedAt.getD 0, r.warmWorkerId.getD ""⟩

/-- Running, not on a warm worker, and started at least the grace ago. -/
def listRunningTasks (db : Database) (grace : Duration) : List PodLostCandidate :=
  (listTasks db (fun r => r.state == .running && r.warmWorkerId.isNone &&
      r.startedAt.any fun t => decide (t ≤ db.now - grace)) TaskInstance.startedAt).map fun r =>
    ⟨r.id, r.dagRunId, r.taskId, r.tryNumber, r.startedAt.getD 0⟩

/-- `ListWarmBoundRunningTIs`. -/
def listWarmBoundRunningTIs (db : Database) : List WarmBoundTI :=
  (listTasks db (fun r => r.state == .running && r.warmWorkerId.isSome) TaskInstance.startedAt).map fun r =>
    ⟨r.id, r.dagRunId, r.taskId, r.tryNumber, r.warmWorkerId.getD ""⟩

/-! ## `reapOne` -/

/-- A candidate a sweep has taken. -/
inductive Candidate where
  | orphan (c : ReapCandidate)
  | agentLost (c : AgentLostCandidate)
  | dispatchLost (c : StaleQueuedCandidate)
  | podLost (c : PodLostCandidate)
  | warmWorkerLost (c : WarmBoundTI)
deriving DecidableEq

/-- `ReaperConfig`'s thresholds. -/
structure ReaperConfig where
  orphanThreshold : Duration := 5 * minute
  agentLostThreshold : Duration := 90 * second
  dispatchLostThreshold : Duration := 3 * minute
  podLostGrace : Duration := 60 * second
deriving DecidableEq

namespace Candidate

/-- What a sweep that reads its clock as `now` takes from its listing. The agent-lost and pod-lost reapers read
the clock before they list, the others after. What the cluster shows of a candidate, and which warm workers are
gone, is left open. -/
def taken (cfg : ReaperConfig) (db : Database) (now : Time) : Candidate → Bool
  | orphan c => (listOrphanCandidates db).contains c && isOrphaned c cfg.orphanThreshold now && decide (db.now ≤ now)
  | agentLost c => (listAgentLostCandidates db).contains c &&
      isAgentLost c cfg.agentLostThreshold now && decide (now ≤ db.now)
  | dispatchLost c => (listStaleQueuedCandidates db).contains c &&
      isDispatchLost c cfg.dispatchLostThreshold now && decide (db.now ≤ now)
  | podLost c => (listRunningTasks db cfg.podLostGrace).contains c &&
      isPodLostCandidate c cfg.podLostGrace now && decide (now ≤ db.now)
  | warmWorkerLost c => (listWarmBoundRunningTIs db).contains c

/-- The mark. -/
def mark : Candidate → Write
  | orphan c => .reapRun c.runID
  | agentLost c => .task (.markTaskAgentLost c.taskInstanceID)
  | dispatchLost c => .task (.markTaskDispatchLost c.taskInstanceID)
  | podLost c => .task (.markTaskPodLost c.taskInstanceID)
  | warmWorkerLost c => .task (.markTaskPodLost c.taskInstanceID)

/-- The mark changes the run row or the task row it is about. -/
def applied (db : Database) : Candidate → Bool
  | orphan c => db.isRunning c.runID
  | agentLost c => db.tis.any (markTaskAgentLost db.now c.taskInstanceID).guard
  | dispatchLost c => db.tis.any (markTaskDispatchLost db.now c.taskInstanceID).guard
  | podLost c => db.tis.any (markTaskPodLost db.now c.taskInstanceID).guard
  | warmWorkerLost c => db.tis.any (markTaskPodLost db.now c.taskInstanceID).guard

/-- Whether `reapOne` goes on to the teardown after a mark that returned no error. The orphan and dispatch-lost
reapers do in any case, the warm-worker reaper tears nothing down. -/
def tearsDown (applied : Bool) : Candidate → Bool
  | orphan _ | dispatchLost _ => true
  | agentLost _ | podLost _ => applied
  | warmWorkerLost _ => false

/-- The task instance a candidate is about. -/
def taskInstanceID? : Candidate → Option String
  | orphan _ => none
  | agentLost c => some c.taskInstanceID
  | dispatchLost c => some c.taskInstanceID
  | podLost c => some c.taskInstanceID
  | warmWorkerLost c => some c.taskInstanceID

/-- The try the listing showed. -/
def tryNumber? : Candidate → Option Nat
  | orphan _ => none
  | agentLost c => some c.tryNumber
  | dispatchLost c => some c.tryNumber
  | podLost c => some c.tryNumber
  | warmWorkerLost c => some c.tryNumber

end Candidate

end Leoflow
