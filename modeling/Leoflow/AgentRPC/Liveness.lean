import Leoflow.System.Step

/-!
# What an agent's calls are answered

The liveness gate of the secret path (`checkLiveness` of `internal/agentrpc/secrets.go`), and the
answers of `Heartbeat` and `ReportState` of `internal/agentrpc/server.go`, over the store calls of
`internal/storage/agent_store.go`. The gate and the heartbeat want the row of the attempt queued or
running, a state report takes it from `none` on.
-/

namespace Leoflow

/-! ## The store -/

/-- How a guarded update of the store returned: `nil`, `ErrStaleReport` or a database error. -/
inductive StoreAnswer where
  | applied
  | stale
  | failed (cause : String)
deriving DecidableEq

/-- `ExecutionStore.ReportState` and `RecordHeartbeat` after their statement: no row touched is
`ErrStaleReport`. A fault is an error of the database before that. -/
def storeAnswer (db : Database) (fault : Option String) (s : Statement) : StoreAnswer :=
  match fault with
  | some cause => .failed cause
  | none => if (s.update db.now).rowsAffected db.tis = 0 then .stale else .applied

/-- `IsTaskInstanceLive`: this try of the task is queued or running. -/
def isTaskInstanceLive (db : Database) (id : Attempt) : Bool :=
  db.tis.any fun r => r.isFor id.run id.task && r.tryNumber == id.tryNumber && r.state.isLive

/-! ## The server -/

/-- Whether a stale agent is told to stop or only counted. -/
inductive LivenessMode where
  | observe | enforce
deriving DecidableEq

/-- The error of the call, if any. Without a checker, and where the read fails,
nothing is denied. -/
def checkLiveness (mode : LivenessMode) (checker : Option (Except String Bool)) : Option String :=
  match checker with
  | none | some (.error _) | some (.ok true) => none
  | some (.ok false) =>
    match mode with
    | .enforce => some "task instance is no longer live"
    | .observe => none

/-- `HeartbeatResponse`, up to the server's clock and the renewed token. -/
structure HeartbeatResponse where
  shouldTerminate : Bool
deriving DecidableEq

/-- `Heartbeat`: a database error is logged and does not end the agent. -/
def heartbeatResponse : StoreAnswer → HeartbeatResponse
  | .applied | .failed _ => ⟨false⟩
  | .stale => ⟨true⟩

/-- What a state report is answered with. -/
structure ReportStateResponse where
  acknowledged : Bool
  shouldTerminate : Bool
deriving DecidableEq

/-- `ReportState` of a state that is not a reschedule: a database error fails the call, which the
agent then repeats. -/
def reportStateResponse : StoreAnswer → Except String ReportStateResponse
  | .applied => .ok ⟨true, false⟩
  | .stale => .ok ⟨true, true⟩
  | .failed _ => .error "recording state"

/-! ## The calls of an agent -/

/-- The calls of `runOneAttempt` after `GetTaskSpec`. -/
inductive AgentCall where
  | getVariables | getConnections | reportRunning | heartbeat | reportOutcome
deriving DecidableEq

/-- The order of the calls: the secrets before the RUNNING report, the heartbeats after it, and the outcome when
the process has ended or could not be started. -/
def Agent.makes (g : Agent) : AgentCall → Bool
  | .getVariables | .getConnections => !g.running && g.outcome.isNone
  | .reportRunning => g.outcome.isNone
  | .heartbeat => g.running
  | .reportOutcome => g.outcome.isSome

/-- The answer tells the agent to stop. -/
def toldToTerminate (answer : Except String ReportStateResponse) : Bool :=
  match answer with
  | .ok response => response.shouldTerminate
  | .error _ => false

/-- The call is answered as one of a dead attempt: the gate in enforce mode denies it, or the agent is told to
terminate. A reschedule is acknowledged in any case. -/
def Agent.isTreatedAsDead (g : Agent) (db : Database) (fault : Option String) : AgentCall → Bool
  | .getVariables | .getConnections =>
    (checkLiveness .enforce (some (match fault with
      | some cause => .error cause
      | none => .ok (isTaskInstanceLive db g.attempt)))).isSome
  | .reportRunning => toldToTerminate (reportStateResponse (storeAnswer db fault
      (.reportTaskResult g.attempt.run g.attempt.task .running (some 0) none g.attempt.tryNumber)))
  | .heartbeat => (heartbeatResponse (storeAnswer db fault
      (.recordTaskHeartbeat g.attempt.run g.attempt.task g.attempt.tryNumber))).shouldTerminate
  | .reportOutcome =>
    match g.outcome with
    | none | some (.reschedule _) => false
    | some o => toldToTerminate (reportStateResponse (storeAnswer db fault (o.statement g.attempt)))

section Live

variable {db : Database} {r : TaskInstance}

theorem storeAnswer_ne_stale (hr : r ∈ db.tis) {s : Statement}
    (hg : (s.update db.now).guard r) (fault : Option String) : storeAnswer db fault s ≠ .stale := by
  unfold storeAnswer
  cases fault with
  | some cause => simp
  | none =>
    have hpos : 0 < (s.update db.now).rowsAffected db.tis := List.countP_pos_iff.mpr ⟨r, hr, hg⟩
    rw [if_neg (Nat.ne_of_gt hpos)]
    simp

theorem not_toldToTerminate {answer : StoreAnswer} (h : answer ≠ .stale) :
    toldToTerminate (reportStateResponse answer) = false := by
  cases answer with
  | stale => exact absurd rfl h
  | applied | failed => rfl

theorem TaskState.isLive.isReportable {s : TaskState} (h : s.isLive) : s.isReportable := by
  cases s <;> first | rfl | cases h

/-- The agent of the live try is not taken for dead. -/
theorem Agent.not_isTreatedAsDead {g : Agent} (hr : r ∈ db.tis)
    (hf : r.isFor g.attempt.run g.attempt.task) (htry : r.tryNumber = g.attempt.tryNumber)
    (hlive : r.state.isLive) (fault : Option String) (call : AgentCall) :
    g.isTreatedAsDead db fault call = false := by
  have hreport : ∀ target code message, ((Statement.reportTaskResult g.attempt.run g.attempt.task
      target code message g.attempt.tryNumber).update db.now).guard r := by
    intro target code message
    simp [Statement.update, reportTaskResult, hf, htry, TaskState.isLive.isReportable hlive]
  cases call with
  | getVariables | getConnections =>
    have hread : isTaskInstanceLive db g.attempt :=
      List.any_eq_true.mpr ⟨r, hr, by simp [hf, htry, hlive]⟩
    cases fault <;> simp [isTreatedAsDead, hread, checkLiveness]
  | reportRunning => exact not_toldToTerminate (storeAnswer_ne_stale hr (hreport _ _ _) fault)
  | heartbeat =>
    have hne := storeAnswer_ne_stale (s := .recordTaskHeartbeat g.attempt.run g.attempt.task
      g.attempt.tryNumber) hr (by simp [Statement.update, recordTaskHeartbeat, hf, htry, hlive]) fault
    simp only [isTreatedAsDead]
    generalize storeAnswer db fault _ = answer at hne
    cases answer with
    | stale => exact absurd rfl hne
    | applied | failed => rfl
  | reportOutcome =>
    simp only [isTreatedAsDead]
    split
    · rfl
    · rfl
    next o hne _ =>
      refine not_toldToTerminate (storeAnswer_ne_stale hr ?_ fault)
      cases o with
      | reschedule pokeAt => exact absurd rfl (hne pokeAt)
      | success | failed | skipped => exact hreport _ _ _

end Live

end Leoflow
