import Leoflow.Executor.Reapers
import Leoflow.Scheduler.Backoff

/-!
# The resilience ladder

`internal/executor/resilience_ladder.go`: the orderings between timing knobs that the server checks
before it starts, and the ladder that `cmd/dexaflow-server` assembles from its constants.
-/

namespace Leoflow

/-! ## Durations in messages -/

/-- The fraction `v / 10 ^ prec` without trailing zeros, with its point. -/
def fmtFrac (v prec : Nat) : String :=
  let digits := (Nat.toDigits 10 (v % 10 ^ prec)).leftpad prec '0'
  let digits := (digits.reverse.dropWhile (· == '0')).reverse
  if digits.isEmpty then "" else String.ofList ('.' :: digits)

/-- `time.Duration.String`. -/
def durationString (d : Duration) : String :=
  let u := d.natAbs
  let text :=
    if u = 0 then "0s"
    else if u < 1000 then toString u ++ "ns"
    else if u < 1000000 then toString (u / 1000) ++ fmtFrac u 3 ++ "µs"
    else if u < 1000000000 then toString (u / 1000000) ++ fmtFrac u 6 ++ "ms"
    else
      let secs := u / 1000000000
      let rest := toString (secs % 60) ++ fmtFrac u 9 ++ "s"
      if secs < 60 then rest
      else if secs < 3600 then toString (secs / 60) ++ "m" ++ rest
      else toString (secs / 3600) ++ "h" ++ toString (secs / 60 % 60) ++ "m" ++ rest
  if d < 0 then "-" ++ text else text

/-! ## The ladder -/

/-- The timings that depend on each other. -/
structure ResilienceLadder where
  heartbeatInterval : Duration
  agentLostThreshold : Duration
  settlingGrace : Duration
  attemptTokenTTL : Duration
  reconcileInterval : Duration
  orphanThreshold : Duration
  infraReplaceMaxDelay : Duration
  maxAttemptCredentialLifetime : Duration
deriving DecidableEq

/-- The setting that an operator may raise. -/
def maxAttemptCredentialLifetimeKey : String := "auth.max_attempt_credential_lifetime"

/-- A timing under the name the errors give it. -/
structure LadderRung where
  name : String
  d : Duration
deriving DecidableEq

/-- `ladderRelation`: `lo` must be below `hi`. -/
structure LadderRelation where
  lo : LadderRung
  hi : LadderRung
  why : String
  operator : Bool := false
deriving DecidableEq

/-- How an error shows a rung. -/
def LadderRung.text (r : LadderRung) : String := r.name ++ " (" ++ durationString r.d ++ ")"

/-- The error of a relation that fails. It says which of the two an operator can raise. -/
def LadderRelation.error (rel : LadderRelation) : String :=
  "resilience ladder: " ++ rel.lo.text ++ " must be < " ++ rel.hi.text ++ ": " ++ rel.why ++
    if rel.operator then " — raise " ++ rel.hi.name
    else " — build-time invariant violated, please file a bug"

namespace ResilienceLadder

variable (l : ResilienceLadder)

/-- How often an agent sends a heartbeat. -/
def hb : LadderRung := ⟨"heartbeat interval", l.heartbeatInterval⟩

/-- How long an agent may be silent. -/
def thr : LadderRung := ⟨"agent-lost threshold", l.agentLostThreshold⟩

/-- How long a new leader waits before it reaps. -/
def grace : LadderRung := ⟨"settling grace", l.settlingGrace⟩

/-- How long the token of an attempt lasts. -/
def ttl : LadderRung := ⟨"attempt token TTL", l.attemptTokenTTL⟩

/-- How often the maintenance loop runs. -/
def reconcile : LadderRung := ⟨"maintenance interval", l.reconcileInterval⟩

/-- How long a run may be without activity. -/
def orphan : LadderRung := ⟨"orphan threshold", l.orphanThreshold⟩

/-- The longest a lost task waits before it is placed again. -/
def replace : LadderRung := ⟨"longest infra re-place delay", l.infraReplaceMaxDelay⟩

/-- Two maintenance intervals, a product of `int64`. -/
def twoRec : LadderRung := ⟨"2 × maintenance interval", wrap64 (2 * l.reconcileInterval)⟩

/-- How long the credentials of an attempt are renewed. -/
def ceiling : LadderRung := ⟨maxAttemptCredentialLifetimeKey, l.maxAttemptCredentialLifetime⟩

/-- The rungs that must be positive. -/
def rungs : List LadderRung := [l.hb, l.thr, l.grace, l.ttl, l.reconcile, l.orphan, l.replace]

/-- The relations between constants of the build. -/
def buildRelations : List LadderRelation :=
  [{ lo := l.hb, hi := l.thr
     why := "a live agent must heartbeat well inside the agent-lost silence window" },
    { lo := l.thr, hi := l.grace
      why := "the post-leadership settling grace must outlast the silence it forgives so the fleet " ++
        "can re-heartbeat" },
    { lo := l.grace, hi := l.ttl
      why := "a re-heartbeat must still authenticate and renew the bearer when the grace ends" },
    { lo := l.twoRec, hi := l.grace
      why := "at least two reconcile-then-reap cycles must complete under a new leader before the " ++
        "settling gate may open, so a transiently failed settle is retried before any reaper acts" },
    { lo := l.replace, hi := l.orphan
      why := "a run parked in its longest infra re-place backoff must not be reaped as orphaned " ++
        "while it is still recovering" }]

/-- The relations, in the order they are checked. The ceiling counts only when it is enabled. -/
def relations : List LadderRelation :=
  l.buildRelations ++ if l.maxAttemptCredentialLifetime > 0 then
    [{ lo := l.ttl, hi := l.ceiling, operator := true
       why := "heartbeat renewal must be able to extend the bearer at least once, or every task " ++
        "longer than one TTL loses its credential and the restart recovery is disabled" }]
  else []

end ResilienceLadder

/-- The first rung that is not positive, else the first relation that does
not hold. -/
def validateResilienceLadder (l : ResilienceLadder) : Except String Unit :=
  match l.rungs.find? fun r => r.d ≤ 0 with
  | some r => .error ("resilience ladder: " ++ r.text ++ " must be positive")
  | none =>
    match l.relations.find? fun rel => !decide (rel.lo.d < rel.hi.d) with
    | some rel => .error rel.error
    | none => .ok ()

theorem validateResilienceLadder_eq_ok {l : ResilienceLadder} : validateResilienceLadder l = .ok () ↔
      (∀ r ∈ l.rungs, 0 < r.d) ∧ ∀ rel ∈ l.relations, rel.lo.d < rel.hi.d := by
  unfold validateResilienceLadder
  constructor
  · intro h
    cases hr : l.rungs.find? fun r => r.d ≤ 0 with
    | some r => simp [hr] at h
    | none =>
      cases hrel : l.relations.find? fun rel => !decide (rel.lo.d < rel.hi.d) with
      | some rel => simp [hr, hrel] at h
      | none => simpa [List.find?_eq_none] using And.intro hr hrel
  · rintro ⟨hr, hrel⟩
    have hr : (l.rungs.find? fun r => r.d ≤ 0) = none := by
      simpa [List.find?_eq_none] using hr
    have hrel : (l.relations.find? fun rel => !decide (rel.lo.d < rel.hi.d)) = none := by
      simpa [List.find?_eq_none] using hrel
    simp [hr, hrel]

/-! ## The server's ladder -/

/-- The agent's own default. -/
def defaultHeartbeatInterval : Duration := 15 * second

/-- A token of an attempt lasts at least so long. -/
def attemptTokenTTLFloor : Duration := 10 * minute

/-- Four heartbeats, and at least the floor. -/
def attemptTokenTTL (interval : Duration) : Duration :=
  if wrap64 (4 * interval) > attemptTokenTTLFloor then wrap64 (4 * interval) else attemptTokenTTLFloor

/-- The interval the server starts the maintenance loop with. -/
def reconcileInterval : Duration := 30 * second

/-- Two agent-lost thresholds. -/
def defaultSettlingGrace : Duration := 2 * ({} : ReaperConfig).agentLostThreshold

/-- Every rung is a constant of the build but the ceiling, which the operator
configures. -/
def resilienceLadder (maxAttemptCredentialLifetime : Duration) : ResilienceLadder where
  heartbeatInterval := defaultHeartbeatInterval
  agentLostThreshold := ({} : ReaperConfig).agentLostThreshold
  settlingGrace := defaultSettlingGrace
  attemptTokenTTL := attemptTokenTTL defaultHeartbeatInterval
  reconcileInterval := reconcileInterval
  orphanThreshold := ({} : ReaperConfig).orphanThreshold
  infraReplaceMaxDelay := infraReplaceMaxDelay
  maxAttemptCredentialLifetime := maxAttemptCredentialLifetime

/-- A day. -/
def defaultCredentialLifetime : Duration := 24 * 60 * minute

/-- The server starts unless the operator enables a ceiling of ten minutes or less. -/
theorem resilienceLadder_accepted {ceiling : Duration} :
    validateResilienceLadder (resilienceLadder ceiling) = .ok () ↔ ceiling ≤ 0 ∨ 10 * minute < ceiling := by
  have hrungs : ∀ r ∈ (resilienceLadder ceiling).rungs, 0 < r.d :=
    show ∀ r ∈ (resilienceLadder 0).rungs, 0 < r.d by decide
  have hbuild : ∀ rel ∈ (resilienceLadder ceiling).buildRelations, rel.lo.d < rel.hi.d :=
    show ∀ rel ∈ (resilienceLadder 0).buildRelations, rel.lo.d < rel.hi.d by decide
  have hop : (resilienceLadder ceiling).ttl.d < (resilienceLadder ceiling).ceiling.d ↔ 10 * minute < ceiling := Iff.rfl
  rw [validateResilienceLadder_eq_ok, and_iff_right hrungs, ResilienceLadder.relations,
    List.forall_mem_append, and_iff_right hbuild]
  by_cases hc : 0 < ceiling
  · simpa [resilienceLadder, hc, not_le.mpr hc] using hop
  · simp [resilienceLadder, hc, not_lt.mp hc]

end Leoflow
