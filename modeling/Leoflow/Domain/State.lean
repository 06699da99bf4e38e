import Mathlib.Algebra.Group.Int.Defs

/-!
# Lifecycle states and the clock

The two state enumerations of `internal/domain/state.go`, and time as the code sees it: a
`time.Time` is the number of nanoseconds since Go's zero time and a `time.Duration` a number of
nanoseconds. Postgres' `now()` and Go's `time.Now()` read one clock.
-/

namespace Leoflow

/-- An instant. `IsZero` is being `0`. -/
abbrev Time := Int

/-- A `time.Duration`. -/
abbrev Duration := Int

/-- `time.Second`. -/
def second : Duration := 1000000000

/-- `time.Minute`. -/
def minute : Duration := 60 * second

/-- The longest `time.Duration`. -/
def maxDuration : Duration := 2 ^ 63 - 1

/-- `Time.Sub`, which saturates. -/
def timeSub (t u : Time) : Duration := max (-2 ^ 63) (min (t - u) maxDuration)

theorem timeSub_pos {t u : Int} (h : u < t) : 0 < timeSub t u := by
  show (0 : Int) < max (-2 ^ 63) (min (t - u) (2 ^ 63 - 1))
  omega

/-- The two's complement reading of an `int64` operation's exact result. -/
def wrap64 (n : Int) : Int :=
  (n + 0x8000000000000000) % 0x10000000000000000 - 0x8000000000000000

/-- An overflow does not raise a result that is not negative. -/
theorem wrap64_le {n : Int} (h : 0 ≤ n) : wrap64 n ≤ n := by
  unfold wrap64
  omega

theorem wrap64_of_lt {n : Int} (h : 0 ≤ n) (hlt : n < 2 ^ 63) : wrap64 n = n := by
  unfold wrap64
  omega

/-- The `task_state` enum. -/
inductive TaskState where
  | none | scheduled | queued | running | success | failed | skipped | upstreamFailed
  | upForRetry | upForReschedule
deriving DecidableEq

/-- The `dag_run_state` enum. -/
inductive DagRunState where
  | queued | running | success | failed
deriving DecidableEq

namespace TaskState

/-- No further automatic transitions occur from the state. -/
def isTerminal : TaskState → Bool
  | success | failed | skipped | upstreamFailed => true
  | _ => false

/-- The states the orphan statements and the reconciler's settles call active. -/
def isActive : TaskState → Bool
  | scheduled | queued | running => true
  | _ => false

/-- The task was not offered to an executor yet. -/
def isUnqueued : TaskState → Bool
  | none | scheduled => true
  | _ => false

/-- The states in which an attempt is live: its heartbeats and warm binding apply. -/
def isLive : TaskState → Bool
  | queued | running => true
  | _ => false

/-- The states `only_failed` clears reset. -/
def isFailedish : TaskState → Bool
  | failed | upstreamFailed | upForRetry => true
  | _ => false

end TaskState

/-- The run is over. -/
def DagRunState.isTerminal : DagRunState → Bool
  | success | failed => true
  | _ => false

end Leoflow
