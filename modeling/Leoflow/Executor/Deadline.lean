import Leoflow.Storage.AgentStore

/-!
# The deadline of a task pod

`podActiveDeadline` of `internal/executor/kubernetes.go`, over the request the dispatcher builds from a
task in `internal/dispatch/dispatch.go`.
-/

namespace Leoflow.Executor

/-- The fields of `executor.Request` the deadline reads. -/
structure TimedRequest where
  timeoutSeconds : Int
  attemptLifetimeCeilingSeconds : Int
  terminationGracePeriodSeconds : Option Int
deriving DecidableEq

/-- What the dispatcher puts into the request of a task. -/
def timedRequest (task : AgentTask) (ceiling : Int) : TimedRequest where
  timeoutSeconds := timeoutOf task
  attemptLifetimeCeilingSeconds := ceiling
  terminationGracePeriodSeconds := task.terminationGracePeriodSeconds

/-- Seconds for scheduling and image pulls, which the deadline of a pod counts too. -/
def podStartupHeadroom : Int := 180

/-- The most an `activeDeadlineSeconds` may hold. -/
def maxPodActiveDeadline : Int := 2 ^ 31 - 1

/-- The termination grace of a pod as the deadline counts it: 30 s by default, at most a minute. -/
def podDeadlineGraceTerm (req : TimedRequest) : Int :=
  match req.terminationGracePeriodSeconds with
  | none => 30
  | some g => if g ≤ 0 then 30 else min g 60

/-- Zero is no deadline. -/
def podActiveDeadline (req : TimedRequest) : Int :=
  if req.timeoutSeconds > 0 then
    min (wrap64 (req.timeoutSeconds + podStartupHeadroom + podDeadlineGraceTerm req)) maxPodActiveDeadline
  else if req.attemptLifetimeCeilingSeconds > 0 then
    min req.attemptLifetimeCeilingSeconds maxPodActiveDeadline
  else 0

/-- A deadline the API server admits: with a timeout a later one, unless it is the largest, and without one none
exactly where there is no ceiling. -/
def Admissible (req : TimedRequest) : Prop :=
  let deadline := podActiveDeadline req
  deadline ≤ maxPodActiveDeadline ∧
    if req.timeoutSeconds > 0 then 1 ≤ deadline ∧ (req.timeoutSeconds < deadline ∨ deadline = maxPodActiveDeadline)
    else 0 ≤ deadline ∧ (deadline = 0 ↔ req.attemptLifetimeCeilingSeconds ≤ 0)

/-- The longest timeout that leaves an `int64` room for the headroom and the grace. -/
def longestTimeout (grace : Option Int) : Int :=
  2 ^ 63 - 1 - podStartupHeadroom -
    match grace with
    | none => 30
    | some g => if g ≤ 0 then 30 else min g 60

/-- **The deadline of a pod is admissible exactly where the sum of the timeout, the headroom and the grace does not
overflow.** -/
theorem podActiveDeadline_admissible_iff {req : TimedRequest} (hint : req.timeoutSeconds < 2 ^ 63) :
    Admissible req ↔ req.timeoutSeconds ≤ longestTimeout req.terminationGracePeriodSeconds := by
  have hlongest : longestTimeout req.terminationGracePeriodSeconds =
      2 ^ 63 - 1 - podStartupHeadroom - podDeadlineGraceTerm req := rfl
  have hgrace : 0 ≤ podDeadlineGraceTerm req ∧ podDeadlineGraceTerm req ≤ 60 := by
    unfold podDeadlineGraceTerm
    split
    · decide
    · split <;> omega
  rw [hlongest]
  simp only [Admissible, podActiveDeadline, podStartupHeadroom, maxPodActiveDeadline, wrap64]
  by_cases htimeout : req.timeoutSeconds > 0
  · simp only [if_pos htimeout]
    omega
  · simp only [if_neg htimeout]
    split <;> omega

/-- An hour's timeout. -/
theorem podActiveDeadline_admissible_hour : Admissible ⟨3600, 0, none⟩ :=
  (podActiveDeadline_admissible_iff (by decide)).mpr (by decide)

/-- The largest timeout gives a deadline that is negative. -/
theorem podActiveDeadline_overflows : podActiveDeadline ⟨2 ^ 63 - 1, 0, none⟩ < 0 := by
  decide

end Leoflow.Executor
