import Leoflow.System.RunRows
import Leoflow.System.WellFormed

/-!
# On-failure alerts

`maybeAlertFailure` runs inside the tick, right after `SetRunState` has failed a run: it claims an
attempt and hands it to a detached send. The sends return, or are lost with their process, at any
later time, and a send that delivered every rule stamps the run for the attempt it was claimed as.
-/

namespace Leoflow

/-- A run's page is tried this often. -/
def alertMaxAttempts : Int := 5

/-- The wait between two attempts of a page. -/
def alertRetryBackoff : Duration := 120 * second

/-- The attempt of a send whose claim errored: no row counts to it. -/
def alertAttemptUnknown : Int := -1

/-- A deployment with the number of on-failure rules of each version. -/
structure AlertConfig where
  config : Config
  onFailure : String → Nat

/-- A send in flight. `returned` is set once `AlertRunFailed` returned true; `episode`, the re-opens of the run
when the attempt was claimed, is read by the proofs only. -/
structure Send where
  run : String
  attempt : Int
  episode : Nat
  returned : Bool := false
deriving DecidableEq

/-- The system with its alerts. `pending` is the run `maybeAlertFailure` is about to claim for. `reopens` and
`paged`, the re-opens of each run and the sends that returned true, are bookkeeping. -/
structure AlertWorld where
  world : World
  pending : Option String := none
  sends : List Send := []
  reopens : String → Nat := fun _ => 0
  paged : List Send := []

/-- A claim may fail although the database carried it out; `room` says whether the semaphore of the
leader's process has a free slot. -/
inductive AlertAction where
  | world (a : Action)
  | claim (run : String) (room : Bool)
  | claimFails (run : String) (committed room : Bool)
  | returns (s : Send) (delivered : Bool)
  | stamp (s : Send)
  | stampFails (s : Send)
  | lost (s : Send)
deriving DecidableEq

namespace World

/-- One more statement of the alert path. -/
def executeAlert (w : World) (u : Lib.Update DagRun) : World :=
  { w with db := { w.db with runs := u.exec w.db.runs } }

/-- The claim of a run's next attempt. -/
def claimUpdate (w : World) (run : String) : Lib.Update DagRun :=
  claimAlertAttempt w.db.now run alertMaxAttempts alertRetryBackoff

/-- The number a claim gets, zero where it matches no run. -/
def claimedAttempt (w : World) (run : String) : Int :=
  ((w.db.runs.find? (w.claimUpdate run).guard).map fun d => (d.alertAttempts : Int) + 1).getD 0

/-- The run an action is about to alert for: `SetRunState` has just failed it and its version has
rules. -/
def alertsFor (cfg : AlertConfig) (w : World) : Action → Option String
  | .tick (.call _) =>
    match w.ctl.tick with
    | some (.advancing _ run (.setRunState .failed :: _) _) =>
      if cfg.onFailure run.dagVersionID = 0 then none else some run.runID
    | _ => none
  | _ => none

/-- The run an action re-opens. -/
def reopened : Action → Option String
  | .clearNext c => if c.resets.isEmpty && c.reopen.isSome then some c.run else none
  | _ => none

end World

namespace AlertWorld

/-- The tick waits for `maybeAlertFailure`, unless its process stops. -/
def blocks (p : AlertWorld) : Action → Bool
  | .tick .stop => false
  | .tick _ => p.pending.isSome
  | _ => false

/-- The run whose claim is next after an action. -/
def nextPending (cfg : AlertConfig) (p : AlertWorld) : Action → Option String
  | .tick .stop => none
  | a => (p.world.alertsFor cfg a).or p.pending

/-- A goroutine sends the attempt, if the semaphore has room. -/
def start (p : AlertWorld) (run : String) (attempt : Int) (room : Bool) : List Send :=
  if room then ⟨run, attempt, p.reopens run, false⟩ :: p.sends else p.sends

/-- How often a run was re-opened, after an action. -/
def countReopens (p : AlertWorld) (a : Action) (run : String) : Nat :=
  if World.reopened a = some run then p.reopens run + 1 else p.reopens run

/-- A step of the system with its pages. -/
def step (cfg : AlertConfig) (p : AlertWorld) : AlertAction → Option AlertWorld
  | .world a =>
    if p.blocks a then none
    else (p.world.step cfg.config a).map fun w =>
      { p with
        world := w
        pending := p.nextPending cfg a
        reopens := p.countReopens a }
  | .claim run room =>
    if p.pending = some run then
      let attempt := p.world.claimedAttempt run
      some { p with
        world := p.world.executeAlert (p.world.claimUpdate run)
        pending := none
        sends := if attempt = 0 then p.sends else p.start run attempt room }
    else none
  | .claimFails run committed room =>
    if p.pending = some run then
      some { p with
        world := if committed then p.world.executeAlert (p.world.claimUpdate run) else p.world
        pending := none
        sends := p.start run alertAttemptUnknown room }
    else none
  | .returns s delivered =>
    if s ∈ p.sends ∧ s.returned = false then
      some { p with
        sends := if delivered then { s with returned := true } :: p.sends.erase s else p.sends.erase s
        paged := if delivered then { s with returned := true } :: p.paged else p.paged }
    else none
  | .stamp s =>
    if s ∈ p.sends ∧ s.returned then
      some { p with
        world := p.world.executeAlert (markRunAlertDelivered p.world.db.now s.run s.attempt)
        sends := p.sends.erase s }
    else none
  | .stampFails s =>
    if s ∈ p.sends ∧ s.returned then some { p with sends := p.sends.erase s } else none
  | .lost s => if s ∈ p.sends then some { p with sends := p.sends.erase s } else none

/-- The system with its pages. -/
def system (cfg : AlertConfig) : Lib.System AlertWorld AlertAction where
  init p := ∃ now, p = { world := .empty now }
  step := step cfg

end AlertWorld

/-! ## Schedules -/

/-- A deployment whose DAG is one task with a rule. -/
def oneTaskAlerted : AlertConfig := ⟨oneTask, fun _ => 1⟩

/-- The first failure of the run, up to its claim. -/
def firstFailure : List AlertAction := (failsOnce ++ finalizes).map .world

/-- The next one, after a clear. -/
def nextFailure : List AlertAction :=
  (reopensAndRuns ++ ends secondAttempt (.failed 1 "boom") ++ finalizes).map .world

/-! ## What the rest of the system does to a run's alerts -/

/-- The version and the alert bookkeeping of a row as they were. -/
structure DagRun.SameAlert (d d' : DagRun) : Prop where
  id : d'.id = d.id
  dagVersionId : d'.dagVersionId = d.dagVersionId
  alertedAt : d'.alertedAt = d.alertedAt
  alertAttempts : d'.alertAttempts = d.alertAttempts
  nextAlertAttemptAt : d'.nextAlertAttemptAt = d.nextAlertAttemptAt

/-- A run at the start of an episode. -/
structure DagRun.Unalerted (d : DagRun) : Prop where
  state : d.state = .queued
  alertedAt : d.alertedAt = none
  alertAttempts : d.alertAttempts = 0
  nextAlertAttemptAt : d.nextAlertAttemptAt = none

theorem DagRun.SameAlert.of_eq {d d' : DagRun} (h : d' = d) : d.SameAlert d' := by
  subst h
  exact ⟨rfl, rfl, rfl, rfl, rfl⟩

section Step

variable {cfg : Config} {w w' : World} {a : Action}

theorem RunStatement.sameAlert {s : RunStatement} {now : Time} {d : DagRun}
    (h : ∀ o : Reopen, ∀ run, s ≠ o.statement run) : d.SameAlert ((s.update now).row d) := by
  cases hg : (s.update now).guard d with
  | false => exact .of_eq ((s.update now).row_of_not_guard hg)
  | true =>
    rw [(s.update now).row_of_guard hg]
    cases s with
    | reopenDagRunKeepingVersion id => exact absurd rfl (h .keepingVersion id)
    | resetDagRunToVersion id version => exact absurd rfl (h (.toVersion version) id)
    | _ => exact ⟨rfl, rfl, rfl, rfl, rfl⟩

theorem Reopen.guard_statement (o : Reopen) (run : String) (now : Time) (d : DagRun) :
    ((o.statement run).update now).guard d = (d.id == run) := by
  cases o <;> rfl

theorem Reopen.unalerted (o : Reopen) (run : String) (now : Time) (d : DagRun) :
    (((o.statement run).update now).set d).Unalerted := by
  cases o <;> exact ⟨rfl, rfl, rfl, rfl⟩

/-- What a step makes of a run: an action either re-opens it or keeps its alert bookkeeping. -/
theorem World.runRow_alert (d : DagRun) : (World.reopened a = some d.id ∧ ((w.write a).runRow w.db d).Unalerted) ∨
      (World.reopened a ≠ some d.id ∧ d.SameAlert ((w.write a).runRow w.db d)) := by
  by_cases hre : ∃ c o, a = .clearNext c ∧ c.resets = [] ∧ c.reopen = some o
  · obtain ⟨c, o, rfl, hr, ho⟩ := hre
    have hs : (w.write (.clearNext c)).runStatement w.db = some (o.statement c.run) := by
      simp [World.write, Clear.write, hr, ho, Write.runStatement]
    have hreopened : World.reopened (.clearNext c) = some c.run := by
      simp [World.reopened, hr, ho]
    rw [Write.runRow_of_statement hs, hreopened]
    cases hg : ((o.statement c.run).update w.db.now).guard d with
    | true =>
      rw [((o.statement c.run).update w.db.now).row_of_guard hg]
      rw [o.guard_statement, beq_iff_eq] at hg
      exact .inl ⟨congrArg some hg.symm, o.unalerted c.run w.db.now d⟩
    | false =>
      have hsame := ((o.statement c.run).update w.db.now).row_of_not_guard hg
      rw [o.guard_statement, beq_eq_false_iff_ne] at hg
      exact .inr ⟨fun he => hg (Option.some.inj he).symm, .of_eq hsame⟩
  · have hnot : World.reopened a ≠ some d.id := by
      intro he
      cases a <;> try cases he
      simp only [World.reopened, Option.ite_none_right_eq_some, Bool.and_eq_true,
        List.isEmpty_iff, Option.isSome_iff_exists] at he
      obtain ⟨⟨hr, o, ho⟩, -⟩ := he
      exact hre ⟨_, o, rfl, hr, ho⟩
    refine .inr ⟨hnot, ?_⟩
    cases hs : (w.write a).runStatement w.db with
    | none => exact .of_eq (Write.runRow_of_none hs d)
    | some s =>
      rw [Write.runRow_of_statement hs]
      refine RunStatement.sameAlert fun o run he => ?_
      cases World.runWriter hs with
      | clear ha hr ho => exact hre ⟨_, _, ha, hr, ho⟩
      | _ => cases o <;> cases he

theorem World.alert_step (h : w.step cfg a = some w') {d' : DagRun} (hd' : d' ∈ w'.db.runs) :
    d'.Unalerted ∨ ∃ d ∈ w.db.runs, d' = (w.write a).runRow w.db d ∧ d.SameAlert d' ∧ World.reopened a ≠ some d.id := by
  rcases (World.mem_step_runs h).mp hd' with ⟨d, hd, rfl⟩ | hd'
  · rcases World.runRow_alert (w := w) (a := a) d with ⟨-, hun⟩ | ⟨hne, hsame⟩
    · exact .inl hun
    · exact .inr ⟨d, hd, rfl, hsame, hne⟩
  · obtain ⟨⟨tenant, version, hnew⟩, -⟩ := World.mem_createdRuns h hd'
    rw [hnew]
    exact .inl ⟨rfl, rfl, rfl, rfl⟩

end Step

end Leoflow
