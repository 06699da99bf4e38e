import Leoflow.Lib.Runs
import Leoflow.System.Tick

/-!
# The steps of the system

Every step is one party's: it reads what the party holds and the database, performs at most one write
and updates what the party holds. Any order of enabled steps is a run.
-/

namespace Leoflow

/-- What the reconciler records for a terminal pod. -/
inductive Settle where
  | succeed
  | fail (reason : String)
  | reschedule (pokeAt : Time)
deriving DecidableEq

/-- Whether a clear re-opens its run, and on which version. -/
structure ClearOptions where
  resetDagRun : Bool
  runOnLatestVersion : Bool
deriving DecidableEq

/-- Everything that may happen next: the clock, a tick, a dispatch, an agent, a reaper, the reconciler or an
operator. -/
inductive Action where
  | clock (elapsed : Nat)
  | createRun (id tenant version : String)
  | tick (a : TickAction)
  | resolve (q : Request)
  | create (q : Request) (warm : Bool)
  | requestFails (q : Request) (reason : String)
  | requestDone (q : Request)
  | reportRunning (a : Agent)
  | processEnds (a : Agent) (outcome : AgentOutcome)
  | reportOutcome (a : Agent)
  | heartbeat (a : Agent)
  | agentGone (a : Agent)
  | bindWarm (l : Attempt) (pod : String)
  | requeue (l : Attempt)
  | leaseOver (l : Attempt)
  | settle (p : Attempt) (v : Settle)
  | collect (p : Attempt)
  | take (c : Candidate) (clock : Time)
  | mark (i : Reap)
  | teardown (i : Reap)
  | dropReap (i : Reap)
  | clear (run : String) (taskIDs : List String) (onlyFailed : Bool) (opts : ClearOptions) (currentVersion : String)
  | clearNext (c : Clear)
  | clearFails (c : Clear)
  | setDagRunState (run : String) (state : DagRunState)
  | updateDagRunState (p : RunPatch)
deriving DecidableEq

/-! ## Writes of the parties -/

/-- The statement of a reset. -/
def Reset.statement (run : String) : Reset → Statement
  | task t => .resetTaskInstanceToNone run t
  | failedTask t => .resetFailedTaskInstance run t
  | allFailed => .resetAllFailedTaskInstances run

/-- The statement of a re-open. -/
def Reopen.statement (run : String) : Reopen → RunStatement
  | keepingVersion => .reopenDagRunKeepingVersion run
  | toVersion version => .resetDagRunToVersion run version

/-- The resets of a clear. With no task named, only the failed ones can be reset. -/
def resetTaskInstances (taskIDs : List String) (onlyFailed : Bool) : List Reset :=
  if taskIDs.isEmpty then if onlyFailed then [.allFailed] else []
  else taskIDs.map fun t => if onlyFailed then .failedTask t else .task t

/-- The resets, then the run-level decision of its options. -/
def clearTaskInstances (run : String) (taskIDs : List String) (onlyFailed : Bool)
    (opts : ClearOptions) (currentVersion : String) : Clear where
  run := run
  resets := resetTaskInstances taskIDs onlyFailed
  reopen :=
    if opts.resetDagRun then
      some (if opts.runOnLatestVersion then .toVersion currentVersion else .keepingVersion)
    else none

namespace Clear

/-- The next statement of a clear. -/
def write (c : Clear) : Write :=
  match c.resets, c.reopen with
  | r :: _, _ => .task (r.statement c.run)
  | [], some o => .dagRun (o.statement c.run)
  | [], none => .nothing

/-- What is left of a clear after its next write. -/
def rest (c : Clear) : Clear :=
  match c.resets with
  | _ :: rs => { c with resets := rs }
  | [] => { c with reopen := none }

/-- Nothing is left of it. -/
def isDone (c : Clear) : Bool := c.resets.isEmpty && c.reopen.isNone

/-- A clear is in progress while something is left of it. -/
def add (c : Clear) (clears : List Clear) : List Clear := if c.isDone then clears else c :: clears

end Clear

/-- `ReportState` on the server: the statement of an agent's final report. An empty message is
stored as `NULL`. -/
def AgentOutcome.statement (a : Attempt) : AgentOutcome → Statement
  | success => .reportTaskResult a.run a.task .success (some 0) none a.tryNumber
  | failed code message =>
    .reportTaskResult a.run a.task .failed (some code) (if message = "" then none else some message) a.tryNumber
  | skipped => .reportTaskResult a.run a.task .skipped (some 0) none a.tryNumber
  | reschedule pokeAt => .rescheduleTaskInstance a.run a.task pokeAt

/-- `recordOutcome` of the reconciler. -/
def Settle.statement (p : Attempt) : Settle → Statement
  | succeed => .succeedTaskInstanceIfActive p.taskInstanceID p.tryNumber
  | fail reason => .failTaskInstanceIfActive p.taskInstanceID p.tryNumber reason
  | reschedule pokeAt => .rescheduleTaskInstanceByIDIfActive p.taskInstanceID p.tryNumber pokeAt

namespace World

/-- The row of a task. -/
def rowFor (w : World) (run task : String) : Option TaskInstance :=
  w.db.tis.find? (TaskInstance.isFor run task)

/-- The write of an action. -/
def write (w : World) : Action → Write
  | .createRun id tenant version =>
    .createDagRun { id := id, tenantId := tenant, dagVersionId := version, queuedAt := w.db.now }
  | .tick a => Tick.write w.ctl.tick a
  | .requestFails q reason =>
    if q.buffered then .task (.markTaskDispatchFailed q.run q.task reason) else .nothing
  | .reportRunning a => .task
      (.reportTaskResult a.attempt.run a.attempt.task .running (some 0) none a.attempt.tryNumber)
  | .reportOutcome a =>
    match a.outcome with
    | some o => .task (o.statement a.attempt)
    | none => .nothing
  | .heartbeat a => .task (.recordTaskHeartbeat a.attempt.run a.attempt.task a.attempt.tryNumber)
  | .bindWarm l pod => .task (.bindWarmAttempt l.run l.task l.tryNumber pod)
  | .requeue l => .task (.requeueForRedispatch l.run l.task l.tryNumber)
  | .settle p v => .task (v.statement p)
  | .mark i => i.candidate.mark
  | .clearNext c => c.write
  | .updateDagRunState p => .dagRun (.updateDagRunState p.run p.state p.startedAt p.endedAt)
  | _ => .nothing

/-- The request a landed dispatch hands over. -/
def request (w : World) (run task : String) (buffered : Bool) : Request where
  run := run
  task := task
  tryNumber := ((w.rowFor run task).map TaskInstance.tryNumber).getD 0
  placement := ((w.rowFor run task).map fun r => w.track.placements r.id + 1).getD 0
  buffered := buffered

/-- What the parties hold after an action; `none` where it is not enabled. -/
def next (cfg : Config) (w : World) : Action → Option Control
  | .clock _ => some w.ctl
  | .createRun id _ _ => if w.db.runs.all (fun d => d.id != id) then some w.ctl else none
  | .tick a => (Tick.next cfg w.db w.ctl.tick a).map fun t =>
    { w.ctl with
      tick := t
      requests := w.ctl.requests ++ ((Tick.dispatches w.ctl.tick a).map fun d => w.request d.1 d.2.1 d.2.2).toList }
  | .resolve q =>
    if q ∈ w.ctl.requests ∧ q.stage = .accepted then
      (w.rowFor q.run q.task).map fun r =>
        { w.ctl with
          requests := { q with stage := .resolved ⟨r.id, q.run, q.task, r.tryNumber, q.placement⟩ } ::
            w.ctl.requests.erase q }
    else none
  | .create q warm =>
    match q.stage with
    | .resolved a =>
      if q ∈ w.ctl.requests then
        some { w.ctl with
          requests := { q with stage := .created a } :: w.ctl.requests.erase q
          agents := { attempt := a } :: w.ctl.agents
          pods := if warm then w.ctl.pods else a :: w.ctl.pods
          leases := if warm then a :: w.ctl.leases else w.ctl.leases }
      else none
    | _ => none
  | .requestFails q _ =>
    if q ∈ w.ctl.requests then some { w.ctl with requests := w.ctl.requests.erase q } else none
  | .requestDone q =>
    if q ∈ w.ctl.requests then some { w.ctl with requests := w.ctl.requests.erase q } else none
  | .reportRunning a =>
    if a ∈ w.ctl.agents then
      some { w.ctl with agents := { a with running := true } :: w.ctl.agents.erase a }
    else none
  | .processEnds a o =>
    if a ∈ w.ctl.agents ∧ a.outcome = none then
      some { w.ctl with agents := { a with outcome := some o } :: w.ctl.agents.erase a }
    else none
  | .reportOutcome a => if a ∈ w.ctl.agents ∧ a.outcome.isSome then some w.ctl else none
  | .heartbeat a => if a ∈ w.ctl.agents ∧ a.running then some w.ctl else none
  | .agentGone a =>
    if a ∈ w.ctl.agents then some { w.ctl with agents := w.ctl.agents.erase a } else none
  | .bindWarm l _ => if l ∈ w.ctl.leases then some w.ctl else none
  | .requeue l =>
    if l ∈ w.ctl.leases then some { w.ctl with leases := w.ctl.leases.erase l } else none
  | .leaseOver l =>
    if l ∈ w.ctl.leases then some { w.ctl with leases := w.ctl.leases.erase l } else none
  | .settle p _ => if p ∈ w.ctl.pods then some w.ctl else none
  | .collect p =>
    if p ∈ w.ctl.pods then some { w.ctl with pods := w.ctl.pods.erase p } else none
  | .take c clock =>
    if c.taken cfg.reapers w.db clock then
      some { w.ctl with reaps := { candidate := c, clock := clock } :: w.ctl.reaps }
    else none
  | .mark i =>
    if i ∈ w.ctl.reaps ∧ i.marked = none ∧ i.clock ≤ w.db.now then
      some { w.ctl with
        reaps := { i with marked := some (i.candidate.applied w.db) } :: w.ctl.reaps.erase i }
    else none
  | .teardown i =>
    if i ∈ w.ctl.reaps ∧ i.marked.any (fun m => i.candidate.tearsDown m) then
      some { w.ctl with reaps := w.ctl.reaps.erase i }
    else none
  | .dropReap i =>
    if i ∈ w.ctl.reaps then some { w.ctl with reaps := w.ctl.reaps.erase i } else none
  | .clear run taskIDs onlyFailed opts currentVersion =>
    if w.db.runs.any (fun d => d.id == run) then
      some { w.ctl with
        clears := (clearTaskInstances run taskIDs onlyFailed opts currentVersion).add w.ctl.clears }
    else none
  | .clearNext c =>
    if c ∈ w.ctl.clears then
      some { w.ctl with clears := c.rest.add (w.ctl.clears.erase c) }
    else none
  | .clearFails c =>
    if c ∈ w.ctl.clears then some { w.ctl with clears := w.ctl.clears.erase c } else none
  | .setDagRunState run state =>
    (w.db.runs.find? fun d => d.id == run).map fun d =>
      { w.ctl with
        patches := ⟨run, state, d.startedAt, if state.isTerminal then some w.db.now else none⟩ :: w.ctl.patches }
  | .updateDagRunState p =>
    if p ∈ w.ctl.patches then some { w.ctl with patches := w.ctl.patches.erase p } else none

/-! ## Bookkeeping -/

/-- A landed dispatch opens a new placement of its row; a write that moves a row into `queued` is an
entry; a heartbeat is recorded for the placement of its agent. -/
def tracked (w : World) (a : Action) : Track where
  placements id :=
    match a with
    | .tick t =>
      match Tick.dispatches w.ctl.tick t with
      | some d => if w.db.tis.any fun r => r.isFor d.1 d.2.1 && r.id == id
        then w.track.placements id + 1 else w.track.placements id
      | none => w.track.placements id
    | _ => w.track.placements id
  enteredQueued id :=
    if w.db.tis.any fun r => r.id == id && r.state != .queued && ((w.write a).row w.db r).state == .queued
    then w.db.now else w.track.enteredQueued id
  lastBeat id :=
    match a with
    | .heartbeat g =>
      if w.db.tis.any fun r => r.id == id && (recordTaskHeartbeat w.db.now g.attempt.run
          g.attempt.task g.attempt.tryNumber).guard r
      then some (g.attempt.placement, w.db.now) else w.track.lastBeat id
    | _ => w.track.lastBeat id

/-- The database after an action. -/
def after (w : World) : Action → Database
  | .clock elapsed => { w.db with now := w.db.now + elapsed }
  | a => w.db.write (w.write a)

/-- The world after an action, where the action is enabled. -/
def step (cfg : Config) (w : World) (a : Action) : Option World :=
  (w.next cfg a).map fun ctl => { db := w.after a, ctl := ctl, track := w.tracked a }

/-- A control plane that starts on empty tables. -/
def empty (now : Time) : World where
  db := { now := now, runs := [], tis := [] }

/-- The control plane, from its start. -/
def system (cfg : Config) : Lib.System World Action where
  init w := ∃ now, w = empty now
  step := step cfg

end World

/-! ## Schedules -/

/-- A tick reads the runs and begins with the first. -/
def tickStarts : List Action := [.tick .begin, .tick .load, .tick .loaded, .tick .start]

/-- A tick with these calls and nothing between them. -/
def quietTick (calls : List TickAction) : List Action :=
  tickStarts ++ calls.map Action.tick ++ [.tick .finish, .tick .stop]

/-- A run is created and a tick makes its rows. -/
def materialize (run version : String) (ids : List String) : List Action :=
  .createRun run "" version :: quietTick [.call ids, .call []]

/-- One DAG of one task. -/
def oneTask : Config := .ofTasks [{ taskID := "task" }]

/-- The task is dispatched, and the tick has yet to write that. -/
def dispatched : List Action :=
  materialize "run" "v1" ["ti"] ++ quietTick [.call []] ++ tickStarts ++ [.tick (.dispatch .dispatched true)]

/-- The request of the first dispatch. -/
def firstRequest : Request where
  run := "run"
  task := "task"
  tryNumber := 1
  placement := 1
  buffered := true

/-- The attempt of its first dispatch. -/
def firstAttempt : Attempt := ⟨"ti", "run", "task", 1, 1⟩

/-- Its agent starts and says so. -/
def startsRunning : List Action :=
  [.resolve firstRequest, .create { firstRequest with stage := .resolved firstAttempt } false,
    .reportRunning { attempt := firstAttempt }]

/-- The agent of a running first attempt. -/
def firstAgent : Agent := { attempt := firstAttempt, running := true }

/-- The tick finishes after the dispatch, and then the pod starts. -/
def firstRunning : List Action :=
  dispatched ++ [.tick (.call []), .tick .finish, .tick .stop] ++ startsRunning

/-- The process of an attempt ends and its agent reports the outcome. -/
def ends (a : Attempt) (outcome : AgentOutcome) : List Action :=
  [.processEnds ⟨a, true, none⟩ outcome, .reportOutcome ⟨a, true, some outcome⟩]

/-- The first try fails. -/
def failsOnce : List Action := firstRunning ++ ends firstAttempt (.failed 1 "boom")

/-- A tick writes the verdict on the run. -/
def finalizes : List Action := tickStarts ++ [.tick (.call [])]

/-- The dispatch of the second try. -/
def secondRequest : Request := ⟨"run", "task", 2, 2, true, .accepted⟩

/-- Its attempt. -/
def secondAttempt : Attempt := ⟨"ti", "run", "task", 2, 2⟩

/-- The operator clears the failed task and re-opens its run, and the second try starts. -/
def reopensAndRuns : List Action :=
  [.tick .finish, .tick .stop, .clear "run" ["task"] true ⟨true, false⟩ "v1",
    .clearNext ⟨"run", [.failedTask "task"], some .keepingVersion⟩,
    .clearNext ⟨"run", [], some .keepingVersion⟩] ++
  quietTick [.call []] ++ tickStarts ++
  [.tick (.dispatch .dispatched true), .tick (.call []), .tick .finish, .tick .stop,
    .resolve secondRequest, .create { secondRequest with stage := .resolved secondAttempt } false,
    .reportRunning { attempt := secondAttempt }]

/-- What a sweep shows of the first attempt three minutes after it was queued. -/
def staleCandidate : StaleQueuedCandidate := ⟨"ti", "run", "task", 1, 1, ""⟩

/-- The task is queued for the threshold and then listed. -/
def staleQueued : List Action :=
  dispatched ++ [.tick (.call []), .tick .finish, .tick .stop, .clock 180000000000,
    .take (.dispatchLost staleCandidate) 180000000001]

/-- One DAG of one task with a retry. -/
def oneRetry : Config := .ofTasks [{ taskID := "task", retries := some 1 }]

/-- The running first try fails and reports it, and the second one is dispatched. -/
def failsThenRetries : List Action :=
  [.requestDone { firstRequest with stage := .created firstAttempt }, .processEnds firstAgent (.failed 1 "boom"),
    .reportOutcome { firstAgent with outcome := some (.failed 1 "boom") },
    .agentGone { firstAgent with outcome := some (.failed 1 "boom") }] ++
  quietTick [.call []] ++ quietTick [.call []] ++ quietTick [.call []] ++ tickStarts ++
  [.tick (.dispatch .dispatched true), .tick (.call []), .tick .finish, .tick .stop,
    .resolve ⟨"run", "task", 2, 2, true, .accepted⟩,
    .create ⟨"run", "task", 2, 2, true, .resolved ⟨"ti", "run", "task", 2, 2⟩⟩ false]

end Leoflow
