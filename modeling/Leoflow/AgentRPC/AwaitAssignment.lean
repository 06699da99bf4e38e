import Leoflow.AgentRPC.WorkerRegistry
import Leoflow.Lib.Channel
import Leoflow.Lib.Runs
import Leoflow.Storage.Database

/-!
# The assignment stream

`internal/agentrpc/await_assignment.go` and `internal/agent/warm.go`: a warm worker registers and
holds a stream open, over which the control plane hands it one attempt after another. Each direction
of the stream is a channel that may be cut. A step is the registry's, a handler's, a worker's or the
network's, and any order of enabled steps is a run.
-/

namespace Leoflow

open Lib (Channel)
open Lib.Channel

/-! ## Messages -/

/-- What a warm worker sends up its stream. -/
inductive WorkerMessage where
  | register (dagVersionID podName : String)
  | ack (assignmentID : String) (started : Bool)
  | slotFree
deriving DecidableEq

/-- The `codes.Code` of a refused registration. -/
inductive Code where
  | failedPrecondition
  | invalidArgument
  | permissionDenied
  | internal
deriving DecidableEq

/-- A `status.Error`. -/
structure Status where
  code : Code
  message : String
deriving DecidableEq

/-- How a `Recv` fails. -/
inductive RecvError where
  | eof
  | transport
deriving DecidableEq

/-- The first message must register the worker for the pool of its token. -/
def registerFromStream (r : WorkerRegistry) (identity tokenPool : String) :
    Except RecvError WorkerMessage → Except Status (WorkerRegistry × WorkerRef)
  | .error .eof => .error ⟨.failedPrecondition, "stream closed before worker registration"⟩
  | .error .transport => .error ⟨.internal, "receiving worker registration: " ++
      "the request could not be completed; see the control-plane logs"⟩
  | .ok (.register dagVersion podName) =>
    if dagVersion = "" then
      .error ⟨.invalidArgument, "worker register missing dag_version_id"⟩
    else if dagVersion ≠ tokenPool then
      .error ⟨.permissionDenied, "worker token is not valid for this dag_version"⟩
    else .ok (r.register identity dagVersion podName)
  | .ok _ => .error ⟨.failedPrecondition, "first worker message must be a register"⟩

/-- One round of `pumpWorkerMessages`: the binding to persist and the reclaim to hand out. -/
def pumpWorkerMessage (r : WorkerRegistry) (identity : String) :
    WorkerMessage → WorkerRegistry × Option WarmBinding × Option ReclaimEvent
  | .ack assignmentID started => r.ack assignmentID started
  | .slotFree => (r.markFree identity, none, none)
  | .register .. => (r, none, none)

section Pump

variable {r : WorkerRegistry} {identity id : String} {m : WorkerMessage}

theorem pumpWorkerMessage_leases {ls : LeaseState} : (pumpWorkerMessage r identity m).1.leases.lookup id = some ls ↔
      (∀ started, m ≠ .ack id started) ∧ r.leases.lookup id = some ls := by
  cases m with
  | register | slotFree => simp [pumpWorkerMessage]
  | ack id' started =>
    rw [pumpWorkerMessage, WorkerRegistry.ack_leases]
    have hne : id ≠ id' ↔ ∀ started', WorkerMessage.ack id' started ≠ .ack id started' := by
      simp [eq_comm]
    rw [hne]

theorem pumpWorkerMessage_send (k : WorkerRef) :
    ((pumpWorkerMessage r identity m).1.entry k).send = (r.entry k).send := by
  cases m with
  | register => rfl
  | ack => exact r.ack_send k _ _
  | slotFree => exact r.markFree_send k _

theorem pumpWorkerMessage_reclaim (h : ∀ id started, m = .ack id started → started) :
    (pumpWorkerMessage r identity m).2.2 = none := by
  cases m with
  | register | slotFree => rfl
  | ack id started => rw [h id started rfl]; exact r.ack_started id

end Pump

/-- A task goes back to the scheduler where its worker is gone or refused it; after an expiry the worker may still
run it. -/
def reclaimShouldRequeue : ReclaimReason → Bool
  | .workerGone | .refused => true
  | .leaseExpired => false

/-! ## The worker's end -/

/-- Where a worker is in `serve` and `serveAssignment`. -/
inductive WorkerPhase where
  | awaiting
  | received (a : WorkAssignment)
  | scratchReset (a : WorkAssignment)
  | acked (a : WorkAssignment)
  | executing (a : WorkAssignment)
  | finished
  | exited
deriving DecidableEq

namespace WorkerPhase

/-- The assignment a worker has received and not finished. -/
def current : WorkerPhase → Option WorkAssignment
  | received a | scratchReset a | acked a | executing a => some a
  | _ => none

/-- The assignment a worker's next step is to run, or that it runs. -/
def committed : WorkerPhase → Option WorkAssignment
  | acked a | executing a => some a
  | _ => none

/-- The assignment a worker is executing. -/
def runs : WorkerPhase → Option WorkAssignment
  | executing a => some a
  | _ => none

theorem current_of_committed {p : WorkerPhase} {a : WorkAssignment} (h : p.committed = some a) :
    p.current = some a := by
  cases p <;> first | exact h | cases h

theorem committed_of_runs {p : WorkerPhase} {a : WorkAssignment} (h : p.runs = some a) : p.committed = some a := by
  cases p <;> first | exact h | cases h

end WorkerPhase

/-- One stream: whether its handler has not returned, the two directions, and the worker. -/
structure Stream where
  identity : String
  serving : Bool := true
  down : Channel WorkAssignment := {}
  up : Channel WorkerMessage := {}
  worker : WorkerPhase := .awaiting
deriving DecidableEq

/-- What happens at a worker or to a channel. The Boolean of a send or of the scratch reset says that
it returned no error. -/
inductive StreamAction where
  | receive
  | resetScratch (ok : Bool)
  | sendAck (ok : Bool)
  | runOneAttempt
  | attemptEnds
  | sendSlotFree (ok : Bool)
  | exits
  | cutDown (n : Nat)
  | cutUp (n : Nat)
deriving DecidableEq

namespace Stream

/-- A step of the worker or of the network. A scratch reset or a send that fails ends the worker. -/
def act (s : Stream) : StreamAction → Option Stream
  | .receive =>
    match s.worker, s.down.recv with
    | .awaiting, some (a, down) => some { s with down, worker := .received a }
    | _, _ => none
  | .resetScratch ok =>
    match s.worker with
    | .received a => some { s with worker := if ok then .scratchReset a else .exited }
    | _ => none
  | .sendAck ok =>
    match s.worker with
    | .scratchReset a =>
      if ok then some { s with up := s.up.send (.ack a.assignmentID true), worker := .acked a }
      else some { s with worker := .exited }
    | _ => none
  | .runOneAttempt =>
    match s.worker with
    | .acked a => some { s with worker := .executing a }
    | _ => none
  | .attemptEnds =>
    match s.worker with
    | .executing _ => some { s with worker := .finished }
    | _ => none
  | .sendSlotFree ok =>
    match s.worker with
    | .finished =>
      if ok then some { s with up := s.up.send .slotFree, worker := .awaiting }
      else some { s with worker := .exited }
    | _ => none
  | .exits => some { s with worker := .exited }
  | .cutDown n => some { s with down := s.down.cutAfter n }
  | .cutUp n => some { s with up := s.up.cutAfter n }

/-- The assignments on their way to the worker or with it. -/
def held (s : Stream) : List WorkAssignment := s.down.queue ++ s.worker.current.toList

theorem mem_held {s : Stream} {x : WorkAssignment} : x ∈ s.held ↔ x ∈ s.down.queue ∨ s.worker.current = some x := by
  simp [held]

/-! ### What a step of the worker or of the network does -/

variable {s s' : Stream} {a : StreamAction} {x : WorkAssignment} {m : WorkerMessage}

section

variable (h : s.act a = some s')
include h

theorem act_serving : s'.serving = s.serving := by
  cases a <;> simp only [act] at h <;> repeat' split at h
  all_goals cases h <;> rfl

theorem act_identity : s'.identity = s.identity := by
  cases a <;> simp only [act] at h <;> repeat' split at h
  all_goals cases h <;> rfl

/-- A worker that has left the stream does not come back to it. -/
theorem act_exited (hw : s.worker = .exited) : s'.worker = .exited := by
  cases a <;> simp only [act, hw] at h <;> cases h <;> rfl

theorem held_of_act (hx : x ∈ s'.held) : x ∈ s.held := by
  rw [mem_held] at hx ⊢
  cases a with
  | receive =>
    simp only [act] at h
    split at h
    next a down hw hrecv =>
      cases h
      rw [mem_queue_of_recv hrecv]
      rcases hx with hx | hx
      · exact .inl (.inr hx)
      · exact .inl (.inl (Option.some.inj hx).symm)
    · cases h
  | cutDown n =>
    cases h
    rw [mem_queue_of_cut n]
    exact hx.imp_left .inl
  | exits =>
    cases h
    exact hx.imp_right fun hx => by cases hx
  | cutUp =>
    cases h
    exact hx
  | resetScratch | sendAck | runOneAttempt | attemptEnds | sendSlotFree =>
    simp only [act] at h
    repeat' split at h
    all_goals cases h <;> simp_all [WorkerPhase.current]

/-- A worker says that it started, and nothing else about an assignment. -/
theorem up_of_act (hm : m ∈ s'.up.queue) : m ∈ s.up.queue ∨ m = .slotFree ∨ ∃ id, m = .ack id true := by
  cases a with
  | sendAck ok =>
    simp only [act] at h
    split at h
    · split at h <;> cases h
      · exact (mem_send.mp hm).imp_right fun hm => .inr ⟨_, hm.2⟩
      · exact .inl hm
    · cases h
  | sendSlotFree ok =>
    simp only [act] at h
    split at h
    · split at h <;> cases h
      · exact (mem_send.mp hm).imp_right fun hm => .inl hm.2
      · exact .inl hm
    · cases h
  | cutUp n =>
    cases h
    exact .inl ((mem_queue_of_cut n).mpr (.inl hm))
  | exits | cutDown =>
    cases h
    exact .inl hm
  | receive | resetScratch | runOneAttempt | attemptEnds =>
    simp only [act] at h
    split at h <;> cases h
    exact .inl hm

/-- A message of a worker stays under way unless the stream is cut. -/
theorem mem_up_of_act (hm : m ∈ s.up.queue) : m ∈ s'.up.queue ∨ ∃ n, a = .cutUp n ∧ m ∈ s.up.lost n := by
  cases a with
  | cutUp n =>
    cases h
    exact ((mem_queue_of_cut n).mp hm).imp_right fun hm => ⟨n, rfl, hm⟩
  | sendAck | sendSlotFree =>
    simp only [act] at h
    split at h
    · split at h <;> cases h
      · exact .inl (mem_send.mpr (.inl hm))
      · exact .inl hm
    · cases h
  | exits | cutDown =>
    cases h
    exact .inl hm
  | receive | resetScratch | runOneAttempt | attemptEnds =>
    simp only [act] at h
    split at h <;> cases h
    exact .inl hm

theorem committed_of_act (hx : s'.worker.committed = some x) : s.worker.committed = some x ∨
    (a = .sendAck true ∧ x ∈ s.held ∧ s'.up = s.up.send (.ack x.assignmentID true)) := by
  cases a with
  | sendAck ok =>
    simp only [act] at h
    split at h
    next a hw =>
      split at h <;> cases h
      · cases hx
        subst ok
        exact .inr ⟨rfl, mem_held.mpr (.inr (by rw [hw]; rfl)), rfl⟩
      · cases hx
    · cases h
  | exits => cases h; cases hx
  | cutDown | cutUp =>
    cases h
    exact .inl hx
  | receive | resetScratch | runOneAttempt | attemptEnds | sendSlotFree =>
    simp only [act] at h
    repeat' split at h
    all_goals cases h <;> simp_all [WorkerPhase.committed]

end

end Stream

/-! ## The pool -/

/-- The control plane's registry with the stream of each entry. Reclaim events and bindings are handled after the
registry's lock is released. `issued` and `replaced` are bookkeeping: the worker each assignment was handed to,
and the reclaims that put a row back to `scheduled`. -/
structure WarmPool where
  db : Database
  registry : WorkerRegistry := {}
  streams : List Stream := []
  reclaims : List ReclaimEvent := []
  bindings : List WarmBinding := []
  issued : List (String × WorkerRef) := []
  replaced : List ReclaimEvent := []

/-- The steps. `write` is a statement of another party, `pick` the free worker `Assign` comes to first; a Boolean
says that the statement returned no error. -/
inductive PoolAction where
  | clock (elapsed : Nat)
  | write (s : Statement)
  | connect (identity tokenPool : String) (first : WorkerMessage)
  | assign (dagVersion : String) (a : WorkAssignment) (pick : String)
  | forward (k : WorkerRef)
  | handlerReturns (k : WorkerRef)
  | pump (k : WorkerRef)
  | leaseExpires (assignmentID : String)
  | handleReclaim (ev : ReclaimEvent) (ok : Bool)
  | bindWarmAttempt (b : WarmBinding) (ok : Bool)
  | stream (k : WorkerRef) (a : StreamAction)
deriving DecidableEq

namespace WarmPool

/-- The dispatcher's answer to a reclaim: the task is queued again where that is safe and the database answers. -/
def handleReclaim (p : WarmPool) (ev : ReclaimEvent) (ok : Bool) : WarmPool :=
  let u := requeueForRedispatch ev.runID ev.taskID ev.tryNumber
  if reclaimShouldRequeue ev.reason && ok then
    { p with
      db := p.db.write (.task (.requeueForRedispatch ev.runID ev.taskID ev.tryNumber))
      reclaims := p.reclaims.erase ev
      replaced := if u.rowsAffected p.db.tis = 0 then p.replaced else ev :: p.replaced }
  else { p with reclaims := p.reclaims.erase ev }

/-- One step. Assignment ids are fresh UUIDs. -/
def step (p : WarmPool) : PoolAction → Option WarmPool
  | .clock elapsed => some { p with db := { p.db with now := p.db.now + elapsed } }
  | .write s => some { p with db := p.db.write (.task s) }
  | .connect identity tokenPool first =>
    match registerFromStream p.registry identity tokenPool (.ok first) with
    | .ok (registry, _) => some { p with registry, streams := p.streams ++ [{ identity }] }
    | .error _ => none
  | .assign dagVersion a pick =>
    if a.assignmentID ∉ p.issued.map Prod.fst ∧ p.registry.mayPick dagVersion pick then
      let (registry, taken) := p.registry.assign pick dagVersion a
      some { p with registry, issued := (taken.map (a.assignmentID, ·)).toList ++ p.issued }
    else none
  | .forward k =>
    match p.streams[k]?, (p.registry.entry k).send with
    | some s, some a =>
      if s.serving then
        some { p with
          registry := p.registry.modify k ({ · with send := none })
          streams := p.streams.set k { s with down := s.down.send a } }
      else none
    | _, _ => none
  | .handlerReturns k =>
    -- Its context ended, the server shuts down, or a receive or a send on the stream failed.
    match p.streams[k]? with
    | some s =>
      if s.serving then
        let (registry, reclaims) := p.registry.deregister k
        some { p with
          registry
          streams := p.streams.set k { s with serving := false }
          reclaims := reclaims ++ p.reclaims }
      else none
    | none => none
  | .pump k =>
    -- The receive loop may still hold a message when the handler has returned.
    match p.streams[k]? with
    | some s =>
      match s.up.recv with
      | some (m, up) =>
        let (registry, binding, reclaim) := pumpWorkerMessage p.registry s.identity m
        some { p with
          registry
          streams := p.streams.set k { s with up }
          reclaims := reclaim.toList ++ p.reclaims
          bindings := binding.toList ++ p.bindings }
      | none => none
    | none => none
  | .leaseExpires id =>
    let (registry, reclaim) := p.registry.onLeaseExpire id
    some { p with registry, reclaims := reclaim.toList ++ p.reclaims }
  | .handleReclaim ev ok => if ev ∈ p.reclaims then some (p.handleReclaim ev ok) else none
  | .bindWarmAttempt b ok =>
    if b ∈ p.bindings then
      some { p with
        bindings := p.bindings.erase b
        db := if ok then
            p.db.write (.task (.bindWarmAttempt b.runID b.taskID b.tryNumber b.podName))
          else p.db }
    else none
  | .stream k a =>
    match p.streams[k]? with
    | some s => (s.act a).map fun s' => { p with streams := p.streams.set k s' }
    | none => none

/-- The system, started with an empty registry. -/
def system : Lib.System WarmPool PoolAction where
  init p := ∃ db, p = { db }
  step := step

end WarmPool

end Leoflow
