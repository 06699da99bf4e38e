import Leoflow.AgentRPC.PoolEffects

/-!
# Reclaimed warm attempts

A handler that returns puts the leases its worker has not acked back to `scheduled` at once. The worker does not
wait for its ack to arrive: once the send has returned it runs the attempt. So an ack that is lost with its
stream leaves the attempt running and re-placed.
-/

namespace Leoflow

open Lib (Channel)

/-- The assignment a message says is started. -/
def WorkerMessage.acked : WorkerMessage → Option String
  | .ack id true => some id
  | _ => none

namespace WarmPool

/-- No worker runs an assignment that was reclaimed and re-placed. -/
def RunsOnce (p : WarmPool) : Prop :=
  ∀ ev ∈ p.replaced, ∀ s ∈ p.streams, ∀ x ∈ s.worker.runs, x.assignmentID ≠ ev.assignmentID

instance (p : WarmPool) : Decidable p.RunsOnce := by
  unfold RunsOnce
  infer_instance

/-- Every assignment acked as started among the messages has no lease any more. -/
def Overdue (p : WarmPool) (messages : List WorkerMessage) : Prop :=
  ∀ m ∈ messages, ∀ id ∈ m.acked, p.registry.leases.lookup id = none

instance (p : WarmPool) (messages : List WorkerMessage) : Decidable (p.Overdue messages) := by
  unfold Overdue
  infer_instance

/-- No started ack of an outstanding lease is lost: no cut loses one, no handler returns before it was handled,
and the send of an ack succeeds only on an open stream whose handler serves. -/
def AcksArrive (p : WarmPool) : PoolAction → Prop
  | .stream k (.cutUp n) => ∀ s ∈ p.streams[k]?, p.Overdue (s.up.lost n)
  | .handlerReturns k => ∀ s ∈ p.streams[k]?, p.Overdue s.up.queue
  | .stream k (.sendAck true) => ∀ s ∈ p.streams[k]?, s.serving ∧ s.up.cut = false
  | _ => True

instance (p : WarmPool) (a : PoolAction) : Decidable (p.AcksArrive a) := by
  unfold AcksArrive
  split <;> infer_instance

variable {p p' : WarmPool} {a : PoolAction}

/-! ## Where an assignment can be -/

/-- Every lease, channel, stream and worker holds an assignment only of the worker it was handed to,
and a worker's ack says that it started. -/
structure Traced (p : WarmPool) : Prop where
  distinct : (p.issued.map Prod.fst).Nodup
  lease : ∀ {id ls}, p.registry.leases.lookup id = some ls → (id, ls.worker) ∈ p.issued
  send : ∀ {k x}, (p.registry.entry k).send = some x → (x.assignmentID, k) ∈ p.issued
  held : ∀ {k : WorkerRef} {s x}, p.streams[k]? = some s → x ∈ s.held → (x.assignmentID, k) ∈ p.issued
  acks : ∀ {k : WorkerRef} {s id started}, p.streams[k]? = some s → .ack id started ∈ s.up.queue → started = true

theorem Traced.unique (h : Traced p) {id : String} {k k' : WorkerRef} (hk : (id, k) ∈ p.issued)
    (hk' : (id, k') ∈ p.issued) : k = k' :=
  congrArg Prod.snd (List.inj_on_of_nodup_map h.distinct hk hk' rfl)

/-- Every effect keeps assignments with the worker they were handed to. -/
theorem traced_step (h : Traced p) (he : Effect p a p') : Traced p' where
  distinct := by
    rcases issued_step he with hi | ⟨id, w, hi, hfresh⟩
    · rw [hi]
      exact h.distinct
    · rw [hi, List.map_cons, List.nodup_cons]
      exact ⟨hfresh, h.distinct⟩
  lease hl := by
    rcases lease_step he hl with hl | ⟨-, hl⟩
    · exact mem_issued_step he (h.lease hl)
    · exact hl
  send hx := by
    rcases send_step he hx with hx | hx
    · exact mem_issued_step he (h.send hx)
    · exact hx
  held hk' hx := by
    refine mem_issued_step he ?_
    rcases stream_step he hk' with ⟨s, hk, hse⟩ | ⟨-, identity, rfl⟩
    · cases hse with
      | kept | returned | pumped => exact h.held hk hx
      | forwarded hsend =>
        rcases Stream.mem_held.mp hx with hx | hx
        · rcases Channel.mem_send.mp hx with hx | ⟨-, rfl⟩
          · exact h.held hk (Stream.mem_held.mpr (.inl hx))
          · exact h.send hsend
        · exact h.held hk (Stream.mem_held.mpr (.inr hx))
      | acted hb => exact h.held hk (Stream.held_of_act hb hx)
    · cases hx
  acks hk' hm := by
    rcases stream_step he hk' with ⟨s, hk, hse⟩ | ⟨-, identity, rfl⟩
    · cases hse with
      | kept | forwarded | returned => exact h.acks hk hm
      | pumped hrecv => exact h.acks hk ((Channel.mem_queue_of_recv hrecv).mpr (.inr hm))
      | acted hb =>
        rcases Stream.up_of_act hb hm with hm | hm | ⟨id, hm⟩
        · exact h.acks hk hm
        · cases hm
        · cases hm
          rfl
    · cases hm

/-! ## Reclaims -/

/-- The handler of a withdrawn assignment has returned. The assignment a worker runs, or is about to, is not
withdrawn, and while its lease is outstanding its ack is under way. -/
structure Settled (p : WarmPool) : Prop where
  returned : ∀ {id}, p.Withdrawn id → ∃ k s, (id, k) ∈ p.issued ∧ p.streams[k]? = some s ∧ s.serving = false
  kept : ∀ {k : WorkerRef} {s x}, p.streams[k]? = some s → s.worker.committed = some x → ¬ p.Withdrawn x.assignmentID
  unacked : ∀ {k : WorkerRef} {s x ls}, p.streams[k]? = some s → s.worker.committed = some x →
    p.registry.leases.lookup x.assignmentID = some ls → .ack x.assignmentID true ∈ s.up.queue

theorem Traced.committed (h : Traced p) {k : WorkerRef} {s : Stream} {x : WorkAssignment}
    (hk : p.streams[k]? = some s) (hx : s.worker.committed = some x) : (x.assignmentID, k) ∈ p.issued :=
  h.held hk (Stream.mem_held.mpr (.inr (WorkerPhase.current_of_committed hx)))

section

variable (ht : Traced p) (h : Settled p)
include ht h

theorem settled_returned (he : Effect p a p') {id : String} (hw : p'.Withdrawn id) :
    ∃ k s, (id, k) ∈ p'.issued ∧ p'.streams[k]? = some s ∧ s.serving = false := by
  rcases withdrawn_step he ht.acks hw with hw | ⟨k, ls, rfl, hl, rfl⟩
  · obtain ⟨k, s, hi, hk, hs⟩ := h.returned hw
    obtain ⟨s', hk', hs'⟩ := returned_step he hk hs
    exact ⟨k, s', mem_issued_step he hi, hk', hs'⟩
  · cases he with
    | @returned _ s hk =>
      refine ⟨ls.worker, { s with serving := false }, ht.lease hl, ?_, rfl⟩
      exact List.getElem?_set_self (List.getElem?_eq_some_iff.mp hk).1

section

variable (hc : p.AcksArrive a) (he : Effect p a p') {k : WorkerRef} {s' : Stream} {x : WorkAssignment}
include hc he

theorem settled_kept (hk' : p'.streams[k]? = some s')
    (hx' : s'.worker.committed = some x) : ¬ p'.Withdrawn x.assignmentID := by
  intro hw
  obtain ⟨s, hk, hx⟩ := committed_step he hk' hx'
  rcases withdrawn_step he ht.acks hw with hw | ⟨j, ls, rfl, hl, rfl⟩
  · rcases hx with hx | ⟨rfl, hheld, -⟩
    · exact h.kept hk hx hw
    · -- The worker acks now, on a stream whose handler has returned.
      obtain ⟨j, t, hi, hj, hserving⟩ := h.returned hw
      cases ht.unique (ht.held hk hheld) hi
      cases hk.symm.trans hj
      cases hserving.symm.trans (hc s hk).1
  · rcases hx with hx | ⟨hne, -⟩
    · -- The handler returns now, and the worker's ack is on its stream.
      cases ht.unique (ht.committed hk hx) (ht.lease hl)
      have hover := hc s hk _ (h.unacked hk hx hl) _ rfl
      cases hl.symm.trans hover
    · cases hne

theorem settled_unacked {ls : LeaseState} (hk' : p'.streams[k]? = some s') (hx' : s'.worker.committed = some x)
    (hl' : p'.registry.leases.lookup x.assignmentID = some ls) : .ack x.assignmentID true ∈ s'.up.queue := by
  obtain ⟨s, hk, hx | ⟨rfl, -, hup⟩⟩ := committed_step he hk' hx'
  · have hl : p.registry.leases.lookup x.assignmentID = some ls := by
      rcases lease_step he hl' with hl | ⟨hfresh, -⟩
      · exact hl
      · exact absurd (List.mem_map_of_mem (ht.committed hk hx)) hfresh
    have hm := h.unacked hk hx hl
    -- The ack leaves the channel when it is handled, which ends the lease, or by a cut.
    rcases stream_step he hk' with ⟨s0, hk0, hse⟩ | ⟨hnone, -⟩
    · cases hk.symm.trans hk0
      cases hse with
      | kept | forwarded | returned => exact hm
      | pumped hrecv =>
        rcases (Channel.mem_queue_of_recv hrecv).mp hm with rfl | hm
        · cases (no_lease_of_pump he hk hrecv).symm.trans hl'
        · exact hm
      | acted hb =>
        rcases Stream.mem_up_of_act hb hm with hm | ⟨n, rfl, hlost⟩
        · exact hm
        · cases (hc s hk _ hlost _ rfl).symm.trans hl
    · cases hk.symm.trans hnone
  · rw [hup]
    exact Channel.mem_send.mpr (.inr ⟨(hc s hk).2, rfl⟩)

end

theorem settled_step (hc : p.AcksArrive a) (he : Effect p a p') : Settled p' where
  returned := settled_returned ht h he
  kept := settled_kept ht h hc he
  unacked := settled_unacked ht h hc he

end

theorem traced_init (db : Database) : Traced { db } where
  distinct := List.nodup_nil
  lease hl := by cases hl
  send hx := by cases hx
  held hk := by cases hk
  acks hk := by cases hk

theorem settled_init (db : Database) : Settled { db } where
  returned := by rintro id (⟨ev, hev, -⟩ | ⟨ev, hev, -⟩) <;> cases hev
  kept hk := by cases hk
  unacked hk := by cases hk

theorem traced_settled (h : system.Reaches AcksArrive p) : Traced p ∧ Settled p := by
  refine h.invariant (I := fun p => Traced p ∧ Settled p) (fun p hi => ?_) ?_
  · obtain ⟨db, rfl⟩ := hi
    exact ⟨traced_init db, settled_init db⟩
  · intro p a p' _ h hc hs
    have he := step_effect hs
    exact ⟨traced_step h.1 he, settled_step h.1 h.2 hc he⟩

end WarmPool

open WarmPool

/-- **A reclaimed attempt is not run twice.** In every run in which no started ack of an outstanding
lease is lost, no worker runs an assignment after its attempt was re-placed. -/
theorem reclaimed_attempt_runs_once {p : WarmPool} (h : system.Reaches AcksArrive p) :
    p.RunsOnce := by
  intro ev hev s hs x hx heq
  obtain ⟨k, hk⟩ := List.getElem?_of_mem hs
  have hx : s.worker.committed = some x := WorkerPhase.committed_of_runs hx
  exact (traced_settled h).2.kept hk hx (.inr ⟨ev, hev, heq.symm⟩)

/-! ## Schedules -/

/-- A scheduled task. -/
def scheduledTask : WarmPool where
  db :=
    { now := 1
      runs := []
      tis := [{ id := "ti", dagRunId := "run", taskId := "task", tryNumber := 1, maxTries := 1,
                state := .scheduled }] }

/-- A worker connects, is handed the attempt, and the scheduler records it as queued. -/
def handsOut (identity assignmentID : String) : List PoolAction :=
  [.connect identity "v1" (.register "v1" identity), .assign "v1" ⟨assignmentID, "run", "task", 1⟩ identity,
    .write (.updateTaskInstanceStateByRunTask "run" "task" .queued)]

/-- A worker takes its assignment and starts it. -/
def acks (k : WorkerRef) : List PoolAction :=
  [.forward k, .stream k .receive, .stream k (.resetScratch true), .stream k (.sendAck true)]

/-- A handler returns and the assignment it reclaims is re-placed. -/
def replaces (k : WorkerRef) (assignmentID : String) : List PoolAction :=
  [.handlerReturns k, .handleReclaim ⟨assignmentID, "v1", .workerGone, "run", "task", 1⟩ true]

/-- The first worker's stream ends before the assignment reached it, and a second worker runs the
attempt. -/
theorem reclaimed_attempt_runs_once_elsewhere : ∃ p, system.runIf (fun p a => decide (p.AcksArrive a)) scheduledTask
        (handsOut "w1" "a1" ++ replaces 0 "a1" ++ handsOut "w2" "a2" ++ acks 1 ++ [.stream 1 .runOneAttempt]) = some p ∧
      p.replaced ≠ [] ∧ (∃ s ∈ p.streams, s.worker.runs.isSome) ∧ p.RunsOnce := by
  refine Lib.exists_eq_some (by decide +kernel) fun hrun => ?_
  exact ⟨by decide +kernel, by decide +kernel, reclaimed_attempt_runs_once
    (Lib.System.Reaches.runIf (.init ⟨_, rfl⟩) (fun _ _ hc => of_decide_eq_true hc) hrun)⟩

/-- The stream is cut with the ack on its way, the handler returns, the attempt is re-placed, and
then the worker runs it. -/
theorem lost_ack_runs_twice : ¬ ∀ p, system.Reachable p → p.RunsOnce := by
  intro h
  have hr : system.Reachable ((system.run scheduledTask (handsOut "w1" "a1" ++ acks 0 ++
      [.stream 0 (.cutUp 0)] ++ replaces 0 "a1" ++ [.stream 0 .runOneAttempt])).get (by decide +kernel)) :=
    .run (.init ⟨_, rfl⟩) (Option.some_get _).symm
  exact absurd (h _ hr) (by decide +kernel)

end Leoflow
