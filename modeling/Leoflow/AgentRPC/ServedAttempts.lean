import Leoflow.AgentRPC.PoolEffects
import Leoflow.AgentRPC.RegistryRuns

/-!
# Attempts that registered workers execute

Which attempts the registered workers of a pool execute, how a step of the pool changes that, and
what a step does to the rows.
-/

namespace Leoflow

open Lib (GoMap)
open WorkerRegistry

/-- The attempt a row is at. -/
def TaskInstance.attempt (r : TaskInstance) : AttemptKey := (r.dagRunId, r.taskId, r.tryNumber)

namespace WorkerRegistry

theorem assign_workers (r : WorkerRegistry) (pick v : String) (a : WorkAssignment) :
    (r.assign pick v a).1.workers = r.workers := by
  unfold assign
  split
  · rfl
  next w r1 htake =>
    obtain ⟨set, -, -, rfl⟩ := r.takeFreeLocked_eq_some w htake
    split <;> rfl

theorem lookup_deregister {r : WorkerRegistry} {w k : WorkerRef} {identity : String}
    (h : (r.deregister w).1.workers.lookup identity = some k) : r.workers.lookup identity = some k := by
  by_cases hw : r.workers.lookup (r.entry w).identity = some w
  · rw [deregister_workers hw, GoMap.lookup_erase_some] at h
    exact h.2
  · rwa [deregister_of_superseded hw] at h

end WorkerRegistry

theorem pumpWorkerMessage_kept (r : WorkerRegistry) (identity : String) (m : WorkerMessage) :
    (pumpWorkerMessage r identity m).1.workers = r.workers ∧
      (pumpWorkerMessage r identity m).1.entries.length = r.entries.length := by
  cases m with
  | register => exact ⟨rfl, rfl⟩
  | ack id started => exact ⟨(r.ack_kept id started).1, (r.ack_kept id started).2.2⟩
  | slotFree => exact r.markFree_kept identity

/-! ## What a step writes -/

namespace PoolAction

/-- What an action writes to the database. -/
def writes : PoolAction → Write
  | .write s => .task s
  | .handleReclaim ev ok =>
    if reclaimShouldRequeue ev.reason && ok then
      .task (.requeueForRedispatch ev.runID ev.taskID ev.tryNumber)
    else .nothing
  | .bindWarmAttempt b ok =>
    if ok then .task (.bindWarmAttempt b.runID b.taskID b.tryNumber b.podName) else .nothing
  | _ => .nothing

/-- How far an action moves the clock. -/
def elapsed : PoolAction → Nat
  | .clock elapsed => elapsed
  | _ => 0

end PoolAction

namespace WarmPool

variable {p p' : WarmPool} {a : PoolAction}

/-- A step of the pool writes to the rows of tasks only, and takes its time. -/
theorem db_step (h : p.step a = some p') :
    p'.db.tis = p.db.tis.map (a.writes.row p.db) ∧ p'.db.now = p.db.now + a.elapsed := by
  have hnothing : p.db.tis.map (Write.nothing.row p.db) = p.db.tis := Write.map_row_of_none rfl _
  cases a with
  | clock =>
    cases h
    exact ⟨hnothing.symm, rfl⟩
  | write s =>
    cases h
    exact ⟨p.db.write_task_tis s, (Int.add_zero _).symm⟩
  | bindWarmAttempt b ok =>
    simp only [step, Option.ite_none_right_eq_some] at h
    obtain ⟨-, h⟩ := h
    cases h
    cases ok with
    | false => exact ⟨hnothing.symm, (Int.add_zero _).symm⟩
    | true => exact ⟨p.db.write_task_tis _, (Int.add_zero _).symm⟩
  | handleReclaim ev ok =>
    simp only [step, Option.ite_none_right_eq_some] at h
    obtain ⟨-, h⟩ := h
    cases h
    simp only [handleReclaim, PoolAction.writes]
    split
    · exact ⟨p.db.write_task_tis _, (Int.add_zero _).symm⟩
    · exact ⟨hnothing.symm, (Int.add_zero _).symm⟩
  | connect | assign | forward | handlerReturns | pump | leaseExpires | stream =>
    have hsame : p'.db = p.db := by
      cases step_effect h <;> rfl
    rw [hsame]
    exact ⟨hnothing.symm, (Int.add_zero _).symm⟩

/-! ## Who is registered -/

/-- The stream at an index is the one of the entry at that index. -/
def Aligned (p : WarmPool) : Prop := p.streams.length = p.registry.entries.length

theorem aligned_step (h : p.Aligned) (he : Effect p a p') : p'.Aligned := by
  unfold Aligned at h ⊢
  cases he with
  | passed | wrote | bound => exact h
  | connected => simp [register_entries, h]
  | unassigned entries => simp only [entries, h]
  | assigned fresh entries => simp only [entries, modify_length, h]
  | forwarded => simp only [List.length_set, modify_length, h]
  | returned => simp only [List.length_set, deregister_entries, h]
  | pumped => simp only [List.length_set, (pumpWorkerMessage_kept _ _ _).2, h]
  | expired => simp only [onLeaseExpire_entries, h]
  | handled => simp only [handleReclaim_streams, handleReclaim_registry, h]
  | acted => simp only [List.length_set, h]

theorem registry_of_assign {v pick : String} {x : WorkAssignment} (h : p.step (.assign v x pick) = some p') :
    p'.registry = (p.registry.assign pick v x).1 := by
  simp only [step, Option.ite_none_right_eq_some] at h
  obtain ⟨-, h⟩ := h
  cases h
  rfl

/-- A worker is registered by opening a stream, with the index of its new entry. -/
theorem registered_step {identity : String} {k : WorkerRef} (h : p.step a = some p')
    (hk : p'.registry.workers.lookup identity = some k) :
    p.registry.workers.lookup identity = some k ∨ k = p.registry.entries.length := by
  cases step_effect h with
  | passed | wrote | bound | forwarded | acted => exact .inl hk
  | connected =>
    rw [register_workers, GoMap.lookup_insert_some] at hk
    rcases hk with ⟨-, rfl⟩ | ⟨-, hk⟩
    · exact .inr rfl
    · exact .inl hk
  | unassigned | assigned =>
    rw [registry_of_assign h, WorkerRegistry.assign_workers] at hk
    exact .inl hk
  | returned => exact .inl (WorkerRegistry.lookup_deregister hk)
  | pumped => exact .inl (by rwa [(pumpWorkerMessage_kept _ _ _).1] at hk)
  | expired => exact .inl (by rwa [onLeaseExpire_workers] at hk)
  | handled => exact .inl (by rwa [handleReclaim_registry] at hk)

/-! ## Who executes what -/

/-- The identities a worker is registered under that executes an attempt, with the attempt. -/
def served (p : WarmPool) : List (String × AttemptKey) :=
  p.streams.zipIdx.filterMap fun sk =>
    if p.registry.workers.lookup sk.1.identity = some sk.2 then
      sk.1.worker.runs.map fun x => (sk.1.identity, x.attempt)
    else none

theorem mem_served {i : String × AttemptKey} : i ∈ p.served ↔ ∃ (k : WorkerRef) (s : Stream)
    (x : WorkAssignment), p.streams[k]? = some s ∧ p.registry.workers.lookup s.identity = some k ∧
      s.worker.runs = some x ∧ i = (s.identity, x.attempt) := by
  simp only [served, List.mem_filterMap, Prod.exists, List.mem_zipIdx_iff_getElem?,
    Option.ite_none_right_eq_some, Option.map_eq_some_iff]
  constructor
  · rintro ⟨s, k, hk, hw, x, hx, rfl⟩
    exact ⟨k, s, x, hk, hw, hx, rfl⟩
  · rintro ⟨k, s, x, hk, hw, hx, rfl⟩
    exact ⟨s, k, hk, hw, x, hx, rfl⟩

/-- What a registered worker starts to execute with an action. -/
def starts (p : WarmPool) : PoolAction → Option (String × AttemptKey)
  | .stream k .runOneAttempt => (p.streams[k]?).bind fun s =>
    if p.registry.workers.lookup s.identity = some k then
      s.worker.committed.map fun x => (s.identity, x.attempt)
    else none
  | _ => none

/-- A worker executes what it has executed before, or what it starts now. -/
theorem runs_of_act {s s' : Stream} {b : StreamAction} {x : WorkAssignment}
    (h : s.act b = some s') (hx : s'.worker.runs = some x) :
    s.worker.runs = some x ∨ (b = .runOneAttempt ∧ s.worker.committed = some x) := by
  cases b with
  | runOneAttempt =>
    simp only [Stream.act] at h
    split at h <;> cases h
    rename_i y hw
    exact .inr ⟨rfl, by rw [hw]; exact hx⟩
  | exits => cases h; cases hx
  | cutDown | cutUp =>
    cases h
    exact .inl hx
  | receive | resetScratch | sendAck | attemptEnds | sendSlotFree =>
    simp only [Stream.act] at h
    repeat' split at h
    all_goals cases h <;> simp_all [WorkerPhase.runs]

/-- A registered worker comes to execute an attempt only by starting it: the stream of a new entry is
new and its worker idle. -/
theorem served_step {i : String × AttemptKey} (ha : p.Aligned) (h : p.step a = some p')
    (hi : i ∈ p'.served) : i ∈ p.served ∨ p.starts a = some i := by
  obtain ⟨k, s', x, hk, hw, hx, rfl⟩ := mem_served.mp hi
  rcases stream_step (step_effect h) hk with ⟨s, hs, he⟩ | ⟨-, identity, rfl⟩
  · have hlt : k ≠ p.registry.entries.length := by
      rw [← ha]
      exact Nat.ne_of_lt (List.getElem?_eq_some_iff.mp hs).1
    have hid : s'.identity = s.identity := by
      cases he with
      | kept | forwarded | returned | pumped => rfl
      | acted hb => exact Stream.act_identity hb
    rw [hid] at hw ⊢
    have hw := (registered_step h hw).resolve_right hlt
    have hkept : s'.worker = s.worker → (s.identity, x.attempt) ∈ p.served := fun hsame =>
      mem_served.mpr ⟨k, s, x, hs, hw, hsame ▸ hx, rfl⟩
    cases he with
    | kept | forwarded | returned | pumped => exact .inl (hkept rfl)
    | acted hb =>
      refine (runs_of_act hb hx).imp (fun hx => mem_served.mpr ⟨k, s, x, hs, hw, hx, rfl⟩) ?_
      rintro ⟨rfl, hx⟩
      simp [starts, hs, hw, hx]
  · cases hx

theorem write_of_starts {i : String × AttemptKey} (h : p.starts a = some i) : a.writes = .nothing ∧ a.elapsed = 0 := by
  unfold starts at h
  split at h
  · exact ⟨rfl, rfl⟩
  · cases h

end WarmPool

end Leoflow
