import Leoflow.AgentRPC.AwaitAssignment
import Leoflow.Properties.RegistryBookkeeping

/-!
# Messages of one worker

A stream is authenticated, and what it says about its own slot is filed under its authenticated
identity. An ack is not: it names a lease by its assignment id alone, whoever holds it.
-/

namespace Leoflow

open WorkerRegistry

/-- A message on the stream of `identity` changes only leases, busy flags, free slots and bindings of
entries registered under `identity`. -/
structure Isolated (r : WorkerRegistry) (identity : String) (m : WorkerMessage) : Prop where
  leases : ∀ id ls, r.leases.lookup id = some ls → (pumpWorkerMessage r identity m).1.leases.lookup id ≠ some ls →
    (r.entry ls.worker).identity = identity
  granted : ∀ id ls, (pumpWorkerMessage r identity m).1.leases.lookup id = some ls →
    r.leases.lookup id ≠ some ls → (r.entry ls.worker).identity = identity
  busy : ∀ w, ((pumpWorkerMessage r identity m).1.entry w).busy ≠ (r.entry w).busy → (r.entry w).identity = identity
  free : ∀ v id, (pumpWorkerMessage r identity m).1.freeAt v id ≠ r.freeAt v id → id = identity
  bindings : ∀ b ∈ (pumpWorkerMessage r identity m).2.1, ∃ id ls, r.leases.lookup id = some ls ∧
    b.runID = ls.runID ∧ b.taskID = ls.taskID ∧ b.tryNumber = ls.tryNumber ∧
    (r.entry ls.worker).identity = identity
  reclaims : ∀ ev ∈ (pumpWorkerMessage r identity m).2.2, ∃ ls,
    r.leases.lookup ev.assignmentID = some ls ∧ (r.entry ls.worker).identity = identity

/-- If the message acks an outstanding lease, the lease is of an entry under `identity`. -/
def AcksOwn (r : WorkerRegistry) (identity : String) (m : WorkerMessage) : Prop :=
  ∀ id started ls, m = .ack id started → r.leases.lookup id = some ls → (r.entry ls.worker).identity = identity

variable {r : WorkerRegistry} {identity : String}

/-- An acknowledgement of one's own lease leaves the other workers alone. -/
theorem ack_isolated {id : String} {started : Bool}
    (h : ∀ ls, r.leases.lookup id = some ls → (r.entry ls.worker).identity = identity) :
    Isolated r identity (.ack id started) where
  leases id' ls hl hne := by
    by_cases hid : id' = id
    · rw [hid] at hl
      exact h ls hl
    · exact absurd (r.ack_leases.mpr ⟨hid, hl⟩) hne
  granted id' ls hl hne := absurd (r.ack_leases.mp hl).2 hne
  busy w hw := by
    simp only [pumpWorkerMessage, WorkerRegistry.ack] at hw
    split at hw
    · exact absurd rfl hw
    next ls hls =>
      cases started with
      | false => exact absurd rfl hw
      | true =>
        by_cases hk : ls.worker = w
        · rw [← hk]
          exact h ls hls
        · refine absurd ?_ hw
          simp [WorkerRegistry.modify, WorkerRegistry.entry, hk]
  free v id' hne := by
    refine absurd ?_ hne
    rw [pumpWorkerMessage, freeAt, (r.ack_kept id started).2.1]
    rfl
  bindings b hb := by
    simp only [pumpWorkerMessage, WorkerRegistry.ack] at hb
    split at hb
    · cases hb
    next ls hls =>
      cases started with
      | false => cases hb
      | true =>
        cases hb
        exact ⟨id, ls, hls, rfl, rfl, rfl, h ls hls⟩
  reclaims ev hev := by
    simp only [pumpWorkerMessage, WorkerRegistry.ack] at hev
    split at hev
    · cases hev
    next ls hls =>
      cases started with
      | true => cases hev
      | false =>
        cases hev
        exact ⟨ls, hls, h ls hls⟩

/-- So does a report of a free slot. -/
theorem slotFree_isolated (h : r.Indexed) : Isolated r identity .slotFree where
  leases id ls hl hne := absurd (by simpa [pumpWorkerMessage] using hl) hne
  granted id ls hl hne := absurd (by simpa [pumpWorkerMessage] using hl) hne
  busy w hw := by
    simp only [pumpWorkerMessage, WorkerRegistry.markFree] at hw
    split at hw
    · exact absurd rfl hw
    next k hk =>
      by_cases hkw : k = w
      · rw [← hkw]
        exact (h.registered hk).2
      · refine absurd ?_ hw
        simp [addFreeLocked, WorkerRegistry.modify, WorkerRegistry.entry, hkw]
  free v id hne := by
    simp only [pumpWorkerMessage, WorkerRegistry.markFree] at hne
    split at hne
    · exact absurd rfl hne
    next k hk =>
      by_contra hid
      refine hne ?_
      rw [freeAt_addFreeLocked, if_neg]
      · rfl
      · rintro ⟨-, he⟩
        refine hid (he.trans ?_)
        rw [← (h.registered hk).2]
        exact r.modify_congr k RegisteredWorker.identity (by intro e; rfl) k
  bindings b hb := by cases hb
  reclaims ev hev := by cases hev

theorem register_isolated {v pod : String} : Isolated r identity (.register v pod) where
  leases _ _ hl hne := absurd hl hne
  granted _ _ hl hne := absurd hl hne
  busy _ hne := absurd rfl hne
  free _ _ hne := absurd rfl hne
  bindings _ hb := by cases hb
  reclaims _ hev := by cases hev

/-- **Isolation of streams.** After any sequence of registry operations, a message on the stream of a
worker touches only entries under that worker's identity exactly when it does not ack a lease another
worker holds. -/
theorem message_is_isolated_iff {l : RegistryRun} (h : RegistryRun.system.Reachable l)
    (identity : String) (m : WorkerMessage) :
    Isolated l.registry identity m ↔ AcksOwn l.registry identity m := by
  constructor
  · rintro hi id started ls rfl hl
    refine hi.leases id ls hl fun hkept => ?_
    exact (l.registry.ack_leases.mp hkept).1 rfl
  · intro hown
    cases m with
    | register => exact register_isolated
    | slotFree => exact slotFree_isolated (RegistryRun.ledger_reachable h).indexed
    | ack id started => exact ack_isolated fun ls hl => hown id started ls rfl hl

/-- Two workers, and an assignment of the first. -/
def leasedToFirst : RegistryRun :=
  (RegistryRun.system.run {} [.register "w1" "v1" "pod-1", .register "w2" "v2" "pod-2",
    .assign "v1" ⟨"a1", "run", "task", 1⟩ "w1"]).get (by decide +kernel)

theorem leasedToFirst_reachable : RegistryRun.system.Reachable leasedToFirst :=
  .run (.init rfl) (Option.some_get _).symm

theorem leasedToFirst_lease : leasedToFirst.registry.leases.lookup "a1" = some ⟨0, "v1", "run", "task", 1⟩ := by
  decide +kernel

/-- The first worker's own ack touches nobody else. -/
theorem message_is_isolated_own : Isolated leasedToFirst.registry "w1" (.ack "a1" true) := by
  refine (message_is_isolated_iff leasedToFirst_reachable "w1" _).mpr fun id started ls hm hl => ?_
  cases hm
  cases leasedToFirst_lease.symm.trans hl
  decide +kernel

/-- The second worker refuses the first one's assignment, which reclaims it. -/
theorem foreign_ack_settles : ¬ ∀ l, RegistryRun.system.Reachable l → ∀ identity m, Isolated l.registry identity m := by
  intro h
  have hi := (h _ leasedToFirst_reachable "w2" (.ack "a1" false)).leases "a1" _ leasedToFirst_lease (by decide +kernel)
  exact absurd hi (by decide +kernel)

end Leoflow
