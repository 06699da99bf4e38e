import Leoflow.AgentRPC.FreeSets
import Leoflow.Lib.Runs

/-!
# Sequences of registry operations

Any order of the registry's six operations and of the handlers' receives, with a record of what
became of each assignment: which ones a worker took, how each was settled, and whose lease timers
have fired; and of the entries that ended.
-/

namespace Leoflow

open Lib (GoMap)
open List

/-- The run, task and try an assignment or a lease is about. -/
abbrev AttemptKey := String × String × Nat

/-- The attempt an assignment is for. -/
def WorkAssignment.attempt (a : WorkAssignment) : AttemptKey := (a.dagRunID, a.taskID, a.tryNumber)

/-- The attempt a lease is for. -/
def LeaseState.attempt (ls : LeaseState) : AttemptKey := (ls.runID, ls.taskID, ls.tryNumber)

/-- How an assignment is settled: a started ack that returns a binding, or a reclaim event. -/
inductive Settlement where
  | started (assignmentID : String) (b : WarmBinding)
  | reclaimed (ev : ReclaimEvent)
deriving DecidableEq

namespace Settlement

/-- The assignment that is settled. -/
def assignmentID : Settlement → String
  | started id _ => id
  | reclaimed ev => ev.assignmentID

/-- The attempt it was for. -/
def attempt : Settlement → AttemptKey
  | started _ b => (b.runID, b.taskID, b.tryNumber)
  | reclaimed ev => (ev.runID, ev.taskID, ev.tryNumber)

end Settlement

/-- A registry with its record. `ended` are the entries that a reconnect replaced and those that were deregistered. -/
structure RegistryRun where
  registry : WorkerRegistry := {}
  accepted : List WorkAssignment := []
  settled : List Settlement := []
  fired : List String := []
  ended : List WorkerRef := []

/-- The operations. `forward` is the handler's receive from its worker's channel, `leaseExpires` the
timer that `Assign` started. -/
inductive RegistryCall where
  | register (identity dagVersion podName : String)
  | assign (dagVersion : String) (a : WorkAssignment) (pick : String)
  | forward (w : WorkerRef)
  | ack (assignmentID : String) (started : Bool)
  | markFree (identity : String)
  | leaseExpires (assignmentID : String)
  | deregister (w : WorkerRef)
deriving DecidableEq

namespace RegistryRun

/-- What an acknowledgement settles. -/
def ofAck (assignmentID : String) (binding : Option WarmBinding) (reclaim : Option ReclaimEvent) :
    List Settlement :=
  (binding.map (.started assignmentID)).toList ++ (reclaim.map .reclaimed).toList

/-- One operation. No two assignments that were taken carry the same id, and `Deregister` gets an entry that
`Register` returned. -/
def step (l : RegistryRun) : RegistryCall → Option RegistryRun
  | .register identity v pod =>
    some { l with
      registry := (l.registry.register identity v pod).1
      ended := (l.registry.workers.lookup identity).toList ++ l.ended }
  | .assign v a pick =>
    if a.assignmentID ∉ l.accepted.map WorkAssignment.assignmentID ∧ l.registry.mayPick v pick then
      let (registry, taken) := l.registry.assign pick v a
      some { l with registry, accepted := if taken.isSome then a :: l.accepted else l.accepted }
    else none
  | .forward w =>
    if (l.registry.entry w).send.isSome then
      some { l with registry := l.registry.modify w ({ · with send := none }) }
    else none
  | .ack id started =>
    let (registry, binding, reclaim) := l.registry.ack id started
    some { l with registry, settled := ofAck id binding reclaim ++ l.settled }
  | .markFree identity => some { l with registry := l.registry.markFree identity }
  | .leaseExpires id =>
    if id ∈ l.accepted.map WorkAssignment.assignmentID then
      let (registry, reclaim) := l.registry.onLeaseExpire id
      some { l with
        registry
        settled := (reclaim.map .reclaimed).toList ++ l.settled
        fired := id :: l.fired }
    else none
  | .deregister w =>
    if w < l.registry.entries.length then
      let (registry, reclaims) := l.registry.deregister w
      some { l with registry, settled := reclaims.map .reclaimed ++ l.settled, ended := w :: l.ended }
    else none

/-- The registry from its start, under any calls. -/
def system : Lib.System RegistryRun RegistryCall where
  init l := l = {}
  step := step

end RegistryRun

/-! ## What an operation settles -/

/-- The leases that `new` settles are over and no others; each settlement is of its lease's
attempt. -/
structure Settles (r r' : WorkerRegistry) (new : List Settlement) : Prop where
  distinct : (new.map Settlement.assignmentID).Nodup
  lease : ∀ s ∈ new, ∃ ls, r.leases.lookup s.assignmentID = some ls ∧ s.attempt = ls.attempt
  kept : ∀ id, r'.leases.lookup id = if id ∈ new.map Settlement.assignmentID then none else r.leases.lookup id

namespace Settles

variable {r r' : WorkerRegistry}

theorem nothing (h : r'.leases = r.leases) : Settles r r' [] where
  distinct := nodup_nil
  lease s hs := by cases hs
  kept id := by simp [h]

theorem one {s : Settlement} {ls : LeaseState}
    (hl : r.leases.lookup s.assignmentID = some ls) (hs : s.attempt = ls.attempt)
    (h : r'.leases = r.leases.erase s.assignmentID) : Settles r r' [s] where
  distinct := nodup_singleton _
  lease s' hs' := by
    cases mem_singleton.mp hs'
    exact ⟨ls, hl, hs⟩
  kept id := by
    rw [h, map_singleton]
    by_cases hid : id = s.assignmentID
    · rw [if_pos (mem_singleton.mpr hid), hid, AList.lookup_erase]
    · rw [if_neg fun hm => hid (mem_singleton.mp hm), AList.lookup_erase_ne hid]

theorem ack (r : WorkerRegistry) (id : String) (started : Bool) : Settles r (r.ack id started).1
      (RegistryRun.ofAck id (r.ack id started).2.1 (r.ack id started).2.2) := by
  unfold WorkerRegistry.ack
  split
  · exact nothing rfl
  next ls hls =>
    cases started with
    | true => exact one (s := .started id _) hls rfl rfl
    | false => exact one (s := .reclaimed _) hls rfl rfl

theorem onLeaseExpire (r : WorkerRegistry) (id : String) :
    Settles r (r.onLeaseExpire id).1 ((r.onLeaseExpire id).2.map .reclaimed).toList := by
  unfold WorkerRegistry.onLeaseExpire
  split
  · exact nothing rfl
  next ls hls =>
    refine one (s := .reclaimed _) hls rfl ?_
    dsimp only
    split <;> rfl

/-- A deregistration settles the leases of its worker, each under its own id. -/
theorem deregister (r : WorkerRegistry) (w : WorkerRef) :
    Settles r (r.deregister w).1 ((r.deregister w).2.map .reclaimed) := by
  unfold WorkerRegistry.deregister
  dsimp only
  split
  · exact nothing rfl
  · have hids : ((((r.leases.entries.filter fun l => l.2.worker == w).map fun l =>
        l.2.reclaim l.1 .workerGone).map Settlement.reclaimed).map Settlement.assignmentID) =
        (r.leases.entries.filter fun l => l.2.worker == w).map Sigma.fst := by
      rw [map_map, map_map]
      rfl
    refine ⟨?_, ?_, fun id => ?_⟩
    · rw [hids]
      exact (filter_sublist.map Sigma.fst).nodup r.leases.nodupKeys
    · intro s hs
      obtain ⟨ev, hev, rfl⟩ := mem_map.mp hs
      obtain ⟨⟨id, ls⟩, hl, rfl⟩ := mem_map.mp hev
      exact ⟨ls, AList.mem_lookup_iff.mpr (mem_filter.mp hl).1, rfl⟩
    · rw [hids]
      have hdrop := fun v => GoMap.lookup_dropWhere r.leases (·.worker == w) id v
      have hmem : id ∈ (r.leases.entries.filter fun l => l.2.worker == w).map Sigma.fst ↔
          ∃ ls, r.leases.lookup id = some ls ∧ ls.worker = w := by
        constructor
        · intro hid
          obtain ⟨⟨id', ls⟩, hl, rfl⟩ := mem_map.mp hid
          obtain ⟨hl, hw⟩ := mem_filter.mp hl
          exact ⟨ls, AList.mem_lookup_iff.mpr hl, by simpa using hw⟩
        · rintro ⟨ls, hl, hw⟩
          refine mem_map.mpr ⟨⟨id, ls⟩, mem_filter.mpr ⟨?_, by simpa using hw⟩, rfl⟩
          exact AList.mem_lookup_iff.mp hl
      simp only [WorkerRegistry.removeFreeLocked_leases]
      refine Option.ext fun ls => ?_
      rw [hdrop]
      by_cases hid : ∃ ls, r.leases.lookup id = some ls ∧ ls.worker = w
      · rw [if_pos (hmem.mpr hid)]
        obtain ⟨ls', hl', hw⟩ := hid
        refine ⟨fun ⟨hl, hne⟩ => ?_, fun hno => by cases hno⟩
        cases hl'.symm.trans hl
        simp [hw] at hne
      · rw [if_neg (hmem.not.mpr hid)]
        refine ⟨And.left, fun hl => ⟨hl, ?_⟩⟩
        rw [beq_eq_false_iff_ne]
        exact fun hw => hid ⟨ls, hl, hw⟩

end Settles

end Leoflow
