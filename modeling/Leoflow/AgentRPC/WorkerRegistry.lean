import Leoflow.Lib.GoMap

/-!
# The warm-worker registry

`internal/agentrpc/worker_registry.go`: the fleet of warm workers, the free ones of each DAG version,
and the leases of the assignments that wait for an ack. A `*registeredWorker` is an index into the
entries ever registered, so that comparing entries is comparing pointers.
-/

namespace Leoflow

open Lib (GoMap)

/-- `agentv1.WorkAssignment`. -/
structure WorkAssignment where
  assignmentID : String
  dagRunID : String
  taskID : String
  tryNumber : Nat
deriving DecidableEq

/-- Why an assignment is taken back. -/
inductive ReclaimReason where
  | leaseExpired
  | refused
  | workerGone
deriving DecidableEq

/-- An assignment that is taken back. -/
structure ReclaimEvent where
  assignmentID : String
  dagVersionID : String
  reason : ReclaimReason
  runID : String
  taskID : String
  tryNumber : Nat
deriving DecidableEq

/-- The attempt that a worker's pod has started. -/
structure WarmBinding where
  runID : String
  taskID : String
  tryNumber : Nat
  podName : String
deriving DecidableEq

/-- A `*registeredWorker`. -/
abbrev WorkerRef := Nat

/-- The outbound channel `send` has capacity one. -/
structure RegisteredWorker where
  identity : String := ""
  dagVersion : String := ""
  podName : String := ""
  send : Option WorkAssignment := none
  busy : Bool := false
deriving DecidableEq

/-- An assignment that waits for its acknowledgement. -/
structure LeaseState where
  worker : WorkerRef
  dagVersion : String
  runID : String
  taskID : String
  tryNumber : Nat
deriving DecidableEq

variable (identity : String) {β : Type} {id : String} {ls : LeaseState}

/-- The event that reclaims a lease. -/
def LeaseState.reclaim (ls : LeaseState) (assignmentID : String) (reason : ReclaimReason) : ReclaimEvent where
  assignmentID := assignmentID
  dagVersionID := ls.dagVersion
  reason := reason
  runID := ls.runID
  taskID := ls.taskID
  tryNumber := ls.tryNumber

/-- `WorkerRegistry`, with every entry it ever made. -/
structure WorkerRegistry where
  entries : List RegisteredWorker := []
  workers : GoMap WorkerRef := ∅
  free : GoMap (GoMap WorkerRef) := ∅
  leases : GoMap LeaseState := ∅

namespace WorkerRegistry

/-- The entry behind a reference. -/
def entry (r : WorkerRegistry) (w : WorkerRef) : RegisteredWorker := (r.entries[w]?).getD {}

/-- The registry with one entry changed. -/
def modify (r : WorkerRegistry) (w : WorkerRef) (f : RegisteredWorker → RegisteredWorker) :
    WorkerRegistry :=
  { r with entries := r.entries.modify w f }

/-! ## The free sets -/

/-- A version without free workers has no set. -/
def setFree (r : WorkerRegistry) (dagVersion : String) (set : GoMap WorkerRef) : WorkerRegistry :=
  { r with free :=
      if set.entries.isEmpty then r.free.erase dagVersion else r.free.insert dagVersion set }

/-- Put a worker in the free set of its version. -/
def addFreeLocked (r : WorkerRegistry) (w : WorkerRef) : WorkerRegistry :=
  let e := r.entry w
  { r with free := r.free.insert e.dagVersion ((r.free.getD e.dagVersion ∅).insert e.identity w) }

/-- Take a worker out of the free set of its version. -/
def removeFreeLocked (r : WorkerRegistry) (w : WorkerRef) : WorkerRegistry :=
  let e := r.entry w
  match r.free.lookup e.dagVersion with
  | none => r
  | some set => r.setFree e.dagVersion (set.erase e.identity)

/-- `pick` is the identity the loop over the set comes to first. -/
def takeFreeLocked (r : WorkerRegistry) (dagVersion pick : String) : Option (WorkerRef × WorkerRegistry) :=
  (r.free.lookup dagVersion).bind fun set =>
    (set.lookup pick).map fun w => (w, r.setFree dagVersion (set.erase pick))

/-- The identity is one that `Assign` may come upon first in the free set. -/
def mayPick (r : WorkerRegistry) (dagVersion pick : String) : Bool :=
  (r.free.lookup dagVersion).all fun set => (set.lookup pick).isSome

/-! ## The operations -/

/-- `Register`: a new entry, which supersedes the one of the same identity. -/
def register (r : WorkerRegistry) (identity dagVersion podName : String) : WorkerRegistry × WorkerRef :=
  -- A superseded entry leaves the free set; its leases stay until they expire.
  let r := (r.workers.lookup identity).elim r r.removeFreeLocked
  let w := r.entries.length
  let r : WorkerRegistry :=
    { r with
      entries := r.entries ++ [{ identity, dagVersion, podName }]
      workers := r.workers.insert identity w }
  (r.addFreeLocked w, w)

/-- `Deregister`: the entry is forgotten and what it had leased is taken back. -/
def deregister (r : WorkerRegistry) (w : WorkerRef) : WorkerRegistry × List ReclaimEvent :=
  let identity := (r.entry w).identity
  -- A reconnect under the same identity has installed another entry.
  if r.workers.lookup identity ≠ some w then (r, [])
  else
    let reclaims := (r.leases.entries.filter fun l => l.2.worker == w).map fun l =>
      l.2.reclaim l.1 .workerGone
    let r : WorkerRegistry := { r with workers := r.workers.erase identity }
    let r := r.removeFreeLocked w
    ({ r with leases := r.leases.dropWhere (·.worker == w) }, reclaims)

/-- `Assign` returns whether a worker took the assignment; here which one. -/
def assign (r : WorkerRegistry) (pick dagVersion : String) (a : WorkAssignment) : WorkerRegistry × Option WorkerRef :=
  match r.takeFreeLocked dagVersion pick with
  | none => (r, none)
  | some (w, r) =>
    -- The channel is still occupied by an assignment the handler has not forwarded.
    if (r.entry w).send.isSome then (r.addFreeLocked w, none)
    else
      let r := r.modify w ({ · with send := some a })
      let ls : LeaseState :=
        { worker := w, dagVersion, runID := a.dagRunID, taskID := a.taskID, tryNumber := a.tryNumber }
      ({ r with leases := r.leases.insert a.assignmentID ls }, some w)

/-- `Ack`: the lease ends, with a binding where the worker has started and a reclaim where it refused. -/
def ack (r : WorkerRegistry) (assignmentID : String) (started : Bool) :
    WorkerRegistry × Option WarmBinding × Option ReclaimEvent :=
  match r.leases.lookup assignmentID with
  | none => (r, none, none)
  | some ls =>
    let r : WorkerRegistry := { r with leases := r.leases.erase assignmentID }
    if started then
      (r.modify ls.worker ({ · with busy := true }),
        some ⟨ls.runID, ls.taskID, ls.tryNumber, (r.entry ls.worker).podName⟩, none)
    else (r, none, some (ls.reclaim assignmentID .refused))

/-- `MarkFree`: the worker of an identity has room again. -/
def markFree (r : WorkerRegistry) (identity : String) : WorkerRegistry :=
  match r.workers.lookup identity with
  | none => r
  | some w => (r.modify w ({ · with busy := false })).addFreeLocked w

/-- The lease ran out: the assignment is taken back. -/
def onLeaseExpire (r : WorkerRegistry) (assignmentID : String) : WorkerRegistry × Option ReclaimEvent :=
  match r.leases.lookup assignmentID with
  | none => (r, none)
  | some ls =>
    let r : WorkerRegistry := { r with leases := r.leases.erase assignmentID }
    let e := r.entry ls.worker
    let r := if r.workers.lookup e.identity = some ls.worker ∧ e.busy = false then
      r.addFreeLocked ls.worker else r
    (r, some (ls.reclaim assignmentID .leaseExpired))

/-! ## What the operations keep -/

variable (r : WorkerRegistry) (w k : WorkerRef)

@[simp] theorem addFreeLocked_entries : (r.addFreeLocked w).entries = r.entries := rfl

@[simp] theorem addFreeLocked_leases : (r.addFreeLocked w).leases = r.leases := rfl

@[simp] theorem removeFreeLocked_entries : (r.removeFreeLocked w).entries = r.entries := by
  unfold removeFreeLocked
  dsimp only
  split <;> rfl

@[simp] theorem removeFreeLocked_leases : (r.removeFreeLocked w).leases = r.leases := by
  unfold removeFreeLocked
  dsimp only
  split <;> rfl

theorem entry_congr {r r' : WorkerRegistry} (h : r'.entries = r.entries) : r'.entry k = r.entry k := by
  simp [entry, h]

theorem modify_congr (g : RegisteredWorker → β) {f : RegisteredWorker → RegisteredWorker} (hf : ∀ e, g (f e) = g e)
    (k : WorkerRef) : g ((r.modify w f).entry k) = g (r.entry k) := by
  simp only [modify, entry, List.getElem?_modify]
  cases r.entries[k]? with
  | none => rfl
  | some e =>
    by_cases hk : w = k
    · simp [hk, hf]
    · simp [hk]

theorem mem_send_of_modify {a : WorkAssignment} {m : Option WorkAssignment}
    (h : ((r.modify w ({ · with send := m })).entry k).send = some a) :
    (r.entry k).send = some a ∨ (w = k ∧ m = some a) := by
  simp only [modify, entry, List.getElem?_modify] at h ⊢
  cases he : r.entries[k]? with
  | none =>
    rw [he] at h
    cases h
  | some e =>
    rw [he] at h
    by_cases hk : w = k
    · exact .inr ⟨hk, by simpa [hk] using h⟩
    · exact .inl (by simpa [hk] using h)

/-! ## Register -/

@[simp] theorem register_leases (identity v pod : String) : (r.register identity v pod).1.leases = r.leases := by
  cases h : r.workers.lookup identity <;> simp [register, h]

theorem register_entries (identity v pod : String) : (r.register identity v pod).1.entries =
      r.entries ++ [{ identity, dagVersion := v, podName := pod }] := by
  cases h : r.workers.lookup identity <;> simp [register, h]

theorem register_send (identity v pod : String) : ((r.register identity v pod).1.entry k).send = (r.entry k).send := by
  rw [entry, register_entries, entry, List.getElem?_append]
  split
  · rfl
  next hk =>
    rw [List.getElem?_eq_none (Nat.le_of_not_lt hk), List.getElem?_singleton]
    split <;> rfl

/-! ## Deregister -/

@[simp] theorem deregister_entries : (r.deregister w).1.entries = r.entries := by
  unfold deregister
  dsimp only
  split <;> simp

theorem deregister_cases : ((r.deregister w).1.leases = r.leases ∧ (r.deregister w).2 = []) ∨
    ((r.deregister w).1.leases = r.leases.dropWhere (·.worker == w) ∧
      ∀ ev ∈ (r.deregister w).2, ∃ id ls, r.leases.lookup id = some ls ∧ ls.worker = w ∧
        ev = ls.reclaim id .workerGone) := by
  unfold deregister
  dsimp only
  split
  · exact .inl ⟨rfl, rfl⟩
  · refine .inr ⟨by simp, fun ev hev => ?_⟩
    obtain ⟨⟨id, ls⟩, hl, rfl⟩ := List.mem_map.mp hev
    obtain ⟨hmem, hw⟩ := List.mem_filter.mp hl
    exact ⟨id, ls, AList.mem_lookup_iff.mpr hmem, by simpa using hw, rfl⟩

theorem lease_of_deregister (h : (r.deregister w).1.leases.lookup id = some ls) : r.leases.lookup id = some ls := by
  rcases r.deregister_cases w with ⟨he, -⟩ | ⟨he, -⟩
  · rwa [he] at h
  · rw [he, GoMap.lookup_dropWhere] at h
    exact h.1

/-! ## Assign -/

theorem takeFreeLocked_eq_some {pick v : String} {r' : WorkerRegistry} (h : r.takeFreeLocked v pick = some (w, r')) :
    ∃ set, r.free.lookup v = some set ∧ set.lookup pick = some w ∧ r' = r.setFree v (set.erase pick) := by
  simp only [takeFreeLocked, Option.bind_eq_some_iff, Option.map_eq_some_iff, Prod.mk.injEq] at h
  obtain ⟨set, hset, _, hw, rfl, rfl⟩ := h
  exact ⟨set, hset, hw, rfl⟩

theorem assign_cases {pick v : String} {a : WorkAssignment} {r' : WorkerRegistry}
    {taken : Option WorkerRef} (h : r.assign pick v a = (r', taken)) :
    (taken = none ∧ r'.entries = r.entries ∧ r'.leases = r.leases) ∨
    (∃ w, taken = some w ∧ r'.entries = (r.modify w ({ · with send := some a })).entries ∧
      r'.leases = r.leases.insert a.assignmentID ⟨w, v, a.dagRunID, a.taskID, a.tryNumber⟩) := by
  unfold assign at h
  split at h
  · cases h
    exact .inl ⟨rfl, rfl, rfl⟩
  next w r1 htake =>
    obtain ⟨set, -, -, rfl⟩ := r.takeFreeLocked_eq_some w htake
    split at h
    · cases h
      exact .inl ⟨rfl, rfl, rfl⟩
    · cases h
      exact .inr ⟨w, rfl, rfl, rfl⟩

/-! ## Ack, slot free and lease expiry -/

theorem ack_leases {id' : String} {started : Bool} :
    (r.ack id started).1.leases.lookup id' = some ls ↔ id' ≠ id ∧ r.leases.lookup id' = some ls := by
  unfold ack
  split
  next hnone =>
    refine ⟨fun h => ⟨?_, h⟩, And.right⟩
    rintro rfl
    cases hnone.symm.trans h
  · cases started <;> exact GoMap.lookup_erase_some

theorem ack_congr (g : RegisteredWorker → β) (hg : ∀ e : RegisteredWorker, g { e with busy := true } = g e)
    (id : String) (started : Bool) (k : WorkerRef) : g ((r.ack id started).1.entry k) = g (r.entry k) := by
  unfold ack
  split
  · rfl
  · cases started with
    | false => rfl
    | true => exact modify_congr _ _ g hg k

theorem ack_send (id : String) (started : Bool) : ((r.ack id started).1.entry k).send = (r.entry k).send :=
  r.ack_congr RegisteredWorker.send (fun _ => rfl) id started k

theorem ack_started (id : String) : (r.ack id true).2.2 = none := by
  unfold ack
  split <;> rfl

@[simp] theorem markFree_leases (identity : String) : (r.markFree identity).leases = r.leases := by
  unfold markFree
  split <;> rfl

theorem markFree_congr (identity : String) {β : Type} (g : RegisteredWorker → β)
    (hg : ∀ e : RegisteredWorker, g { e with busy := false } = g e) (k : WorkerRef) :
    g ((r.markFree identity).entry k) = g (r.entry k) := by
  unfold markFree
  split
  · rfl
  · exact modify_congr _ _ g hg k

theorem markFree_send (identity : String) : ((r.markFree identity).entry k).send = (r.entry k).send :=
  r.markFree_congr identity RegisteredWorker.send (fun _ => rfl) k

theorem onLeaseExpire_leases {id' : String} :
    (r.onLeaseExpire id).1.leases.lookup id' = some ls ↔ id' ≠ id ∧ r.leases.lookup id' = some ls := by
  unfold onLeaseExpire
  split
  next hnone =>
    refine ⟨fun h => ⟨?_, h⟩, And.right⟩
    rintro rfl
    cases hnone.symm.trans h
  · dsimp only
    split <;> exact GoMap.lookup_erase_some

@[simp] theorem onLeaseExpire_entries (id : String) : (r.onLeaseExpire id).1.entries = r.entries := by
  unfold onLeaseExpire
  split
  · rfl
  · dsimp only
    split <;> rfl

theorem onLeaseExpire_reason {ev : ReclaimEvent} (h : (r.onLeaseExpire id).2 = some ev) :
    ev.reason = .leaseExpired := by
  unfold onLeaseExpire at h
  split at h
  · cases h
  · cases h
    rfl

end WorkerRegistry

end Leoflow
