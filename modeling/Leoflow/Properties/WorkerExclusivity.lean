import Leoflow.AgentRPC.FreeSets
import Leoflow.AgentRPC.PoolEffects
import Leoflow.AgentRPC.Slots

/-!
# Exclusivity of warm workers

A warm worker says when it is free again. The registry also files a worker as free when a lease expires, although
the worker may only be slow, and it takes a slot-free signal for the entry registered at that moment, although the
signal may be of an older one.
-/

namespace Leoflow

open Lib (Channel GoMap)
open WorkerRegistry

variable {k : WorkerRef} {s t : Stream} {x : WorkAssignment} {r' : WorkerRegistry}
    {up : Channel WorkerMessage}

namespace WarmPool

/-- The slot of the worker at index `k`. -/
def slot (p : WarmPool) (k : WorkerRef) (s : Stream) : Slot where
  free := ∃ v identity, p.registry.freeAt v identity = some k
  busy := (p.registry.entry k).busy
  leases := {id | ∃ ls, p.registry.leases.lookup id = some ls ∧ ls.worker = k}
  send := (p.registry.entry k).send
  stream := s

/-- A worker that is not busy, holds no lease and runs nothing on any stream of its identity. -/
structure Idle (p : WarmPool) (w : WorkerRef) : Prop where
  busy : (p.registry.entry w).busy = false
  lease : ∀ l ∈ p.registry.leases.entries, l.2.worker ≠ w
  runs : ∀ s ∈ p.streams, s.identity = (p.registry.entry w).identity → s.worker.runs = none

/-- Whoever is filed as free is idle, and so is whoever `Assign` hands an assignment to. -/
structure Exclusive (p : WarmPool) : Prop where
  free : ∀ v identity w, p.registry.freeAt v identity = some w → p.Idle w
  assign : ∀ v a pick w, (p.registry.assign pick v a).2 = some w → p.Idle w

/-- A worker opens a stream when it has left every earlier one. -/
def RealWorkers (p : WarmPool) : PoolAction → Prop
  | .connect identity _ _ => ∀ s ∈ p.streams, s.identity = identity → s.worker = .exited
  | _ => True

instance (p : WarmPool) (a : PoolAction) : Decidable (p.RealWorkers a) := by
  unfold RealWorkers
  split <;> infer_instance

instance (s : Slot) : Decidable s.Empty :=
  decidable_of_iff (s.pipeline = [] ∧ s.stream.worker.idle ∧ .slotFree ∉ s.stream.up.queue)
    ⟨fun h => ⟨h.1, h.2.1, h.2.2⟩, fun h => ⟨h.pipeline, h.idle, h.quiet⟩⟩

/-- A lease of a registered worker expires only when the worker's slot is empty, and a slot-free
signal is handled only while no newer entry is registered. -/
def SlotsSettled (p : WarmPool) : PoolAction → Prop
  | .leaseExpires id => ∀ ls ∈ p.registry.leases.lookup id, ∀ s ∈ p.streams[ls.worker]?,
      p.registry.workers.lookup s.identity = some ls.worker → (p.slot ls.worker s).Empty
  | .pump k => ∀ s ∈ p.streams[k]?, s.up.recv.map Prod.fst = some .slotFree →
      ∀ w ∈ p.registry.workers.lookup s.identity, w = k
  | _ => True

instance (p : WarmPool) (a : PoolAction) : Decidable (p.SlotsSettled a) := by
  unfold SlotsSettled
  split <;> infer_instance

/-! ## The invariant -/

/-- The slot of every registered worker is sound, and the worker runs on no older stream. -/
structure Slotted (p : WarmPool) : Prop where
  indexed : p.registry.Indexed
  aligned : p.streams.length = p.registry.entries.length
  identity : ∀ {k : WorkerRef} {s}, p.streams[k]? = some s → s.identity = (p.registry.entry k).identity
  leased : ∀ {id ls}, p.registry.leases.lookup id = some ls → ls.worker < p.registry.entries.length
  sound : ∀ {k : WorkerRef} {s}, p.streams[k]? = some s →
    p.registry.workers.lookup s.identity = some k → (p.slot k s).Sound
  superseded : ∀ {j k : WorkerRef} {s}, p.streams[j]? = some s →
    p.registry.workers.lookup s.identity = some k → j ≠ k → s.worker = .exited

variable {p p' : WarmPool}

theorem Slotted.lt (h : p.Slotted) (hk : p.streams[k]? = some s) : k < p.registry.entries.length := by
  rw [← h.aligned]
  exact (List.getElem?_eq_some_iff.mp hk).1

theorem Slotted.of_eq (h : p.Slotted) (hr : p'.registry = p.registry) (hs : p'.streams = p.streams) : p'.Slotted := by
  have hslot : p'.slot = p.slot := by
    unfold slot
    rw [hr]
  exact ⟨hr ▸ h.indexed, by rw [hr, hs]; exact h.aligned, by rw [hr, hs]; exact h.identity,
    by rw [hr]; exact h.leased, by rw [hr, hs, hslot]; exact h.sound,
    by rw [hr, hs]; exact h.superseded⟩

/-- The registry after a step registers nobody anew and leases nobody unknown. -/
structure Follows (r r' : WorkerRegistry) : Prop where
  indexed : r'.Indexed
  length : r'.entries.length = r.entries.length
  identity : ∀ k, (r'.entry k).identity = (r.entry k).identity
  workers : ∀ {id k}, r'.workers.lookup id = some k → r.workers.lookup id = some k
  leased : ∀ {id ls}, r'.leases.lookup id = some ls → ls.worker < r.entries.length

theorem Follows.of_entries {r : WorkerRegistry} (hentries : r'.entries = r.entries) (hi : r'.Indexed)
    (hworkers : ∀ {id k}, r'.workers.lookup id = some k → r.workers.lookup id = some k)
    (hleased : ∀ {id ls}, r'.leases.lookup id = some ls → ls.worker < r.entries.length) : Follows r r' :=
  ⟨hi, congrArg List.length hentries, fun k => congrArg RegisteredWorker.identity (entry_congr k hentries), hworkers,
    hleased⟩

/-- The registry after a step holds of the worker at most what it held. -/
structure Keeps (r r' : WorkerRegistry) (k : WorkerRef) : Prop where
  send : (r'.entry k).send = (r.entry k).send
  free : ∀ {v id}, r'.freeAt v id = some k → r.freeAt v id = some k ∧ (r'.entry k).busy = (r.entry k).busy
  leases : ∀ {id ls}, r'.leases.lookup id = some ls → ls.worker = k → r.leases.lookup id = some ls

theorem Keeps.of_entry {r : WorkerRegistry} (hentry : r'.entry k = r.entry k)
    (hfree : ∀ {v id}, r'.freeAt v id = some k → r.freeAt v id = some k)
    (hleases : ∀ {id ls}, r'.leases.lookup id = some ls → ls.worker = k → r.leases.lookup id = some ls) :
    Keeps r r' k :=
  ⟨congrArg RegisteredWorker.send hentry, fun hf => ⟨hfree hf, congrArg RegisteredWorker.busy hentry⟩, hleases⟩

theorem Keeps.free_slot (hk : Keeps p.registry p'.registry k) (hf : (p'.slot k t).free) :
    (p.slot k s).free ∧ (p'.slot k t).busy = (p.slot k s).busy := by
  obtain ⟨v, id, hf⟩ := hf
  exact ⟨⟨v, id, (hk.free hf).1⟩, (hk.free hf).2⟩

theorem Keeps.leases_slot (hk : Keeps p.registry p'.registry k) : (p'.slot k t).leases ⊆ (p.slot k s).leases := by
  rintro id ⟨ls, hl, hw⟩
  exact ⟨ls, hk.leases hl hw, hw⟩

theorem Keeps.sound (hk : Keeps p.registry p'.registry k) (hs : (p.slot k s).Sound) : (p'.slot k s).Sound :=
  hs.of_narrow rfl hk.send hk.free_slot hk.leases_slot

theorem Slotted.of_step (h : p.Slotted) (hf : Follows p.registry p'.registry)
    (hslen : p'.streams.length = p.streams.length)
    (hstream : ∀ {k : WorkerRef} {s'}, p'.streams[k]? = some s' → ∃ s, p.streams[k]? = some s ∧
      s'.identity = s.identity ∧ (s.worker = .exited → s'.worker = .exited) ∧
      (p'.registry.workers.lookup s'.identity = some k → (p.slot k s).Sound → (p'.slot k s').Sound)) : p'.Slotted where
  indexed := hf.indexed
  aligned := by rw [hslen, hf.length, h.aligned]
  identity hk := by
    obtain ⟨s, hs, he, -⟩ := hstream hk
    rw [he, hf.identity, h.identity hs]
  leased hl := hf.length ▸ hf.leased hl
  sound hk hw := by
    obtain ⟨s, hs, he, -, hsound⟩ := hstream hk
    exact hsound hw (h.sound hs (he ▸ hf.workers hw))
  superseded hj hw hne := by
    obtain ⟨s, hs, he, hexit, -⟩ := hstream hj
    exact hexit (h.superseded hs (he ▸ hf.workers hw) hne)

/-- A step of the registry alone. -/
theorem Slotted.of_registry (h : p.Slotted) (hf : Follows p.registry p'.registry) (hstreams : p'.streams = p.streams)
    (hsound : ∀ {k : WorkerRef} {s}, p.streams[k]? = some s → p'.registry.workers.lookup s.identity = some k →
      (p.slot k s).Sound → (p'.slot k s).Sound) : p'.Slotted := by
  refine h.of_step hf (by rw [hstreams]) fun {k s} hk => ?_
  rw [hstreams] at hk
  exact ⟨s, hk, rfl, fun he => he, hsound hk⟩

/-- A step that replaces a stream, and keeps what the registry holds of the workers behind the others. -/
theorem Slotted.of_stream {j : WorkerRef} (h : p.Slotted) (hf : Follows p.registry p'.registry)
    (hj : p.streams[j]? = some s) (hstreams : p'.streams = p.streams.set j t) (hid : t.identity = s.identity)
    (hexit : s.worker = .exited → t.worker = .exited)
    (hkeeps : ∀ {k s}, k ≠ j → (p.slot k s).Sound → Keeps p.registry p'.registry k)
    (hsound : p'.registry.workers.lookup t.identity = some j → (p.slot j s).Sound → (p'.slot j t).Sound) :
    p'.Slotted := by
  refine h.of_step hf (by rw [hstreams, List.length_set]) fun {k s'} hk => ?_
  rw [hstreams, List.getElem?_set] at hk
  split at hk
  next hjk =>
    subst hjk
    split at hk <;> cases hk
    exact ⟨s, hj, hid, hexit, hsound⟩
  next hjk => exact ⟨s', hk, rfl, fun he => he, fun _ hs => (hkeeps (Ne.symm hjk) hs).sound hs⟩

section

variable (h : p.Slotted)
include h

theorem Slotted.follows : Follows p.registry p.registry := .of_entries rfl h.indexed (fun hw => hw) h.leased

theorem slotted_act {b : StreamAction} (hk : p.streams[k]? = some s) (hb : s.act b = some t) :
    Slotted { p with streams := p.streams.set k t } :=
  h.of_stream h.follows hk rfl (Stream.act_identity hb) (Stream.act_exited hb)
    (fun _ _ => .of_entry rfl (fun hf => hf) fun hl _ => hl) fun _ hs => hs.act hb

theorem slotted_forward (hk : p.streams[k]? = some s) (hx : (p.registry.entry k).send = some x) : Slotted { p with
      registry := p.registry.modify k ({ · with send := none })
      streams := p.streams.set k { s with down := s.down.send x } } := by
  refine h.of_stream ⟨h.indexed.drained k, by simp,
    p.registry.modify_congr k RegisteredWorker.identity (by intro e; rfl), fun hw => hw, h.leased⟩ hk rfl rfl
    (fun he => he) (fun {j _} hne _ => ?_) fun _ hs => ?_
  · exact .of_entry (p.registry.entry_modify_of_ne k hne _) (fun hf => hf) fun hl _ => hl
  · have hentry := p.registry.entry_modify_self k (h.lt hk) ({ · with send := none })
    refine (hs.forward hx).of_narrow rfl ?_ (fun hf => ⟨hf, ?_⟩) fun id hid => hid
    · exact congrArg RegisteredWorker.send hentry
    · exact (congrArg RegisteredWorker.busy hentry :)

/-- The return of a handler. -/
theorem slotted_return (hk : p.streams[k]? = some s) : Slotted { p with
      registry := (p.registry.deregister k).1
      streams := p.streams.set k { s with serving := false }
      reclaims := (p.registry.deregister k).2 ++ p.reclaims } := by
  have hentries := p.registry.deregister_entries k
  -- Who is registered afterwards was so before and is not this worker.
  have hworkers : ∀ {id j}, (p.registry.deregister k).1.workers.lookup id = some j →
      p.registry.workers.lookup id = some j ∧ (id = s.identity → j ≠ k) := by
    intro id j hj
    by_cases hreg : p.registry.workers.lookup (p.registry.entry k).identity = some k
    · rw [deregister_workers hreg, GoMap.lookup_erase_some] at hj
      exact ⟨hj.2, fun he => absurd (he.trans (h.identity hk)) hj.1⟩
    · rw [deregister_of_superseded hreg] at hj
      refine ⟨hj, ?_⟩
      rintro rfl rfl
      rw [h.identity hk] at hj
      exact hreg hj
  have hfree : ∀ {v id j}, (p.registry.deregister k).1.freeAt v id = some j → p.registry.freeAt v id = some j := by
    intro v id j hj
    by_cases hreg : p.registry.workers.lookup (p.registry.entry k).identity = some k
    · rw [h.indexed.freeAt_deregister hreg] at hj
      split at hj
      · cases hj
      · exact hj
    · rwa [deregister_of_superseded hreg] at hj
  refine h.of_stream (.of_entries hentries (h.indexed.deregister k) (fun hw => (hworkers hw).1)
    fun hl => h.leased (p.registry.lease_of_deregister k hl)) hk rfl rfl (fun he => he) (fun {j _} _ _ => ?_)
    fun hw _ => ?_
  · exact .of_entry (entry_congr j hentries) hfree fun hl _ => p.registry.lease_of_deregister k hl
  · exact absurd rfl ((hworkers hw).2 rfl)

theorem slotted_unassigned (hi : r'.Indexed) (hworkers : r'.workers = p.registry.workers)
    (hfree : ∀ v id, r'.freeAt v id = p.registry.freeAt v id)
    (hentries : r'.entries = p.registry.entries) (hleases : r'.leases = p.registry.leases)
    (issued : List (String × WorkerRef)) : Slotted { p with registry := r', issued } := by
  refine h.of_registry (.of_entries hentries hi (fun hw => hworkers ▸ hw) fun hl => h.leased (hleases ▸ hl)) rfl
    fun {k s} _ _ hs => ?_
  refine Keeps.sound (p := p) (.of_entry (entry_congr k hentries) (fun hf => ?_) fun hl _ => hleases ▸ hl) hs
  exact hfree _ _ ▸ hf

/-- The assignment of a free worker. -/
theorem slotted_assigned {v pick : String} {w : WorkerRef} (hi : r'.Indexed)
    (hworkers : r'.workers = p.registry.workers) (hat : p.registry.freeAt v pick = some w)
    (hleft : ∀ v' id, r'.freeAt v' id = if v' = v ∧ id = pick then none else p.registry.freeAt v' id)
    (hentries : r'.entries = (p.registry.modify w ({ · with send := some x })).entries)
    (hlease : ∀ {id ls}, r'.leases.lookup id = some ls →
      (id = x.assignmentID ∧ ls.worker = w) ∨ p.registry.leases.lookup id = some ls)
    (issued : List (String × WorkerRef)) : Slotted { p with registry := r', issued } := by
  obtain ⟨hw, hv⟩ := h.indexed.free hat
  obtain ⟨hlt, hpick⟩ := h.indexed.registered hw
  have hentry := fun k => entry_congr k hentries
  -- The worker is filed under its own version and identity only, and it was taken from there.
  have hfree : ∀ {v' id k}, r'.freeAt v' id = some k → p.registry.freeAt v' id = some k ∧ k ≠ w := by
    intro v' id k hf
    rw [hleft] at hf
    split at hf
    · cases hf
    next hne =>
      refine ⟨hf, ?_⟩
      rintro rfl
      exact hne ⟨(h.indexed.free hf).2.symm.trans hv, (h.indexed.identity_eq hf).symm.trans hpick⟩
  refine h.of_registry ⟨hi, ?_, fun k => ?_, fun hw => hworkers ▸ hw, fun hl => ?_⟩ rfl fun {k s} hk _ hs => ?_
  · exact (congrArg List.length hentries).trans (modify_length _ _ _)
  · exact (congrArg RegisteredWorker.identity (hentry k)).trans
      (p.registry.modify_congr w RegisteredWorker.identity (by intro e; rfl) k)
  · rcases hlease hl with ⟨-, hwk⟩ | hl
    · rwa [hwk]
    · exact h.leased hl
  · by_cases hkw : k = w
    · subst hkw
      have hself := (hentry k).trans (p.registry.entry_modify_self k hlt _)
      refine hs.assign ⟨v, pick, hat⟩ rfl (congrArg RegisteredWorker.send hself) (fun hf => ?_) fun id hid => ?_
      · obtain ⟨v', id, hf⟩ := hf
        exact (hfree hf).2 rfl
      · obtain ⟨ls, hl, hwk⟩ := hid
        rcases hlease hl with ⟨rfl, -⟩ | hl
        · exact .inl rfl
        · exact .inr ⟨ls, hl, hwk⟩
    · refine Keeps.sound (p := p) (.of_entry ?_ (fun hf => (hfree hf).1) fun hl hwk => ?_) hs
      · exact (hentry k).trans (p.registry.entry_modify_of_ne w hkw _)
      · exact (hlease hl).resolve_left fun he => hkw (hwk.symm.trans he.2)

theorem slotted_assign {v pick : String} {taken : Option WorkerRef}
    (hr : p.registry.assign pick v x = (r', taken)) (issued : List (String × WorkerRef)) :
    Slotted { p with registry := r', issued } := by
  have hi := h.indexed.assign hr
  obtain ⟨hworkers, hfree⟩ := h.indexed.assign_cases hr
  rcases p.registry.assign_cases hr with ⟨rfl, hentries, hleases⟩ | ⟨w, rfl, hentries, hleases⟩
  · rcases hfree with ⟨-, hfree⟩ | ⟨w, ht, -⟩
    · exact slotted_unassigned h hi hworkers hfree hentries hleases issued
    · cases ht
  · rcases hfree with ⟨ht, -⟩ | ⟨w', ht, hat, -, hleft⟩
    · cases ht
    · cases ht
      refine slotted_assigned h hi hworkers hat hleft hentries (fun hl => ?_) issued
      rw [hleases, GoMap.lookup_insert_some] at hl
      rcases hl with ⟨rfl, rfl⟩ | ⟨-, hl⟩
      · exact .inl ⟨rfl, rfl⟩
      · exact .inr hl

theorem slotted_expire {aid : String} (hc : p.SlotsSettled (.leaseExpires aid)) (reclaims : List ReclaimEvent) :
    Slotted { p with registry := (p.registry.onLeaseExpire aid).1, reclaims } := by
  have hentries := p.registry.onLeaseExpire_entries aid
  refine h.of_registry (.of_entries hentries (h.indexed.onLeaseExpire aid)
    (by rw [onLeaseExpire_workers]; exact fun hw => hw)
    fun hl => h.leased (p.registry.onLeaseExpire_leases.mp hl).2) rfl fun {k s} hk hw hs => ?_
  have hentry := entry_congr k hentries
  by_cases hnew : ∃ ls, p.registry.leases.lookup aid = some ls ∧ ls.worker = k ∧ (p.registry.entry k).busy = false
  · obtain ⟨ls, hls, rfl, hbusy⟩ := hnew
    rw [onLeaseExpire_workers] at hw
    refine hs.expire (hc ls hls s hk hw) hbusy ⟨ls, hls, rfl⟩ rfl (congrArg RegisteredWorker.send hentry)
      (congrArg RegisteredWorker.busy hentry) fun id hid => ?_
    obtain ⟨ls', hl, hwk⟩ := hid
    obtain ⟨hne, hl⟩ := p.registry.onLeaseExpire_leases.mp hl
    exact ⟨⟨ls', hl, hwk⟩, hne⟩
  · refine Keeps.sound (p := p) (.of_entry hentry (fun hf => ?_) fun hl _ => ?_) hs
    · rcases p.registry.freeAt_onLeaseExpire hf with hf | ⟨ls, hls, hwk, -, -, hbusy⟩
      · exact hf
      · exact absurd ⟨ls, hls, hwk, hbusy⟩ hnew
    · exact (p.registry.onLeaseExpire_leases.mp hl).2

theorem slotted_pump_ack {aid : String} {started : Bool}
    (hk : p.streams[k]? = some s) (hm : s.up.recv = some (.ack aid started, up))
    (reclaims : List ReclaimEvent) (bindings : List WarmBinding) : Slotted { p with
      registry := (p.registry.ack aid started).1
      streams := p.streams.set k { s with up }, reclaims, bindings } := by
  obtain ⟨hworkers, hfrees, hlength⟩ := p.registry.ack_kept aid started
  -- A worker that is filed as free holds no lease, so the ack is not of a lease of it.
  have hkeeps : ∀ {j s0}, (p.slot j s0).Sound → Keeps p.registry (p.registry.ack aid started).1 j := by
    intro j s0 hs
    refine ⟨p.registry.ack_send j aid started, fun {v id} hf => ?_, fun hl _ => (p.registry.ack_leases.mp hl).2⟩
    rw [freeAt, hfrees] at hf
    refine ⟨hf, congrArg RegisteredWorker.busy (p.registry.ack_entry_of_ne ?_ started)⟩
    intro ls hls hwk
    have hmem : aid ∈ (p.slot j s0).leases := ⟨ls, hls, hwk⟩
    rw [(hs.free ⟨v, id, hf⟩).2.1] at hmem
    cases hmem
  refine h.of_stream ⟨h.indexed.ack aid started, hlength,
    p.registry.ack_congr RegisteredWorker.identity (by intro e; rfl) aid started, fun hw => hworkers ▸ hw,
    fun hl => h.leased (p.registry.ack_leases.mp hl).2⟩ hk rfl rfl (fun he => he) (fun _ hs => hkeeps hs) fun _ hs => ?_
  refine hs.pop hm WorkerMessage.noConfusion rfl (hkeeps hs).send (Keeps.free_slot (p := p) (hkeeps hs))
    (Keeps.leases_slot (p := p) (hkeeps hs)) fun id started' he hid => ?_
  cases he
  obtain ⟨ls, hl, -⟩ := hid
  exact (p.registry.ack_leases.mp hl).1 rfl

/-- A worker that is free again. -/
theorem slotted_pump_slotFree (hk : p.streams[k]? = some s)
    (hm : s.up.recv = some (.slotFree, up)) (hc : ∀ w ∈ p.registry.workers.lookup s.identity, w = k)
    (reclaims : List ReclaimEvent) (bindings : List WarmBinding) : Slotted { p with
      registry := p.registry.markFree s.identity
      streams := p.streams.set k { s with up }, reclaims, bindings } := by
  obtain ⟨hworkers, hlength⟩ := p.registry.markFree_kept s.identity
  have hleases := p.registry.markFree_leases s.identity
  have hsend := fun j => p.registry.markFree_send j s.identity
  refine h.of_stream ⟨h.indexed.markFree s.identity, hlength,
    p.registry.markFree_congr s.identity RegisteredWorker.identity (by intro e; rfl), fun hw => hworkers ▸ hw,
    fun hl => h.leased (hleases ▸ hl)⟩ hk rfl rfl (fun he => he) (fun {j _} hne _ => ?_) fun hw hs => ?_
  · cases hwk : p.registry.workers.lookup s.identity with
    | none =>
      rw [markFree_of_unregistered hwk]
      exact .of_entry rfl (fun hf => hf) fun hl _ => hl
    | some w =>
      cases hc w hwk
      refine .of_entry ?_ (fun hf => ?_) fun hl _ => hleases ▸ hl
      · rw [markFree_of_registered hwk]
        exact p.registry.entry_modify_of_ne k hne ({ · with busy := false })
      · rcases p.registry.freeAt_markFree s.identity hf with hf | ⟨hf, -⟩
        · exact hf
        · exact absurd (Option.some.inj (hf.symm.trans hwk)) hne
  · rw [hworkers] at hw
    refine hs.release hm rfl (hsend k) ?_ fun id hid => ?_
    · have hself := p.registry.entry_modify_self k (h.lt hk) ({ · with busy := false })
      change ((p.registry.markFree s.identity).entry k).busy = false
      rw [markFree_of_registered hw]
      exact (congrArg RegisteredWorker.busy hself :)
    · obtain ⟨ls, hl, hwk⟩ := hid
      exact ⟨ls, hleases ▸ hl, hwk⟩

theorem slotted_pump_register {v pod : String} (hk : p.streams[k]? = some s)
    (hm : s.up.recv = some (.register v pod, up)) (reclaims : List ReclaimEvent) (bindings : List WarmBinding) :
    Slotted { p with streams := p.streams.set k { s with up }, reclaims, bindings } :=
  h.of_stream h.follows hk rfl rfl (fun he => he) (fun _ _ => .of_entry rfl (fun hf => hf) fun hl _ => hl) fun _ hs =>
    hs.pop hm WorkerMessage.noConfusion rfl rfl (fun hf => ⟨hf, rfl⟩) (fun _ hid => hid)
      fun _ _ he => WorkerMessage.noConfusion he

end

section Connect

variable (h : p.Slotted) (identity v pod : String) (streams : List Stream)

include h

theorem sound_of_register (hk : p.streams[k]? = some s) (hw : p.registry.workers.lookup s.identity = some k) :
    (slot { p with registry := (p.registry.register identity v pod).1, streams } k s).Sound := by
  have hlt := h.lt hk
  have hentry := entry_append (p.registry.register_entries identity v pod) hlt
  refine Keeps.sound (p := p) (.of_entry hentry (fun hf => ?_) fun hl _ => ?_) (h.sound hk hw)
  · rw [h.indexed.freeAt_register] at hf
    split at hf
    · split at hf <;> cases hf
      exact absurd hlt (Nat.lt_irrefl _)
    · exact hf
  · rwa [p.registry.register_leases identity v pod] at hl

theorem sound_registered : (slot { p with registry := (p.registry.register identity v pod).1, streams }
      p.registry.entries.length { identity }).Sound := by
  have hentry := entry_appended (p.registry.register_entries identity v pod)
  refine (Slot.sound_opened identity).of_narrow rfl (congrArg RegisteredWorker.send hentry)
    (fun _ => ⟨trivial, congrArg RegisteredWorker.busy hentry⟩) fun id hid => ?_
  obtain ⟨ls, hl, hwk⟩ := hid
  change (p.registry.register identity v pod).1.leases.lookup id = some ls at hl
  rw [p.registry.register_leases identity v pod] at hl
  exact absurd (h.leased hl) (by rw [hwk]; exact Nat.lt_irrefl _)

end Connect

/-- A worker that registers has left its earlier streams, and nothing of it is leased yet. -/
theorem slotted_connect (h : p.Slotted) {identity v pod : String}
    (hreal : ∀ s ∈ p.streams, s.identity = identity → s.worker = .exited) : Slotted { p with
      registry := (p.registry.register identity v pod).1
      streams := p.streams ++ [{ identity }] } := by
  have hentries := p.registry.register_entries identity v pod
  have hstream : ∀ {k : WorkerRef} {s : Stream}, (p.streams ++ [{ identity := identity }])[k]? = some s →
        p.streams[k]? = some s ∨ (k = p.registry.entries.length ∧ s = { identity }) := by
    intro k s hk
    rw [List.getElem?_append] at hk
    split at hk
    · exact .inl hk
    next hlen =>
      rw [List.getElem?_singleton] at hk
      split at hk <;> cases hk
      rename_i hlast
      rw [← h.aligned]
      exact .inr ⟨Nat.le_antisymm (Nat.sub_eq_zero_iff_le.mp hlast) (Nat.le_of_not_lt hlen), rfl⟩
  have hlookup : ∀ {id k}, (p.registry.register identity v pod).1.workers.lookup id = some k →
      (id = identity ∧ k = p.registry.entries.length) ∨ p.registry.workers.lookup id = some k := by
    intro id k hw
    rw [register_workers, GoMap.lookup_insert_some] at hw
    exact hw.imp (And.imp_right Eq.symm) And.right
  refine ⟨h.indexed.register identity v pod, ?_, fun {k s} hk => ?_, fun hl => ?_,
    fun {k s} hk hw => ?_, fun {j k s} hj hw hne => ?_⟩
  · change (p.streams ++ _).length = (p.registry.register identity v pod).1.entries.length
    rw [hentries, List.length_append, List.length_append, h.aligned]
    rfl
  · rcases hstream hk with hk | ⟨rfl, rfl⟩
    · rw [entry_append hentries (h.lt hk), h.identity hk]
    · rw [entry_appended hentries]
  · rw [p.registry.register_leases identity v pod] at hl
    rw [hentries, List.length_append]
    exact Nat.lt_succ_of_lt (h.leased hl)
  · rcases hstream hk with hk | ⟨rfl, rfl⟩
    · rcases hlookup hw with ⟨-, rfl⟩ | hw
      · exact absurd (h.lt hk) (Nat.lt_irrefl _)
      · exact sound_of_register h identity v pod _ hk hw
    · exact sound_registered h identity v pod _
  · rcases hstream hj with hj | ⟨rfl, rfl⟩
    · rcases hlookup hw with ⟨hid, -⟩ | hw
      · exact hreal s (List.mem_of_getElem? hj) hid
      · exact h.superseded hj hw hne
    · change (p.registry.register identity v pod).1.workers.lookup identity = some k at hw
      rw [register_workers, AList.lookup_insert] at hw
      exact absurd (Option.some.inj hw) hne

/-- The slots stay sound, if leases expire and signals come in time. -/
theorem slotted_step {a : PoolAction} (h : p.Slotted) (hc : p.RealWorkers a ∧ p.SlotsSettled a)
    (hs : p.step a = some p') : p'.Slotted := by
  by_cases hassign : ∃ v x pick, a = .assign v x pick
  · obtain ⟨v, x, pick, rfl⟩ := hassign
    simp only [step, Option.ite_none_right_eq_some] at hs
    obtain ⟨-, hs⟩ := hs
    cases hr : p.registry.assign pick v x with
    | mk r' taken =>
      rw [hr] at hs
      cases hs
      exact slotted_assign h hr _
  · cases step_effect hs with
    | passed | wrote | bound => exact h.of_eq rfl rfl
    | unassigned | assigned => exact absurd ⟨_, _, _, rfl⟩ hassign
    | connected => exact slotted_connect h hc.1
    | forwarded hk hx => exact slotted_forward h hk hx
    | returned hk => exact slotted_return h hk
    | @pumped k s m up hk hm =>
      cases m with
      | ack => exact slotted_pump_ack h hk hm _ _
      | register => exact slotted_pump_register h hk hm _ _
      | slotFree =>
        refine slotted_pump_slotFree h hk hm (hc.2 s hk ?_) _ _
        rw [hm]
        rfl
    | expired => exact slotted_expire h hc.2 _
    | handled ok => exact h.of_eq (p.handleReclaim_registry _ ok) (p.handleReclaim_streams _ ok)
    | acted hk hb => exact slotted_act h hk hb

theorem slotted_init {db : Database} : Slotted { db } where
  indexed := indexed_empty
  aligned := rfl
  identity hk := by cases hk
  leased hl := by cases hl
  sound hk := by cases hk
  superseded hk := by cases hk

theorem slotted_reaches (h : system.Reaches (fun p a => p.RealWorkers a ∧ p.SlotsSettled a) p) : p.Slotted := by
  refine h.invariant ?_ fun _ _ _ _ hp hc hs => slotted_step hp hc hs
  rintro _ ⟨db, rfl⟩
  exact slotted_init

/-! ## Who is free is idle -/

theorem Slotted.idle (h : p.Slotted) {v identity : String} {w : WorkerRef}
    (hf : p.registry.freeAt v identity = some w) : p.Idle w := by
  obtain ⟨hw, -⟩ := h.indexed.free hf
  obtain ⟨hlt, hid⟩ := h.indexed.registered hw
  obtain ⟨s, hs⟩ : ∃ s, p.streams[w]? = some s := by
    rw [← h.aligned] at hlt
    exact ⟨_, List.getElem?_eq_getElem hlt⟩
  have hsid : s.identity = identity := (h.identity hs).trans hid
  obtain ⟨hbusy, hnone, hempty⟩ := (h.sound hs (hsid ▸ hw)).free ⟨v, identity, hf⟩
  refine ⟨hbusy, fun l hl hwk => ?_, fun t ht htid => ?_⟩
  · have hmem : l.1 ∈ (p.slot w s).leases := ⟨l.2, AList.mem_lookup_iff.mpr hl, hwk⟩
    rw [hnone] at hmem
    cases hmem
  · obtain ⟨j, hj⟩ := List.mem_iff_getElem?.mp ht
    by_cases hjw : j = w
    · subst hjw
      cases hs.symm.trans hj
      have hidle : s.worker.idle := hempty.idle
      cases hphase : s.worker <;> rw [hphase] at hidle <;> first | rfl | cases hidle
    · rw [h.superseded hj (by rw [htid, hid]; exact hw) hjw]
      rfl

theorem Slotted.exclusive (h : p.Slotted) : p.Exclusive where
  free _ _ _ hf := h.idle hf
  assign v a pick w hw := by
    cases hr : p.registry.assign pick v a with
    | mk r' taken =>
      rw [hr] at hw
      cases hw
      rcases h.indexed.assign_cases hr with ⟨-, ⟨hnone, -⟩ | ⟨w', htaken, hat, -⟩⟩
      · cases hnone
      · cases htaken
        exact h.idle hat

end WarmPool

open WarmPool

/-- **Warm workers are exclusive.** In every run of real workers in which no lease expires of a
worker with something in its slot and no slot-free signal outlives its entry, a worker that is busy,
holds a lease or runs an attempt is neither filed as free nor handed an assignment. -/
theorem free_worker_is_idle {p : WarmPool}
    (h : system.Reaches (fun p a => p.RealWorkers a ∧ p.SlotsSettled a) p) : p.Exclusive :=
  (slotted_reaches h).exclusive

/-! ## Schedules -/

/-- A pool without workers. -/
def emptyPool : WarmPool where
  db := { now := 1, runs := [], tis := [] }

/-- A worker connects and is handed an assignment, which reaches it. -/
def reachesWorker : List PoolAction :=
  [.connect "w1" "v1" (.register "v1" "w1"), .assign "v1" ⟨"a1", "run", "task", 1⟩ "w1", .forward 0, .stream 0 .receive]

/-- The worker acks what it received, the ack is handled, and it starts to run the attempt. -/
def starts : List PoolAction :=
  [.stream 0 (.resetScratch true), .stream 0 (.sendAck true), .pump 0, .stream 0 .runOneAttempt]

/-- The worker ends the attempt and is handed another one. -/
def turnsOver : List PoolAction :=
  [.stream 0 .attemptEnds, .stream 0 (.sendSlotFree true), .pump 0, .assign "v1" ⟨"a2", "run", "other", 1⟩ "w1"]

/-- A worker runs an attempt, says that it is free and is handed the next one. -/
theorem free_worker_is_idle_in_turn :
    ∃ p, system.runIf (fun p a => decide (p.RealWorkers a ∧ p.SlotsSettled a)) emptyPool
        (reachesWorker ++ starts ++ turnsOver) = some p ∧
      p.issued.length = 2 ∧ p.Exclusive := by
  refine Lib.exists_eq_some (by decide +kernel) fun hrun => ?_
  exact ⟨by decide +kernel, free_worker_is_idle
    (Lib.System.Reaches.runIf (.init ⟨_, rfl⟩) (fun _ _ hc => of_decide_eq_true hc) hrun)⟩

/-- The worker is slow to ack, its lease expires, and it is filed as free while it runs the attempt. -/
theorem slow_worker_is_free : ¬ ∀ p, system.Reaches (fun p a => p.RealWorkers a) p → p.Exclusive := by
  intro h
  have hrun := (Option.some_get (x := system.runIf (fun p a => decide (p.RealWorkers a)) emptyPool
    (reachesWorker ++ [.leaseExpires "a1"] ++ starts))
    (by decide +kernel)).symm
  have hidle := (h _ (Lib.System.Reaches.runIf (.init ⟨_, rfl⟩) (fun _ _ hc => of_decide_eq_true hc)
    hrun)).free "v1" "w1" 0 (by decide +kernel)
  exact absurd hidle.runs (by decide +kernel)

end Leoflow
