import Leoflow.AgentRPC.RegistryRuns

/-!
# The registry's bookkeeping

Over every sequence of operations: whoever is free is registered and filed under its own identity and
version, an entry that was replaced or deregistered gets no assignment, and every assignment that was taken
is either leased and unsettled, or settled once. A lease timer that fires finds its assignment settled or
settles it.
-/

namespace Leoflow

open Lib (GoMap)
open List

namespace RegistryRun

/-- How often an assignment was settled. -/
def settlements (l : RegistryRun) (assignmentID : String) : Nat :=
  (l.settled.map Settlement.assignmentID).count assignmentID

/-- The bookkeeping of a registry and its record. -/
structure Bookkeeping (l : RegistryRun) : Prop where
  free : ∀ v identity w, l.registry.freeAt v identity = some w →
    l.registry.workers.lookup identity = some w ∧ (l.registry.entry w).identity = identity ∧
      (l.registry.entry w).dagVersion = v
  assigned : ∀ v a pick w, (l.registry.assign pick v a).2 = some w →
    l.registry.workers.lookup (l.registry.entry w).identity = some w ∧ (l.registry.entry w).dagVersion = v
  ended : ∀ w ∈ l.ended, ∀ v a pick, (l.registry.assign pick v a).2 ≠ some w
  refused : ∀ v a pick l', l.step (.assign v a pick) = some l' → (l.registry.assign pick v a).2 = none →
    l'.registry.leases = l.registry.leases ∧ l'.settled = l.settled
  once : ∀ a ∈ l.accepted, l.settlements a.assignmentID ≤ 1
  attempt : ∀ a ∈ l.accepted, ∀ s ∈ l.settled, s.assignmentID = a.assignmentID → s.attempt = a.attempt
  expired : ∀ a ∈ l.accepted, a.assignmentID ∈ l.fired → l.settlements a.assignmentID = 1

/-! ## The invariant -/

/-- Every assignment that was taken is leased and unsettled, or its lease is over and it was settled
once; nothing else is leased or settled. -/
structure Ledger (l : RegistryRun) : Prop where
  indexed : l.registry.Indexed
  distinct : (l.accepted.map WorkAssignment.assignmentID).Nodup
  lease : ∀ {id ls}, l.registry.leases.lookup id = some ls →
    ∃ a ∈ l.accepted, a.assignmentID = id ∧ a.attempt = ls.attempt
  settled : ∀ s ∈ l.settled, ∃ a ∈ l.accepted, a.assignmentID = s.assignmentID ∧ s.attempt = a.attempt
  count : ∀ a ∈ l.accepted, l.settlements a.assignmentID =
    if (l.registry.leases.lookup a.assignmentID).isSome then 0 else 1
  fired : ∀ id ∈ l.fired, id ∈ l.accepted.map WorkAssignment.assignmentID ∧ l.registry.leases.lookup id = none

variable {l l' : RegistryRun} {identity v pod : String}

theorem Ledger.eq_of_id (h : l.Ledger) {a b : WorkAssignment} (ha : a ∈ l.accepted)
    (hb : b ∈ l.accepted) (hid : a.assignmentID = b.assignmentID) : a = b :=
  inj_on_of_nodup_map h.distinct ha hb hid

/-- Leases that end are settled once. -/
theorem Ledger.of_settles (h : l.Ledger) {new : List Settlement} {fired : List String}
    {registry : WorkerRegistry} (hi : registry.Indexed) (hs : Settles l.registry registry new)
    (hfired : ∀ id ∈ fired, id ∈ l.fired ∨ (id ∈ l.accepted.map WorkAssignment.assignmentID ∧
      registry.leases.lookup id = none)) : Ledger { l with registry, settled := new ++ l.settled, fired } where
  indexed := hi
  distinct := h.distinct
  lease {id ls} hl := by
    rw [hs.kept] at hl
    split at hl
    · cases hl
    · exact h.lease hl
  settled s hm := by
    rcases mem_append.mp hm with hm | hm
    · obtain ⟨ls, hl, hattempt⟩ := hs.lease s hm
      obtain ⟨a, ha, hid, he⟩ := h.lease hl
      exact ⟨a, ha, hid, hattempt.trans he.symm⟩
    · exact h.settled s hm
  count a ha := by
    have hold := h.count a ha
    unfold settlements at hold ⊢
    rw [map_append, count_append, hold, hs.kept]
    by_cases hid : a.assignmentID ∈ new.map Settlement.assignmentID
    · -- The lease is over now, and it was there before.
      obtain ⟨s, hm, he⟩ := mem_map.mp hid
      obtain ⟨ls, hl, -⟩ := hs.lease s hm
      rw [he] at hl
      rw [count_eq_one_of_mem hs.distinct hid, if_pos hid, hl]
      rfl
    · rw [count_eq_zero_of_not_mem hid, if_neg hid, Nat.zero_add]
  fired id hm := by
    rcases hfired id hm with hm | hm
    · obtain ⟨hid, hl⟩ := h.fired id hm
      refine ⟨hid, ?_⟩
      change registry.leases.lookup id = none
      rw [hs.kept, hl]
      split <;> rfl
    · exact hm

/-- An accepted assignment has a lease. -/
theorem Ledger.of_taken (h : l.Ledger) {a : WorkAssignment} {registry : WorkerRegistry} {v : String}
    {w : WorkerRef} (hfresh : a.assignmentID ∉ l.accepted.map WorkAssignment.assignmentID)
    (hi : registry.Indexed) (hl : registry.leases = l.registry.leases.insert a.assignmentID
      ⟨w, v, a.dagRunID, a.taskID, a.tryNumber⟩) : Ledger { l with registry, accepted := a :: l.accepted } where
  indexed := hi
  distinct := by
    rw [map_cons, nodup_cons]
    exact ⟨hfresh, h.distinct⟩
  lease {id ls} hls := by
    rw [hl, GoMap.lookup_insert_some] at hls
    rcases hls with ⟨rfl, rfl⟩ | ⟨-, hls⟩
    · exact ⟨a, mem_cons_self, rfl, rfl⟩
    · obtain ⟨b, hb, hid, he⟩ := h.lease hls
      exact ⟨b, mem_cons_of_mem _ hb, hid, he⟩
  settled s hm := by
    obtain ⟨b, hb, hid, he⟩ := h.settled s hm
    exact ⟨b, mem_cons_of_mem _ hb, hid, he⟩
  count b hb := by
    rw [hl]
    rcases mem_cons.mp hb with rfl | hb
    · -- The id is fresh, so nothing settled it before.
      rw [AList.lookup_insert]
      refine count_eq_zero_of_not_mem fun hm => hfresh ?_
      obtain ⟨s, hs, he⟩ := mem_map.mp hm
      obtain ⟨c, hc, hid, -⟩ := h.settled s hs
      exact mem_map.mpr ⟨c, hc, hid.trans he⟩
    · have hne : b.assignmentID ≠ a.assignmentID := fun he =>
        hfresh (he ▸ mem_map_of_mem hb)
      rw [AList.lookup_insert_ne hne]
      exact h.count b hb
  fired id hm := by
    obtain ⟨hid, hnone⟩ := h.fired id hm
    have hne : id ≠ a.assignmentID := fun he => hfresh (he ▸ hid)
    rw [hl, AList.lookup_insert_ne hne]
    exact ⟨mem_cons_of_mem _ hid, hnone⟩

/-- The books say nothing of the entries that ended. -/
theorem Ledger.ended (h : l.Ledger) (ended : List WorkerRef) : Ledger { l with ended } :=
  ⟨h.indexed, h.distinct, h.lease, h.settled, h.count, h.fired⟩

/-- Every call keeps the ledger. -/
theorem ledger_step {c : RegistryCall} (h : l.Ledger) (hs : l.step c = some l') : l'.Ledger := by
  cases c with
  | register identity v pod =>
    cases hs
    exact (h.of_settles (h.indexed.register identity v pod) (.nothing (by simp)) fun _ => .inl).ended _
  | forward w =>
    simp only [step, Option.ite_none_right_eq_some] at hs
    obtain ⟨-, hs⟩ := hs
    cases hs
    exact h.of_settles (h.indexed.drained w) (.nothing rfl) fun _ => .inl
  | markFree identity =>
    cases hs
    exact h.of_settles (h.indexed.markFree identity) (.nothing (by simp)) fun _ => .inl
  | ack id started =>
    cases hs
    exact h.of_settles (h.indexed.ack id started) (.ack _ _ _) fun _ => .inl
  | deregister w =>
    simp only [step, Option.ite_none_right_eq_some] at hs
    obtain ⟨-, hs⟩ := hs
    cases hs
    exact (h.of_settles (h.indexed.deregister w) (.deregister _ _) fun _ => .inl).ended _
  | leaseExpires id =>
    simp only [step, Option.ite_none_right_eq_some] at hs
    obtain ⟨hid, hs⟩ := hs
    cases hs
    refine h.of_settles (h.indexed.onLeaseExpire id) (.onLeaseExpire _ _) fun id' hm => ?_
    rcases mem_cons.mp hm with rfl | hm
    · refine .inr ⟨hid, Option.eq_none_iff_forall_ne_some.mpr fun ls hl => ?_⟩
      exact (l.registry.onLeaseExpire_leases.mp hl).1 rfl
    · exact .inl hm
  | assign v a pick =>
    simp only [step, Option.ite_none_right_eq_some] at hs
    obtain ⟨⟨hfresh, -⟩, hs⟩ := hs
    cases hr : l.registry.assign pick v a with
    | mk registry taken =>
      rw [hr] at hs
      cases hs
      have hi := h.indexed.assign hr
      rcases l.registry.assign_cases hr with ⟨rfl, -, hl⟩ | ⟨w, rfl, -, hl⟩
      · exact h.of_settles hi (.nothing hl) fun _ => .inl
      · exact h.of_taken hfresh hi hl

theorem ledger_empty : Ledger {} where
  indexed := WorkerRegistry.indexed_empty
  distinct := nodup_nil
  lease hl := by cases hl
  settled _ hs := by cases hs
  count _ ha := by cases ha
  fired _ hid := by cases hid

theorem ledger_reachable (h : system.Reachable l) : l.Ledger := by
  refine h.invariant (I := Ledger) (fun l hl => ?_) fun _ _ _ _ h _ hs => ledger_step h hs
  cases hl
  exact ledger_empty

/-- The entries that ended are registered under no identity. -/
def Ended (l : RegistryRun) : Prop :=
  ∀ w ∈ l.ended, w < l.registry.entries.length ∧ ∀ identity, l.registry.workers.lookup identity ≠ some w

/-- An operation that registers nobody and deregisters nobody ends no entry. -/
theorem Ended.keep (h : l.Ended) (he : l'.ended = l.ended) (hw : l'.registry.workers = l.registry.workers)
    (hl : l'.registry.entries.length = l.registry.entries.length) : l'.Ended := by
  intro w hmem
  rw [he] at hmem
  rw [hw, hl]
  exact h w hmem

theorem Ended.register (h : l.Ended) (hi : l.registry.Indexed)
    (hs : l.step (.register identity v pod) = some l') : l'.Ended := by
  cases hs
  intro w hmem
  -- The new entry is none of the old ones.
  have hold : w < l.registry.entries.length ∧ ∀ id, id ≠ identity → l.registry.workers.lookup id ≠ some w := by
    rcases mem_append.mp hmem with hmem | hmem
    · obtain ⟨hlt, hid⟩ := hi.registered (Option.mem_toList.mp hmem)
      exact ⟨hlt, fun id hne hw => hne ((hi.registered hw).2.symm.trans hid)⟩
    · exact ⟨(h w hmem).1, fun id _ => (h w hmem).2 id⟩
  refine ⟨?_, fun id hw => ?_⟩
  · rw [WorkerRegistry.register_entries, length_append]
    exact Nat.lt_add_right _ hold.1
  · rw [WorkerRegistry.register_workers, GoMap.lookup_insert_some] at hw
    rcases hw with ⟨-, rfl⟩ | ⟨hne, hw⟩
    · exact absurd hold.1 (Nat.lt_irrefl _)
    · exact hold.2 id hne hw

theorem Ended.deregister (h : l.Ended) (hi : l.registry.Indexed) {w : WorkerRef}
    (hs : l.step (.deregister w) = some l') : l'.Ended := by
  simp only [step, Option.ite_none_right_eq_some] at hs
  obtain ⟨hlt, hs⟩ := hs
  cases hs
  intro k hmem
  simp only [WorkerRegistry.deregister_entries]
  by_cases hw : l.registry.workers.lookup (l.registry.entry w).identity = some w
  · rw [WorkerRegistry.deregister_workers hw]
    simp only [ne_eq, GoMap.lookup_erase_some, not_and]
    rcases mem_cons.mp hmem with rfl | hmem
    · exact ⟨hlt, fun id hne hk => hne (hi.registered hk).2.symm⟩
    · exact ⟨(h k hmem).1, fun id _ => (h k hmem).2 id⟩
  · rw [WorkerRegistry.deregister_of_superseded hw]
    rcases mem_cons.mp hmem with rfl | hmem
    · exact ⟨hlt, fun id hk => hw ((hi.registered hk).2.symm ▸ hk)⟩
    · exact h k hmem

/-- An entry that ended is registered under no identity again. -/
theorem ended_step {c : RegistryCall} (hended : l.Ended) (hi : l.registry.Indexed) (hs : l.step c = some l') :
    l'.Ended := by
  cases c with
  | register => exact hended.register hi hs
  | deregister => exact hended.deregister hi hs
  | forward w =>
    simp only [step, Option.ite_none_right_eq_some] at hs
    obtain ⟨-, hs⟩ := hs
    cases hs
    exact hended.keep rfl rfl (l.registry.modify_length w _)
  | markFree identity =>
    cases hs
    obtain ⟨hworkers, hlength⟩ := l.registry.markFree_kept identity
    exact hended.keep rfl hworkers hlength
  | ack id started =>
    cases hs
    obtain ⟨hworkers, -, hlength⟩ := l.registry.ack_kept id started
    exact hended.keep rfl hworkers hlength
  | leaseExpires id =>
    simp only [step, Option.ite_none_right_eq_some] at hs
    obtain ⟨-, hs⟩ := hs
    cases hs
    exact hended.keep rfl (l.registry.onLeaseExpire_workers id) (by simp)
  | assign v a pick =>
    simp only [step, Option.ite_none_right_eq_some] at hs
    obtain ⟨-, hs⟩ := hs
    cases hr : l.registry.assign pick v a with
    | mk registry taken =>
      rw [hr] at hs
      cases hs
      refine hended.keep rfl (hi.assign_cases hr).1 ?_
      rcases l.registry.assign_cases hr with ⟨-, he, -⟩ | ⟨w, -, he, -⟩
      · rw [he]
      · rw [he, WorkerRegistry.modify_length]

theorem ended_reachable (h : system.Reachable l) : l.Ended := by
  refine h.invariant (I := Ended) (fun l hl => ?_) fun l c l' hr hended _ hs =>
    ended_step hended (ledger_reachable hr).indexed hs
  cases hl
  exact forall_mem_nil _

end RegistryRun

open RegistryRun

/-- **Registry bookkeeping.** Over every sequence of operations the free workers are current entries
under their own identity and version, no entry that was replaced or deregistered is assigned, each
assignment that was taken is settled at most once and for its own attempt, once its lease timer has fired
exactly once, and an assignment that was not taken leaves no trace. -/
theorem registry_keeps_books {l : RegistryRun} (h : system.Reachable l) : l.Bookkeeping := by
  have hl := ledger_reachable h
  have hassigned : ∀ v a pick w, (l.registry.assign pick v a).2 = some w →
      l.registry.workers.lookup (l.registry.entry w).identity = some w ∧ (l.registry.entry w).dagVersion = v := by
    intro v a pick w hw
    have hr : l.registry.assign pick v a = ((l.registry.assign pick v a).1, some w) := by rw [← hw]
    obtain ⟨-, ⟨hnone, -⟩ | ⟨w', htaken, hfree, -⟩⟩ := hl.indexed.assign_cases hr
    · cases hnone
    · cases htaken
      rw [hl.indexed.identity_eq hfree]
      exact hl.indexed.free hfree
  refine ⟨fun v identity w hw => ?_, hassigned, fun w hended v a pick hw => ?_, fun v a pick l' hs hnone => ?_,
    fun a ha => ?_, fun a ha s hs hid => ?_, fun a ha hfired => ?_⟩
  · obtain ⟨hworkers, hv⟩ := hl.indexed.free hw
    exact ⟨hworkers, hl.indexed.identity_eq hw, hv⟩
  · exact (ended_reachable h w hended).2 _ (hassigned v a pick w hw).1
  · simp only [step, Option.ite_none_right_eq_some] at hs
    obtain ⟨-, hs⟩ := hs
    cases hs
    have hr : l.registry.assign pick v a = ((l.registry.assign pick v a).1, none) := by
      rw [← hnone]
    rcases l.registry.assign_cases hr with ⟨-, -, hleases⟩ | ⟨w, htaken, -⟩
    · exact ⟨hleases, rfl⟩
    · cases htaken
  · rw [hl.count a ha]
    split <;> omega
  · obtain ⟨b, hb, hid', hattempt⟩ := hl.settled s hs
    rw [hattempt, hl.eq_of_id hb ha (hid'.trans hid)]
  · rw [hl.count a ha, (hl.fired _ hfired).2]
    rfl

/-- Two workers register; one acks its assignment, the lease of the other's expires and the worker is
handed the next one. Then the first deregisters and the second reconnects. -/
theorem registry_keeps_books_of_two :
    ∃ l, system.run {} [.register "w1" "v1" "pod-1", .assign "v1" ⟨"a1", "run", "task", 1⟩ "w1",
        .forward 0, .register "w2" "v1" "pod-2", .assign "v1" ⟨"a2", "run", "other", 1⟩ "w2",
        .ack "a1" true, .forward 1, .leaseExpires "a2",
        .assign "v1" ⟨"a3", "run", "third", 1⟩ "w2", .leaseExpires "a1", .deregister 0,
        .register "w2" "v1" "pod-3"] = some l ∧
      l.accepted.length = 3 ∧ l.settled.length = 2 ∧ l.ended = [1, 0] ∧ l.Bookkeeping := by
  refine Lib.exists_eq_some (by decide +kernel) fun hrun => ?_
  exact ⟨by decide +kernel, by decide +kernel, by decide +kernel, registry_keeps_books (.run (.init rfl) hrun)⟩

end Leoflow
