import Leoflow.AgentRPC.WorkerRegistry

/-!
# The free sets of the registry

What each operation of the registry does to the free sets, and the invariant that ties them to the
registered entries: a free worker is the entry currently registered under its identity and is filed
under its own DAG version.
-/

namespace Leoflow

open Lib (GoMap)
open Option AList

variable (id : String) (started : Bool) {k : WorkerRef}

namespace WorkerRegistry

/-- The worker of an identity in a version's free set. -/
def freeAt (r : WorkerRegistry) (v identity : String) : Option WorkerRef :=
  (r.free.lookup v).bind fun set => set.lookup identity

variable (r : WorkerRegistry) (w : WorkerRef) (v identity : String)

/-! ## Entries -/

theorem entry_modify_of_ne (hk : k ≠ w) (f : RegisteredWorker → RegisteredWorker) :
    (r.modify w f).entry k = r.entry k := by
  simp [modify, entry, hk.symm]

theorem entry_modify_self (hw : w < r.entries.length) (f : RegisteredWorker → RegisteredWorker) :
    (r.modify w f).entry w = f (r.entry w) := by
  simp [modify, entry, List.getElem?_eq_getElem hw]

@[simp] theorem modify_length (f : RegisteredWorker → RegisteredWorker) :
    (r.modify w f).entries.length = r.entries.length := by
  simp [modify]

section

variable {r r' : WorkerRegistry} {e : RegisteredWorker} (h : r'.entries = r.entries ++ [e])
include h

theorem entry_append (hk : k < r.entries.length) : r'.entry k = r.entry k := by
  rw [entry, h, List.getElem?_append_left hk, entry]

theorem entry_appended : r'.entry r.entries.length = e := by
  rw [entry, h, List.getElem?_concat_length, getD_some]

end

/-! ## The helpers -/

theorem freeAt_setFree (v' : String) (set : GoMap WorkerRef) : (r.setFree v' set).freeAt v identity =
      if v = v' then set.lookup identity else r.freeAt v identity := by
  unfold setFree freeAt
  by_cases hv : v = v'
  · subst hv
    rw [if_pos rfl]
    split
    next he =>
      have hempty : set = ∅ := AList.ext (List.isEmpty_iff.mp he)
      simp [hempty]
    · simp
  · rw [if_neg hv]
    split
    · simp [lookup_erase_ne hv]
    · simp [lookup_insert_ne hv]

theorem freeAt_addFreeLocked : (r.addFreeLocked w).freeAt v identity =
      if v = (r.entry w).dagVersion ∧ identity = (r.entry w).identity then some w else r.freeAt v identity := by
  unfold addFreeLocked freeAt
  by_cases hv : v = (r.entry w).dagVersion
  · subst hv
    by_cases hi : identity = (r.entry w).identity
    · subst hi
      simp
    · simp only [hi, and_false, if_false, lookup_insert, bind_some, lookup_insert_ne hi, GoMap.getD]
      cases r.free.lookup (r.entry w).dagVersion <;> simp
  · simp [hv, lookup_insert_ne hv]

theorem freeAt_removeFreeLocked : (r.removeFreeLocked w).freeAt v identity =
      if v = (r.entry w).dagVersion ∧ identity = (r.entry w).identity then none else r.freeAt v identity := by
  unfold removeFreeLocked
  dsimp only
  cases hset : r.free.lookup (r.entry w).dagVersion with
  | none =>
    dsimp only
    split
    next h =>
      rw [freeAt, h.1, hset]
      rfl
    · rfl
  | some set =>
    dsimp only
    rw [freeAt_setFree]
    by_cases hv : v = (r.entry w).dagVersion
    · subst hv
      simp only [true_and, if_true, freeAt, hset, bind_some]
      split
      next hi =>
        rw [hi, lookup_erase]
      next hi =>
        exact lookup_erase_ne hi
    · simp [hv]

theorem freeAt_takeFreeLocked {v' pick : String} {r' : WorkerRegistry} (h : r.takeFreeLocked v' pick = some (w, r')) :
    r.freeAt v' pick = some w ∧ r'.freeAt v identity =
      if v = v' ∧ identity = pick then none else r.freeAt v identity := by
  obtain ⟨set, hset, hw, rfl⟩ := r.takeFreeLocked_eq_some w h
  refine ⟨by rw [freeAt, hset, bind_some, hw], ?_⟩
  rw [freeAt_setFree]
  by_cases hv : v = v'
  · subst hv
    simp only [true_and, if_true, freeAt, hset, bind_some]
    split
    next hi =>
      rw [hi, lookup_erase]
    next hi =>
      exact lookup_erase_ne hi
  · simp [hv]

@[simp] theorem removeFreeLocked_workers : (r.removeFreeLocked w).workers = r.workers := by
  unfold removeFreeLocked
  dsimp only
  split <;> rfl

theorem register_workers (pod : String) :
    (r.register identity v pod).1.workers = r.workers.insert identity r.entries.length := by
  cases hw : r.workers.lookup identity <;> simp [register, hw, addFreeLocked]

theorem deregister_workers {r : WorkerRegistry} {w : WorkerRef} (hw : r.workers.lookup (r.entry w).identity = some w) :
    (r.deregister w).1.workers = r.workers.erase (r.entry w).identity := by
  unfold deregister
  rw [if_neg (not_not_intro hw)]
  exact removeFreeLocked_workers _ _

/-! ## Ack, slot free and lease expiry -/

theorem ack_kept (id : String) (started : Bool) :
    (r.ack id started).1.workers = r.workers ∧ (r.ack id started).1.free = r.free ∧
      (r.ack id started).1.entries.length = r.entries.length := by
  unfold ack
  split
  · exact ⟨rfl, rfl, rfl⟩
  · cases started with
    | false => exact ⟨rfl, rfl, rfl⟩
    | true => exact ⟨rfl, rfl, modify_length _ _ _⟩

theorem ack_entry_of_ne {id : String} (hk : ∀ ls, r.leases.lookup id = some ls → ls.worker ≠ k) (started : Bool) :
    (r.ack id started).1.entry k = r.entry k := by
  unfold ack
  split
  · rfl
  next ls hls =>
    cases started with
    | false => rfl
    | true => exact entry_modify_of_ne _ _ (hk ls hls).symm _

theorem markFree_of_registered {r : WorkerRegistry} {identity : String} {w : WorkerRef}
    (hw : r.workers.lookup identity = some w) :
    r.markFree identity = (r.modify w ({ · with busy := false })).addFreeLocked w := by
  simp [markFree, hw]

theorem markFree_of_unregistered {r : WorkerRegistry} {identity : String}
    (hw : r.workers.lookup identity = none) : r.markFree identity = r := by
  simp [markFree, hw]

theorem deregister_of_superseded {r : WorkerRegistry} {w : WorkerRef}
    (hw : r.workers.lookup (r.entry w).identity ≠ some w) : (r.deregister w).1 = r := by
  unfold deregister
  rw [if_pos hw]

theorem markFree_kept : (r.markFree identity).workers = r.workers ∧
    (r.markFree identity).entries.length = r.entries.length := by
  unfold markFree
  split
  · exact ⟨rfl, rfl⟩
  · exact ⟨rfl, modify_length _ _ _⟩

theorem freeAt_markFree {v id : String} (hk : (r.markFree identity).freeAt v id = some k) :
    r.freeAt v id = some k ∨ (r.workers.lookup identity = some k ∧ (r.entry k).dagVersion = v ∧
      (r.entry k).identity = id) := by
  unfold markFree at hk
  split at hk
  · exact .inl hk
  next w hw =>
    have hversion : ((r.modify w ({ · with busy := false })).entry w).dagVersion =
        (r.entry w).dagVersion := r.modify_congr w RegisteredWorker.dagVersion (by intro e; rfl) w
    have hidentity : ((r.modify w ({ · with busy := false })).entry w).identity =
        (r.entry w).identity := r.modify_congr w RegisteredWorker.identity (by intro e; rfl) w
    rw [freeAt_addFreeLocked, hversion, hidentity] at hk
    split at hk
    next hat =>
      cases hk
      exact .inr ⟨hw, hat.1.symm, hat.2.symm⟩
    · exact .inl hk

@[simp] theorem onLeaseExpire_workers (id : String) : (r.onLeaseExpire id).1.workers = r.workers := by
  unfold onLeaseExpire
  split
  · rfl
  · dsimp only
    split <;> rfl

theorem freeAt_onLeaseExpire {aid v id : String} (hk : (r.onLeaseExpire aid).1.freeAt v id = some k) :
    r.freeAt v id = some k ∨ (∃ ls, r.leases.lookup aid = some ls ∧ ls.worker = k ∧
      r.workers.lookup id = some k ∧ (r.entry k).dagVersion = v ∧ (r.entry k).busy = false) := by
  unfold onLeaseExpire at hk
  split at hk
  · exact .inl hk
  next ls hls =>
    dsimp only at hk
    split at hk
    next hcur =>
      rw [freeAt_addFreeLocked] at hk
      split at hk
      next hat =>
        cases hk
        refine .inr ⟨ls, hls, rfl, ?_, hat.1.symm, hcur.2⟩
        rw [hat.2]
        exact hcur.1
      · exact .inl hk
    · exact .inl hk

/-! ## The invariant -/

/-- The entry under an identity is of that identity, and the free ones are among those entries, filed
under their own version. -/
structure Indexed (r : WorkerRegistry) : Prop where
  registered : ∀ {identity w}, r.workers.lookup identity = some w →
    w < r.entries.length ∧ (r.entry w).identity = identity
  free : ∀ {v identity w}, r.freeAt v identity = some w →
    r.workers.lookup identity = some w ∧ (r.entry w).dagVersion = v

theorem Indexed.identity_eq {r : WorkerRegistry} (h : r.Indexed) {v identity : String} {w : WorkerRef}
    (hf : r.freeAt v identity = some w) : (r.entry w).identity = identity :=
  (h.registered (h.free hf).1).2

theorem indexed_empty : Indexed {} where
  registered hw := by cases hw
  free hw := by cases hw

theorem Indexed.freeAt_remove {r : WorkerRegistry} (h : r.Indexed) {identity : String}
    {w : WorkerRef} (hw : r.workers.lookup identity = some w) (v id : String) :
    (r.removeFreeLocked w).freeAt v id = if id = identity then none else r.freeAt v id := by
  rw [freeAt_removeFreeLocked, (h.registered hw).2]
  by_cases hid : id = identity
  · subst hid
    rw [if_pos rfl]
    split
    · rfl
    next hne =>
      refine eq_none_iff_forall_ne_some.mpr fun x hx => hne ⟨?_, rfl⟩
      obtain ⟨hx, hv⟩ := h.free hx
      cases hw.symm.trans hx
      exact hv.symm
  · simp [hid]

theorem Indexed.of_kept {r r' : WorkerRegistry} (h : r.Indexed) (hworkers : r'.workers = r.workers)
    (hlength : r'.entries.length = r.entries.length) (hidentity : ∀ k, (r'.entry k).identity = (r.entry k).identity)
    (hversion : ∀ k, (r'.entry k).dagVersion = (r.entry k).dagVersion) (hfree : ∀ {v id w}, r'.freeAt v id = some w →
      r.freeAt v id = some w ∨ (r.workers.lookup id = some w ∧ (r.entry w).dagVersion = v)) : r'.Indexed where
  registered {id w} hw := by
    rw [hworkers] at hw
    rw [hlength, hidentity]
    exact h.registered hw
  free {v id w} hw := by
    rw [hworkers, hversion]
    rcases hfree hw with hw | hw
    · exact h.free hw
    · exact hw

/-! ## The operations -/

section Operations

variable {r : WorkerRegistry} (h : r.Indexed)
include h

theorem Indexed.freeAt_register (identity v pod : String) (v' id : String) :
    (r.register identity v pod).1.freeAt v' id =
      if id = identity then if v' = v then some r.entries.length else none else r.freeAt v' id := by
  have hremoved : ((r.workers.lookup identity).elim r r.removeFreeLocked).freeAt v' id =
      if id = identity then none else r.freeAt v' id := by
    cases hw : r.workers.lookup identity with
    | some w => exact h.freeAt_remove hw v' id
    | none =>
      by_cases hid : id = identity
      · subst hid
        rw [if_pos rfl]
        refine eq_none_iff_forall_ne_some.mpr fun x hx => ?_
        cases hw.symm.trans (h.free hx).1
      · rw [if_neg hid]
        rfl
  have hentries : ((r.workers.lookup identity).elim r r.removeFreeLocked).entries = r.entries := by
    cases r.workers.lookup identity <;> simp
  simp only [register, freeAt_addFreeLocked, entry, hentries, List.getElem?_concat_length, getD_some]
  rw [freeAt] at hremoved
  rw [freeAt, hremoved]
  by_cases hid : id = identity <;> simp [hid]

theorem Indexed.register (identity v pod : String) : (r.register identity v pod).1.Indexed where
  registered {id w} hw := by
    have hentries := r.register_entries identity v pod
    rw [register_workers, GoMap.lookup_insert_some] at hw
    rcases hw with ⟨rfl, rfl⟩ | ⟨hid, hw⟩
    · rw [entry_appended hentries, hentries, List.length_append]
      exact ⟨Nat.lt_succ_self _, rfl⟩
    · obtain ⟨hlt, hidentity⟩ := h.registered hw
      rw [entry_append hentries hlt, hentries, List.length_append]
      exact ⟨Nat.lt_succ_of_lt hlt, hidentity⟩
  free {v' id w} hw := by
    have hentries := r.register_entries identity v pod
    rw [h.freeAt_register] at hw
    rw [register_workers, GoMap.lookup_insert_some]
    split at hw
    next hid =>
      split at hw <;> cases hw
      rename_i hv
      exact ⟨.inl ⟨hid, rfl⟩, by rw [entry_appended hentries, hv]⟩
    next hid =>
      obtain ⟨hworkers, hv⟩ := h.free hw
      refine ⟨.inr ⟨hid, hworkers⟩, ?_⟩
      rw [entry_append hentries (h.registered hworkers).1]
      exact hv

theorem Indexed.freeAt_deregister {w : WorkerRef}
    (hw : r.workers.lookup (r.entry w).identity = some w) (v id : String) :
    (r.deregister w).1.freeAt v id = if id = (r.entry w).identity then none else r.freeAt v id := by
  unfold deregister
  rw [if_neg (not_not_intro hw), ← h.freeAt_remove hw v id]
  rw [freeAt_removeFreeLocked]
  exact freeAt_removeFreeLocked _ _ _ _

theorem Indexed.deregister (w : WorkerRef) : (r.deregister w).1.Indexed := by
  by_cases hw : r.workers.lookup (r.entry w).identity = some w
  · have hentries := r.deregister_entries w
    constructor
    · intro id k hk
      rw [deregister_workers hw, GoMap.lookup_erase_some] at hk
      rw [hentries, entry_congr k hentries]
      exact h.registered hk.2
    · intro v id k hk
      rw [h.freeAt_deregister hw] at hk
      split at hk
      · cases hk
      next hid =>
        obtain ⟨hworkers, hv⟩ := h.free hk
        rw [deregister_workers hw, GoMap.lookup_erase_some, entry_congr k hentries]
        exact ⟨⟨hid, hworkers⟩, hv⟩
  · rwa [deregister_of_superseded hw]

section

variable {pick v : String} {a : WorkAssignment} {r' : WorkerRegistry} {taken : Option WorkerRef}
  (hr : r.assign pick v a = (r', taken))
include hr

theorem Indexed.assign_cases : r'.workers = r.workers ∧ ((taken = none ∧ ∀ v' id, r'.freeAt v' id = r.freeAt v' id) ∨
      ∃ w, taken = some w ∧ r.freeAt v pick = some w ∧ (r.entry w).send = none ∧
        ∀ v' id, r'.freeAt v' id = if v' = v ∧ id = pick then none else r.freeAt v' id) := by
  unfold assign at hr
  split at hr
  · cases hr
    exact ⟨rfl, .inl ⟨rfl, fun _ _ => rfl⟩⟩
  next w r1 htake =>
    have hfree := fun v' id => r.freeAt_takeFreeLocked w v' id htake
    obtain ⟨set, -, -, rfl⟩ := r.takeFreeLocked_eq_some w htake
    have hw := (hfree v pick).1
    split at hr
    · cases hr
      refine ⟨rfl, .inl ⟨rfl, fun v' id => ?_⟩⟩
      -- The worker is put back where it was taken from.
      rw [freeAt_addFreeLocked, (hfree v' id).2]
      change (if v' = (r.entry w).dagVersion ∧ id = (r.entry w).identity then _ else _) = _
      rw [(h.free hw).2, h.identity_eq hw]
      split
      next hat =>
        rw [hat.1, hat.2, hw]
      · rfl
    next hsend =>
      cases hr
      refine ⟨rfl, .inr ⟨w, rfl, hw, ?_, fun v' id => (hfree v' id).2⟩⟩
      exact not_isSome_iff_eq_none.mp hsend

theorem Indexed.assign : r'.Indexed := by
  obtain ⟨hworkers, hfree⟩ := h.assign_cases hr
  have hentries : ∃ w m, r'.entries = (r.modify w ({ · with send := m })).entries ∨ r'.entries = r.entries := by
    rcases r.assign_cases hr with ⟨-, he, -⟩ | ⟨w, -, he, -⟩
    · exact ⟨0, none, .inr he⟩
    · exact ⟨w, some a, .inl he⟩
  obtain ⟨w, m, hentries⟩ := hentries
  have hkeep : ∀ {β : Type} (g : RegisteredWorker → β), (∀ e m, g { e with send := m } = g e) →
      ∀ k, g (r'.entry k) = g (r.entry k) := by
    intro β g hg k
    rcases hentries with he | he
    · rw [entry_congr k he]
      exact modify_congr r w g (fun e => hg e m) k
    · rw [entry_congr k he]
  refine h.of_kept hworkers ?_ (hkeep _ fun _ _ => rfl) (hkeep _ fun _ _ => rfl) fun {v' id k} hk => ?_
  · rcases hentries with he | he
    · rw [he, modify_length]
    · rw [he]
  · rcases hfree with ⟨-, hfree⟩ | ⟨w, -, -, -, hfree⟩
    · rw [hfree] at hk
      exact .inl hk
    · rw [hfree] at hk
      split at hk
      · cases hk
      · exact .inl hk

end

theorem Indexed.ack (id : String) (started : Bool) : (r.ack id started).1.Indexed := by
  obtain ⟨hworkers, hfree, hlength⟩ := r.ack_kept id started
  refine h.of_kept hworkers hlength (r.ack_congr _ (fun _ => rfl) id started)
    (r.ack_congr _ (fun _ => rfl) id started) fun hk => ?_
  rw [freeAt, hfree] at hk
  exact .inl hk

theorem Indexed.markFree (identity : String) : (r.markFree identity).Indexed := by
  obtain ⟨hworkers, hlength⟩ := r.markFree_kept identity
  refine h.of_kept hworkers hlength (r.markFree_congr identity _ fun _ => rfl)
    (r.markFree_congr identity _ fun _ => rfl) fun hk => ?_
  refine (r.freeAt_markFree identity hk).imp_right ?_
  rintro ⟨hw, hv, hid⟩
  rw [← hid, (h.registered hw).2]
  exact ⟨hw, hv⟩

theorem Indexed.onLeaseExpire (aid : String) : (r.onLeaseExpire aid).1.Indexed := by
  have hentries := r.onLeaseExpire_entries aid
  refine h.of_kept (r.onLeaseExpire_workers aid) (by rw [hentries])
    (fun k => by rw [entry_congr k hentries]) (fun k => by rw [entry_congr k hentries]) fun hk => ?_
  refine (r.freeAt_onLeaseExpire hk).imp_right ?_
  rintro ⟨ls, -, -, hw, hv, -⟩
  exact ⟨hw, hv⟩

/-- The handler takes the assignment off its worker's channel. -/
theorem Indexed.drained (w : WorkerRef) : (r.modify w ({ · with send := none })).Indexed :=
  h.of_kept rfl (modify_length _ _ _) (modify_congr _ _ _ fun _ => rfl) (modify_congr _ _ _ fun _ => rfl) .inl

end Operations

end WorkerRegistry

end Leoflow
