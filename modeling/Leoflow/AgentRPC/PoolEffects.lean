import Leoflow.AgentRPC.AwaitAssignment

/-!
# What a step of the pool does

The state after each action, and from it what a step can do to a stream, to the outbound channels, to
the leases and to the reclaims.
-/

namespace Leoflow

open Lib (GoMap Channel)
open WorkerRegistry Option

variable {s s' : Stream} {id : String}

namespace WarmPool

variable {p p' : WarmPool} {a : PoolAction} {k : WorkerRef}

/-- The state after an action. An assignment nobody took changes neither a channel nor a lease. -/
inductive Effect (p : WarmPool) : PoolAction → WarmPool → Prop where
  | passed (elapsed : Nat) (db : Database) : Effect p (.clock elapsed) { p with db }
  | wrote (s : Statement) (db : Database) : Effect p (.write s) { p with db }
  | bound (b : WarmBinding) (ok : Bool) (db : Database) (bindings : List WarmBinding) :
      Effect p (.bindWarmAttempt b ok) { p with db, bindings }
  | connected {identity pool v pod : String} : Effect p (.connect identity pool (.register v pod)) { p with
          registry := (p.registry.register identity v pod).1
          streams := p.streams ++ [{ identity }] }
  | unassigned {v pick : String} {x : WorkAssignment} {registry : WorkerRegistry}
      (entries : registry.entries = p.registry.entries)
      (leases : registry.leases = p.registry.leases) :
      Effect p (.assign v x pick) { p with registry }
  | assigned {v pick : String} {x : WorkAssignment} {registry : WorkerRegistry} {w : WorkerRef}
      (fresh : x.assignmentID ∉ p.issued.map Prod.fst)
      (entries : registry.entries = (p.registry.modify w ({ · with send := some x })).entries)
      (leases : registry.leases = p.registry.leases.insert x.assignmentID ⟨w, v, x.dagRunID, x.taskID, x.tryNumber⟩) :
      Effect p (.assign v x pick) { p with registry, issued := (x.assignmentID, w) :: p.issued }
  | forwarded {k : WorkerRef} {s : Stream} {x : WorkAssignment} (hk : p.streams[k]? = some s)
      (hx : (p.registry.entry k).send = some x) :
      Effect p (.forward k) { p with
          registry := p.registry.modify k ({ · with send := none })
          streams := p.streams.set k { s with down := s.down.send x } }
  | returned {k : WorkerRef} {s : Stream} (hk : p.streams[k]? = some s) : Effect p (.handlerReturns k) { p with
          registry := (p.registry.deregister k).1
          streams := p.streams.set k { s with serving := false }
          reclaims := (p.registry.deregister k).2 ++ p.reclaims }
  | pumped {k : WorkerRef} {s : Stream} {m : WorkerMessage} {up : Channel WorkerMessage}
      (hk : p.streams[k]? = some s) (hm : s.up.recv = some (m, up)) :
      Effect p (.pump k) { p with
          registry := (pumpWorkerMessage p.registry s.identity m).1
          streams := p.streams.set k { s with up }
          reclaims := (pumpWorkerMessage p.registry s.identity m).2.2.toList ++ p.reclaims
          bindings := (pumpWorkerMessage p.registry s.identity m).2.1.toList ++ p.bindings }
  | expired (id : String) : Effect p (.leaseExpires id) { p with
          registry := (p.registry.onLeaseExpire id).1
          reclaims := (p.registry.onLeaseExpire id).2.toList ++ p.reclaims }
  | handled {ev : ReclaimEvent} (ok : Bool) (hev : ev ∈ p.reclaims) :
      Effect p (.handleReclaim ev ok) (p.handleReclaim ev ok)
  | acted {k : WorkerRef} {s s' : Stream} {b : StreamAction} (hk : p.streams[k]? = some s) (hb : s.act b = some s') :
      Effect p (.stream k b) { p with streams := p.streams.set k s' }

/-- Every step of the pool is one of the effects. -/
theorem step_effect (h : p.step a = some p') : Effect p a p' := by
  cases a with
  | clock =>
    cases h
    exact .passed _ _
  | write =>
    cases h
    exact .wrote _ _
  | bindWarmAttempt b ok =>
    simp only [step, ite_none_right_eq_some] at h
    obtain ⟨-, h⟩ := h
    cases h
    exact .bound _ _ _ _
  | connect identity pool first =>
    cases first with
    | register v pod =>
      simp only [step, registerFromStream] at h
      split at h
      next registry w hr =>
        repeat' split at hr
        all_goals cases hr
        cases h
        exact .connected
      · cases h
    | ack | slotFree => cases h
  | assign v x pick =>
    simp only [step, ite_none_right_eq_some] at h
    obtain ⟨⟨hfresh, -⟩, h⟩ := h
    cases hr : p.registry.assign pick v x with
    | mk registry taken =>
      rw [hr] at h
      cases h
      rcases p.registry.assign_cases hr with ⟨rfl, he, hl⟩ | ⟨w, rfl, he, hl⟩
      · exact .unassigned he hl
      · exact .assigned hfresh he hl
  | forward k =>
    simp only [step] at h
    split at h
    next s x hk hx =>
      split at h <;> cases h
      exact .forwarded hk hx
    · cases h
  | handlerReturns k =>
    simp only [step] at h
    split at h
    next s hk =>
      split at h <;> cases h
      exact .returned hk
    · cases h
  | pump k =>
    simp only [step] at h
    split at h
    next s hk =>
      split at h
      next m up hm =>
        cases h
        exact .pumped hk hm
      · cases h
    · cases h
  | leaseExpires id =>
    cases h
    exact .expired id
  | handleReclaim ev ok =>
    simp only [step, ite_none_right_eq_some] at h
    obtain ⟨hev, h⟩ := h
    cases h
    exact .handled ok hev
  | stream k b =>
    simp only [step] at h
    split at h
    next s hk =>
      obtain ⟨s', hb, rfl⟩ := map_eq_some_iff.mp h
      exact .acted hk hb
    · cases h

section HandleReclaim

variable (p : WarmPool) (ev : ReclaimEvent) (ok : Bool)

@[simp] theorem handleReclaim_registry : (p.handleReclaim ev ok).registry = p.registry := by
  unfold handleReclaim
  dsimp only
  split <;> rfl

@[simp] theorem handleReclaim_streams : (p.handleReclaim ev ok).streams = p.streams := by
  unfold handleReclaim
  dsimp only
  split <;> rfl

@[simp] theorem handleReclaim_issued : (p.handleReclaim ev ok).issued = p.issued := by
  unfold handleReclaim
  dsimp only
  split <;> rfl

theorem handleReclaim_reclaims : (p.handleReclaim ev ok).reclaims = p.reclaims.erase ev := by
  unfold handleReclaim
  dsimp only
  split <;> rfl

theorem mem_replaced_handleReclaim {ev' : ReclaimEvent} (h : ev' ∈ (p.handleReclaim ev ok).replaced) :
    ev' ∈ p.replaced ∨ (ev' = ev ∧ reclaimShouldRequeue ev.reason) := by
  unfold handleReclaim at h
  dsimp only at h
  split at h
  next hre =>
    split at h
    · exact .inl h
    · refine (List.mem_cons.mp h).symm.imp_right fun h => ⟨h, ?_⟩
      exact ((Bool.and_eq_true _ _).mp hre).1
  · exact .inl h

end HandleReclaim

/-! ## Streams -/

/-- What a step does to the stream at index `k`. -/
inductive StreamEffect (p : WarmPool) (k : WorkerRef) : PoolAction → Stream → Stream → Prop where
  | kept (a : PoolAction) (s : Stream) : StreamEffect p k a s s
  | forwarded {s : Stream} {x : WorkAssignment} (hx : (p.registry.entry k).send = some x) :
      StreamEffect p k (.forward k) s { s with down := s.down.send x }
  | returned (s : Stream) : StreamEffect p k (.handlerReturns k) s { s with serving := false }
  | pumped {s : Stream} {m : WorkerMessage} {up : Channel WorkerMessage}
      (hm : s.up.recv = some (m, up)) : StreamEffect p k (.pump k) s { s with up }
  | acted {s s' : Stream} {b : StreamAction} (hb : s.act b = some s') : StreamEffect p k (.stream k b) s s'

theorem streamEffect_set {j : WorkerRef} {t : Stream} (hj : p.streams[j]? = some s) (he : StreamEffect p j a s t)
    (hk : (p.streams.set j t)[k]? = some s') : ∃ s, p.streams[k]? = some s ∧ StreamEffect p k a s s' := by
  rw [List.getElem?_set] at hk
  split at hk
  next hjk =>
    subst hjk
    split at hk <;> cases hk
    exact ⟨s, hj, he⟩
  · exact ⟨s', hk, .kept _ _⟩

/-- Every stream after a step is one from before it, or it has just been opened. -/
theorem stream_step (h : Effect p a p') (hk : p'.streams[k]? = some s') :
    (∃ s, p.streams[k]? = some s ∧ StreamEffect p k a s s') ∨
      (p.streams[k]? = none ∧ ∃ identity, s' = { identity }) := by
  cases h with
  | passed | wrote | bound | unassigned | assigned | expired => exact .inl ⟨s', hk, .kept _ _⟩
  | handled =>
    rw [handleReclaim_streams] at hk
    exact .inl ⟨s', hk, .kept _ _⟩
  | connected =>
    rw [List.getElem?_append] at hk
    split at hk
    · exact .inl ⟨s', hk, .kept _ _⟩
    next hlen =>
      rw [List.getElem?_singleton] at hk
      split at hk <;> cases hk
      exact .inr ⟨List.getElem?_eq_none (Nat.le_of_not_lt hlen), _, rfl⟩
  | forwarded hj hx => exact .inl (streamEffect_set hj (.forwarded hx) hk)
  | returned hj => exact .inl (streamEffect_set hj (.returned _) hk)
  | pumped hj hm => exact .inl (streamEffect_set hj (.pumped hm) hk)
  | acted hj hb => exact .inl (streamEffect_set hj (.acted hb) hk)

theorem length_streams_step (h : Effect p a p') : p.streams.length ≤ p'.streams.length := by
  cases h <;> simp

theorem returned_step (h : Effect p a p') (hk : p.streams[k]? = some s) (hs : s.serving = false) :
    ∃ s', p'.streams[k]? = some s' ∧ s'.serving = false := by
  have hlt : k < p'.streams.length :=
    Nat.lt_of_lt_of_le (List.getElem?_eq_some_iff.mp hk).1 (length_streams_step h)
  obtain ⟨s', hk'⟩ : ∃ s', p'.streams[k]? = some s' := ⟨_, List.getElem?_eq_getElem hlt⟩
  refine ⟨s', hk', ?_⟩
  rcases stream_step h hk' with ⟨s0, hk0, he⟩ | ⟨hnone, -⟩
  · cases hk.symm.trans hk0
    cases he with
    | kept | forwarded | pumped => exact hs
    | returned => rfl
    | acted hb => rw [Stream.act_serving hb, hs]
  · cases hk.symm.trans hnone

theorem committed_step {x : WorkAssignment} (h : Effect p a p') (hk : p'.streams[k]? = some s')
    (hx : s'.worker.committed = some x) :
    ∃ s, p.streams[k]? = some s ∧ (s.worker.committed = some x ∨ (a = .stream k (.sendAck true) ∧ x ∈ s.held ∧
        s'.up = s.up.send (.ack x.assignmentID true))) := by
  rcases stream_step h hk with ⟨s, hk0, he⟩ | ⟨-, identity, rfl⟩
  · refine ⟨s, hk0, ?_⟩
    cases he with
    | kept | forwarded | returned | pumped => exact .inl hx
    | acted hb =>
      refine (Stream.committed_of_act hb hx).imp_right ?_
      rintro ⟨rfl, hheld, hup⟩
      exact ⟨rfl, hheld, hup⟩
  · cases hx

/-! ## Assignments, channels and leases -/

theorem issued_step (h : Effect p a p') : p'.issued = p.issued ∨
    ∃ id w, p'.issued = (id, w) :: p.issued ∧ id ∉ p.issued.map Prod.fst := by
  cases h with
  | assigned fresh => exact .inr ⟨_, _, rfl, fresh⟩
  | handled => exact .inl (p.handleReclaim_issued _ _)
  | _ => exact .inl rfl

theorem mem_issued_step {i : String × WorkerRef} (h : Effect p a p') (hi : i ∈ p.issued) : i ∈ p'.issued := by
  rcases issued_step h with he | ⟨id, w, he, -⟩
  · rwa [he]
  · rw [he]
    exact List.mem_cons_of_mem _ hi

theorem send_step {x : WorkAssignment} (h : Effect p a p') (hx : (p'.registry.entry k).send = some x) :
    (p.registry.entry k).send = some x ∨ (x.assignmentID, k) ∈ p'.issued := by
  cases h with
  | passed | wrote | bound | acted => exact .inl hx
  | connected => exact .inl (by rwa [register_send] at hx)
  | unassigned entries => exact .inl (by rwa [entry_congr k entries] at hx)
  | assigned fresh entries =>
    rw [entry_congr k entries] at hx
    refine (mem_send_of_modify _ _ _ hx).imp_right ?_
    rintro ⟨rfl, he⟩
    cases he
    exact List.mem_cons_self
  | forwarded =>
    refine (mem_send_of_modify _ _ _ hx).imp_right fun hx => ?_
    cases hx.2
  | returned =>
    exact .inl (by rwa [entry_congr k (p.registry.deregister_entries _)] at hx)
  | pumped => exact .inl (by rwa [pumpWorkerMessage_send] at hx)
  | expired id =>
    exact .inl (by rwa [entry_congr k (p.registry.onLeaseExpire_entries id)] at hx)
  | handled => exact .inl (by rwa [handleReclaim_registry] at hx)

theorem lease_step {ls : LeaseState} (h : Effect p a p') (hl : p'.registry.leases.lookup id = some ls) :
    p.registry.leases.lookup id = some ls ∨ (id ∉ p.issued.map Prod.fst ∧ (id, ls.worker) ∈ p'.issued) := by
  cases h with
  | passed | wrote | bound | acted | forwarded => exact .inl hl
  | connected => exact .inl (by rwa [register_leases] at hl)
  | unassigned entries leases => exact .inl (leases ▸ hl)
  | assigned fresh entries leases =>
    rw [leases, GoMap.lookup_insert_some] at hl
    rcases hl with ⟨rfl, rfl⟩ | ⟨-, hl⟩
    · exact .inr ⟨fresh, List.mem_cons_self⟩
    · exact .inl hl
  | returned => exact .inl (p.registry.lease_of_deregister _ hl)
  | pumped => exact .inl (pumpWorkerMessage_leases.mp hl).2
  | expired => exact .inl (p.registry.onLeaseExpire_leases.mp hl).2
  | handled => exact .inl (by rwa [handleReclaim_registry] at hl)

theorem no_lease_of_pump {started : Bool} {up : Channel WorkerMessage} (h : Effect p (.pump k) p')
    (hk : p.streams[k]? = some s) (hm : s.up.recv = some (.ack id started, up)) :
    p'.registry.leases.lookup id = none := by
  cases h with
  | pumped hk' hm' =>
    cases hk.symm.trans hk'
    cases hm.symm.trans hm'
    refine eq_none_iff_forall_ne_some.mpr fun ls hl => ?_
    exact (pumpWorkerMessage_leases.mp hl).1 started rfl

/-! ## Reclaims -/

/-- A reclaim that is re-placed, or will be unless its statement fails. -/
def Withdrawn (p : WarmPool) (id : String) : Prop :=
  (∃ ev ∈ p.reclaims, reclaimShouldRequeue ev.reason ∧ ev.assignmentID = id) ∨
    ∃ ev ∈ p.replaced, ev.assignmentID = id

/-- An assignment is withdrawn only by a handler that returns, unless a worker refuses one. -/
theorem withdrawn_step (h : Effect p a p')
    (hacks : ∀ {k : WorkerRef} {s : Stream} {id started}, p.streams[k]? = some s →
      .ack id started ∈ s.up.queue → started = true) (hw : p'.Withdrawn id) :
    p.Withdrawn id ∨ ∃ k ls, a = .handlerReturns k ∧ p.registry.leases.lookup id = some ls ∧ ls.worker = k := by
  cases h with
  | passed | wrote | bound | connected | unassigned | assigned | forwarded | acted =>
    exact .inl hw
  | @returned k =>
    rcases hw with ⟨ev, hev, hre, rfl⟩ | hw
    · rcases List.mem_append.mp hev with hev | hev
      · rcases p.registry.deregister_cases k with ⟨-, he⟩ | ⟨-, he⟩
        · rw [he] at hev
          cases hev
        · obtain ⟨id, ls, hl, hk, rfl⟩ := he ev hev
          exact .inr ⟨k, ls, rfl, hl, hk⟩
      · exact .inl (.inl ⟨ev, hev, hre, rfl⟩)
    · exact .inl (.inr hw)
  | @pumped k s m up hk hm =>
    have hnone : (pumpWorkerMessage p.registry s.identity m).2.2 = none := by
      refine pumpWorkerMessage_reclaim fun id started he => ?_
      exact hacks hk ((Channel.mem_queue_of_recv hm).mpr (.inl he.symm))
    simp only [Withdrawn, hnone, toList_none, List.nil_append] at hw
    exact .inl hw
  | expired id =>
    rcases hw with ⟨ev, hev, hre, rfl⟩ | hw
    · rcases List.mem_append.mp hev with hev | hev
      · rw [p.registry.onLeaseExpire_reason (mem_toList.mp hev)] at hre
        cases hre
      · exact .inl (.inl ⟨ev, hev, hre, rfl⟩)
    · exact .inl (.inr hw)
  | @handled ev ok hev =>
    rcases hw with ⟨ev', hev', hre, rfl⟩ | ⟨ev', hev', rfl⟩
    · rw [handleReclaim_reclaims] at hev'
      exact .inl (.inl ⟨ev', List.mem_of_mem_erase hev', hre, rfl⟩)
    · rcases p.mem_replaced_handleReclaim ev ok hev' with hev' | ⟨rfl, hre⟩
      · exact .inl (.inr ⟨ev', hev', rfl⟩)
      · exact .inl (.inl ⟨ev', hev, hre, rfl⟩)

end WarmPool

end Leoflow
