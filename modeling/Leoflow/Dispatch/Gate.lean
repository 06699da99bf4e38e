import Leoflow.Dispatch.Buffered

/-!
# The lock protocol of the buffered dispatcher

A caller of `Dispatch` that has seen the dispatcher open holds the read lock, and `closed` is set and
the queue closed only by the one call of `Close` inside `once`, under the write lock. So nobody sends
on the closed queue, and it is closed once.
-/

namespace Leoflow

open Option Function

namespace Gate

variable {ι : Type}

/-- The one-shot close: nothing is closed before it, the call inside tells how far it is, and after it all is
closed. -/
def OnceInv (g : Gate ι) : Prop :=
  match g.once with
  | .fresh => g.closed = false ∧ g.queueClosed = false ∧ ∀ c, g.closes c = .notCalled
  | .running c => (g.closes c).inside ∧ g.closed = (g.closes c).hasMarked ∧
      g.queueClosed = (g.closes c).hasCut ∧ ∀ c' ≠ c, g.closes c' = .notCalled
  | .done => g.closed ∧ g.queueClosed ∧ ∀ c, (g.closes c).inside = false

/-- The lock protocol. -/
structure Inv (g : Gate ι) : Prop where
  valid : g.mu.Valid
  readers : ∀ i, i ∈ g.mu.readers ↔ (g.calls i).holds
  writer : ∀ c, g.mu.writer = some c ↔ (g.closes c).holds
  admitted : ∀ i, g.calls i = .admitted → g.closed = false
  once : g.OnceInv
  intact : g.crashed = false

theorem hasMarked_of_hasCut {p : CloseCall} (h : p.hasCut) : p.hasMarked := by
  cases p <;> first | rfl | cases h

theorem inside_of_holds {p : CloseCall} (h : p.holds) : p.inside := by
  cases p <;> first | rfl | cases h

variable {g : Gate ι}

theorem OnceInv.closed_of_queueClosed (h : g.OnceInv) (hq : g.queueClosed) : g.closed := by
  unfold OnceInv at h
  split at h
  · rw [h.2.1] at hq
    cases hq
  · rw [h.2.1]
    exact hasMarked_of_hasCut (h.2.2.1 ▸ hq)
  · exact h.1

theorem Inv.open_of_admitted (h : g.Inv) {i : ι} (hi : g.calls i = .admitted) : g.queueClosed = false := by
  cases hq : g.queueClosed with
  | false => rfl
  | true => cases (h.once.closed_of_queueClosed hq).symm.trans (h.admitted i hi)

theorem OnceInv.running (h : g.OnceInv) {c : ι} (hc : (g.closes c).inside) : g.once = .running c := by
  unfold OnceInv at h
  split at h
  · rw [h.2.2 c] at hc
    cases hc
  next c' honce =>
    by_cases hcc : c = c'
    · rw [honce, hcc]
    · rw [h.2.2.2 c hcc] at hc
      cases hc
  · rw [h.2.2 c] at hc
    cases hc

theorem OnceInv.done (h : g.OnceInv) {c : ι} (hc : g.closes c = .waiting) : g.once = .done := by
  unfold OnceInv at h
  split at h
  · rw [h.2.2 c] at hc
    cases hc
  next c' honce =>
    by_cases hcc : c = c'
    · subst hcc
      rw [hc] at h
      cases h.1
    · rw [h.2.2.2 c hcc] at hc
      cases hc
  · assumption

variable [DecidableEq ι]

theorem Inv.setCall (h : g.Inv) {i : ι} {p : DispatchCall} (hp : p.holds = (g.calls i).holds)
    (hadm : p = .admitted → g.closed = false) : Inv { g with calls := Function.update g.calls i p } where
  valid := h.valid
  readers j := by
    rw [h.readers j]
    by_cases hj : j = i
    · subst hj
      simp [hp]
    · simp [hj]
  writer := h.writer
  admitted j hj := by
    by_cases hji : j = i
    · subst hji
      exact hadm (by simpa using hj)
    · exact h.admitted j (by simpa [hji] using hj)
  once := h.once
  intact := h.intact

theorem Inv.rLock (h : g.Inv) {i : ι} (hi : g.calls i = .notCalled) (hw : g.mu.writer = none) : Inv { g with
      calls := Function.update g.calls i .locked
      mu := { g.mu with readers := i :: g.mu.readers } } where
  valid := h.valid.rLock hw fun hmem => by
    rw [h.readers i, hi] at hmem
    cases hmem
  readers j := by
    simp only [List.mem_cons, h.readers j]
    by_cases hj : j = i
    · subst hj
      simp [DispatchCall.holds]
    · simp [hj]
  writer := h.writer
  admitted j hj := by
    by_cases hji : j = i
    · subst hji
      simp at hj
    · exact h.admitted j (by simpa [hji] using hj)
  once := h.once
  intact := h.intact

theorem Inv.rUnlock (h : g.Inv) {i : ι} (a : Bool) : Inv { g with
      calls := Function.update g.calls i (.returned a)
      mu := g.mu.rUnlock i } where
  valid := h.valid.rUnlock i
  readers j := by
    rw [Lib.RWMutex.mem_rUnlock h.valid, h.readers j]
    by_cases hj : j = i
    · subst hj
      simp [DispatchCall.holds]
    · simp [hj]
  writer := h.writer
  admitted j hj := by
    by_cases hji : j = i
    · subst hji
      simp at hj
    · exact h.admitted j (by simpa [hji] using hj)
  once := h.once
  intact := h.intact

/-- The call inside `once.Do` moves on, and nobody else is affected. -/
theorem Inv.insideOnce {g' : Gate ι} (h : g.Inv) {c : ι} {p : CloseCall}
    (hin : (g.closes c).inside) (hp : p.inside)
    (hcloses : g'.closes = Function.update g.closes c p) (hcalls : g'.calls = g.calls)
    (honce : g'.once = g.once) (hvalid : g'.mu.Valid) (hreaders : g'.mu.readers = g.mu.readers)
    (hwriter : g'.mu.writer = if p.holds then some c else none)
    (hclosed : g'.closed = p.hasMarked) (hcut : g'.queueClosed = p.hasCut)
    (hmark : p.hasMarked → g.closed ∨ g.mu.readers = []) (hintact : g'.crashed = false) : g'.Inv := by
  have hrun := h.once.running hin
  have hold := h.once
  simp only [OnceInv, hrun] at hold
  have hothers : ∀ c' ≠ c, g'.closes c' = .notCalled := by
    intro c' hc
    rw [hcloses, update_of_ne hc]
    exact hold.2.2.2 c' hc
  have hself : g'.closes c = p := by
    rw [hcloses, update_self]
  refine ⟨hvalid, ?_, ?_, ?_, ?_, hintact⟩
  · intro i
    rw [hreaders, hcalls]
    exact h.readers i
  · intro c'
    rw [hwriter]
    by_cases hc : c' = c
    · rw [hc, hself]
      cases p.holds <;> simp
    · rw [hothers c' hc]
      cases p.holds <;> simp [CloseCall.holds, Ne.symm hc]
  · intro i hi
    rw [hcalls] at hi
    rw [hclosed]
    cases hm : p.hasMarked with
    | false => rfl
    | true =>
      exfalso
      rcases hmark hm with hc | hr
      · cases hc.symm.trans (h.admitted i hi)
      · have hmem := (h.readers i).mpr (by rw [hi]; rfl)
        rw [hr] at hmem
        cases hmem
  · simp only [OnceInv, honce, hrun]
    rw [hself]
    exact ⟨hp, hclosed, hcut, hothers⟩

theorem Inv.enterOnce (h : g.Inv) {c : ι} (hfresh : g.once = .fresh) :
    Inv { g with closes := Function.update g.closes c .inOnce, once := .running c } := by
  have hold := h.once
  simp only [OnceInv, hfresh] at hold
  refine ⟨h.valid, h.readers, ?_, h.admitted, ?_, h.intact⟩
  · intro c'
    have hnone : (g.closes c').holds = false := by rw [hold.2.2 c']; rfl
    have hnew : (Function.update g.closes c .inOnce c').holds = false := by
      by_cases hc : c' = c
      · rw [hc, update_self]
        rfl
      · rw [update_of_ne hc, hnone]
    rw [h.writer c', hnone, hnew]
  · simp only [OnceInv]
    rw [update_self]
    refine ⟨rfl, hold.1, hold.2.1, fun c' hc => ?_⟩
    rw [update_of_ne hc]
    exact hold.2.2 c'

theorem Inv.leaveOnce (h : g.Inv) {c : ι} (hc : g.closes c = .unlocked) :
    Inv { g with closes := Function.update g.closes c .waiting, once := .done } := by
  have hold := h.once
  simp only [OnceInv, h.once.running (c := c) (by rw [hc]; rfl), hc] at hold
  have hout : ∀ c', (Function.update g.closes c .waiting c').inside = false := by
    intro c'
    by_cases hcc : c' = c
    · rw [hcc, update_self]
      rfl
    · rw [update_of_ne hcc, hold.2.2.2 c' hcc]
      rfl
  refine ⟨h.valid, h.readers, ?_, h.admitted, ?_, h.intact⟩
  · intro c'
    have hnone : (g.closes c').holds = false := by
      by_cases hcc : c' = c
      · rw [hcc, hc]
        rfl
      · rw [hold.2.2.2 c' hcc]
        rfl
    have hnew : (Function.update g.closes c .waiting c').holds = false := by
      cases hh : (Function.update g.closes c .waiting c').holds with
      | false => rfl
      | true => cases (hout c').symm.trans (inside_of_holds hh)
    rw [h.writer c', hnone, hnew]
  · exact ⟨hold.2.1, hold.2.2.1, hout⟩

theorem Inv.outsideOnce (h : g.Inv) {c : ι} {p : CloseCall} (hdone : g.once = .done)
    (hp : p.inside = false) : Inv { g with closes := Function.update g.closes c p } := by
  have hold := h.once
  simp only [OnceInv, hdone] at hold
  have hout : ∀ c', (Function.update g.closes c p c').inside = false := by
    intro c'
    by_cases hc : c' = c
    · rw [hc, update_self, hp]
    · rw [update_of_ne hc]
      exact hold.2.2 c'
  refine ⟨h.valid, h.readers, ?_, h.admitted, ?_, h.intact⟩
  · intro c'
    have hold' : (g.closes c').holds → False := fun hh =>
      by cases (hold.2.2 c').symm.trans (inside_of_holds hh)
    have hnew' : (Function.update g.closes c p c').holds → False := fun hh =>
      by cases (hout c').symm.trans (inside_of_holds hh)
    rw [h.writer c']
    exact ⟨fun hh => (hold' hh).elim, fun hh => (hnew' hh).elim⟩
  · simp only [OnceInv, hdone]
    exact ⟨hold.1, hold.2.1, hout⟩

end Gate

namespace Buffered

variable {ι : Type} [DecidableEq ι] {cfg : BufferConfig} {b b' : Buffered ι}

/-- A step of `Dispatch` keeps the gate's invariant. -/
theorem gate_dispatchStep (h : b.toGate.Inv) {i : ι} {s : DispatchStep}
    (hs : b.dispatchStep cfg i s = some b') : b'.toGate.Inv := by
  cases s with
  | rLock =>
    simp only [dispatchStep, ite_none_right_eq_some, map_eq_some_iff] at hs
    obtain ⟨hi, mu, hmu, rfl⟩ := hs
    obtain ⟨hw, rfl⟩ := Lib.RWMutex.rLock_eq_some.mp hmu
    exact h.rLock hi hw
  | readClosed =>
    simp only [dispatchStep, Lib.guard_eq_some] at hs
    obtain ⟨hi, rfl⟩ := hs
    cases hc : b.closed with
    | true => exact h.setCall (by rw [hi]; rfl) fun h => (by cases h)
    | false => exact h.setCall (by rw [hi]; rfl) fun _ => hc
  | select =>
    simp only [dispatchStep, ite_none_right_eq_some] at hs
    obtain ⟨hi, hs⟩ := hs
    rw [h.open_of_admitted hi] at hs
    simp only [Bool.false_eq_true, if_false] at hs
    split at hs
    · cases hs
      exact h.setCall (by rw [hi]; rfl) fun h => (by cases h)
    · cases hs
      exact h.setCall (by rw [hi]; rfl) fun h => (by cases h)
  | rUnlock =>
    simp only [dispatchStep] at hs
    split at hs
    · cases hs
      exact h.rUnlock true
    · cases hs
      exact h.rUnlock false
    · cases hs

/-- A step of `Close` keeps the gate's invariant. -/
theorem gate_closeStep (h : b.toGate.Inv) {c : ι} {s : CloseStep} (hs : b.closeStep c s = some b') : b'.toGate.Inv := by
  have hold := h.once
  cases s with
  | enterOnce =>
    simp only [closeStep, ite_none_right_eq_some] at hs
    obtain ⟨hc, hs⟩ := hs
    cases honce : b.once with
    | fresh =>
      simp only [honce, Option.some.injEq] at hs
      subst hs
      exact h.enterOnce honce
    | running c' =>
      rw [honce] at hs
      cases hs
    | done =>
      simp only [honce, Option.some.injEq] at hs
      subst hs
      exact h.outsideOnce honce rfl
  | lock =>
    simp only [closeStep, ite_none_right_eq_some, map_eq_some_iff] at hs
    obtain ⟨hc, mu, hmu, rfl⟩ := hs
    obtain ⟨⟨hr, hw⟩, rfl⟩ := Lib.RWMutex.lock_eq_some.mp hmu
    have hin : (b.closes c).inside := by rw [hc]; rfl
    simp only [Gate.OnceInv, h.once.running hin, hc] at hold
    exact h.insideOnce hin rfl rfl rfl rfl (h.valid.lock hr c) rfl rfl hold.2.1 hold.2.2.1 (fun _ => .inr hr) h.intact
  | setClosed =>
    simp only [closeStep, Lib.guard_eq_some] at hs
    obtain ⟨hc, rfl⟩ := hs
    have hin : (b.closes c).inside := by rw [hc]; rfl
    have hw : b.mu.writer = some c := (h.writer c).mpr (by rw [hc]; rfl)
    simp only [Gate.OnceInv, h.once.running hin, hc] at hold
    exact h.insideOnce hin rfl rfl rfl rfl h.valid rfl hw rfl hold.2.2.1 (fun _ => .inr (h.valid.exclusive hw)) h.intact
  | closeQueue =>
    simp only [closeStep, Lib.guard_eq_some] at hs
    obtain ⟨hc, rfl⟩ := hs
    have hin : (b.closes c).inside := by rw [hc]; rfl
    have hw : b.mu.writer = some c := (h.writer c).mpr (by rw [hc]; rfl)
    simp only [Gate.OnceInv, h.once.running hin, hc] at hold
    refine h.insideOnce hin rfl rfl rfl rfl h.valid rfl hw hold.2.1 rfl (fun _ => .inl hold.2.1) ?_
    -- this is the first close of the queue
    show (b.crashed || b.queueClosed) = false
    rw [h.intact, hold.2.2.1]
    rfl
  | unlock =>
    simp only [closeStep, Lib.guard_eq_some] at hs
    obtain ⟨hc, rfl⟩ := hs
    have hin : (b.closes c).inside := by rw [hc]; rfl
    simp only [Gate.OnceInv, h.once.running hin, hc] at hold
    exact h.insideOnce hin rfl rfl rfl rfl h.valid.unlock rfl rfl hold.2.1 hold.2.2.1 (fun _ => .inl hold.2.1) h.intact
  | leaveOnce =>
    simp only [closeStep, Lib.guard_eq_some] at hs
    obtain ⟨hc, rfl⟩ := hs
    exact h.leaveOnce hc
  | drained =>
    simp only [closeStep, Lib.guard_eq_some] at hs
    obtain ⟨⟨hc, -⟩, rfl⟩ := hs
    exact h.outsideOnce (h.once.done hc) rfl
  | timeout =>
    simp only [closeStep, Lib.guard_eq_some] at hs
    obtain ⟨hc, rfl⟩ := hs
    exact h.outsideOnce (h.once.done hc) rfl

theorem toGate_workerStep {s : WorkerStep ι} (hs : b.workerStep cfg s = some b') : b'.toGate = b.toGate := by
  cases s with
  | receive =>
    simp only [workerStep] at hs
    split at hs
    · simp only [Lib.guard_eq_some] at hs
      exact hs.2 ▸ rfl
    · cases hs
  | answer i a =>
    simp only [workerStep, ite_none_right_eq_some] at hs
    obtain ⟨-, hs⟩ := hs
    split at hs
    · cases hs
      rfl
    · cases hs
      rfl
  | exit | call i | report i reason =>
    simp only [workerStep, Lib.guard_eq_some] at hs
    exact hs.2 ▸ rfl

/-- The lock protocol is kept in every run. -/
theorem gate_of_reachable (h : (system ι cfg).Reachable b) : b.toGate.Inv := by
  refine Lib.System.Reaches.invariant (I := fun b => b.toGate.Inv) ?_ ?_ h
  · rintro b rfl
    refine ⟨⟨List.nodup_nil, fun _ => rfl⟩, ?_, ?_, fun _ _ => rfl, ⟨rfl, rfl, fun _ => rfl⟩, rfl⟩
    · intro i
      simp [new, DispatchCall.holds]
    · intro c
      simp [new, CloseCall.holds]
  · intro b a b' _ hinv _ hs
    cases a with
    | dispatch i s => exact gate_dispatchStep hinv hs
    | close c s => exact gate_closeStep hinv hs
    | worker s => exact toGate_workerStep hs ▸ hinv

end Buffered

end Leoflow
