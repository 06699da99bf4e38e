import Leoflow.Dispatch.Gate

/-!
# Buffered dispatch is exactly once

Each accepted request is in one place, in the queue, with a worker or passed on, each passed one is under way or
answered, and each failed one is about to be reported or reported. A `Close` that returns nil has seen every worker
exit, and a worker exits only from a closed and empty queue.
-/

namespace Leoflow

open Worker List Option

namespace Buffered

variable {ι : Type} [DecidableEq ι] {cfg : BufferConfig} {b b' : Buffered ι}

/-! ## The flow of requests -/

/-- Where the requests are. -/
structure FlowInv (cfg : BufferConfig) (b : Buffered ι) : Prop where
  carried : ∀ i, b.queue.count i + (b.pool.filterMap Worker.taken).count i + b.passed.count i =
    if (b.calls i).accepts then 1 else 0
  answered : ∀ i, b.passed.count i = (b.pool.filterMap underway).count i + b.succeeded.count i + b.failed.count i
  told : cfg.sink → ∀ i, b.failed.count i = (b.pool.filterMap unreported).count i + b.reported.count i
  silent : cfg.sink = false → b.reported = []
  exited : .exited ∈ b.pool → b.queue = [] ∧ b.queueClosed
  drained : ∀ c, b.closes c = .returned true → ∀ w ∈ b.pool, w = .exited
  size : b.pool.length = cfg.poolSize

theorem count_setWorker {old : Worker ι} (hold : old ∈ b.pool) (new : Worker ι) (f : Worker ι → Option ι) (i : ι) :
    ((b.setWorker old new).pool.filterMap f).count i + (f old).toList.count i =
      (b.pool.filterMap f).count i + (f new).toList.count i := by
  have hperm := (perm_cons_erase hold).filterMap f
  rw [hperm.count_eq i]
  have hcons : ∀ w : Worker ι, ((w :: b.pool.erase old).filterMap f).count i =
      (f w).toList.count i + ((b.pool.erase old).filterMap f).count i := by
    intro w
    cases hw : f w with
    | none => simp [hw]
    | some j => simp [hw, count_cons, Nat.add_comm]
  show ((new :: b.pool.erase old).filterMap f).count i + _ = _
  rw [hcons new, hcons old]
  omega

theorem length_setWorker {old new : Worker ι} (hold : old ∈ b.pool) :
    (b.setWorker old new).pool.length = b.pool.length := by
  show (b.pool.erase old).length + 1 = b.pool.length
  rw [length_erase_of_mem hold]
  have hpos := length_pos_of_mem hold
  omega

section

variable (h : FlowInv cfg b)
include h

theorem FlowInv.not_drained {w : Worker ι} (hw : w ∈ b.pool)
    (hne : w ≠ .exited) {c : ι} : b.closes c ≠ .returned true :=
  fun hc => hne (h.drained c hc w hw)

/-- One worker goes on: the requests it moves balance. -/
theorem FlowInv.worker {old new : Worker ι} (hw : old ∈ b.pool)
    (hne : old ≠ .exited) (hgate : b'.toGate = b.toGate) (hpool : b'.pool = (b.setWorker old new).pool)
    (hcarried : ∀ i, b'.queue.count i + new.taken.toList.count i + b'.passed.count i =
      b.queue.count i + old.taken.toList.count i + b.passed.count i)
    (hanswered : ∀ i, b'.passed.count i + old.underway.toList.count i + b.succeeded.count i +
        b.failed.count i = b.passed.count i + new.underway.toList.count i + b'.succeeded.count i + b'.failed.count i)
    (htold : cfg.sink → ∀ i, b'.failed.count i + old.unreported.toList.count i +
      b.reported.count i = b.failed.count i + new.unreported.toList.count i + b'.reported.count i)
    (hsilent : cfg.sink = false → b'.reported = b.reported)
    (hexited : new = .exited ∨ .exited ∈ b.pool → b'.queue = [] ∧ b.queueClosed) : FlowInv cfg b' := by
  have hcount := fun (f : Worker ι → Option ι) => count_setWorker hw new f
  rw [← hpool] at hcount
  have hcloses : b'.closes = b.closes := congrArg Gate.closes hgate
  have hcalls : b'.calls = b.calls := congrArg Gate.calls hgate
  refine ⟨fun i => ?_, fun i => ?_, fun hsink i => ?_, fun hsink => ?_, fun hex => ?_, fun c hc => ?_, ?_⟩
  · have hold := h.carried i
    have hnew := hcount Worker.taken i
    have hbal := hcarried i
    rw [hcalls]
    omega
  · have hold := h.answered i
    have hnew := hcount underway i
    have hbal := hanswered i
    omega
  · have hold := h.told hsink i
    have hnew := hcount unreported i
    have hbal := htold hsink i
    omega
  · rw [hsilent hsink, h.silent hsink]
  · rw [hpool] at hex
    rw [show b'.queueClosed = b.queueClosed from congrArg Gate.queueClosed hgate]
    exact hexited ((mem_setWorker hex).imp_left Eq.symm)
  · rw [hcloses] at hc
    exact absurd hc (h.not_drained hw hne)
  · rw [hpool, length_setWorker hw, h.size]

/-- A worker's step keeps where every item is. -/
theorem flow_workerStep {s : WorkerStep ι} (hs : b.workerStep cfg s = some b') : FlowInv cfg b' := by
  have hgate := toGate_workerStep hs
  cases s with
  | receive =>
    simp only [workerStep] at hs
    split at hs
    next i rest hq =>
      simp only [Lib.guard_eq_some] at hs
      obtain ⟨hw, rfl⟩ := hs
      refine h.worker hw (by simp) hgate rfl (fun j => ?_) (fun j => rfl) (fun _ j => rfl) (fun _ => rfl) fun hex => ?_
      · simp [Worker.taken, hq, count_cons]
      · rcases hex with hex | hex
        · cases hex
        · cases hq.symm.trans (h.exited hex).1
    · cases hs
  | exit =>
    simp only [workerStep, Lib.guard_eq_some] at hs
    obtain ⟨⟨hw, hq, hcl⟩, rfl⟩ := hs
    exact h.worker hw (by simp) hgate rfl (fun j => rfl) (fun j => rfl) (fun _ j => rfl)
      (fun _ => rfl) fun _ => ⟨hq, hcl⟩
  | call i =>
    simp only [workerStep, Lib.guard_eq_some] at hs
    obtain ⟨hw, rfl⟩ := hs
    refine h.worker hw (by simp) hgate rfl (fun j => ?_) (fun j => ?_) (fun _ j => rfl)
      (fun _ => rfl) fun hex => h.exited (hex.resolve_left (by simp))
    · simp [Worker.taken, count_cons]
      omega
    · simp [underway, count_cons]
  | answer i a =>
    simp only [workerStep, ite_none_right_eq_some] at hs
    obtain ⟨hw, hs⟩ := hs
    split at hs
    · cases hs
      refine h.worker hw (by simp) hgate rfl (fun j => rfl) (fun j => ?_) (fun _ j => rfl)
        (fun _ => rfl) fun hex => h.exited (hex.resolve_left (by simp))
      simp [underway, count_cons]
      omega
    · cases hs
      refine h.worker hw (by simp) hgate rfl (fun j => rfl) (fun j => ?_) (fun _ j => ?_)
        (fun _ => rfl) fun hex => h.exited (hex.resolve_left (by simp))
      · simp [underway, count_cons]
        omega
      · simp [unreported, count_cons]
  | report i reason =>
    simp only [workerStep, Lib.guard_eq_some] at hs
    obtain ⟨hw, rfl⟩ := hs
    refine h.worker hw (by simp) hgate rfl (fun j => rfl) (fun j => rfl) (fun hsink j => ?_)
      (fun hsink => ?_) fun hex => h.exited (hex.resolve_left (by simp))
    · simp [unreported, hsink, count_cons]
      omega
    · simp [hsink]

theorem FlowInv.setCall {i : ι} {p : DispatchCall}
    (hp : p.accepts = (b.calls i).accepts) (hpool : b'.pool = b.pool) (hqueue : b'.queue = b.queue)
    (hpassed : b'.passed = b.passed) (hsucceeded : b'.succeeded = b.succeeded)
    (hfailed : b'.failed = b.failed) (hreported : b'.reported = b.reported)
    (hcalls : b'.calls = Function.update b.calls i p) (hcloses : b'.closes = b.closes)
    (hclosed : b'.queueClosed = b.queueClosed) : FlowInv cfg b' := by
  refine ⟨fun j => ?_, ?_, ?_, ?_, ?_, ?_, ?_⟩
  · rw [hqueue, hpool, hpassed, h.carried j, hcalls]
    by_cases hj : j = i
    · rw [hj, Function.update_self, hp]
    · rw [Function.update_of_ne hj]
  · rw [hpassed, hpool, hsucceeded, hfailed]
    exact h.answered
  · rw [hfailed, hpool, hreported]
    exact h.told
  · rw [hreported]
    exact h.silent
  · rw [hpool, hqueue, hclosed]
    exact h.exited
  · rw [hcloses, hpool]
    exact h.drained
  · rw [hpool]
    exact h.size

/-- A step of `Dispatch` keeps where every item is. -/
theorem flow_dispatchStep {i : ι} {s : DispatchStep} (hs : b.dispatchStep cfg i s = some b') : FlowInv cfg b' := by
  cases s with
  | rLock =>
    simp only [dispatchStep, ite_none_right_eq_some, map_eq_some_iff] at hs
    obtain ⟨hi, mu, hmu, rfl⟩ := hs
    exact h.setCall (by rw [hi]; rfl) rfl rfl rfl rfl rfl rfl rfl rfl rfl
  | readClosed =>
    simp only [dispatchStep, Lib.guard_eq_some] at hs
    obtain ⟨hi, rfl⟩ := hs
    cases b.closed with
    | true => exact h.setCall (by rw [hi]; rfl) rfl rfl rfl rfl rfl rfl rfl rfl rfl
    | false => exact h.setCall (by rw [hi]; rfl) rfl rfl rfl rfl rfl rfl rfl rfl rfl
  | select =>
    simp only [dispatchStep, ite_none_right_eq_some] at hs
    obtain ⟨hi, hs⟩ := hs
    split at hs
    · cases hs
      exact ⟨h.carried, h.answered, h.told, h.silent, h.exited, h.drained, h.size⟩
    next hopen =>
      split at hs
      · cases hs
        refine ⟨fun j => ?_, h.answered, h.told, h.silent, fun hex => ?_, h.drained, h.size⟩
        · have hold := h.carried j
          show (b.queue ++ [i]).count j + (b.pool.filterMap Worker.taken).count j +
            b.passed.count j = if (Function.update b.calls i .sent j).accepts then 1 else 0
          rw [count_append, count_singleton]
          by_cases hj : j = i
          · subst hj
            have hbefore : (b.calls j).accepts = false := by rw [hi]; rfl
            rw [hbefore, if_neg Bool.false_ne_true] at hold
            rw [Function.update_self, beq_self_eq_true, if_pos rfl,
              if_pos (show DispatchCall.accepts .sent from rfl)]
            omega
          · have hne : (i == j) = false := beq_eq_false_iff_ne.mpr (Ne.symm hj)
            rw [hne, Function.update_of_ne hj]
            exact hold
        · exact absurd (h.exited hex).2 hopen
      · cases hs
        exact h.setCall (by rw [hi]; rfl) rfl rfl rfl rfl rfl rfl rfl rfl rfl
  | rUnlock =>
    simp only [dispatchStep] at hs
    split at hs
    next hi =>
      cases hs
      exact h.setCall (by rw [hi]; rfl) rfl rfl rfl rfl rfl rfl rfl rfl rfl
    next hi =>
      cases hs
      exact h.setCall (by rw [hi]; rfl) rfl rfl rfl rfl rfl rfl rfl rfl rfl
    · cases hs

/-- What a step of `Close` leaves: the requests, and `drained` is answered only by an exited pool. -/
theorem flow_closeStep {c : ι} {s : CloseStep} (hs : b.closeStep c s = some b') : FlowInv cfg b' := by
  have hkeep : ∀ {p : CloseCall}, (p = .returned true → ∀ w ∈ b.pool, w = .exited) →
      ∀ c', Function.update b.closes c p c' = .returned true → ∀ w ∈ b.pool, w = .exited := by
    intro p hp c' hc
    by_cases hcc : c' = c
    · rw [hcc, Function.update_self] at hc
      exact hp hc
    · rw [Function.update_of_ne hcc] at hc
      exact h.drained c' hc
  cases s with
  | enterOnce =>
    simp only [closeStep, ite_none_right_eq_some] at hs
    obtain ⟨hc, hs⟩ := hs
    split at hs
    · cases hs
      exact ⟨h.carried, h.answered, h.told, h.silent, h.exited, hkeep fun h => (by cases h), h.size⟩
    · cases hs
    · cases hs
      exact ⟨h.carried, h.answered, h.told, h.silent, h.exited, hkeep fun h => (by cases h), h.size⟩
  | lock =>
    simp only [closeStep, ite_none_right_eq_some, map_eq_some_iff] at hs
    obtain ⟨-, mu, -, rfl⟩ := hs
    exact ⟨h.carried, h.answered, h.told, h.silent, h.exited, hkeep fun h => (by cases h), h.size⟩
  | closeQueue =>
    simp only [closeStep, Lib.guard_eq_some] at hs
    obtain ⟨-, rfl⟩ := hs
    exact ⟨h.carried, h.answered, h.told, h.silent, fun hex => ⟨(h.exited hex).1, rfl⟩,
      hkeep fun h => (by cases h), h.size⟩
  | drained =>
    simp only [closeStep, Lib.guard_eq_some] at hs
    obtain ⟨⟨-, hall⟩, rfl⟩ := hs
    exact ⟨h.carried, h.answered, h.told, h.silent, h.exited, hkeep fun _ => hall, h.size⟩
  | setClosed | unlock | leaveOnce | timeout =>
    simp only [closeStep, Lib.guard_eq_some] at hs
    obtain ⟨-, rfl⟩ := hs
    exact ⟨h.carried, h.answered, h.told, h.silent, h.exited, hkeep fun h => (by cases h), h.size⟩

end

/-- Every request is accounted for in every run. -/
theorem flow_of_reachable (h : (system ι cfg).Reachable b) : FlowInv cfg b := by
  refine Lib.System.Reaches.invariant (I := FlowInv cfg) ?_ ?_ h
  · rintro b rfl
    have hnone : ∀ f : Worker ι → Option ι, f .idle = none →
        (List.replicate cfg.poolSize Worker.idle).filterMap f = [] := by
      intro f hf
      rw [filterMap_eq_nil_iff]
      intro w hw
      rw [eq_of_mem_replicate hw, hf]
    refine ⟨fun i => ?_, fun i => ?_, fun _ i => ?_, fun _ => rfl, fun hex => ?_, fun c hc => ?_, length_replicate⟩
    · simp [new, hnone Worker.taken rfl, DispatchCall.accepts]
    · simp [new, hnone underway rfl]
    · simp [new, hnone unreported rfl]
    · cases eq_of_mem_replicate hex
    · cases hc
  · intro b a b' _ hinv _ hs
    cases a with
    | dispatch i s => exact flow_dispatchStep hinv hs
    | close c s => exact flow_closeStep hinv hs
    | worker s => exact flow_workerStep hinv hs

/-! ## What the callers may rely on -/

theorem FlowInv.empty (h : FlowInv cfg b) {c : ι} (hc : b.closes c = .returned true) :
    b.queue = [] ∧ ∀ f : Worker ι → Option ι, f .exited = none → b.pool.filterMap f = [] := by
  have hall := h.drained c hc
  have hpos : 0 < b.pool.length := by
    rw [h.size]
    unfold BufferConfig.poolSize
    split <;> omega
  obtain ⟨w, hw⟩ := exists_mem_of_length_pos hpos
  constructor
  · exact (h.exited (hall w hw ▸ hw)).1
  · intro f hf
    rw [filterMap_eq_nil_iff]
    intro w hw
    rw [hall w hw, hf]

/-- Buffered dispatch is exactly once. Nobody sends on the closed queue; an accepted request is passed
on at most once, and once by the time some `Close` has returned nil; a refused one is not passed on;
by then each request whose inner call failed has been reported once, and no other is reported. -/
theorem exactly_once (h : (system ι cfg).Reachable b) : b.crashed = false ∧
    (∀ i, b.calls i = .returned true → b.passed.count i ≤ 1 ∧
      ((∃ c, b.closes c = .returned true) → b.passed.count i = 1)) ∧
    (∀ i, b.calls i = .returned false → i ∉ b.passed) ∧
    ((∃ c, b.closes c = .returned true) → cfg.sink → ∀ i ∈ b.failed, b.reported.count i = 1) ∧
    ∀ i ∈ b.reported, i ∈ b.failed := by
  have hgate := gate_of_reachable h
  have hflow := flow_of_reachable h
  refine ⟨hgate.intact, ?_, ?_, ?_, ?_⟩
  · intro i hi
    have hcount := hflow.carried i
    rw [hi, if_pos (show DispatchCall.accepts (.returned true) from rfl)] at hcount
    constructor
    · omega
    · rintro ⟨c, hc⟩
      obtain ⟨hqueue, hpool⟩ := hflow.empty hc
      rw [hqueue, hpool Worker.taken rfl] at hcount
      simpa using hcount
  · intro i hi hmem
    have hcount := hflow.carried i
    rw [hi, if_neg (show ¬ DispatchCall.accepts (.returned false) from Bool.false_ne_true)] at hcount
    have hpos := count_pos_iff.mpr hmem
    omega
  · rintro ⟨c, hc⟩ hsink i hi
    have hpos := count_pos_iff.mpr hi
    have hanswered := hflow.answered i
    have hcarried := hflow.carried i
    have htold := hflow.told hsink i
    rw [(hflow.empty hc).2 unreported rfl, count_nil] at htold
    -- a request is passed on at most once, so it fails at most once
    have hle : b.passed.count i ≤ 1 := by
      split at hcarried <;> omega
    omega
  · intro i hi
    cases hsink : cfg.sink with
    | false =>
      rw [hflow.silent hsink] at hi
      cases hi
    | true =>
      have htold := hflow.told hsink i
      have hpos := count_pos_iff.mpr hi
      exact count_pos_iff.mp (by omega)

/-- A buffer of two with one worker. -/
def oneWorker : BufferConfig where
  bufferSize := 2
  workers := 0
  sink := true
  positive := by decide

/-- Two requests are accepted, a third finds the queue full. The inner dispatcher refuses the first and panics on
the second, and the pool is closed. -/
def drainedRun : List (BufferedAction Nat) :=
  [0, 1, 2].flatMap (fun i => [.dispatch i .rLock, .dispatch i .readClosed, .dispatch i .select,
    .dispatch i .rUnlock]) ++
  [.close 3 .enterOnce, .close 3 .lock, .close 3 .setClosed, .close 3 .closeQueue,
    .close 3 .unlock, .close 3 .leaveOnce] ++
  [(0, .error .backpressure "quota"), (1, .panic)].flatMap (fun (p : Nat × InnerAnswer) =>
    [.worker .receive, .worker (.call p.1), .worker (.answer p.1 p.2), .worker (.report p.1 (p.2.failure.getD ""))]) ++
  [.worker .exit, .close 3 .drained]

/-- Where that run ends. -/
def drainedState : Buffered Nat :=
  ((system Nat oneWorker).run (new oneWorker) drainedRun).get (by decide +kernel)

theorem exactly_once_drained : drainedState.calls 0 = .returned true ∧ drainedState.calls 2 = .returned false ∧
      drainedState.closes 3 = .returned true ∧ drainedState.failed = [1, 0] ∧
      drainedState.passed.count 0 = 1 ∧ drainedState.reported.count 1 = 1 ∧
      2 ∉ drainedState.passed := by
  have hrun : (system Nat oneWorker).run (new oneWorker) drainedRun = some drainedState :=
    (some_get _).symm
  have hinit : (system Nat oneWorker).Reachable (new oneWorker) := .init rfl
  have hreach : (system Nat oneWorker).Reachable drainedState := hinit.run hrun
  have hcalls : drainedState.calls 0 = .returned true := by decide +kernel
  have hrefused : drainedState.calls 2 = .returned false := by decide +kernel
  have hclosed : drainedState.closes 3 = .returned true := by decide +kernel
  have hfailed : drainedState.failed = [1, 0] := by decide +kernel
  obtain ⟨-, haccepted, hrefuses, hreports, -⟩ := exactly_once hreach
  exact ⟨hcalls, hrefused, hclosed, hfailed, (haccepted 0 hcalls).2 ⟨3, hclosed⟩,
    hreports ⟨3, hclosed⟩ rfl 1 (by rw [hfailed]; decide), hrefuses 2 hrefused⟩

end Buffered

end Leoflow
