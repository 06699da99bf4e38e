import Mathlib.Data.Nat.Count
import Leoflow.Dispatch.Pipeline
import Leoflow.Properties.BufferedDispatch
import Leoflow.System.Holdings

/-!
# What a buffer does to the verdicts

`FailDispatchExhausted` is the leader's, after `dispatchMaxAttempts` rejections: through the buffer these are the
offers it refused, without it the errors of the inner dispatcher other than backpressure. `MarkTaskDispatchFailed` is
the sink's, after one inner call that failed in a worker, and there is no sink without a buffer.
-/

namespace Leoflow

open Buffered World Option

variable {key : String × String} {buffered : Bool}

/-- A task is failed for its dispatch by a worker's report or by the tick's last attempt. -/
theorem World.verdict_of_failsDispatch {w : World} {a : Action} (h : w.failsDispatch a key) :
    (∃ q reason, a = .requestFails q reason ∧ q.buffered ∧ key = (q.run, q.task)) ∨
    ∃ reason, (w.write a).statement w.db = some (.failDispatchExhausted key.1 key.2 reason) := by
  obtain ⟨s, hs, hv⟩ := (Option.any_eq_true _ _).mp h
  simp only [Bool.and_eq_true, List.any_eq_true, beq_iff_eq] at hv
  obtain ⟨hverdict, r, -, rfl, hg⟩ := hv
  have hchan := channel_of_statement hs
  cases s with
  | markTaskDispatchFailed run task reason =>
    cases a with
    | requestFails q why =>
      simp only [World.write] at hs
      split at hs
      next hq =>
        cases hs
        simp only [Statement.update, Leoflow.markTaskDispatchFailed, TaskInstance.isFor,
          Bool.and_eq_true, beq_iff_eq] at hg
        exact .inl ⟨q, reason, rfl, hq, Prod.ext hg.1.1 hg.1.2⟩
      · cases hs
    | _ => cases hchan
  | failDispatchExhausted run task reason =>
    simp only [Statement.update, Leoflow.failDispatchExhausted, TaskInstance.isFor, Bool.and_eq_true, beq_iff_eq] at hg
    refine .inr ⟨reason, ?_⟩
    rw [hs]
    show some (Statement.failDispatchExhausted run task reason) =
      some (.failDispatchExhausted r.dagRunId r.taskId reason)
    rw [hg.1.1, hg.1.2]
  | _ => cases hverdict

theorem le_update_succ (count : String × String → Nat) (key key' : String × String) :
    count key' ≤ Function.update count key (count key + 1) key' := by
  by_cases hk : key' = key
  · rw [hk, Function.update_self]
    exact Nat.le_succ _
  · rw [Function.update_of_ne hk]

namespace Pipeline

variable {cfg : Config} {bcfg : BufferConfig} {answers : InnerAnswers} {p p' : Pipeline}
  {a : PipelineAction}

theorem step_eq_some : p.step cfg bcfg answers a = some p' ↔ ∃ la leader buffer, p.leaderPart bcfg answers a = some la ∧
      (rejectionSystem cfg).stepOr p.leader la = some leader ∧
      (Buffered.system Offer bcfg).stepOr p.buffer (p.bufferPart answers a) = some buffer ∧
      p' = { leader := leader, buffer := buffer, call := p.callAfter a,
             offers := if a = .offer then p.offers + 1 else p.offers, used := p.usedAfter a } := by
  simp only [step, bind_eq_some_iff, map_eq_some_iff]
  constructor
  · rintro ⟨la, hla, leader, hl, buffer, hb, rfl⟩
    exact ⟨la, leader, buffer, hla, hl, hb, rfl⟩
  · rintro ⟨la, leader, buffer, hla, hl, hb, rfl⟩
    exact ⟨la, hla, leader, hl, buffer, hb, rfl⟩

theorem leader_of_reachable (h : (system cfg bcfg answers).Reachable p) : (rejectionSystem cfg).Reachable p.leader := by
  refine Lib.System.Reaches.invariant (I := fun p => (rejectionSystem cfg).Reachable p.leader) ?_ ?_ h
  · rintro p ⟨now, rfl⟩
    exact .init ⟨⟨now, rfl⟩, rfl⟩
  · intro p a p' _ hp _ hs
    obtain ⟨la, leader, buffer, -, hl, -, rfl⟩ := step_eq_some.mp hs
    exact Lib.System.Reachable.stepOr hp hl

/-- An answer used for the task was a failure. -/
def FailedInner (answers : InnerAnswers) (p : Pipeline) (key : String × String) : Prop :=
  ∃ n < p.used key, (answers key n).failure.isSome

theorem used_le_usedAfter (p : Pipeline) (a : PipelineAction) (key : String × String) :
    p.used key ≤ p.usedAfter a key := by
  cases a with
  | answer i q => exact le_update_succ p.used i.key key
  | _ => exact Nat.le_refl _

theorem FailedInner.after (h : p.FailedInner answers key) (hs : p.step cfg bcfg answers a = some p') :
    p'.FailedInner answers key := by
  obtain ⟨n, hn, hf⟩ := h
  obtain ⟨la, leader, buffer, -, -, -, rfl⟩ := step_eq_some.mp hs
  refine ⟨n, hn.trans_le ?_, hf⟩
  exact used_le_usedAfter p a key

/-- A worker reports what the inner dispatcher answered. -/
theorem reporting_step {b b' : Buffered Offer} {ba : BufferedAction Offer}
    (hs : b.step bcfg ba = some b') {i : Offer} {reason : String}
    (hi : .reporting i reason ∈ b'.pool) : .reporting i reason ∈ b.pool ∨
      ∃ answer : InnerAnswer, ba = .worker (.answer i answer) ∧ answer.failure = some reason := by
  cases ba with
  | dispatch j s =>
    left
    rwa [pool_dispatchStep hs] at hi
  | close c s =>
    left
    rwa [pool_closeStep hs] at hi
  | worker s =>
    cases s with
    | receive =>
      simp only [Buffered.step, workerStep] at hs
      split at hs
      · simp only [ite_none_right_eq_some, Option.some.injEq] at hs
        rw [← hs.2] at hi
        exact .inl ((mem_setWorker hi).resolve_left (by simp))
      · cases hs
    | answer j answer =>
      simp only [Buffered.step, workerStep, ite_none_right_eq_some] at hs
      obtain ⟨-, hs⟩ := hs
      split at hs
      · cases hs
        exact .inl ((mem_setWorker hi).resolve_left (by simp))
      next why hf =>
        cases hs
        rcases mem_setWorker hi with heq | hmem
        · cases heq
          exact .inr ⟨answer, rfl, hf⟩
        · exact .inl hmem
    | exit | call | report =>
      simp only [Buffered.step, workerStep, ite_none_right_eq_some, Option.some.injEq] at hs
      rw [← hs.2] at hi
      exact .inl ((mem_setWorker hi).resolve_left (by simp))

/-- A worker that reports has had a failure from the inner dispatcher. -/
theorem failed_of_reporting (h : (system cfg bcfg answers).Reachable p) :
    ∀ i reason, .reporting i reason ∈ p.buffer.pool → p.FailedInner answers i.key := by
  refine Lib.System.Reaches.invariant (I := fun p => ∀ i reason,
    .reporting i reason ∈ p.buffer.pool → p.FailedInner answers i.key) ?_ ?_ h
  · rintro p ⟨now, rfl⟩ i reason hi
    cases List.eq_of_mem_replicate hi
  · intro p a p' _ hp _ hs i reason hi
    obtain ⟨la, leader, buffer, -, -, hb, hp'⟩ := step_eq_some.mp hs
    have hpool : p'.buffer = buffer := by rw [hp']
    rw [hpool] at hi
    cases hpart : p.bufferPart answers a with
    | none =>
      rw [hpart] at hb
      cases hb
      exact (hp i reason hi).after hs
    | some ba =>
      rw [hpart] at hb
      rcases reporting_step hb hi with hbefore | ⟨answer, rfl, hf⟩
      · exact (hp i reason hbefore).after hs
      · cases a with
        | answer j q =>
          cases hpart
          refine ⟨p.used i.key, ?_, ?_⟩
          · rw [hp']
            show p.used i.key < Function.update p.used i.key (p.used i.key + 1) i.key
            rw [Function.update_self]
            exact Nat.lt_succ_self _
          · rw [show answers i.key (p.used i.key) = p.nextAnswer answers i from rfl, hf]
            rfl
        | dispatch s =>
          simp only [bufferPart, map_eq_some_iff] at hpart
          obtain ⟨j, -, hj⟩ := hpart
          cases hj
        | _ => cases hpart

theorem report_of_requestFails {q : Request} {reason : String}
    (h : p.leaderPart bcfg answers a = some (some (.requestFails q reason))) :
    ∃ i written, a = .report i reason q written ∧ i.key = (q.run, q.task) := by
  cases a with
  | world a =>
    simp only [leaderPart, ite_none_right_eq_some, Option.some.injEq] at h
    obtain ⟨hadmits, rfl⟩ := h
    cases hadmits
  | dispatch s =>
    simp only [leaderPart, map_eq_some_iff] at h
    obtain ⟨i, -, h⟩ := h
    (repeat' split at h) <;> cases h
  | offer =>
    simp only [leaderPart, ite_none_right_eq_some] at h
    cases h.2
  | answer i q =>
    simp only [leaderPart] at h
    (repeat' split at h) <;> cases h
  | report i why q' written =>
    simp only [leaderPart, ite_none_right_eq_some, Option.some.injEq] at h
    obtain ⟨hof, h⟩ := h
    split at h
    · cases h
      simp only [Offer.isOf, Bool.and_eq_true, beq_iff_eq] at hof
      exact ⟨i, written, rfl, Prod.ext hof.1.1.2.symm hof.1.2.symm⟩
    · cases h
  | _ => cases h

/-- Through the buffer a task is failed only after an inner call for it failed, or after
`dispatchMaxAttempts` of its offers were refused. -/
theorem failed_or_refused (h : (system cfg bcfg answers).Reachable p) (hf : p.fails cfg bcfg answers a key) :
    p.FailedInner answers key ∨ dispatchMaxAttempts ≤ p.refusals key := by
  simp only [fails, Bool.and_eq_true, isSome_iff_exists] at hf
  obtain ⟨⟨p', hs⟩, hany⟩ := hf
  obtain ⟨_, hla, hany⟩ := (Option.any_eq_true _ _).mp hany
  obtain ⟨la, rfl, hverdict⟩ := (Option.any_eq_true _ _).mp hany
  rcases verdict_of_failsDispatch hverdict with ⟨q, reason, rfl, -, hkey⟩ | ⟨reason, hst⟩
  · left
    obtain ⟨i, q, rfl, hq⟩ := report_of_requestFails hla
    obtain ⟨_, _, _, _, _, hb, _⟩ := step_eq_some.mp hs
    simp only [bufferPart, Lib.System.stepOr, Buffered.system, Buffered.step, workerStep, ite_none_right_eq_some] at hb
    rw [hkey, ← hq]
    exact failed_of_reporting h i reason hb.1
  · right
    exact rejections_of_failDispatchExhausted (leader_of_reachable h) hst

end Pipeline

theorem World.rejected_of_rejected? {w : World} {a : Action} (h : w.rejected? a = some key) : ∃ cause landed buffered,
      a = .tick (.dispatch (.rejected cause landed) buffered) ∧ w.offering? = some key := by
  unfold rejected? at h
  split at h
  · exact ⟨_, _, _, rfl, h⟩
  · cases h

namespace Direct

variable {cfg : Config} {answers : InnerAnswers} {p p' : Direct} {a : DirectAction}

theorem step_eq_some : p.step cfg answers a = some p' ↔ ∃ la, p.leaderPart answers a = some la ∧
      (rejectionSystem cfg).step p.leader la = some p'.leader ∧ p'.used = p.usedAfter a := by
  obtain ⟨leader', used'⟩ := p'
  simp only [step, bind_eq_some_iff, map_eq_some_iff, Direct.mk.injEq]
  constructor
  · rintro ⟨la, hla, leader, hl, rfl, rfl⟩
    exact ⟨la, hla, hl, rfl⟩
  · rintro ⟨la, hla, hl, rfl⟩
    exact ⟨la, hla, leader', hl, rfl, rfl⟩

theorem leader_of_reachable (h : (system cfg answers).Reachable p) : (rejectionSystem cfg).Reachable p.leader := by
  refine Lib.System.Reaches.invariant (I := fun p => (rejectionSystem cfg).Reachable p.leader) ?_ ?_ h
  · rintro p ⟨now, rfl⟩
    exact .init ⟨⟨now, rfl⟩, rfl⟩
  · intro p a p' _ hp _ hs
    obtain ⟨la, -, hl, -⟩ := step_eq_some.mp hs
    exact .step hp trivial hl

theorem callInner_of_dispatch {outcome : DispatchOutcome}
    (h : p.leaderPart answers a = some (.tick (.dispatch outcome buffered))) :
    ∃ landed key, a = .callInner landed ∧ p.leader.1.offering? = some key ∧
      (answers key (p.used key)).tickAction landed = .dispatch outcome buffered := by
  cases a with
  | world a =>
    unfold leaderPart at h
    split at h
    · cases h
    next hne _ =>
      cases h
      exact absurd rfl (hne outcome buffered)
    next heq =>
      cases heq
  | callInner landed =>
    simp only [leaderPart, map_eq_some_iff, Action.tick.injEq] at h
    obtain ⟨key, hkey, h⟩ := h
    exact ⟨landed, key, rfl, hkey, h⟩

theorem not_buffered_of_tickAction {answer : InnerAnswer} {landed : Bool}
    {outcome : DispatchOutcome} (h : answer.tickAction landed = .dispatch outcome buffered) : buffered = false := by
  unfold InnerAnswer.tickAction at h
  split at h <;> cases h <;> rfl

theorem isRejection_of_tickAction {answer : InnerAnswer} {landed landed' : Bool} {cause : String}
    (h : answer.tickAction landed = .dispatch (.rejected cause landed') buffered) : answer.isRejection := by
  unfold InnerAnswer.tickAction at h
  split at h
  · cases h
  · cases h
  next d c hd =>
    cases d with
    | backpressure => exact (hd rfl).elim
    | _ => rfl
  · cases h

theorem unbuffered_of_reachable (h : (system cfg answers).Reachable p) :
    ∀ q ∈ p.leader.1.ctl.requests, q.buffered = false := by
  refine Lib.System.Reaches.invariant (I := fun p => ∀ q ∈ p.leader.1.ctl.requests, q.buffered = false) ?_ ?_ h
  · rintro p ⟨now, rfl⟩ q hq
    cases hq
  · intro p a p' _ hp _ hs q hq
    obtain ⟨la, hla, hl, -⟩ := step_eq_some.mp hs
    have hnext := step_ctl (Lib.System.withGhost_step.mp hl).1
    rcases mem_requests hnext hq with hq | ⟨t, run, task, buffered, rfl, hd, rfl⟩ |
      ⟨q0, hq0, r, -, -, -, rfl⟩ | ⟨q0, hq0, att, -, rfl⟩
    · exact hp q hq
    · unfold Tick.dispatches at hd
      split at hd
      · split at hd
        · cases hd
          obtain ⟨landed, key, -, -, h⟩ := callInner_of_dispatch hla
          exact not_buffered_of_tickAction h
        · cases hd
      · cases hd
    · exact hp q0 hq0
    · exact hp q0 hq0

/-- The inner calls for the task that returned an error other than backpressure. -/
def rejections (answers : InnerAnswers) (p : Direct) (key : String × String) : Nat :=
  Nat.count (fun n => (answers key n).isRejection) (p.used key)

theorem used_le_usedAfter (p : Direct) (a : DirectAction) (key : String × String) : p.used key ≤ p.usedAfter a key := by
  cases a with
  | world a => exact Nat.le_refl _
  | callInner landed =>
    simp only [usedAfter]
    cases p.leader.1.offering? with
    | none => exact Nat.le_refl _
    | some offered => exact le_update_succ p.used offered key

/-- The rejections the leader saw are errors of the inner dispatcher. -/
theorem rejections_of_reachable (h : (system cfg answers).Reachable p) :
    ∀ key, p.leader.2 key ≤ p.rejections answers key := by
  refine Lib.System.Reaches.invariant (I := fun p => ∀ key, p.leader.2 key ≤ p.rejections answers key) ?_ ?_ h
  · rintro p ⟨now, rfl⟩ key
    exact Nat.zero_le _
  · intro p a p' _ hp _ hs key
    obtain ⟨la, hla, hl, hused⟩ := step_eq_some.mp hs
    rw [(Lib.System.withGhost_step.mp hl).2, rejections, hused]
    have hbefore := hp key
    have hmono := Nat.count_monotone (fun n => (answers key n).isRejection) (used_le_usedAfter p a key)
    unfold noteRejections
    split
    next hrej =>
      obtain ⟨cause, landed, buffered, rfl, hoffer⟩ := rejected_of_rejected? hrej
      obtain ⟨landed', key', rfl, hkey', htick⟩ := callInner_of_dispatch hla
      cases hoffer.symm.trans hkey'
      have hafter : p.usedAfter (.callInner landed') key = p.used key + 1 := by
        simp [usedAfter, hoffer]
      rw [hafter, Nat.count_succ, if_pos (isRejection_of_tickAction htick)]
      exact Nat.succ_le_succ hbefore
    · exact hbefore.trans hmono

/-- Without a buffer a task is failed only after `dispatchMaxAttempts` errors other than
backpressure. -/
theorem rejected_of_fails (h : (system cfg answers).Reachable p)
    (hf : p.fails cfg answers a key) : dispatchMaxAttempts ≤ p.rejections answers key := by
  simp only [fails, Bool.and_eq_true, isSome_iff_exists] at hf
  obtain ⟨⟨p', hs⟩, hany⟩ := hf
  obtain ⟨la, hla, hverdict⟩ := (Option.any_eq_true _ _).mp hany
  rcases verdict_of_failsDispatch hverdict with ⟨q, reason, rfl, hq, -⟩ | ⟨reason, hst⟩
  · obtain ⟨la, hla', hl, -⟩ := step_eq_some.mp hs
    cases hla.symm.trans hla'
    have hnext := step_ctl (Lib.System.withGhost_step.mp hl).1
    simp only [World.next, ite_none_right_eq_some] at hnext
    cases (unbuffered_of_reachable h q hnext.1).symm.trans hq
  · have hleader := rejections_of_failDispatchExhausted (leader_of_reachable h) hst
    have hle := rejections_of_reachable h key
    show dispatchMaxAttempts ≤ _
    exact hleader.trans (Int.ofNat_le.mpr hle)

end Direct

/-! ## The verdicts of both -/

/-- A task is failed for its dispatch through the buffer only after an inner call for it returned an
error or panicked, or after `dispatchMaxAttempts` of its offers were refused; and without a buffer
only after `dispatchMaxAttempts` inner calls for it returned an error other than backpressure. -/
theorem dispatch_verdicts (cfg : Config) (bcfg : BufferConfig) (answers : InnerAnswers) (key : String × String) :
    (∀ p a, (Pipeline.system cfg bcfg answers).Reachable p → p.fails cfg bcfg answers a key →
        (∃ n < p.used key, (answers key n).failure.isSome) ∨ dispatchMaxAttempts ≤ p.refusals key) ∧
    ∀ p a, (Direct.system cfg answers).Reachable p → p.fails cfg answers a key →
      dispatchMaxAttempts ≤ p.rejections answers key := by
  constructor
  · intro p a hreach hfails
    exact Pipeline.failed_or_refused hreach hfails
  · intro p a hreach hfails
    exact Direct.rejected_of_fails hreach hfails

/-- Without a buffer a task whose inner calls are never rejected is not failed. -/
theorem Direct.not_fails_of_not_rejected {cfg : Config} {answers : InnerAnswers} {p : Direct}
    {a : DirectAction} (hno : ∀ n, (answers key n).isRejection = false)
    (h : (system cfg answers).Reachable p) : p.fails cfg answers a key = false := by
  rw [← Bool.not_eq_true]
  intro hf
  have hmax := rejected_of_fails h hf
  have hzero : p.rejections answers key = 0 := by
    simp [rejections, hno]
  rw [hzero] at hmax
  exact absurd hmax (by decide)

/-- A queue of one and one worker. -/
def narrowBuffer : BufferConfig where
  bufferSize := 1
  workers := 1
  sink := true
  positive := by decide

/-- The cluster is out of quota at the first call and has room from then on. -/
def firstOutOfQuota : InnerAnswers := fun _ n =>
  if n = 0 then .error .backpressure "exceeded quota" else .accepted

/-- A whole call of `Dispatch` by the tick, and the store call that follows it. -/
def offers : List PipelineAction :=
  [.offer, .dispatch .rLock, .dispatch .readClosed, .dispatch .select, .dispatch .rUnlock, .world (.tick (.call []))]

/-- The first dispatch of the only task, up to the answer in the worker. -/
def backpressuredRun : List PipelineAction :=
  (materialize "run" "v1" ["ti"] ++ quietTick [.call []] ++ tickStarts).map .world ++ offers ++
    [.world (.tick .finish), .world (.tick .stop), .receive, .callInner ⟨"run", "task", 0, 1⟩,
      .answer ⟨"run", "task", 0, 1⟩ firstRequest]

/-- Where that run ends. -/
def backpressured : Pipeline :=
  ((Pipeline.system oneTask narrowBuffer firstOutOfQuota).run (.start narrowBuffer 1)
    backpressuredRun).get (by decide +kernel)

/-- The inner dispatcher accepts every task. -/
def acceptsAll : InnerAnswers := fun _ _ => .accepted

/-- A DAG of three tasks. -/
def threeTasks : Config := .ofTasks [{ taskID := "a" }, { taskID := "b" }, { taskID := "c" }]

/-- A tick an hour later that offers the one task that waits. -/
def offersAgain : List PipelineAction :=
  (.clock 3600000000000 :: tickStarts).map .world ++ offers ++ [.world (.tick .finish), .world (.tick .stop)]

/-- The worker is in the inner call of the first task and the second fills the queue, while the third
is offered six times. -/
def crowdedRun : List PipelineAction :=
  (materialize "run" "v1" ["ta", "tb", "tc"] ++ quietTick [.call []] ++ tickStarts).map .world ++
    offers ++ [.receive, .callInner ⟨"run", "a", 0, 1⟩] ++ offers ++ offers ++
    [.world (.tick .finish), .world (.tick .stop)] ++
    offersAgain ++ offersAgain ++ offersAgain ++ offersAgain ++
    (.clock 3600000000000 :: tickStarts).map .world ++ offers.dropLast

/-- Where that run ends. -/
def crowded : Pipeline :=
  ((Pipeline.system threeTasks narrowBuffer acceptsAll).run (.start narrowBuffer 1) crowdedRun).get (by decide +kernel)

/-- A buffer changes verdicts. A task whose first inner call answers backpressure is failed through
the buffer, and one whose inner calls would all succeed is failed because the buffer stays full; no
run without a buffer fails either of them under the same answers. -/
theorem buffer_changes_verdict : ((∃ p a, (Pipeline.system oneTask narrowBuffer firstOutOfQuota).Reachable p ∧
        p.fails oneTask narrowBuffer firstOutOfQuota a ("run", "task")) ∧
      ∀ p a, (Direct.system oneTask firstOutOfQuota).Reachable p →
        p.fails oneTask firstOutOfQuota a ("run", "task") = false) ∧
    (∃ p a, (Pipeline.system threeTasks narrowBuffer acceptsAll).Reachable p ∧
        p.fails threeTasks narrowBuffer acceptsAll a ("run", "c")) ∧
      ∀ p a, (Direct.system threeTasks acceptsAll).Reachable p →
        p.fails threeTasks acceptsAll a ("run", "c") = false := by
  refine ⟨⟨⟨backpressured, .report ⟨"run", "task", 0, 1⟩ "dispatch_failed: exceeded quota"
    firstRequest true, ?_, by decide +kernel⟩, ?_⟩, ⟨crowded, .world (.tick (.call [])), ?_, by decide +kernel⟩, ?_⟩
  · have hinit : (Pipeline.system oneTask narrowBuffer firstOutOfQuota).Reachable
        (.start narrowBuffer 1) := .init ⟨1, rfl⟩
    exact hinit.run (some_get _).symm
  · intro p a h
    refine Direct.not_fails_of_not_rejected (fun n => ?_) h
    cases n <;> rfl
  · have hinit : (Pipeline.system threeTasks narrowBuffer acceptsAll).Reachable
        (.start narrowBuffer 1) := .init ⟨1, rfl⟩
    exact hinit.run (some_get _).symm
  · intro p a h
    exact Direct.not_fails_of_not_rejected (fun _ => rfl) h

end Leoflow
