import Leoflow.Scheduler.Admission
import Leoflow.System.FailedRows

/-!
# Dispatch attempts and their gates

`dispatch_attempts` and `next_dispatch_at`: what a statement does to them, and what the calls of a
tick about a dispatch rest on. Both columns start again when the row moves on to another try or
another re-place; before that the attempts only grow.
-/

namespace Leoflow

/-- The states from which a row may be dispatched without being reset. -/
def TaskState.isDispatchable : TaskState → Bool
  | none | scheduled | queued | running | upForReschedule => true
  | _ => false

/-! ## What a statement does to them -/

/-- The try, the re-places and the dispatch columns of a row as they were. -/
structure TaskInstance.SameDispatch (r r' : TaskInstance) : Prop where
  tryNumber : r'.tryNumber = r.tryNumber
  infraAttempts : r'.infraAttempts = r.infraAttempts
  dispatchAttempts : r'.dispatchAttempts = r.dispatchAttempts
  nextDispatchAt : r'.nextDispatchAt = r.nextDispatchAt

/-- The row is at another try or another re-place. -/
def TaskInstance.movedOn (r r' : TaskInstance) : Bool :=
  r'.tryNumber != r.tryNumber || r'.infraAttempts != r.infraAttempts

theorem TaskInstance.SameDispatch.not_movedOn {r r' : TaskInstance} (h : r.SameDispatch r') : r.movedOn r' = false := by
  simp [movedOn, h.tryNumber, h.infraAttempts]

/-- The state a planned write moves its rows to, wherever they are. -/
def Statement.plannedTarget : Statement → Option TaskState
  | updateTaskInstanceStateByRunTask _ _ target | updateTaskInstanceStatesByRunTasks _ _ target =>
    some target
  | _ => none

/-- What a statement does to the dispatch columns of a row it matches. -/
inductive DispatchEffect (s : Statement) (r r' : TaskInstance) : Prop where
  | restarted (hm : r.movedOn r') (ha : r'.dispatchAttempts = 0)
      (hn : r'.nextDispatchAt = none) (hs : r'.state = .none)
  | kept (hc : r.SameDispatch r') (hs : r'.state.isDispatchable → r.state.isDispatchable)
      (hq : r'.state = .queued → r.state = .queued)
  | written (hc : r.SameDispatch r') (hw : s.plannedTarget = some r'.state)
  | charged {run task : String} {nextAt : Time} (h : s = .recordDispatchFailure run task nextAt)
      (hs : r.state = .scheduled) (hs' : r'.state = .scheduled) (hm : r.movedOn r' = false)
      (ha : r'.dispatchAttempts = r.dispatchAttempts + 1) (hn : r'.nextDispatchAt = some nextAt)
  | delayed {run task : String} {nextAt : Time} (h : s = .recordDispatchBackpressure run task nextAt)
      (hs : r.state = .scheduled) (hs' : r'.state = .scheduled) (hm : r.movedOn r' = false)
      (ha : r'.dispatchAttempts = r.dispatchAttempts) (hn : r'.nextDispatchAt = some nextAt)
  | exhausted (h : s.channel = .tick) (hs' : r'.state = .failed) (hm : r.movedOn r' = false)
      (ha : r'.dispatchAttempts = r.dispatchAttempts)

/-- What a statement can do to the dispatch columns of a row. -/
theorem Statement.dispatchEffect {s : Statement} {now : Time} {r : TaskInstance}
    (hi : s.channel ≠ .tick → s.isIssued) (hg : (s.update now).guard r) :
    DispatchEffect s r ((s.update now).set r) := by
  have hadmits := admitsState_of_guard s now r hg
  cases s with
  | updateTaskInstanceStateByRunTask | updateTaskInstanceStatesByRunTasks =>
    exact .written ⟨rfl, rfl, rfl, rfl⟩ rfl
  | resetTaskInstanceForRetry | resetTaskInstanceToNone | resetFailedTaskInstance
  | resetAllFailedTaskInstances =>
    refine .restarted (Bool.or_eq_true_iff.mpr (.inl ?_)) rfl rfl rfl
    exact bne_iff_ne.mpr (Nat.succ_ne_self _)
  | resetTaskInstanceInfraReplace =>
    refine .restarted (Bool.or_eq_true_iff.mpr (.inr ?_)) rfl rfl rfl
    exact bne_iff_ne.mpr (Nat.succ_ne_self _)
  | recordDispatchFailure =>
    have hs : r.state = .scheduled := beq_iff_eq.mp hadmits
    exact .charged rfl hs hs (by simp [TaskInstance.movedOn, Statement.update, Leoflow.recordDispatchFailure]) rfl rfl
  | recordDispatchBackpressure =>
    have hs : r.state = .scheduled := beq_iff_eq.mp hadmits
    exact .delayed rfl hs hs (by simp [TaskInstance.movedOn, Statement.update,
      Leoflow.recordDispatchBackpressure]) rfl rfl
  | failDispatchExhausted =>
    exact .exhausted rfl rfl (by simp [TaskInstance.movedOn, Statement.update,
      Leoflow.failDispatchExhausted, TaskInstance.failedWith]) rfl
  | reportTaskResult run task target =>
    refine .kept ⟨rfl, rfl, rfl, rfl⟩ (fun _ => ?_) fun hq => ?_
    · generalize r.state = source at hadmits ⊢
      cases source <;> first | rfl | cases hadmits
    · have hissued := hi (by simp [Statement.channel])
      have htarget : target = .queued := hq
      subst htarget
      cases hissued
  | setTaskInstanceNote | recordTaskHeartbeat | bindWarmAttempt =>
    exact .kept ⟨rfl, rfl, rfl, rfl⟩ id id
  | _ =>
    refine .kept ⟨rfl, rfl, rfl, rfl⟩ (fun _ => ?_) fun hq => by cases hq
    generalize r.state = source at hadmits ⊢
    cases source <;> first | rfl | cases hadmits

/-- The statements of the other parties write what the code passes. -/
theorem World.isIssued_of_statement {w : World} {a : Action} {s : Statement}
    (h : (w.write a).statement w.db = some s) (ht : s.channel ≠ .tick) : s.isIssued := by
  cases s with
  | updateTaskInstanceStateByRunTask | updateTaskInstanceStatesByRunTasks => exact absurd rfl ht
  | reportTaskResult run task target =>
    rcases World.target_of_report h with rfl | rfl | rfl | rfl <;> rfl
  | _ => rfl

/-! ## What the calls about a dispatch rest on -/

/-- The ground of a call about a dispatch in the snapshot. -/
def Op.Gated (run : RunState) : Op → Prop
  | dispatch task => run.states.lookup task = some .scheduled ∧ run.readyToDispatch task
  | applyTransition task target => target.isDispatchable →
    target = .queued ∧ run.states.lookup task = some .scheduled
  | applyTransitions tasks target => ∀ task ∈ tasks, target.isDispatchable →
    target = .scheduled ∧ run.states.lookup task = some .none
  | recordDispatchFailure task nextAt => run.states.lookup task = some .scheduled ∧
    run.dispatchAttempts.getD task 0 + 1 < dispatchMaxAttempts ∧
    (run.now ≠ 0 → nextAt = run.now + dispatchBackoff (run.dispatchAttempts.getD task 0 + 1))
  | recordDispatchBackpressure task nextAt => run.states.lookup task = some .scheduled ∧
    (run.now ≠ 0 → nextAt = run.now + dispatchBackoff (run.dispatchAttempts.getD task 0 + 1))
  | _ => True

namespace RunState

variable (run : RunState)

theorem gated_afterDispatch (task : String) (wall : Time) (o : DispatchOutcome)
    (h : (Op.dispatch task).Gated run) : (run.afterDispatch task wall o).Gated run := by
  cases o with
  | dispatched => exact fun _ => ⟨rfl, h.1⟩
  | backpressure =>
    refine ⟨h.1, fun hnow => ?_⟩
    simp [hnow]
  | rejected =>
    simp only [afterDispatch]
    split
    · trivial
    next hlt =>
      refine ⟨h.1, Int.not_le.mp hlt, fun hnow => ?_⟩
      simp [hnow]

theorem gated_applyPlanned {dispatcher : Bool} {p : PlannedTransition} (hp : p ∈ run.planRun)
    {op : Op} (hop : op ∈ run.applyPlanned dispatcher p) : op.Gated run := by
  unfold applyPlanned at hop
  split at hop
  next htarget =>
    split at hop
    · cases hop
    · split at hop
      · rw [List.mem_singleton.mp hop]
        obtain ⟨t, -, hid, hemit | hstarts⟩ := run.mem_planRun hp
        · rcases run.target_of_emit hemit with h | h <;> rw [htarget] at h <;> cases h
        · have heff := run.effective_of_undecided hstarts.undecided
          rcases hstarts.rail with ⟨-, hd⟩ | ⟨hs, hready, -⟩
          · exact absurd htarget (decideStart_ne_queued hd)
          · rw [← hid]
            exact ⟨heff ▸ hs, hready⟩
      · simp only [failUndispatchable, List.mem_cons, List.not_mem_nil, or_false] at hop
        rcases hop with rfl | rfl
        · trivial
        · exact fun h => by cases h
  · (repeat' split at hop) <;> rw [List.mem_singleton.mp hop] <;> trivial
  · cases hop

theorem gated_flush {g : TaskState × List String} (hg : g ∈ transitionBatch run.planRun) :
    (Op.applyTransitions g.2 g.1).Gated run := by
  intro task htask hopen
  obtain ⟨p, hp, hb, rfl, ht⟩ := mem_transitionBatch hg htask
  rw [← ht] at hopen ⊢
  simp only [PlannedTransition.isBatched, Bool.and_eq_true, bne_iff_ne] at hb
  obtain ⟨t, -, hid, hemit | hstarts⟩ := run.mem_planRun hp
  · rcases run.target_of_emit hemit with h | h
    · exact absurd h hb.2
    · rw [h] at hopen
      cases hopen
  · have heff := run.effective_of_undecided hstarts.undecided
    rcases hstarts.rail with ⟨hs, -⟩ | ⟨-, -, hq⟩
    · rw [← hid]
      refine ⟨?_, heff ▸ hs⟩
      rcases run.target_of_starts hstarts with h | h | h | h
      · exact h
      · rw [h] at hopen
        cases hopen
      · rw [h] at hopen
        cases hopen
      · exact absurd h hb.1
    · exact absurd hq hb.1

theorem gated_of_mem_advance {dispatcher : Bool} {op : Op} (h : op ∈ run.advance dispatcher) : op.Gated run := by
  rcases run.mem_advance_cases h with rfl | ⟨s, rfl⟩ | ⟨p, hp, hop⟩ | ⟨g, hg, rfl⟩
  · trivial
  · trivial
  · exact run.gated_applyPlanned hp hop
  · exact run.gated_flush hg

theorem applyTransition_queued_not_mem (dispatcher : Bool) (task : String) :
    Op.applyTransition task .queued ∉ run.advance dispatcher := by
  intro h
  rcases run.mem_advance_cases h with hop | ⟨s, hop⟩ | ⟨p, -, hop⟩ | ⟨g, -, hop⟩
  · cases hop
  · cases hop
  · unfold applyPlanned at hop
    (repeat' split at hop) <;> simp [failUndispatchable] at hop
  · cases hop

theorem dispatched_of_afterDispatch {run : RunState} {task task' : String} {wall : Time}
    {o : DispatchOutcome} (h : run.afterDispatch task wall o = .applyTransition task' .queued) :
    o = .dispatched ∧ task = task' := by
  cases o with
  | dispatched =>
    cases h
    exact ⟨rfl, rfl⟩
  | backpressure => cases h
  | rejected =>
    simp only [afterDispatch] at h
    split at h <;> cases h

end RunState

/-- **In every run** the tick's calls about a dispatch are gated by what it has read. -/
theorem gated_reaches {cfg : Config} {cond : World → Action → Prop} {w : World}
    (h : (World.system cfg).Reaches cond w) {t : Tick} (ht : w.ctl.tick = some t) {run : RunState}
    {ops : List Op} (hc : t.current? = some (run, ops)) : ∀ op ∈ ops, op.Gated run :=
  calls_reaches (J := fun run op => op.Gated run) (fun run _ _ hop => run.gated_of_mem_advance hop)
    (fun run task wall outcome => run.gated_afterDispatch task wall outcome) h t ht run ops hc

end Leoflow
