import Mathlib.Data.List.Perm.Subperm
import Leoflow.Scheduler.Advance

/-!
# What the planner plans

Every transition of `planRun` comes from the retry rail or from the admission loop, names a task of
the run and, where task ids are distinct, no task is planned twice. From this, no two calls of
`advance` move the row of one task.
-/

namespace Leoflow

open Lib (GoMap)
open List

variable {taskID task : String} {target : TaskState} {t : TaskSpec} {p : PlannedTransition}
    {batch : List (TaskState × List String)} {dispatcher : Bool} {state : DagRunState}

namespace RunState

variable (run : RunState)

/-- The dependencies of each task. -/
def upstreams : GoMap (List String) :=
  GoMap.collect TaskSpec.taskID (fun t => some t.dependsOn) run.tasks

/-- The admission loop moves `t` to `target` unless a cap parks it. -/
structure Starts (t : TaskSpec) (target : TaskState) : Prop where
  undecided : (run.retryDecision t.taskID).decided = false
  rail : (run.effective.lookup t.taskID = some .none ∧
      decideStart t (run.upstreams.getD t.taskID []) run.effective = some target) ∨
    (run.effective.lookup t.taskID = some .scheduled ∧ run.readyToDispatch t.taskID ∧ target = .queued)

/-- The planner would move the task if no cap parked it. -/
def MayPlan (taskID : String) : Prop :=
  ∃ t ∈ run.tasks, t.taskID = taskID ∧ ∃ target, (run.retryDecision taskID).emit = some target ∨ run.Starts t target

theorem retryDecision_decided (h : (run.retryDecision taskID).emit = some target) :
    (run.retryDecision taskID).decided := by
  unfold retryDecision at h ⊢
  split at h <;> (repeat' split at h) <;> simp_all

theorem effective_lookup (taskID : String) : run.effective.lookup taskID = if ∃ t ∈ run.tasks, t.taskID = taskID then
      (run.retryDecision taskID).effective.or (run.states.lookup taskID) else run.states.lookup taskID :=
  GoMap.lookup_foldl_insert (fun id => (run.retryDecision id).effective) run.tasks run.states taskID

theorem retryDecision_of_undecided (h : (run.retryDecision taskID).decided = false) :
    run.retryDecision taskID = {} := by
  unfold retryDecision at h ⊢
  split at h <;> (repeat' split at h) <;> simp_all

theorem effective_of_undecided (h : (run.retryDecision taskID).decided = false) :
    run.effective.lookup taskID = run.states.lookup taskID := by
  rw [effective_lookup, run.retryDecision_of_undecided h]
  split <;> rfl

theorem states_of_emit (h : (run.retryDecision taskID).emit = some target) :
    run.states.lookup taskID = some .failed ∨ run.states.lookup taskID = some .upForRetry ∨
      run.states.lookup taskID = some .upForReschedule := by
  unfold retryDecision at h
  split at h <;> (repeat' split at h) <;> simp_all

theorem target_of_emit (h : (run.retryDecision taskID).emit = some target) : target = .none ∨ target = .upForRetry := by
  unfold retryDecision at h
  split at h <;> (repeat' split at h) <;> simp_all

/-- A task the planner may move has a row in the snapshot, neither queued nor running. -/
theorem MayPlan.lookup (h : run.MayPlan taskID) : ∃ s, run.states.lookup taskID = some s ∧ s.isLive = false := by
  obtain ⟨t, -, rfl, target, h | hs⟩ := h
  · rcases run.states_of_emit h with h | h | h <;> exact ⟨_, h, rfl⟩
  · have he := run.effective_of_undecided hs.undecided
    rcases hs.rail with ⟨hr, -⟩ | ⟨hr, -⟩ <;> exact ⟨_, he ▸ hr, rfl⟩

/-- One turn of the admission loop emits at most one transition, of its own task. -/
theorem planTask_out (headroom : Int) (acc : Admission) (t : TaskSpec) :
    (run.planTask run.upstreams run.effective headroom acc t).out = acc.out ∨ ∃ target, run.Starts t target ∧
        (run.planTask run.upstreams run.effective headroom acc t).out = acc.out ++ [⟨t.taskID, target⟩] := by
  unfold planTask
  by_cases hd : (run.retryDecision t.taskID).decided
  · simp [hd]
  have hd' : (run.retryDecision t.taskID).decided = false := by simpa using hd
  rw [if_neg hd]
  split
  next he =>
    cases hs : decideStart t (run.upstreams.getD t.taskID []) run.effective with
    | none => exact .inl rfl
    | some target => exact .inr ⟨target, ⟨hd', .inl ⟨he, hs⟩⟩, rfl⟩
  next he =>
    by_cases hr : run.readyToDispatch t.taskID
    · simp only [hr, Bool.not_true, Bool.false_eq_true, if_false]
      split
      · exact .inl rfl
      split
      · exact .inl rfl
      · exact .inr ⟨.queued, ⟨hd', .inr ⟨he, hr, rfl⟩⟩, rfl⟩
    · simp [hr]
  · exact .inl rfl

theorem foldl_planTask_out (headroom : Int) (tasks : List TaskSpec) (acc : Admission) :
    ∃ added : List PlannedTransition,
      (tasks.foldl (run.planTask run.upstreams run.effective headroom) acc).out = acc.out ++ added ∧
      (added.map PlannedTransition.taskID).Sublist
        ((tasks.filter fun t => !(run.retryDecision t.taskID).decided).map TaskSpec.taskID) ∧
      ∀ p ∈ added, ∃ t ∈ tasks, t.taskID = p.taskID ∧ run.Starts t p.target := by
  induction tasks generalizing acc with
  | nil => exact ⟨[], by simp, by simp, by simp⟩
  | cons t tasks ih =>
    obtain ⟨added, hout, hsub, hmem⟩ :=
      ih (run.planTask run.upstreams run.effective headroom acc t)
    have hmem' : ∀ p ∈ added, ∃ t' ∈ t :: tasks, t'.taskID = p.taskID ∧ run.Starts t' p.target := by
      intro p hp
      obtain ⟨t', ht', h⟩ := hmem p hp
      exact ⟨t', mem_cons_of_mem _ ht', h⟩
    rcases run.planTask_out headroom acc t with h | ⟨target, hs, h⟩
    · refine ⟨added, by rw [foldl_cons, hout, h], hsub.trans ?_, hmem'⟩
      exact ((sublist_cons_self t tasks).filter _).map _
    · refine ⟨⟨t.taskID, target⟩ :: added, by rw [foldl_cons, hout, h]; simp, ?_, ?_⟩
      · simpa [hs.undecided] using hsub
      · intro p hp
        rcases mem_cons.mp hp with rfl | hp
        · exact ⟨t, mem_cons_self, rfl, hs⟩
        · exact hmem' p hp

theorem planTask_eq_self {headroom : Int} {acc : Admission}
    (h : (run.planTask run.upstreams run.effective headroom acc t).out = acc.out) :
    run.planTask run.upstreams run.effective headroom acc t = acc := by
  revert h
  unfold planTask
  dsimp only
  -- A branch that changes a variable appends a transition.
  repeat' split
  all_goals intro h
  all_goals first | rfl | simp at h

/-- An admission loop that emits nothing runs every turn from where it started. -/
theorem foldl_planTask_eq_self {headroom : Int} {tasks : List TaskSpec} {acc : Admission}
    (h : (tasks.foldl (run.planTask run.upstreams run.effective headroom) acc).out = acc.out) (ht : t ∈ tasks) :
    run.planTask run.upstreams run.effective headroom acc t = acc := by
  induction tasks with
  | nil => cases ht
  | cons t' tasks ih =>
    have hfirst : run.planTask run.upstreams run.effective headroom acc t' = acc := by
      refine run.planTask_eq_self ?_
      obtain ⟨added, hout, -⟩ := run.foldl_planTask_out headroom tasks
        (run.planTask run.upstreams run.effective headroom acc t')
      rw [foldl_cons, hout] at h
      rcases run.planTask_out headroom acc t' with hself | ⟨target, -, hmore⟩
      · exact hself
      · rw [hmore] at h
        simp at h
    rw [foldl_cons, hfirst] at h
    rcases mem_cons.mp ht with rfl | ht
    · exact hfirst
    · exact ih h ht

/-- Where nothing is planned, every turn of the admission loop finds its variables fresh. -/
theorem planTask_of_planRun_eq_nil (h : run.planRun = []) (ht : t ∈ run.tasks) :
    run.planTask run.upstreams run.effective run.admissionHeadroom { out := [] } t = { out := [] } := by
  obtain ⟨added, hout, -⟩ := run.foldl_planTask_out run.admissionHeadroom run.tasks { out := run.planRetryTransitions }
  have hplan : (run.tasks.foldl (run.planTask run.upstreams run.effective run.admissionHeadroom)
      { out := run.planRetryTransitions }).out = [] := h
  have hretry : run.planRetryTransitions = [] := by
    rw [hout] at hplan
    exact (append_eq_nil_iff.mp hplan).1
  rw [hretry] at hplan
  exact run.foldl_planTask_eq_self hplan ht

/-- **The plan is the retry rail followed by the admissions.** -/
theorem planRun_eq : ∃ added : List PlannedTransition, run.planRun = run.planRetryTransitions ++ added ∧
      (added.map PlannedTransition.taskID).Sublist
        ((run.tasks.filter fun t => !(run.retryDecision t.taskID).decided).map TaskSpec.taskID) ∧
      ∀ p ∈ added, ∃ t ∈ run.tasks, t.taskID = p.taskID ∧ run.Starts t p.target :=
  run.foldl_planTask_out run.admissionHeadroom run.tasks { out := run.planRetryTransitions }

theorem mem_planRetryTransitions : p ∈ run.planRetryTransitions ↔ (∃ t ∈ run.tasks, t.taskID = p.taskID) ∧
        (run.retryDecision p.taskID).emit = some p.target := by
  obtain ⟨id, target⟩ := p
  simp only [planRetryTransitions, mem_filterMap, Option.map_eq_some_iff]
  constructor
  · rintro ⟨t, ht, s, hs, he⟩
    injection he with h1 h2
    subst h1 h2
    exact ⟨⟨t, ht, rfl⟩, hs⟩
  · rintro ⟨⟨t, ht, rfl⟩, hs⟩
    exact ⟨t, ht, target, hs, rfl⟩

/-- A planned transition comes from the retry rail or from the admission loop. -/
theorem mem_planRun (h : p ∈ run.planRun) : ∃ t ∈ run.tasks, t.taskID = p.taskID ∧
      ((run.retryDecision p.taskID).emit = some p.target ∨ run.Starts t p.target) := by
  obtain ⟨added, heq, -, hmem⟩ := run.planRun_eq
  rw [heq, mem_append, mem_planRetryTransitions] at h
  rcases h with ⟨⟨t, ht, hid⟩, hemit⟩ | h
  · exact ⟨t, ht, hid, .inl hemit⟩
  · obtain ⟨t, ht, hid, hs⟩ := hmem p h
    exact ⟨t, ht, hid, .inr hs⟩

theorem mayPlan_of_mem_planRun (h : p ∈ run.planRun) : run.MayPlan p.taskID := by
  obtain ⟨t, ht, hid, hs⟩ := run.mem_planRun h
  exact ⟨t, ht, hid, p.target, hs⟩

theorem planRetryTransitions_sublist : (run.planRetryTransitions.map PlannedTransition.taskID).Sublist
      ((run.tasks.filter fun t => (run.retryDecision t.taskID).decided).map TaskSpec.taskID) := by
  unfold planRetryTransitions
  induction run.tasks with
  | nil => simp
  | cons t tasks ih =>
    cases he : (run.retryDecision t.taskID).emit with
    | none =>
      rw [filterMap_cons_none (by simp [he])]
      exact ih.trans (((sublist_cons_self t tasks).filter _).map _)
    | some target =>
      rw [filterMap_cons_some (b := ⟨t.taskID, target⟩) (by simp [he])]
      simp only [filter_cons, run.retryDecision_decided he, if_true, map_cons]
      exact ih.cons_cons _

/-- **No task is planned twice.** -/
theorem planRun_nodup (hnd : (run.tasks.map TaskSpec.taskID).Nodup) :
    (run.planRun.map PlannedTransition.taskID).Nodup := by
  obtain ⟨added, heq, hsub, -⟩ := run.planRun_eq
  rw [heq, map_append, nodup_append]
  have hpos := hnd.sublist ((filter_sublist (p := fun t => (run.retryDecision t.taskID).decided)).map TaskSpec.taskID)
  have hneg := hnd.sublist ((filter_sublist (p := fun t => !(run.retryDecision t.taskID).decided)).map TaskSpec.taskID)
  refine ⟨hpos.sublist run.planRetryTransitions_sublist, hneg.sublist hsub, ?_⟩
  -- The rail's tasks are decided, the loop's are not.
  rintro id h1 _ h2 rfl
  obtain ⟨t, ht, rfl⟩ := mem_map.mp (run.planRetryTransitions_sublist.subset h1)
  obtain ⟨t', ht', hid⟩ := mem_map.mp (hsub.subset h2)
  have hd := (mem_filter.mp ht).2
  have hd' := (mem_filter.mp ht').2
  rw [hid, hd] at hd'
  cases hd'

end RunState

/-! ## The batch -/

/-- The tasks of a batch. -/
def batchTasks (batch : List (TaskState × List String)) : List String := batch.flatMap Prod.snd

theorem addToBatch_targets (t : PlannedTransition) (h : (batch.map Prod.fst).Nodup) :
    ((addToBatch batch t).map Prod.fst).Nodup := by
  unfold addToBatch
  split
  · rw [map_map]
    have : (Prod.fst ∘ fun g : TaskState × List String =>
        if g.1 == t.target then (g.1, g.2 ++ [t.taskID]) else g) = Prod.fst := by
      funext g
      simp only [Function.comp_apply]
      split <;> rfl
    rwa [this]
  next hany =>
    rw [map_append, nodup_append]
    refine ⟨h, by simp, ?_⟩
    rintro x hx y hy rfl
    obtain ⟨g, hg, rfl⟩ := mem_map.mp hx
    simp only [map_cons, map_nil, mem_singleton] at hy
    exact hany (any_eq_true.mpr ⟨g, hg, by simp [hy]⟩)

theorem batchTasks_map_perm (id : String) (h : (batch.map Prod.fst).Nodup) (hmem : ∃ g ∈ batch, g.1 = target) :
    (batchTasks (batch.map fun g => if g.1 == target then (g.1, g.2 ++ [id]) else g)).Perm
      (id :: batchTasks batch) := by
  induction batch with
  | nil => simp at hmem
  | cons g batch ih =>
    obtain ⟨hg, hrest⟩ := nodup_cons.mp h
    simp only [batchTasks, map_cons, flatMap_cons] at ih ⊢
    by_cases he : g.1 = target
    · have hsame : (batch.map fun g => if g.1 == target then (g.1, g.2 ++ [id]) else g) = batch := by
        refine (map_congr_left fun g' hg' => ?_).trans (map_id _)
        have : g'.1 ≠ target := fun e => hg (he ▸ e ▸ mem_map_of_mem hg')
        simp [this]
      simp only [hsame, he, beq_self_eq_true, if_true, append_assoc, singleton_append]
      exact perm_middle
    · have hmem' : ∃ g' ∈ batch, g'.1 = target := by
        obtain ⟨g', hg', e⟩ := hmem
        rcases mem_cons.mp hg' with rfl | hg'
        · exact absurd e he
        · exact ⟨g', hg', e⟩
      rw [if_neg (by simpa using he)]
      exact ((ih hrest hmem').append_left g.2).trans perm_middle

theorem addToBatch_perm (t : PlannedTransition) (h : (batch.map Prod.fst).Nodup) :
    (batchTasks (addToBatch batch t)).Perm (t.taskID :: batchTasks batch) := by
  unfold addToBatch
  split
  next hany =>
    obtain ⟨g, hg, e⟩ := any_eq_true.mp hany
    exact batchTasks_map_perm t.taskID h ⟨g, hg, by simpa using e⟩
  · simp only [batchTasks, flatMap_append, flatMap_cons, flatMap_nil, append_nil]
    exact perm_append_singleton _ _

theorem foldl_addToBatch_perm (plan : List PlannedTransition)
    (batch : List (TaskState × List String)) (h : (batch.map Prod.fst).Nodup) :
    (batchTasks (plan.foldl addToBatch batch)).Perm (plan.map PlannedTransition.taskID ++ batchTasks batch) := by
  induction plan generalizing batch with
  | nil => exact List.Perm.refl _
  | cons t plan ih =>
    rw [foldl_cons, map_cons]
    refine (ih _ (addToBatch_targets t h)).trans ?_
    exact ((addToBatch_perm t h).append_left _).trans perm_middle

theorem transitionBatch_perm (plan : List PlannedTransition) : (batchTasks (transitionBatch plan)).Perm
      ((plan.filter PlannedTransition.isBatched).map PlannedTransition.taskID) := by
  have := foldl_addToBatch_perm (plan.filter PlannedTransition.isBatched) [] nodup_nil
  simpa [batchTasks, transitionBatch] using this

theorem mem_foldl_addToBatch {plan : List PlannedTransition} {g : TaskState × List String}
    (hg : g ∈ plan.foldl addToBatch batch) (ht : task ∈ g.2) :
    (∃ p ∈ plan, p.taskID = task ∧ p.target = g.1) ∨ ∃ g0 ∈ batch, g0.1 = g.1 ∧ task ∈ g0.2 := by
  induction plan generalizing batch with
  | nil => exact .inr ⟨g, hg, rfl, ht⟩
  | cons p plan ih =>
    rcases ih hg with ⟨p', hp', h⟩ | ⟨g0, hg0, htarget, htask⟩
    · exact .inl ⟨p', mem_cons_of_mem _ hp', h⟩
    unfold addToBatch at hg0
    split at hg0
    · obtain ⟨g1, hg1, rfl⟩ := mem_map.mp hg0
      by_cases he : g1.1 = p.target
      · simp only [he, beq_self_eq_true, if_true, mem_append, mem_singleton] at htask htarget
        rcases htask with htask | rfl
        · exact .inr ⟨g1, hg1, he.trans htarget, htask⟩
        · exact .inl ⟨p, mem_cons_self, rfl, htarget⟩
      · rw [if_neg (by simpa using he)] at htask htarget
        exact .inr ⟨g1, hg1, htarget, htask⟩
    · rcases mem_append.mp hg0 with hg0 | hg0
      · exact .inr ⟨g0, hg0, htarget, htask⟩
      · rw [mem_singleton.mp hg0] at htask htarget
        exact .inl ⟨p, mem_cons_self, (mem_singleton.mp htask).symm, htarget⟩

theorem mem_transitionBatch {plan : List PlannedTransition} {g : TaskState × List String}
    (hg : g ∈ transitionBatch plan) (ht : task ∈ g.2) :
    ∃ p ∈ plan, p.isBatched ∧ p.taskID = task ∧ p.target = g.1 := by
  rcases mem_foldl_addToBatch hg ht with ⟨p, hp, h⟩ | ⟨_, hnil, -⟩
  · exact ⟨p, (mem_filter.mp hp).1, (mem_filter.mp hp).2, h⟩
  · cases hnil

/-! ## The calls of `advance` -/

/-- The tasks the calls of a list may still move. -/
def opTasks (ops : List Op) : List String := ops.flatMap Op.tasks

namespace RunState

variable (run : RunState)

theorem applyPlanned_tasks (dispatcher : Bool) (t : PlannedTransition) :
    (opTasks (run.applyPlanned dispatcher t)).Sublist (if t.isBatched then [] else [t.taskID]) := by
  unfold applyPlanned PlannedTransition.isBatched
  cases ht : t.target
  case queued =>
    cases hf : run.tasks.find? fun s => s.taskID == t.taskID with
    | none => simp [opTasks]
    | some task =>
      have : task.taskID = t.taskID := by simpa using List.find?_some hf
      cases dispatcher <;> simp [opTasks, Op.tasks, failUndispatchable, this]
  case none =>
    simp only [opTasks]
    split
    · simp [Op.tasks]
    split <;> simp [Op.tasks]
  all_goals simp [opTasks]

theorem opTasks_flatMap_applyPlanned (dispatcher : Bool) (plan : List PlannedTransition) :
    (opTasks (plan.flatMap (run.applyPlanned dispatcher))).Sublist
      ((plan.filter fun t => !t.isBatched).map PlannedTransition.taskID) := by
  induction plan with
  | nil => simp [opTasks]
  | cons t plan ih =>
    have h := run.applyPlanned_tasks dispatcher t
    simp only [opTasks, flatMap_cons, flatMap_append] at ih h ⊢
    by_cases hb : t.isBatched
    · rw [if_pos hb, sublist_nil] at h
      simpa [h, hb] using ih
    · have hb' : t.isBatched = false := by simpa using hb
      rw [if_neg hb] at h
      simpa [hb'] using h.append ih

theorem advance_subperm (dispatcher : Bool) :
    (opTasks (run.advance dispatcher)).Subperm (run.planRun.map PlannedTransition.taskID) := by
  unfold advance
  split
  · simp [opTasks, Op.tasks, nil_subperm]
  have hflush : opTasks (flushTransitions (transitionBatch run.planRun)) =
      batchTasks (transitionBatch run.planRun) := by
    simp [opTasks, flushTransitions, batchTasks, flatMap_map, Op.tasks]
  have hfin : opTasks (run.finalizeRun.toList.map Op.setRunState) = [] := by
    cases run.finalizeRun <;> simp [opTasks, Op.tasks]
  have hsplit : opTasks (run.planRun.flatMap (run.applyPlanned dispatcher) ++
      flushTransitions (transitionBatch run.planRun) ++ run.finalizeRun.toList.map Op.setRunState) =
      opTasks (run.planRun.flatMap (run.applyPlanned dispatcher)) ++ batchTasks (transitionBatch run.planRun) := by
    rw [← hflush, opTasks, flatMap_append, flatMap_append]
    simp only [opTasks] at hfin
    rw [hfin, append_nil]
    rfl
  rw [hsplit]
  have h1 := (run.opTasks_flatMap_applyPlanned dispatcher run.planRun).subperm
  have h2 := (transitionBatch_perm run.planRun).subperm
  refine (h1.append h2).trans (List.Perm.subperm ?_)
  rw [← map_append]
  exact (perm_append_comm.trans (filter_append_perm PlannedTransition.isBatched run.planRun)).map _

/-- **No two calls of `advance` move the row of one task.** -/
theorem advance_nodup (dispatcher : Bool) (hnd : (run.tasks.map TaskSpec.taskID).Nodup) :
    (opTasks (run.advance dispatcher)).Nodup := by
  obtain ⟨l, hperm, hsub⟩ := run.advance_subperm dispatcher
  exact hperm.nodup_iff.mp ((run.planRun_nodup hnd).sublist hsub)

/-- `advance` moves only tasks the planner would move without caps. -/
theorem mayPlan_of_mem_advance (h : task ∈ opTasks (run.advance dispatcher)) : run.MayPlan task := by
  obtain ⟨p, hp, rfl⟩ := mem_map.mp ((run.advance_subperm dispatcher).subset h)
  exact run.mayPlan_of_mem_planRun hp

theorem afterDispatch_tasks (task : String) (wall : Time) (o : DispatchOutcome) :
    (run.afterDispatch task wall o).tasks = [task] := by
  cases o with
  | dispatched => rfl
  | backpressure => rfl
  | rejected =>
    simp only [afterDispatch]
    split <;> rfl

theorem states_of_admitted (hp : p ∈ run.planRun) (ht : p.target = .scheduled ∨ p.target = .queued) :
    run.states.lookup p.taskID = some .none ∨ run.states.lookup p.taskID = some .scheduled := by
  obtain ⟨t, -, hid, h | hs⟩ := run.mem_planRun hp
  · rcases run.target_of_emit h with hp | hp <;> simp [hp] at ht
  · rw [← hid, ← run.effective_of_undecided hs.undecided]
    exact hs.rail.imp And.left And.left

end RunState

/-- The tasks a call writes into a state up to `queued` without clearing `queued_at`, or is about
to. -/
def Op.queues : Op → List String
  | dispatch task => [task]
  | applyTransition task target => if target.isUnqueued || target == .queued then [task] else []
  | applyTransitions tasks target => if target.isUnqueued || target == .queued then tasks else []
  | _ => []

theorem Op.queues_subset_tasks (op : Op) : op.queues ⊆ op.tasks := by
  cases op <;> simp only [queues, tasks, nil_subset, List.Subset.refl]
  all_goals split <;> simp

namespace RunState

variable (run : RunState)

theorem afterDispatch_queues (task : String) (wall : Time) (o : DispatchOutcome) :
    (run.afterDispatch task wall o).queues ⊆ [task] :=
  run.afterDispatch_tasks task wall o ▸ Op.queues_subset_tasks _

theorem mem_advance_cases {op : Op} (h : op ∈ run.advance dispatcher) :
    op = .materializeTasks ∨ (∃ s, op = .setRunState s) ∨ (∃ p ∈ run.planRun, op ∈ run.applyPlanned dispatcher p) ∨
      ∃ g ∈ transitionBatch run.planRun, op = .applyTransitions g.2 g.1 := by
  unfold advance at h
  split at h
  · simp only [mem_cons, not_mem_nil, or_false] at h
    exact h.imp_right fun h => .inl ⟨_, h⟩
  · simp only [mem_append, mem_flatMap, flushTransitions, mem_map] at h
    rcases h with (h | ⟨g, hg, rfl⟩) | ⟨s, -, rfl⟩
    · exact .inr (.inr (.inl h))
    · exact .inr (.inr (.inr ⟨g, hg, rfl⟩))
    · exact .inr (.inl ⟨s, rfl⟩)

theorem states_of_mem_queues {op : Op} (hop : op ∈ run.advance dispatcher) (ht : task ∈ op.queues) :
    run.states.lookup task = some .none ∨ run.states.lookup task = some .scheduled := by
  rcases run.mem_advance_cases hop with rfl | ⟨s, rfl⟩ | ⟨p, hp, hop⟩ | ⟨g, hg, rfl⟩
  · cases ht
  · cases ht
  · unfold applyPlanned at hop
    split at hop
    next htarget =>
      split at hop
      · cases hop
      split at hop
      · rw [mem_singleton.mp hop] at ht
        rw [mem_singleton.mp ht]
        exact run.states_of_admitted hp (.inr htarget)
      · simp only [failUndispatchable, mem_cons, not_mem_nil, or_false] at hop
        rcases hop with rfl | rfl <;> simp [Op.queues, TaskState.isUnqueued] at ht
    · (repeat' split at hop) <;> rw [mem_singleton.mp hop] at ht <;> cases ht
    · cases hop
  · simp only [Op.queues] at ht
    split at ht
    next htarget =>
      obtain ⟨p, hp, hb, rfl, hpt⟩ := mem_transitionBatch hg ht
      rw [← hpt] at htarget
      refine run.states_of_admitted hp ?_
      cases hp' : p.target <;> simp [hp', PlannedTransition.isBatched, TaskState.isUnqueued] at hb htarget ⊢
    · cases ht

/-! ## Finalisation -/

theorem isOpen_of_state {s : TaskState} (h : run.states.lookup taskID = some s)
    (hs : s.isTerminal = false) : run.isOpen taskID := by
  unfold isOpen
  rw [h]
  cases s <;> first | rfl | cases hs

theorem isOpen_of_emit (h : (run.retryDecision taskID).emit = some target) : run.isOpen taskID := by
  unfold retryDecision at h
  unfold isOpen
  split at h <;> (repeat' split at h) <;> simp_all [TaskState.isTerminal]

theorem planRun_of_finalizeRun (h : run.finalizeRun = some state) : run.planRun = [] := by
  have hclosed : ∀ t ∈ run.tasks, run.isOpen t.taskID = false := by
    unfold finalizeRun at h
    split at h
    · cases h
    next hany =>
      simpa using hany
  refine eq_nil_iff_forall_not_mem.mpr fun p hp => ?_
  obtain ⟨t, ht, hid, hemit | hs⟩ := run.mem_planRun hp
  · have ho := run.isOpen_of_emit hemit
    rw [← hid, hclosed t ht] at ho
    cases ho
  · rcases hs.rail with ⟨he, -⟩ | ⟨he, -⟩ <;> rw [run.effective_of_undecided hs.undecided] at he <;>
    · have ho := run.isOpen_of_state he rfl
      rw [hclosed t ht] at ho
      cases ho

theorem finalizeRun_isSome {run : RunState} :
    run.finalizeRun.isSome ↔ ∀ t ∈ run.tasks, run.isOpen t.taskID = false := by
  unfold finalizeRun
  split
  next hany =>
    simpa using hany
  next hany =>
    refine ⟨fun _ => by simpa using hany, fun _ => ?_⟩
    split <;> rfl

theorem finalizeRun_verdict {run : RunState} {verdict : DagRunState} (h : run.finalizeRun = some verdict) :
    verdict = if ∃ t ∈ run.tasks, run.states.lookup t.taskID = some .failed ∨
      run.states.lookup t.taskID = some .upstreamFailed then .failed else .success := by
  unfold finalizeRun at h
  split at h
  · cases h
  · split at h <;> cases h <;> rename_i hany
    · rw [if_pos (by simpa using hany)]
    · rw [if_neg (by simpa using hany)]

/-- `advance` starts a queued run that has no rows, and otherwise writes the finaliser's verdict. -/
theorem setRunState_of_advance (h : Op.setRunState state ∈ run.advance dispatcher) :
    if run.state = .queued ∧ run.states.keys = [] then state = .running else run.finalizeRun = some state := by
  unfold advance at h
  split at h
  next hq =>
    rw [if_pos hq]
    simpa using h
  next hq =>
    rw [if_neg hq]
    simp only [mem_append, mem_flatMap, mem_map, flushTransitions, reduceCtorEq,
      and_false, exists_false, or_false, Option.mem_toList,
      Op.setRunState.injEq, exists_eq_right] at h
    rcases h with ⟨t, -, ht⟩ | h
    · unfold applyPlanned at ht
      (repeat' split at ht) <;> simp_all [failUndispatchable]
    · exact h

theorem advance_of_running (h : Op.setRunState .running ∈ run.advance dispatcher) :
    run.advance dispatcher = [.materializeTasks, .setRunState .running] := by
  have hset := run.setRunState_of_advance h
  split at hset
  next hq =>
    rw [advance, if_pos hq]
  · have hverdict := finalizeRun_verdict hset
    split at hverdict <;> cases hverdict

theorem advance_of_final (hs : state.isTerminal) (h : Op.setRunState state ∈ run.advance dispatcher) :
    run.finalizeRun = some state ∧ run.advance dispatcher = [.setRunState state] := by
  have hset := run.setRunState_of_advance h
  split at hset
  · rw [hset] at hs
    cases hs
  next hq =>
    refine ⟨hset, ?_⟩
    rw [advance, if_neg hq, run.planRun_of_finalizeRun hset, hset]
    rfl

end RunState

end Leoflow
