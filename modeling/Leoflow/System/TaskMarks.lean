import Leoflow.System.FailedRows

/-!
# Operators' marks of task instances

`SetTaskInstanceState` of `internal/storage/repository.go`, which `patchTaskInstanceHandler` of
`internal/api/resources.go` calls with a state that `validMarkState` allows. It runs the scheduler's statement for one
transition, which has no guard on the row's state. With the marks among the steps the retry rail still rests on
what it reads, unless an operator changes a row that the tick has read as failed.
-/

namespace Leoflow

open List World

/-- The states an operator may set a task to. -/
def validMarkState (s : TaskState) : Bool := s == .success || s == .failed || s == .skipped

/-- A step of the system, or an operator's mark of a task. -/
inductive MarkAction where
  | world (a : Action)
  | setTaskInstanceState (run task : String) (state : TaskState)
deriving DecidableEq

namespace MarkAction

/-- The write of an action. -/
def write (w : World) : MarkAction → Write
  | world a => w.write a
  | setTaskInstanceState run task state => .task (.updateTaskInstanceStateByRunTask run task state)

/-- The action is a clear's. -/
def isClear : MarkAction → Bool
  | world a => a.isClear
  | setTaskInstanceState .. => false

/-- The operators' writes to task instances: the resets of a clear and the marks. -/
def isOperators : MarkAction → Bool
  | world (.clearNext _) | setTaskInstanceState .. => true
  | _ => false

/-- A mark answers 400 for a state that is not valid and 404 for a run that does not exist. -/
def step (cfg : Config) (w : World) : MarkAction → Option World
  | world a => w.step cfg a
  | setTaskInstanceState run task state =>
    if validMarkState state ∧ w.db.runs.any (fun d => d.id == run) then
      some { w with db := w.db.write ((setTaskInstanceState run task state).write w) }
    else none

end MarkAction

/-- The system with the operators' marks. -/
def markSystem (cfg : Config) : Lib.System World MarkAction where
  init := (World.system cfg).init
  step w a := a.step cfg w

/-! ## What a mark keeps -/

section Step

variable {cfg : Config} {w w' : World} {a : MarkAction} {r : TaskInstance} {s : Statement}

theorem MarkAction.mem_tis (h : a.step cfg w = some w') :
    r ∈ w'.db.tis ↔ (∃ r₀ ∈ w.db.tis, (a.write w).row w.db r₀ = r) ∨ r ∈ (a.write w).inserted := by
  cases a with
  | world a => exact mem_step_tis h
  | setTaskInstanceState run task state =>
    obtain ⟨-, rfl⟩ := Lib.guard_eq_some.mp h
    rw [Database.write_tis, mem_append, mem_map]

/-- A statement that inserts nothing keeps the keys and what the tick has read of the runs. -/
theorem World.WellFormed.execute (hw : w.WellFormed) (s : Statement) :
    World.WellFormed { w with db := w.db.write (.task s) } := by
  have htis := w.db.write_task_tis s
  refine ⟨⟨?_, ?_, ?_⟩, fun t ht => (hw.tick t ht).mono fun id hno r hr => ?_, fun t run task ht hp => ?_⟩
  · simpa [htis, Function.comp_def] using hw.keyed.ids
  · simpa [htis, Function.comp_def] using hw.keyed.keys
  · simpa [Database.write_runs, Write.createdRuns, Function.comp_def] using hw.keyed.runs
  · rw [htis] at hr
    obtain ⟨r₀, hr₀, rfl⟩ := mem_map.mp hr
    simpa using hno r₀ hr₀
  · obtain ⟨r, hr, hkey⟩ := hw.rows t run task ht hp
    exact ⟨_, htis ▸ mem_map_of_mem hr, by simpa using hkey⟩

/-- What the retry rail rests on. -/
structure RailOk (w : World) : Prop where
  wellFormed : w.WellFormed
  justified : ∀ t, w.ctl.tick = some t → t.Justified
  shown : FailuresShown w

/-- No operator changes a row that the tick has read as failed and may still move. -/
def LeavesReads (w : World) (a : MarkAction) : Prop :=
  a.isOperators → ∀ t run, w.ctl.tick = some t → ∀ r ∈ w.db.tis, r.dagRunId = run.runID →
    t.ReadFailed run r.taskId → (a.write w).row w.db r = r

theorem railOk_step (hok : RailOk w) (hc : LeavesReads w a) (h : a.step cfg w = some w') : RailOk w' := by
  cases a with
  | world a =>
    have hclears : ClearsUnread w a := fun c he => he ▸ hc (by rw [he]; rfl)
    exact ⟨wellFormed_step hok.wellFormed h, justified_step hok.justified h,
      failuresShown_step hok.wellFormed hok.shown hclears h⟩
  | setTaskInstanceState run task state =>
    obtain ⟨-, rfl⟩ := Lib.guard_eq_some.mp h
    refine ⟨hok.wellFormed.execute _, hok.justified, fun t run ht r' hr' hrun hread => ?_⟩
    obtain ⟨r, hr, rfl⟩ := mem_map.mp (Database.write_task_tis _ _ ▸ hr')
    rw [Write.row_dagRunId] at hrun
    rw [Write.row_taskId] at hread
    have hkept := hc rfl t run ht r hr hrun hread
    exact hkept.symm ▸ hok.shown t run ht r hr hrun hread

theorem railOk_reaches {cond : World → MarkAction → Prop} (hcond : ∀ w a, cond w a → LeavesReads w a)
    (h : (markSystem cfg).Reaches cond w) : RailOk w := by
  refine h.invariant (fun w hi => ?_) fun w a w' _ hok hc hs => ?_
  · have hinit : (World.system cfg).Reachable w := .init hi
    obtain ⟨now, rfl⟩ := hi
    exact ⟨wellFormed_reaches hinit, justified_reaches hinit, fun _ _ ht => by cases ht⟩
  · exact railOk_step hok (hcond w a hc) hs

/-- A mark moves a row to a final state and keeps its budgets; the others do what they do without the marks. -/
theorem RailOk.retryEffect (hok : RailOk w) (h : a.step cfg w = some w') (hs : (a.write w).statement w.db = some s)
    (hr : r ∈ w.db.tis) (hg : (s.update w.db.now).guard r) : RetryEffect s r ((s.update w.db.now).row r) := by
  cases a with
  | world a => exact retryEffect_step hok.justified hok.shown hs hr hg
  | setTaskInstanceState run task state =>
    cases hs
    obtain ⟨⟨hvalid, -⟩, -⟩ := Lib.guard_eq_some.mp h
    rw [Lib.Update.row_of_guard _ hg]
    cases state with
    | failed => exact .failed ⟨rfl, rfl, rfl⟩ rfl rfl
    | success | skipped =>
      refine .moved ⟨rfl, rfl, rfl⟩ ?_ ?_ ?_ <;>
        simp [Statement.update, updateTaskInstanceStateByRunTask, TaskInstance.moveTo]
    | _ => cases hvalid

end Step

end Leoflow
