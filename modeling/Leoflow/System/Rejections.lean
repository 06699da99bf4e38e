import Leoflow.System.DispatchGates

/-!
# The dispatch budget counts rejections

A record beside the system counts, for each task, the calls of `Dispatch` that the leader saw
rejected. The attempts of a row never exceed it, whatever the other parties write, so a dispatch that
is given up as exhausted was rejected as often as the budget allows.
-/

namespace Leoflow

open World List

/-- How many dispatches of a task were rejected. -/
abbrev Rejections := String × String → Nat

/-- The run and task of the `Dispatch` a tick is at. -/
def World.offering? (w : World) : Option (String × String) :=
  match w.ctl.tick with
  | some (.advancing _ run (.dispatch task :: _) _) => some (run.runID, task)
  | _ => none

/-- The run and task whose dispatch a step sees rejected. -/
def World.rejected? (w : World) : Action → Option (String × String)
  | .tick (.dispatch (.rejected _ _) _) => w.offering?
  | _ => none

/-- A dispatch that returns `rejected` is counted. -/
def noteRejections (w : World) (a : Action) (_ : World) (g : Rejections) : Rejections := fun key =>
  if w.rejected? a = some key then g key + 1 else g key

/-- The system with that count. -/
abbrev rejectionSystem (cfg : Config) : Lib.System (World × Rejections) Action :=
  (World.system cfg).withGhost (fun _ => 0) noteRejections

theorem le_noteRejections (w : World) (a : Action) (w' : World) (g : Rejections)
    (key : String × String) : g key ≤ noteRejections w a w' g key := by
  unfold noteRejections
  split
  · exact Nat.le_succ _
  · exact Nat.le_refl _

theorem Statement.row_dispatchAttempts_le {s : Statement} {now : Time} {r : TaskInstance}
    (h : ∀ run task nextAt, s = .recordDispatchFailure run task nextAt → (s.update now).guard r = false) :
    ((s.update now).row r).dispatchAttempts ≤ r.dispatchAttempts := by
  cases hg : (s.update now).guard r with
  | false => rw [Lib.Update.row_of_not_guard _ hg]
  | true =>
    rw [Lib.Update.row_of_guard _ hg]
    cases s with
    | recordDispatchFailure run task nextAt => cases (h run task nextAt rfl).symm.trans hg
    | resetTaskInstanceForRetry | resetTaskInstanceToNone | resetFailedTaskInstance
    | resetAllFailedTaskInstances | resetTaskInstanceInfraReplace => exact Nat.zero_le _
    | _ => exact Nat.le_refl _

/-- The call that follows a dispatch the leader saw rejected. -/
theorem RunState.rejected_of_recordDispatchFailure {run : RunState} {task task' : String}
    {wall nextAt : Time} {o : DispatchOutcome}
    (h : run.afterDispatch task wall o = .recordDispatchFailure task' nextAt) :
    task' = task ∧ ∃ cause landed, o = .rejected cause landed := by
  cases o with
  | dispatched => cases h
  | backpressure => cases h
  | rejected cause landed =>
    simp only [afterDispatch] at h
    split at h
    · cases h
    · cases h
      exact ⟨rfl, cause, landed, rfl⟩

theorem RunState.rejected_of_failDispatchExhausted {run : RunState} {task task' reason : String}
    {wall : Time} {o : DispatchOutcome} (h : run.afterDispatch task wall o = .failDispatchExhausted task' reason) :
    task' = task ∧ dispatchMaxAttempts ≤ run.dispatchAttempts.getD task 0 + 1 ∧
      ∃ cause landed, o = .rejected cause landed := by
  cases o with
  | dispatched => cases h
  | backpressure => cases h
  | rejected cause landed =>
    simp only [afterDispatch] at h
    split at h
    next hle =>
      cases h
      exact ⟨rfl, hle, cause, landed, rfl⟩
    · cases h

theorem RunState.not_mem_advance_of_record (run : RunState) (dispatcher : Bool) {op : Op}
    (h : op ∈ run.advance dispatcher) : (∀ task nextAt, op ≠ .recordDispatchFailure task nextAt) ∧
      ∀ task reason, op ≠ .failDispatchExhausted task reason := by
  rcases run.mem_advance_cases h with rfl | ⟨s, rfl⟩ | ⟨p, -, hop⟩ | ⟨g, -, rfl⟩
  · simp
  · simp
  · unfold applyPlanned at hop
    (repeat' split at hop) <;> simp [failUndispatchable] at hop <;>
      first | (subst hop; simp) | (rcases hop with rfl | rfl <;> simp)
  · simp

/-- Only the record of a dispatch failure raises the attempts, and by one. -/
theorem World.dispatchAttempts_step {cfg : Config} {w w' : World} {a : Action}
    (h : w.step cfg a = some w') {r' : TaskInstance} (hr' : r' ∈ w'.db.tis) : r'.dispatchAttempts = 0 ∨
    (∃ r ∈ w.db.tis, r.key = r'.key ∧ r'.dispatchAttempts ≤ r.dispatchAttempts) ∨
    ∃ r ∈ w.db.tis, r.key = r'.key ∧ r'.dispatchAttempts = r.dispatchAttempts + 1 ∧
      ∃ ids b run task nextAt ops rest, a = .tick (.call ids) ∧
        w.ctl.tick = some (.advancing b run (.recordDispatchFailure task nextAt :: ops) rest) ∧
        r.key = (run.runID, task) := by
  rcases (mem_step_tis h).mp hr' with ⟨r, hr, rfl⟩ | hins
  · right
    rcases Write.row_eq_or_statement w.db (w.write a) r with ⟨-, he⟩ | ⟨s, hs, hg, he⟩
    · exact .inl ⟨r, hr, by rw [he], by rw [he]⟩
    rw [he]
    by_cases hrec : ∃ run task nextAt, s = .recordDispatchFailure run task nextAt
    · obtain ⟨runID, task, nextAt, rfl⟩ := hrec
      obtain ⟨ids, b, run, op, ops, rest, ha, ht, hop⟩ := call_of_statement hs rfl
      refine .inr ⟨r, hr, (Statement.row_key _ _ _).symm, ?_, ?_⟩
      · rw [Lib.Update.row_of_guard _ hg]
        rfl
      · cases op <;> cases hop
        refine ⟨ids, b, run, task, nextAt, ops, rest, ha, ht, ?_⟩
        simp only [Statement.update, Leoflow.recordDispatchFailure, TaskInstance.isFor,
          Bool.and_eq_true, beq_iff_eq] at hg
        exact Prod.ext hg.1.1 hg.1.2
    · refine .inl ⟨r, hr, (Statement.row_key _ _ _).symm, Statement.row_dispatchAttempts_le ?_⟩
      intro run task nextAt hs'
      exact absurd ⟨run, task, nextAt, hs'⟩ hrec
  · obtain ⟨-, -, -, -, -, t, id, -, -, -, rfl⟩ := mem_inserted hins
    exact .inl rfl

/-! ## The invariant -/

/-- What is charged to a task was rejected: the attempts of its row, those a tick has read, the attempt
a tick is about to record, and the whole budget where a tick is about to give up. -/
structure Charged (w : World) (g : Rejections) : Prop where
  rows : ∀ r ∈ w.db.tis, r.dispatchAttempts ≤ g r.key
  read : ∀ t, w.ctl.tick = some t → ∀ run, t.Holds run → ∀ task, run.dispatchAttempts.getD task 0 ≤ g (run.runID, task)
  recorded : ∀ t, w.ctl.tick = some t → ∀ run ops, t.current? = some (run, ops) →
    ∀ task nextAt, .recordDispatchFailure task nextAt ∈ ops → 0 < g (run.runID, task) ∧
      ∀ r ∈ w.db.tis, r.key = (run.runID, task) → r.dispatchAttempts < g (run.runID, task)
  exhausted : ∀ t, w.ctl.tick = some t → ∀ run ops, t.current? = some (run, ops) →
    ∀ task reason, .failDispatchExhausted task reason ∈ ops → dispatchMaxAttempts ≤ g (run.runID, task)

theorem snapshot_dispatchAttempts {cfg : Config} {db : Database} {d : DagRun} {g : Rejections}
    (h : ∀ r ∈ db.tis, r.dispatchAttempts ≤ g r.key) (task : String) :
    (snapshot cfg db d).dispatchAttempts.getD task 0 ≤ g (d.id, task) := by
  show ((snapshot cfg db d).dispatchAttempts.lookup task).getD 0 ≤ _
  cases hl : (snapshot cfg db d).dispatchAttempts.lookup task with
  | none => exact Int.natCast_nonneg _
  | some n =>
    obtain ⟨r, hr, rfl, hn⟩ := Lib.GoMap.mem_of_lookup_collect hl
    obtain ⟨hmem, hrun⟩ := mem_listTaskInstancesByRun.mp hr
    have hval : (n : Int) = r.dispatchAttempts := by
      rw [← positive_getD, hn]
      rfl
    have hle := h r hmem
    rw [show r.key = (d.id, r.taskId) from Prod.ext hrun rfl] at hle
    show n ≤ _
    omega

section Step

variable {cfg : Config} {w w' : World} {a : Action} {g : Rejections}

theorem Charged.rows_step (hc : Charged w g) (h : w.step cfg a = some w') :
    ∀ r ∈ w'.db.tis, r.dispatchAttempts ≤ g r.key := by
  intro r' hr'
  rcases dispatchAttempts_step h hr' with
    hzero | ⟨r, hr, hkey, hle⟩ | ⟨r, hr, hkey, hsucc, ids, b, run, task, nextAt, ops, rest, -, ht, hrun⟩
  · omega
  · have hrow := hc.rows r hr
    rw [← hkey]
    omega
  · have hlt := (hc.recorded _ ht run _ rfl task nextAt mem_cons_self).2 r hr hrun
    rw [← hkey, hrun]
    omega

theorem Charged.read_step (hc : Charged w g) (h : w.step cfg a = some w') :
    ∀ t, w'.ctl.tick = some t → ∀ run, t.Holds run → ∀ task,
      run.dispatchAttempts.getD task 0 ≤ g (run.runID, task) := by
  intro t ht run hh task
  rcases tick_step h ht with ⟨ta, rfl, hm⟩ | ⟨-, ht⟩
  · have hcar : t.Carries (fun _ => True) (· ≠ []) run := hh.imp_left (⟨·, trivial⟩)
    rcases hm.carries hcar (fun _ _ _ => trivial) (fun _ _ _ _ _ => cons_ne_nil _ _) (fun _ _ _ => cons_ne_nil _ _) with
      ⟨d, todo, loaded, -, -, rfl, -⟩ | ⟨t0, run0, ht0, hh0, hsame⟩
    · exact snapshot_dispatchAttempts hc.rows task
    · have hbefore := hc.read t0 ht0 run0 (hh0.imp_left And.left) task
      rcases hsame with rfl | ⟨b, rfl⟩ <;> exact hbefore
  · exact hc.read t ht run hh task

theorem noteRejections_of_rejected {b : Budget} {run : RunState} {task : String} {ops : List Op}
    {rest : List RunState} {cause : String} {landed buffered : Bool}
    (ht : w.ctl.tick = some (.advancing b run (.dispatch task :: ops) rest)) :
    noteRejections w (.tick (.dispatch (.rejected cause landed) buffered)) w' g (run.runID, task) =
      g (run.runID, task) + 1 := by
  simp [noteRejections, rejected?, offering?, ht]

/-- A dispatch failure to be recorded has been counted. -/
theorem Charged.recorded_step (hw : w.WellFormed) (hc : Charged w g) (h : w.step cfg a = some w') :
    ∀ t, w'.ctl.tick = some t → ∀ run ops, t.current? = some (run, ops) →
    ∀ task nextAt, .recordDispatchFailure task nextAt ∈ ops → 0 < noteRejections w a w' g (run.runID, task) ∧
      ∀ r ∈ w'.db.tis, r.key = (run.runID, task) → r.dispatchAttempts < noteRejections w a w' g (run.runID, task) := by
  intro t ht run ops hcur task nextAt hop
  rcases call_step h ht hcur hop with
    hplan | ⟨b, task', ops0, rest, outcome, buffered, rfl, ht0, hafter⟩ | ⟨t0, ops0, ht0, hcur0, hop0, hleft⟩
  · exact absurd rfl ((run.not_mem_advance_of_record _ hplan).1 task nextAt)
  · obtain ⟨rfl, cause, landed, rfl⟩ := RunState.rejected_of_recordDispatchFailure hafter.symm
    rw [noteRejections_of_rejected ht0]
    refine ⟨Nat.succ_pos _, fun r hr hkey => ?_⟩
    have hrow := hc.rows_step h r hr
    rw [hkey] at hrow
    omega
  · obtain ⟨hpos, hrows⟩ := hc.recorded t0 ht0 run ops0 hcur0 task nextAt hop0
    have hle := le_noteRejections w a w' g (run.runID, task)
    refine ⟨by omega, fun r' hr' hkey' => ?_⟩
    rcases dispatchAttempts_step h hr' with
      hzero | ⟨r, hr, hkey, hn⟩ | ⟨r, hr, hkey, -, ids, b, run', task', at', ops', rest, rfl, ht', hrun⟩
    · omega
    · have hlt := hrows r hr (hkey.trans hkey')
      omega
    · -- the call just made was for the same task, and a tick has one call for a task
      obtain rfl := Option.some.inj (ht0.symm.trans ht')
      cases hcur0
      have htail := hleft.resolve_left fun hne => hne _ rfl
      obtain rfl : task' = task := congrArg Prod.snd (hrun.symm.trans (hkey.trans hkey'))
      have hnodup := ((hw.tick _ ht').pending _ _ rfl).once
      refine absurd rfl ((nodup_append.mp hnodup).2.2 task' mem_cons_self task' ?_)
      exact mem_flatMap.mpr ⟨_, htail, mem_cons_self⟩

theorem Charged.exhausted_step (hc : Charged w g) (h : w.step cfg a = some w') :
    ∀ t, w'.ctl.tick = some t → ∀ run ops, t.current? = some (run, ops) →
    ∀ task reason, .failDispatchExhausted task reason ∈ ops →
      dispatchMaxAttempts ≤ noteRejections w a w' g (run.runID, task) := by
  intro t ht run ops hcur task reason hop
  rcases call_step h ht hcur hop with
    hplan | ⟨b, task', ops0, rest, outcome, buffered, rfl, ht0, hafter⟩ | ⟨t0, ops0, ht0, hcur0, hop0, -⟩
  · exact absurd rfl ((run.not_mem_advance_of_record _ hplan).2 task reason)
  · obtain ⟨rfl, hmax, cause, landed, rfl⟩ :=
      RunState.rejected_of_failDispatchExhausted hafter.symm
    rw [noteRejections_of_rejected ht0]
    have hread := hc.read _ ht0 run (.inr ⟨_, rfl, cons_ne_nil _ _⟩) task
    push_cast
    omega
  · have hbefore := hc.exhausted t0 ht0 run ops0 hcur0 task reason hop0
    have hle := le_noteRejections w a w' g (run.runID, task)
    omega

theorem Charged.step (hw : w.WellFormed) (hc : Charged w g) (h : w.step cfg a = some w') :
    Charged w' (noteRejections w a w' g) where
  rows r hr := (hc.rows_step h r hr).trans (le_noteRejections ..)
  read t ht run hh task := by
    have hread := hc.read_step h t ht run hh task
    have hle := le_noteRejections w a w' g (run.runID, task)
    omega
  recorded := hc.recorded_step hw h
  exhausted := hc.exhausted_step h

end Step

section

variable {cfg : Config} {p : World × Rejections} (h : (rejectionSystem cfg).Reachable p)
include h

/-- **In every run** what is charged to a task was rejected. -/
theorem charged_of_reachable : Charged p.1 p.2 := by
  refine h.ghost_invariant (I := Charged) (fun w hi => ?_) fun w a w' g hr hc hs => ?_
  · obtain ⟨now, rfl⟩ := hi
    exact ⟨(fun _ h => by cases h), (fun _ h => by cases h), (fun _ h => by cases h), fun _ h => by cases h⟩
  · exact hc.step (wellFormed_reaches hr) hs

theorem rejections_of_failDispatchExhausted {a : Action} {run task reason : String}
    (hs : (p.1.write a).statement p.1.db = some (.failDispatchExhausted run task reason)) :
    dispatchMaxAttempts ≤ p.2 (run, task) := by
  obtain ⟨ids, b, rs, op, ops, rest, -, ht, hop⟩ := call_of_statement hs rfl
  cases op <;> cases hop
  exact (charged_of_reachable h).exhausted _ ht rs _ rfl task reason mem_cons_self

end

end Leoflow
