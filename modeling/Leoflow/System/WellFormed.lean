import Leoflow.System.Effects

/-!
# Keys and snapshots

What holds in every run without any condition: row ids, `(run, task)` keys and run ids are distinct;
the runs a tick works on are distinct; no two pending calls of a tick move one row; a run whose
snapshot had no rows still has none when its tasks are materialised; and every other row a tick may
move exists.
-/

namespace Leoflow

open Lib (GoMap)
open World TaskSpec List

variable {r s : TaskInstance} {task : String} {t : Option Tick} {t' : Tick} {run' : RunState}
    {db' : Database} {op : Op} {ops : List Op} {cond : World → Action → Prop}

/-! ## Distinct keys -/

/-- Distinct ids and keys. -/
structure Database.Keyed (db : Database) : Prop where
  ids : (db.tis.map TaskInstance.id).Nodup
  keys : (db.tis.map TaskInstance.key).Nodup
  runs : (db.runs.map DagRun.id).Nodup

namespace Database.Keyed

variable {db : Database}

section

variable (h : db.Keyed)
include h

theorem eq_of_id (hr : r ∈ db.tis) (hs : s ∈ db.tis) (he : r.id = s.id) : r = s :=
  inj_on_of_nodup_map h.ids hr hs he

theorem eq_of_key (hr : r ∈ db.tis) (hs : s ∈ db.tis) (he : r.key = s.key) : r = s :=
  inj_on_of_nodup_map h.keys hr hs he

theorem eq_of_isFor {run : String} (hr : r ∈ db.tis) (hs : s ∈ db.tis)
    (h1 : r.isFor run task) (h2 : s.isFor run task) : r = s := by
  simp only [TaskInstance.isFor, Bool.and_eq_true, beq_iff_eq] at h1 h2
  exact h.eq_of_key hr hs (by simp [TaskInstance.key, h1, h2])

theorem any_id (hr : r ∈ db.tis) (p : TaskInstance → Bool) : (db.tis.any fun s => s.id == r.id && p s) = p r := by
  rw [Bool.eq_iff_iff, any_eq_true]
  constructor
  · rintro ⟨s, hs, hp⟩
    simp only [Bool.and_eq_true, beq_iff_eq] at hp
    exact h.eq_of_id hs hr hp.1 ▸ hp.2
  · exact fun hp => ⟨r, hr, by simp [hp]⟩

theorem find?_id (hr : r ∈ db.tis) : db.tis.find? (·.id == r.id) = some r :=
  Lib.find?_of_nodup h.ids hr

theorem taskIds (run : String) : ((listTaskInstancesByRun db run).map TaskInstance.taskId).Nodup := by
  have hnd : ((listTaskInstancesByRun db run).map TaskInstance.key).Nodup := by
    refine ((perm_insertionSort _ _).map _).nodup_iff.mpr ?_
    exact h.keys.sublist (filter_sublist.map _)
  refine List.Nodup.of_map (fun t => (run, t)) ?_
  rw [map_map]
  refine (map_congr_left fun r hr => ?_) ▸ hnd
  have : r.dagRunId = run := by
    have := (mem_insertionSort _).mp hr
    simpa using (mem_filter.mp this).2
  simp [TaskInstance.key, this]

end

end Database.Keyed

theorem listActiveDagRuns_nodup {db : Database} (h : db.Keyed) : ((listActiveDagRuns db).map DagRun.id).Nodup := by
  refine ((perm_insertionSort _ _).map _).nodup_iff.mpr ?_
  exact h.runs.sublist (filter_sublist.map _)

/-! ## Snapshots -/

section Snapshot

variable {cfg : Config} {db : Database} {d : DagRun}

@[simp] theorem snapshot_runID : (snapshot cfg db d).runID = d.id := rfl

theorem snapshot_tasks_nodup : ((snapshot cfg db d).tasks.map taskID).Nodup := by
  have := (cfg.spec d.dagVersionId).distinct
  rwa [← applyDefaultRetries_taskIDs] at this

theorem snapshot_shows (cfg : Config) (hk : db.Keyed) (hr : r ∈ db.tis) (hrun : r.dagRunId = d.id) :
    (snapshot cfg db d).states.lookup r.taskId = some r.state ∧
      (snapshot cfg db d).tries.lookup r.taskId = some (r.tryNumber : Int) := by
  have hmem := mem_listTaskInstancesByRun.mpr ⟨hr, hrun⟩
  exact ⟨GoMap.lookup_collect (hk.taskIds d.id) hmem, GoMap.lookup_collect (hk.taskIds d.id) hmem⟩

theorem snapshot_empty (hk : db.Keyed) (h : (snapshot cfg db d).states.keys = []) (hr : r ∈ db.tis) :
    r.dagRunId ≠ d.id := by
  intro hrun
  have hs := (snapshot_shows cfg hk hr hrun).1
  have hmem := AList.lookup_isSome.mp (Option.isSome_of_eq_some hs)
  rw [AList.mem_keys, h] at hmem
  cases hmem

end Snapshot

/-! ## The tick -/

/-- The runs a tick has still to read. -/
def Tick.todo : Tick → List DagRun
  | loading todo _ => todo
  | _ => []

/-- The runs it has read and not come to. -/
def Tick.waiting : Tick → List RunState
  | loading _ loaded => loaded
  | between _ rest => rest
  | advancing _ _ _ rest => rest

/-- The run a tick advances, with the calls it has still to make. -/
def Tick.current? : Tick → Option (RunState × List Op)
  | advancing _ run ops _ => some (run, ops)
  | _ => none

/-- The tick has read the run and may still move the row of the task. -/
def Tick.Pends (t : Tick) (run : RunState) (task : String) : Prop :=
  (run ∈ t.waiting ∧ run.MayPlan task) ∨ ∃ ops, t.current? = some (run, ops) ∧ task ∈ opTasks ops

/-- The calls pending for a run: none moves a row another one moves, each moves a row the planner would move, rows
are only materialised for a run that has none, and a final state is only written alone. -/
structure Pending (db : Database) (run : RunState) (ops : List Op) : Prop where
  tasks : (run.tasks.map taskID).Nodup
  once : (opTasks ops).Nodup
  planned : ∀ task ∈ opTasks ops, run.MayPlan task
  first : Op.materializeTasks ∉ ops.tail
  materializing : ops.head? = some .materializeTasks → ∀ r ∈ db.tis, r.dagRunId ≠ run.runID
  last : ∀ s, s.isTerminal → Op.setRunState s ∈ ops → ops = [.setRunState s]

/-- The well-formedness of a tick. -/
structure Tick.Ok (db : Database) (t : Tick) : Prop where
  distinct : (t.todo.map DagRun.id ++ t.current?.toList.map (fun c => c.1.runID) ++ t.waiting.map RunState.runID).Nodup
  tasks : ∀ run ∈ t.waiting, (run.tasks.map taskID).Nodup
  empty : ∀ run ∈ t.waiting, run.states.keys = [] → ∀ r ∈ db.tis, r.dagRunId ≠ run.runID
  pending : ∀ run ops, t.current? = some (run, ops) → Pending db run ops

/-- The invariant of all runs. -/
structure World.WellFormed (w : World) : Prop where
  keyed : w.db.Keyed
  tick : ∀ t, w.ctl.tick = some t → t.Ok w.db
  rows : ∀ t run task, w.ctl.tick = some t → t.Pends run task → ∃ r ∈ w.db.tis, r.key = (run.runID, task)

theorem Budget.mayPlan_of_prepare (b : Budget) {run : RunState} (h : (b.prepare run).MayPlan task) :
    run.MayPlan task := by
  obtain ⟨t, ht, he, target, h | hs⟩ := h
  · exact ⟨t, ht, he, target, .inl h⟩
  · exact ⟨t, ht, he, target, .inr ⟨hs.undecided, hs.rail⟩⟩

/-- The tick has the run waiting, as `waits` says, or advances it with calls left as `has` says. -/
def Tick.Carries (waits : RunState → Prop) (has : List Op → Prop) (t : Tick) (run : RunState) : Prop :=
  (run ∈ t.waiting ∧ waits run) ∨ ∃ ops, t.current? = some (run, ops) ∧ has ops

section

variable {cfg : Config} {db : Database} {a : TickAction} (hm : Tick.Moves cfg db t a (some t'))
include hm

theorem Tick.Moves.carries {waits : RunState → Prop} {has : List Op → Prop} (h : t'.Carries waits has run')
    (hstart : ∀ (b : Budget) r, has ((b.prepare r).advance cfg.dispatcher) → waits r)
    (hdispatch : ∀ (run : RunState) task o ops, has (run.afterDispatch task db.now o :: ops) →
      has (.dispatch task :: ops)) (hcall : ∀ op ops, has ops → has (op :: ops)) :
    (∃ d todo loaded, t = some (.loading (d :: todo) loaded) ∧ a = .load ∧ run' = snapshot cfg db d ∧ waits run') ∨
    ∃ t₀ run, t = some t₀ ∧ t₀.Carries waits has run ∧ (run' = run ∨ ∃ b : Budget, run' = b.prepare run) := by
  cases hm with
  | begin => rcases h with ⟨hmem, -⟩ | ⟨_, hc, -⟩ <;> simp [Tick.waiting, Tick.current?] at *
  | load d todo loaded =>
    rcases h with ⟨hmem, hw⟩ | ⟨_, hc, -⟩
    · rcases mem_append.mp hmem with hmem | hmem
      · exact .inr ⟨_, run', rfl, .inl ⟨hmem, hw⟩, .inl rfl⟩
      · exact .inl ⟨d, todo, loaded, rfl, rfl, mem_singleton.mp hmem, hw⟩
    · simp [Tick.current?] at hc
  | start b r rest =>
    right
    rcases h with ⟨hmem, hw⟩ | ⟨ops, hc, hops⟩
    · exact ⟨_, run', rfl, .inl ⟨mem_cons_of_mem _ hmem, hw⟩, .inl rfl⟩
    · cases hc
      exact ⟨_, r, rfl, .inl ⟨mem_cons_self, hstart b r hops⟩, .inr ⟨b, rfl⟩⟩
  | dispatch b run task ops rest outcome =>
    refine .inr ⟨_, run', rfl, h.imp id ?_, .inl rfl⟩
    rintro ⟨ops', hc, hops⟩
    cases hc
    exact ⟨_, rfl, hdispatch _ _ _ _ hops⟩
  | call | skip =>
    refine .inr ⟨_, run', rfl, h.imp id ?_, .inl rfl⟩
    rintro ⟨ops', hc, hops⟩
    cases hc
    exact ⟨_, rfl, hcall _ _ hops⟩
  | loaded | abandon | finish =>
    refine .inr ⟨_, run', rfl, h.imp id ?_, .inl rfl⟩
    rintro ⟨_, hc, -⟩
    simp [Tick.current?] at hc

theorem Tick.Moves.pends (hp : t'.Pends run' task) : (a = .load ∧ ∃ d, run' = snapshot cfg db d ∧ run'.MayPlan task) ∨
    ∃ t₀ run, t = some t₀ ∧ t₀.Pends run task ∧ (run' = run ∨ ∃ b : Budget, run' = b.prepare run) := by
  have hp : t'.Carries (fun run => run.MayPlan task) (fun ops => task ∈ opTasks ops) run' := hp
  have hdispatch : ∀ (run : RunState) task' o ops, task ∈ opTasks (run.afterDispatch task' db.now o :: ops) →
        task ∈ opTasks (.dispatch task' :: ops) := by
    intro run task' o ops htask
    simp only [opTasks, flatMap_cons, run.afterDispatch_tasks task' db.now o] at htask
    exact htask
  rcases hm.carries hp (fun b r htask => b.mayPlan_of_prepare ((b.prepare r).mayPlan_of_mem_advance htask)) hdispatch
    (fun op ops htask => mem_append_right _ htask) with
    ⟨d, -, -, -, rfl, hrun, hplan⟩ | hbefore
  · exact .inl ⟨rfl, d, hrun, hplan⟩
  · exact .inr hbefore

end

/-- The tick has read the run and has not finished it. -/
def Tick.Holds (t : Tick) (run : RunState) : Prop :=
  run ∈ t.waiting ∨ ∃ ops, t.current? = some (run, ops) ∧ ops ≠ []

/-- A run held after a move was held before, unless the move reads it. -/
theorem Tick.Moves.holds {cfg : Config} {db : Database} {a : TickAction}
    (hm : Tick.Moves cfg db t a (some t')) (hh : t'.Holds run') :
    (∃ d todo loaded, t = some (.loading (d :: todo) loaded) ∧ a = .load ∧ run' = snapshot cfg db d) ∨
    ∃ t₀ run, t = some t₀ ∧ t₀.Holds run ∧ run.runID = run'.runID ∧
      run.dagVersionID = run'.dagVersionID ∧ run.tasks = run'.tasks := by
  have hh : t'.Carries (fun _ => True) (· ≠ []) run' := hh.imp_left (⟨·, trivial⟩)
  rcases hm.carries hh (fun _ _ _ => trivial) (fun _ _ _ _ _ => cons_ne_nil _ _) (fun _ _ _ => cons_ne_nil _ _) with
    ⟨d, todo, loaded, ht, ha, hrun, -⟩ | ⟨t₀, run, ht, hh0, hsame⟩
  · exact .inl ⟨d, todo, loaded, ht, ha, hrun⟩
  · refine .inr ⟨t₀, run, ht, hh0.imp_left And.left, ?_⟩
    rcases hsame with rfl | ⟨b, rfl⟩ <;> exact ⟨rfl, rfl, rfl⟩

/-! ## Preservation -/

section Step

variable {cfg : Config} {w w' : World} {a : Action}

theorem no_rows_step (h : w.step cfg a = some w') {id : String}
    (hno : ∀ r ∈ w.db.tis, r.dagRunId ≠ id) (hins : ∀ r ∈ (w.write a).inserted, r.dagRunId ≠ id) :
    ∀ r ∈ w'.db.tis, r.dagRunId ≠ id := by
  intro r' hr'
  rcases (mem_step_tis h).mp hr' with ⟨r, hr, rfl⟩ | hr
  · simpa using hno r hr
  · exact hins r' hr

theorem materializedRows_keys {run : String} {tasks : List TaskSpec} {ids : List String}
    (h : (tasks.map taskID).Nodup) : ((materializedRows run tasks ids).map TaskInstance.key).Nodup := by
  have hsub : ((tasks.zip ids).map Prod.fst).Sublist tasks := by
    induction tasks generalizing ids with
    | nil => simp
    | cons t tasks ih =>
      cases ids with
      | nil => simp
      | cons id ids => exact (ih (nodup_cons.mp h).2).cons_cons t
  have hnd : (((tasks.zip ids).map Prod.fst).map taskID).Nodup := h.sublist (hsub.map _)
  rw [map_map] at hnd
  refine List.Nodup.of_map Prod.snd ?_
  rw [materializedRows, map_map, map_map]
  exact hnd

/-- The inserts of a step belong to the run being advanced, which has no rows yet. -/
theorem inserted_run (hw : w.WellFormed) (hr : r ∈ (w.write a).inserted) :
    ∃ t run ops, w.ctl.tick = some t ∧ t.current? = some (run, ops) ∧ r.dagRunId = run.runID ∧
      ∀ s ∈ w.db.tis, s.dagRunId ≠ run.runID := by
  obtain ⟨ids, b, run, ops, rest, t, id, -, ht, -, rfl⟩ := mem_inserted hr
  exact ⟨_, run, _, ht, rfl, rfl, ((hw.tick _ ht).pending run _ rfl).materializing rfl⟩

theorem inserted_key_ne (hw : w.WellFormed) (hs : s ∈ (w.write a).inserted) (hr : r ∈ w.db.tis) : s.key ≠ r.key := by
  obtain ⟨t, run, ops, -, -, hrun, hno⟩ := inserted_run hw hs
  exact fun hk => hno r hr ((congrArg Prod.fst hk).symm.trans hrun)

theorem inserted_keys (hw : w.WellFormed) : ((w.write a).inserted.map TaskInstance.key).Nodup := by
  rcases w.inserted_eq a with he | ⟨ids, b, run, ops, rest, -, ht, he⟩
  · rw [he]; exact nodup_nil
  · rw [he]; exact materializedRows_keys ((hw.tick _ ht).pending run _ rfl).tasks

theorem inserted_id_ne (h : w.step cfg a = some w') (hs : s ∈ (w.write a).inserted) : ∀ r ∈ w.db.tis, r.id ≠ s.id := by
  intro r hr he
  have hacc := accepts_inserted h
  simp only [Database.accepts, Bool.and_eq_true, all_eq_true, Bool.not_eq_true',
    any_eq_false, Bool.or_eq_true, beq_iff_eq, not_or] at hacc
  exact (hacc.2 s hs r hr).1 he

/-- The run rows keep their ids; `createRun` adds one with a fresh id. -/
theorem runs_step (hw : (w.db.runs.map DagRun.id).Nodup) (h : w.step cfg a = some w') :
    (w'.db.runs.map DagRun.id).Nodup := by
  rw [step_runs h, map_append, map_map]
  refine List.Nodup.append (by simpa [Function.comp_def] using hw) ?_ ?_
  · cases w.write a <;> first | exact nodup_nil | exact nodup_singleton _
  · intro id hid hid'
    obtain ⟨d, hd, rfl⟩ := mem_map.mp hid
    obtain ⟨d', hd', he⟩ := mem_map.mp hid'
    exact (mem_createdRuns h hd').2 d hd (by simpa using he.symm)

theorem keyed_step (hw : w.WellFormed) (h : w.step cfg a = some w') : w'.db.Keyed := by
  have hnew : ((w.write a).inserted.map TaskInstance.id).Nodup :=
    of_decide_eq_true ((Bool.and_eq_true _ _).mp (accepts_inserted h)).1
  refine ⟨?_, ?_, runs_step hw.keyed.runs h⟩
  · rw [step_tis h, map_append, map_map, nodup_append]
    refine ⟨by simpa [Function.comp_def] using hw.keyed.ids, hnew, ?_⟩
    rintro id h1 _ h2 rfl
    obtain ⟨r, hr, rfl⟩ := mem_map.mp h1
    obtain ⟨s, hs, he⟩ := mem_map.mp h2
    exact inserted_id_ne h hs r hr (by simpa using he.symm)
  · rw [step_tis h, map_append, map_map, nodup_append]
    refine ⟨by simpa [Function.comp_def] using hw.keyed.keys, inserted_keys hw, ?_⟩
    rintro k h1 _ h2 rfl
    obtain ⟨r, hr, rfl⟩ := mem_map.mp h1
    obtain ⟨s, hs, he⟩ := mem_map.mp h2
    exact inserted_key_ne hw hs hr (by simpa using he)

theorem Pending.tail {db : Database} {run : RunState} (h : Pending db run (op :: ops)) : Pending db' run ops where
  tasks := h.tasks
  once := (nodup_append.mp h.once).2.1
  planned task ht := h.planned task (mem_append_right _ ht)
  first hm := h.first (mem_of_mem_tail hm)
  materializing hm := absurd (mem_of_mem_head? hm) h.first
  last s hs hm := by
    have := h.last s hs (mem_cons_of_mem _ hm)
    rw [(List.cons.inj this).2] at hm
    cases hm

theorem Pending.dispatched {db : Database} {run : RunState}
    (h : Pending db run (.dispatch task :: ops)) (wall : Time) (o : DispatchOutcome) :
    Pending db run (run.afterDispatch task wall o :: ops) := by
  have ht : opTasks (run.afterDispatch task wall o :: ops) = opTasks (.dispatch task :: ops) := by
    simp only [opTasks, flatMap_cons, run.afterDispatch_tasks task wall o]
    rfl
  have hne : (run.afterDispatch task wall o :: ops).head? ≠ some .materializeTasks := by
    intro hm
    have := run.afterDispatch_tasks task wall o
    simp only [List.head?_cons, Option.some.injEq] at hm
    rw [hm] at this
    cases this
  refine ⟨h.tasks, ht ▸ h.once, ht ▸ h.planned, h.first, fun hm => absurd hm hne, ?_⟩
  intro s hs hm
  rcases mem_cons.mp hm with he | hm
  · have := run.afterDispatch_tasks task wall o
    rw [← he] at this
    cases this
  · cases h.last s hs (mem_cons_of_mem _ hm)

theorem Pending.mono {db : Database} {run : RunState} (h : Pending db run ops)
    (hno : (∀ r ∈ db.tis, r.dagRunId ≠ run.runID) → ∀ r ∈ db'.tis, r.dagRunId ≠ run.runID) : Pending db' run ops :=
  ⟨h.tasks, h.once, h.planned, h.first, fun hm => hno (h.materializing hm), h.last⟩

/-- Only a queued run without rows is materialised, before anything else. -/
theorem advance_materializes {run : RunState} {dispatcher : Bool} (h : Op.materializeTasks ∈ run.advance dispatcher) :
    run.states.keys = [] ∧ run.advance dispatcher = [.materializeTasks, .setRunState .running] := by
  unfold RunState.advance at h ⊢
  split at h
  next hq =>
    exact ⟨hq.2, by rw [if_pos hq]⟩
  · simp only [mem_append, mem_flatMap, mem_map, RunState.flushTransitions,
      reduceCtorEq, and_false, exists_false, or_false] at h
    obtain ⟨t, -, ht⟩ := h
    unfold RunState.applyPlanned at ht
    (repeat' split at ht) <;> simp_all [RunState.failUndispatchable]

theorem pending_advance {db : Database} {run : RunState} (dispatcher : Bool) (htasks : (run.tasks.map taskID).Nodup)
    (hempty : run.states.keys = [] → ∀ r ∈ db.tis, r.dagRunId ≠ run.runID) :
    Pending db run (run.advance dispatcher) := by
  refine ⟨htasks, run.advance_nodup dispatcher htasks, fun _ => run.mayPlan_of_mem_advance, ?_, ?_,
    fun s hs hm => (run.advance_of_final hs hm).2⟩
  · intro hm
    rw [(advance_materializes (mem_of_mem_tail hm)).2] at hm
    simp at hm
  · intro hm
    exact hempty (advance_materializes (mem_of_mem_head? hm)).1

/-- A tick of which no run gained rows stays well-formed. -/
theorem Tick.Ok.mono {db : Database} {t : Tick} (h : t.Ok db)
    (hno : ∀ id, (∀ r ∈ db.tis, r.dagRunId ≠ id) → ∀ r ∈ db'.tis, r.dagRunId ≠ id) : t.Ok db' where
  distinct := h.distinct
  tasks := h.tasks
  empty run hr hk := hno _ (h.empty run hr hk)
  pending run ops hc := (h.pending run ops hc).mono (hno _)

theorem no_rows_of_no_inserts (h : w.step cfg a = some w') (hins : (w.write a).inserted = [])
    (id : String) (hno : ∀ r ∈ w.db.tis, r.dagRunId ≠ id) : ∀ r ∈ w'.db.tis, r.dagRunId ≠ id :=
  no_rows_step h hno (by simp [hins])

theorem Tick.Ok.call {b : Budget} {run : RunState} {rest : List RunState}
    (hok : (Tick.advancing b run (op :: ops) rest).Ok w.db)
    (hno : ∀ r ∈ rest, (∀ s ∈ w.db.tis, s.dagRunId ≠ r.runID) → ∀ s ∈ w'.db.tis, s.dagRunId ≠ r.runID) :
    (Tick.advancing b run ops rest).Ok w'.db where
  distinct := hok.distinct
  tasks := hok.tasks
  empty r hr hk := hno r hr (hok.empty r hr hk)
  pending run' ops' hc := by
    cases hc
    exact (hok.pending run (op :: ops) rfl).tail

section

variable {db : Database} {b : Budget} {run : RunState} {rest : List RunState}

theorem Tick.Ok.run_ne (hok : (Tick.advancing b run ops rest).Ok db) {r : RunState} (hr : r ∈ rest) :
    r.runID ≠ run.runID := by
  intro he
  have := hok.distinct
  simp only [Tick.todo, Tick.current?, Tick.waiting, map_nil, Option.toList_some,
    map_cons, nil_append, cons_append, nodup_cons] at this
  exact this.1 (he ▸ mem_map_of_mem hr)

/-- What is left to do after a call is about other rows than the call. -/
theorem Tick.Ok.not_moved (hok : (Tick.advancing b run (op :: ops) rest).Ok db)
    (hp : (Tick.advancing b run ops rest).Pends run' task) (hrun : run'.runID = run.runID) : task ∉ op.tasks := by
  rcases hp with ⟨hmem, -⟩ | ⟨ops', hc, ht⟩
  · exact absurd hrun (hok.run_ne hmem)
  · cases hc
    intro hop
    exact (nodup_append.mp (hok.pending _ _ rfl).once).2.2 task hop task ht rfl

end

section Moves

variable {db : Database} {b : Budget} {run : RunState} {rest : List RunState}

theorem Tick.Ok.begun (hk : db.Keyed) : (Tick.loading (listActiveDagRuns db) []).Ok db where
  distinct := by simpa [todo, current?, waiting] using listActiveDagRuns_nodup hk
  tasks _ hr := by cases hr
  empty _ hr := by cases hr
  pending _ _ hc := by cases hc

theorem Tick.Ok.load {d : DagRun} {todo : List DagRun} {loaded : List RunState} (hk : db.Keyed)
    (h : (Tick.loading (d :: todo) loaded).Ok db) : (Tick.loading todo (loaded ++ [snapshot cfg db d])).Ok db where
  distinct := by
    have hd := h.distinct
    simp only [Tick.todo, current?, waiting, Option.toList_none, map_nil,
      append_nil, map_cons, cons_append, map_append] at hd ⊢
    rw [← append_assoc]
    exact (perm_append_singleton _ _).nodup_iff.mpr hd
  tasks run hrun := by
    rcases mem_append.mp hrun with hr | hr
    · exact h.tasks run hr
    · rw [mem_singleton.mp hr]
      exact snapshot_tasks_nodup
  empty run hrun hempty := by
    rcases mem_append.mp hrun with hr | hr
    · exact h.empty run hr hempty
    · rw [mem_singleton.mp hr] at hempty ⊢
      exact fun r hr => snapshot_empty hk hempty hr
  pending _ _ hc := by cases hc

theorem Tick.Ok.loaded (h : (Tick.loading [] rest).Ok db) : (Tick.between b rest).Ok db where
  distinct := by simpa [todo, current?, waiting] using h.distinct
  tasks := h.tasks
  empty := h.empty
  pending _ _ hc := by cases hc

theorem Tick.Ok.start (h : (Tick.between b (run :: rest)).Ok db) (dispatcher : Bool) :
    (Tick.advancing b (b.prepare run) ((b.prepare run).advance dispatcher) rest).Ok db where
  distinct := by simpa [todo, current?, waiting] using h.distinct
  tasks r hr := h.tasks r (mem_cons_of_mem _ hr)
  empty r hr := h.empty r (mem_cons_of_mem _ hr)
  pending _ _ hc := by
    cases hc
    exact pending_advance dispatcher (h.tasks run mem_cons_self) (h.empty run mem_cons_self)

theorem Tick.Ok.dispatch (now : Time) (outcome : DispatchOutcome)
    (h : (Tick.advancing b run (.dispatch task :: ops) rest).Ok db) :
    (Tick.advancing b run (run.afterDispatch task now outcome :: ops) rest).Ok db where
  distinct := h.distinct
  tasks := h.tasks
  empty := h.empty
  pending _ _ hc := by
    cases hc
    exact (h.pending run _ rfl).dispatched now outcome

/-- The run is left, its calls made or not. -/
theorem Tick.Ok.leave {b' : Budget} (h : (Tick.advancing b run ops rest).Ok db) : (Tick.between b' rest).Ok db where
  distinct := by
    have hd := h.distinct
    simp only [todo, current?, waiting, map_nil, Option.toList_some, map_cons, nil_append, cons_append] at hd
    simpa [todo, current?, waiting] using (nodup_cons.mp hd).2
  tasks := h.tasks
  empty := h.empty
  pending _ _ hc := by cases hc

end Moves

/-- What the tick has read stays true of the tables. -/
theorem tickOk_step (hw : w.WellFormed) (h : w.step cfg a = some w') : ∀ t, w'.ctl.tick = some t → t.Ok w'.db := by
  by_cases ha : ∃ t, a = .tick t
  · obtain ⟨ta, rfl⟩ := ha
    have hm := tick_moves h
    have hok := hw.tick
    have hins := w.inserted_eq (.tick ta)
    intro t' ht'
    rw [ht'] at hm
    generalize hw0 : w.ctl.tick = t0 at hm hok hins
    -- A move other than `MaterializeTasks` inserts nothing.
    have hquiet : (∀ ids, ta ≠ .call ids) → ∀ id, (∀ r ∈ w.db.tis, r.dagRunId ≠ id) →
        ∀ r ∈ w'.db.tis, r.dagRunId ≠ id := by
      intro hne id
      refine no_rows_of_no_inserts h ?_ id
      rcases hins with hins | ⟨ids, _, _, _, _, he, -⟩
      · exact hins
      · cases he
        exact absurd rfl (hne ids)
    cases hm with
    | begin => exact (Tick.Ok.begun hw.keyed).mono (hquiet (by simp))
    | load => exact ((hok _ rfl).load hw.keyed).mono (hquiet (by simp))
    | loaded => exact (hok _ rfl).loaded.mono (hquiet (by simp))
    | start => exact ((hok _ rfl).start _).mono (hquiet (by simp))
    | call b run op ops rest ids hop hacc hids =>
      have ho := hok _ rfl
      refine ho.call fun r hr hno => no_rows_step h hno ?_
      intro s hs
      obtain ⟨t, run', ops', ht, hc, hrun, -⟩ := inserted_run hw hs
      rw [hw0] at ht
      cases ht
      cases hc
      rw [hrun]
      exact (ho.run_ne hr).symm
    | dispatch => exact ((hok _ rfl).dispatch _ _).mono (hquiet (by simp))
    | skip => exact (hok _ rfl).call fun r hr => hquiet (by simp) _
    | abandon | finish => exact (hok _ rfl).leave.mono (hquiet (by simp))
  · have ha' : ∀ t, a ≠ .tick t := fun t he => ha ⟨t, he⟩
    intro t ht
    rw [tick_of_not_tick h ha'] at ht
    refine (hw.tick t ht).mono (no_rows_of_no_inserts h ?_)
    rcases w.inserted_eq a with he | ⟨_, _, _, _, _, he, -⟩
    · exact he
    · exact absurd he (ha' _)

theorem key_mem_step (h : w.step cfg a = some w') {k : String × String}
    (hk : ∃ r ∈ w.db.tis, r.key = k) : ∃ r ∈ w'.db.tis, r.key = k := by
  obtain ⟨r, hr, rfl⟩ := hk
  exact ⟨_, (mem_step_tis h).mpr (.inl ⟨r, hr, rfl⟩), by simp⟩

/-- The rows a tick may move exist: the snapshot showed them, and no row is ever deleted. -/
theorem rows_step (hw : w.WellFormed) (h : w.step cfg a = some w') (t : Tick) (run : RunState)
    (task : String) (ht : w'.ctl.tick = some t) (hp : t.Pends run task) :
    ∃ r ∈ w'.db.tis, r.key = (run.runID, task) := by
  refine key_mem_step h ?_
  rcases tick_step h ht with ⟨ta, rfl, hm⟩ | ⟨-, ht⟩
  · rcases hm.pends hp with ⟨-, d, rfl, hplan⟩ | ⟨t₀, run0, ht0, hp0, hsame⟩
    · obtain ⟨s, hs, -⟩ := hplan.lookup
      obtain ⟨r, hr, htask, -⟩ := GoMap.mem_of_lookup_collect hs
      obtain ⟨hr, hrun⟩ := mem_listTaskInstancesByRun.mp hr
      exact ⟨r, hr, by rw [TaskInstance.key, hrun, htask, snapshot_runID]⟩
    · have hrows := hw.rows t₀ run0 task ht0 hp0
      rcases hsame with rfl | ⟨b, rfl⟩ <;> exact hrows
  · exact hw.rows t run task ht hp

section

variable {β : Type} (g : TaskInstance → β) (hg : ∀ r note, g { r with note := note } = g r)
include g hg

/-- A tick's step leaves a row that is still to be moved after it as it is, up to the note. -/
theorem tick_keeps (hw : w.WellFormed) {ta : TickAction}
    (h : w.step cfg (.tick ta) = some w') {t : Tick} (ht : w'.ctl.tick = some t) {run : RunState}
    (hr : r.dagRunId = run.runID) (hp : t.Pends run r.taskId) : g ((w.write (.tick ta)).row w.db r) = g r := by
  by_cases hcall : ∃ ids, ta = .call ids
  · obtain ⟨ids, rfl⟩ := hcall
    have hm := tick_moves h
    rw [ht] at hm
    generalize htick : w.ctl.tick = t₀ at hm
    cases hm with
    | call b run' op ops rest =>
      have hwrite : w.write (.tick (.call ids)) = op.write run' ids := by
        simp [World.write, htick, Tick.write]
      rw [hwrite]
      refine Op.row_congr_of_not_mem g hg ids fun hrun => ?_
      exact (hw.tick _ htick).not_moved hp (hr.symm.trans hrun)
  · rw [write_tick fun ids he => hcall ⟨ids, he⟩]
    rfl

/-- What holds of the rows a tick may still move: read off the snapshot and kept by the tick as long as the row is
pending, it has to be shown for the steps of the other parties. -/
theorem pending_step {P Q : RunState → TaskInstance → Prop} (hw : w.WellFormed) (h : w.step cfg a = some w')
    (hP : ∀ t run, w.ctl.tick = some t → ∀ r ∈ w.db.tis, r.dagRunId = run.runID → t.Pends run r.taskId → P run r)
    (hprepare : ∀ (b : Budget) run r, P run r → P (b.prepare run) r)
    (hload : a = .tick .load → ∀ d, ∀ r ∈ w.db.tis, r.dagRunId = d.id →
      (snapshot cfg w.db d).MayPlan r.taskId → Q (snapshot cfg w.db d) r)
    (htick : ∀ ta, a = .tick ta → ∀ run, ∀ r ∈ w.db.tis, r.dagRunId = run.runID → P run r →
      g ((w.write a).row w.db r) = g r → Q run ((w.write a).row w.db r))
    (hother : (∀ ta, a ≠ .tick ta) → ∀ t run, w.ctl.tick = some t → ∀ r ∈ w.db.tis,
      r.dagRunId = run.runID → t.Pends run r.taskId → P run r → Q run ((w.write a).row w.db r)) :
    ∀ t run, w'.ctl.tick = some t → ∀ r ∈ w'.db.tis, r.dagRunId = run.runID → t.Pends run r.taskId → Q run r := by
  intro t run ht r' hr' hrun hpends
  -- A new row has a key no row had, so the tick cannot have read it.
  have hold : ∀ t₀ run0, w.ctl.tick = some t₀ → t₀.Pends run0 r'.taskId → run0.runID = run.runID →
      ∃ r ∈ w.db.tis, (w.write a).row w.db r = r' := by
    intro t₀ run0 ht0 hp0 hid
    rcases (mem_step_tis h).mp hr' with hr | hins
    · exact hr
    · obtain ⟨r, hr, hkey⟩ := hw.rows t₀ run0 r'.taskId ht0 hp0
      refine absurd ?_ (inserted_key_ne hw hins hr)
      rw [hkey, TaskInstance.key, hrun, hid]
  rcases tick_step h ht with ⟨ta, rfl, hm⟩ | ⟨ha, ht⟩
  · rcases hm.pends hpends with ⟨rfl, d, rfl, hplan⟩ | ⟨t₀, run0, ht0, hp0, hsame⟩
    · rw [World.tis_of_nothing h (write_tick (by simp))] at hr'
      exact hload rfl d r' hr' hrun hplan
    · have hid : run0.runID = run.runID := by rcases hsame with rfl | ⟨b, rfl⟩ <;> rfl
      obtain ⟨r, hr, rfl⟩ := hold t₀ run0 ht0 hp0 hid
      simp only [Write.row_dagRunId, Write.row_taskId] at hrun hpends hp0
      have hrun0 : P run r := by
        have hr0 := hP t₀ run0 ht0 r hr (hrun.trans hid.symm) hp0
        rcases hsame with rfl | ⟨b, rfl⟩
        · exact hr0
        · exact hprepare b run0 r hr0
      exact htick ta rfl run r hr hrun hrun0 (tick_keeps g hg hw h ht hrun hpends)
  · obtain ⟨r, hr, rfl⟩ := hold t run ht hpends rfl
    simp only [Write.row_dagRunId, Write.row_taskId] at hrun hpends
    exact hother ha t run ht r hr hrun hpends (hP t run ht r hr hrun hpends)

end

end Step

/-! ## Rows by key and by id -/

/-- What a statement addresses its row by. -/
inductive Handle where
  | key (run task : String)
  | id (id : String)
deriving DecidableEq

/-- The row is one the handle names. -/
def Handle.covers : Handle → TaskInstance → Bool
  | key run task, r => r.isFor run task
  | id i, r => r.id == i

theorem Handle.covers_row {h : Handle} {db : Database} {wr : Write} : h.covers (wr.row db r) = h.covers r := by
  cases h <;> simp [covers, TaskInstance.isFor]

theorem Handle.eq_of_covers {h : Handle} {db : Database} (hk : db.Keyed) (hr : r ∈ db.tis)
    (hs : s ∈ db.tis) (h1 : h.covers r) (h2 : h.covers s) : r = s := by
  cases h with
  | key run task => exact hk.eq_of_isFor hr hs h1 h2
  | id i => exact hk.eq_of_id hr hs ((beq_iff_eq.mp h1).trans (beq_iff_eq.mp h2).symm)

namespace World

variable {w : World}

theorem rowFor_mem {run : String} (h : w.rowFor run task = some r) : r ∈ w.db.tis ∧ r.isFor run task :=
  ⟨mem_of_find?_eq_some h, List.find?_some h⟩

theorem rowFor_of_dispatches (hw : w.WellFormed) {t : TickAction} {run : String} {buffered : Bool}
    (h : Tick.dispatches w.ctl.tick t = some (run, task, buffered)) : ∃ r, w.rowFor run task = some r := by
  unfold Tick.dispatches at h
  split at h
  next b rs task' ops rest outcome buf ht =>
    simp only [Lib.guard_eq_some, Prod.mk.injEq] at h
    obtain ⟨-, rfl, rfl, -⟩ := h
    obtain ⟨r, hr, hkey⟩ := hw.rows _ rs task' ht (.inr ⟨_, rfl, mem_cons_self⟩)
    refine Option.isSome_iff_exists.mp (List.find?_isSome.mpr ⟨r, hr, ?_⟩)
    obtain ⟨h1, h2⟩ := Prod.mk.inj hkey
    simp [TaskInstance.isFor, h1, h2]
  · cases h

theorem placement_of_dispatches {cfg : Config} {w' : World} (hw : w.WellFormed) {t : TickAction}
    {run : String} {buffered : Bool} (hd : Tick.dispatches w.ctl.tick t = some (run, task, buffered))
    (h : w.step cfg (.tick t) = some w') : ∃ r ∈ w'.db.tis, r.isFor run task ∧
      w'.track.placements r.id = (w.request run task buffered).placement := by
  obtain ⟨r, hr⟩ := rowFor_of_dispatches hw hd
  obtain ⟨hmem, hf⟩ := rowFor_mem hr
  refine ⟨r, ?_, hf, ?_⟩
  · rwa [tis_of_nothing h (write_of_dispatches hd)]
  · rw [step_track h, placements_of_dispatches hd hmem hf]
    simp [request, hr]

end World

variable {w w' : World} {a : Action}

theorem wellFormed_step {cfg : Config} (hw : w.WellFormed) (h : w.step cfg a = some w') : w'.WellFormed :=
  ⟨keyed_step hw h, tickOk_step hw h, rows_step hw h⟩

/-- **Every run keeps the keys distinct and the tick well-formed.** -/
theorem wellFormed_reaches {cfg : Config} (h : (World.system cfg).Reaches cond w) : w.WellFormed := by
  refine h.invariant (fun w hi => ?_) fun w a w' _ hw _ hs => ?_
  · obtain ⟨now, rfl⟩ := hi
    exact ⟨⟨nodup_nil, nodup_nil, nodup_nil⟩, (fun _ ht => by cases ht), fun _ _ _ ht => by cases ht⟩
  · exact wellFormed_step hw hs

/-- Where a call that a tick has still to make comes from: the plan, the dispatch just made, or what
it had to make before, behind the first call if the tick has moved. -/
theorem World.call_step {cfg : Config} (h : w.step cfg a = some w') {t : Tick} (ht : w'.ctl.tick = some t)
    {run : RunState} (hc : t.current? = some (run, ops)) (hop : op ∈ ops) :
    op ∈ run.advance cfg.dispatcher ∨ (∃ b task ops0 rest outcome buffered, a = .tick (.dispatch outcome buffered) ∧
      w.ctl.tick = some (.advancing b run (.dispatch task :: ops0) rest) ∧
      op = run.afterDispatch task w.db.now outcome) ∨
    ∃ t₀ ops0, w.ctl.tick = some t₀ ∧ t₀.current? = some (run, ops0) ∧ op ∈ ops0 ∧
      ((∀ ta, a ≠ .tick ta) ∨ op ∈ ops0.tail) := by
  rcases tick_step h ht with ⟨ta, rfl, hm⟩ | ⟨ha, ht⟩
  · generalize htick : w.ctl.tick = t₀ at hm ⊢
    cases hm with
    | start b r rest =>
      cases hc
      exact .inl hop
    | dispatch b run' task ops' rest outcome buffered =>
      cases hc
      rcases mem_cons.mp hop with rfl | hop
      · exact .inr (.inl ⟨b, task, ops', rest, outcome, buffered, rfl, rfl, rfl⟩)
      · exact .inr (.inr ⟨_, _, rfl, rfl, mem_cons_of_mem _ hop, .inr hop⟩)
    | call | skip =>
      cases hc
      exact .inr (.inr ⟨_, _, rfl, rfl, mem_cons_of_mem _ hop, .inr hop⟩)
    | _ => cases hc
  · exact .inr (.inr ⟨t, ops, ht, hc, hop, .inl ha⟩)

section Calls

variable {cfg : Config} {J : RunState → Op → Prop}
  (hadvance : ∀ run dispatcher, ∀ op ∈ RunState.advance run dispatcher, J run op)
  (hafter : ∀ (run : RunState) task wall outcome, J run (.dispatch task) →
    J run (run.afterDispatch task wall outcome))
include hadvance hafter

theorem calls_step (hw : ∀ t, w.ctl.tick = some t → ∀ run ops, t.current? = some (run, ops) → ∀ op ∈ ops, J run op)
    (h : w.step cfg a = some w') :
    ∀ t, w'.ctl.tick = some t → ∀ run ops, t.current? = some (run, ops) → ∀ op ∈ ops, J run op := by
  intro t ht run ops hc op hop
  rcases call_step h ht hc hop with
    hplan | ⟨b, task, ops0, rest, outcome, buffered, -, ht0, rfl⟩ | ⟨t₀, ops0, ht0, hc0, hop0, -⟩
  · exact hadvance run cfg.dispatcher op hplan
  · exact hafter run task w.db.now outcome (hw _ ht0 run _ rfl _ mem_cons_self)
  · exact hw t₀ ht0 run ops0 hc0 op hop0

/-- **In every run** the calls a tick has still to make rest on its snapshot as the plan's calls do,
where the call that follows a dispatch rests on what the dispatch did. -/
theorem calls_reaches (h : (World.system cfg).Reaches cond w) :
    ∀ t, w.ctl.tick = some t → ∀ run ops, t.current? = some (run, ops) → ∀ op ∈ ops, J run op := by
  refine h.invariant (I := fun w => ∀ t, w.ctl.tick = some t →
    ∀ run ops, t.current? = some (run, ops) → ∀ op ∈ ops, J run op) (fun w hi => ?_)
    fun w a w' _ hw _ hs => ?_
  · obtain ⟨now, rfl⟩ := hi
    exact fun _ ht => by cases ht
  · exact calls_step hadvance hafter hw hs

end Calls

/-- **In every run** the tasks of a run a tick holds are those of a registered version. -/
theorem held_tasks_reaches {cfg : Config} (h : (World.system cfg).Reaches cond w) :
    ∀ t run, w.ctl.tick = some t → t.Holds run → run.tasks = applyDefaultRetries (cfg.spec run.dagVersionID) := by
  refine h.invariant (I := fun w => ∀ t run, w.ctl.tick = some t → t.Holds run →
    run.tasks = applyDefaultRetries (cfg.spec run.dagVersionID)) (fun w hi => ?_)
    fun w a w' _ hw _ hs => ?_
  · obtain ⟨now, rfl⟩ := hi
    exact fun _ _ ht => by cases ht
  · intro t run ht hh
    rcases tick_step hs ht with ⟨ta, rfl, hm⟩ | ⟨-, ht⟩
    · rcases hm.holds hh with ⟨d, _, _, -, -, rfl⟩ | ⟨t₀, run0, ht0, hh0, -, hver, htasks⟩
      · rfl
      · rw [← htasks, ← hver]
        exact hw t₀ run0 ht0 hh0
    · exact hw t run ht hh

end Leoflow
