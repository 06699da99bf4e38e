import Leoflow.Lib.Fence
import Leoflow.System.WellFormed

/-!
# The tick writes what it has read

A tick plans on the snapshot of a run and writes later. `UpdateTaskInstanceStateByRunTask` and its
batched form address a row by run and task alone, so what another party wrote in between is lost.
-/

namespace Leoflow

open Lib (Fence)

/-- No other party moves the state or the try of a row the tick may still move. -/
def Undisturbed (w : World) (a : Action) : Prop :=
  (∀ t, a ≠ .tick t) → ∀ t run, w.ctl.tick = some t → ∀ r ∈ w.db.tis, r.dagRunId = run.runID →
    t.Pends run r.taskId → ((w.write a).row w.db r).state = r.state ∧ ((w.write a).row w.db r).tryNumber = r.tryNumber

/-- A call of the tick changes the row of a task it moves only while the row has the state and the
try of the snapshot. -/
def WritesSnapshot (w : World) (a : Action) : Prop :=
  match w.ctl.tick, a with
  | some (.advancing _ run (op :: _) _), .tick (.call ids) =>
    ∀ r ∈ w.db.tis, r.taskId ∈ op.tasks → (op.write run ids).row w.db r ≠ r →
      run.states.lookup r.taskId = some r.state ∧ run.tries.lookup r.taskId = some (r.tryNumber : Int)
  | _, _ => True

instance (w : World) (a : Action) : Decidable (WritesSnapshot w a) := by
  unfold WritesSnapshot
  split <;> infer_instance

/-! ## The snapshot as a token -/

/-- A row's token is its state and try; a tick holds what its snapshot shows of the rows it may
still move. -/
def snapshotFence : Fence World (String × String) (Option TaskState × Option Int) where
  token w i k := ∀ r ∈ w.db.tis, r.key = i → k = (some r.state, some (r.tryNumber : Int))
  holds w i k := ∃ t run, w.ctl.tick = some t ∧ run.runID = i.1 ∧ t.Pends run i.2 ∧
    k = (run.states.lookup i.2, run.tries.lookup i.2)

section Step

variable {cfg : Config} {w w' : World} {a : Action}

theorem token_step (hw : w.WellFormed) (h : w.step cfg a = some w') {i : String × String}
    {k : Option TaskState × Option Int} (hi : ∃ r ∈ w.db.tis, r.key = i)
    (hrow : ∀ r ∈ w.db.tis, r.key = i → ((w.write a).row w.db r).state = r.state ∧
      ((w.write a).row w.db r).tryNumber = r.tryNumber)
    (hk : snapshotFence.token w i k) : snapshotFence.token w' i k := by
  intro r' hr' hkey
  rcases (World.mem_step_tis h).mp hr' with ⟨r, hr, rfl⟩ | hins
  · have hkey' : r.key = i := by simpa using hkey
    rw [(hrow r hr hkey').1, (hrow r hr hkey').2]
    exact hk r hr hkey'
  · obtain ⟨r, hr, rfl⟩ := hi
    exact absurd hkey (inserted_key_ne hw hins hr)

/-- A tick's step keeps the fence: a snapshot is issued with the rows as they are, and no row is moved
that is still to be moved. -/
theorem respects_tick (hw : w.WellFormed) {ta : TickAction}
    (h : w.step cfg (.tick ta) = some w') : snapshotFence.Respects w w' := by
  rintro ⟨run, task⟩ k ⟨t', run', ht', rfl, hp, rfl⟩
  have hm := World.tick_moves h
  rw [ht'] at hm
  have hrow : ∀ r ∈ w.db.tis, r.key = (run'.runID, task) → ((w.write (.tick ta)).row w.db r).state = r.state ∧
        ((w.write (.tick ta)).row w.db r).tryNumber = r.tryNumber := by
    intro r _ hkey
    obtain ⟨hrun, rfl⟩ := Prod.mk.inj hkey
    exact ⟨tick_keeps TaskInstance.state (fun _ _ => rfl) hw h ht' hrun hp,
      tick_keeps TaskInstance.tryNumber (fun _ _ => rfl) hw h ht' hrun hp⟩
  rcases hm.pends hp with ⟨rfl, d, rfl, -⟩ | ⟨t, run, ht, hp0, hsame⟩
  · left
    intro r hr hkey
    rw [World.tis_of_nothing h (World.write_tick (by simp))] at hr
    obtain ⟨hrun, rfl⟩ := Prod.mk.inj hkey
    have hshow := snapshot_shows cfg hw.keyed hr hrun
    rw [hshow.1, hshow.2]
  · have hrows := hw.rows t run task ht hp0
    rcases hsame with rfl | ⟨b, rfl⟩
    · exact .inr ⟨⟨t, run', ht, rfl, hp0, rfl⟩, token_step hw h hrows hrow⟩
    · exact .inr ⟨⟨t, run, ht, rfl, hp0, rfl⟩, token_step hw h hrows hrow⟩

/-- Every step that leaves the tick's rows alone keeps the fence. -/
theorem respects_step (hw : w.WellFormed) (hc : Undisturbed w a) (h : w.step cfg a = some w') :
    snapshotFence.Respects w w' := by
  by_cases ha : ∃ t, a = .tick t
  · obtain ⟨ta, rfl⟩ := ha
    exact respects_tick hw h
  · have ha' : ∀ t, a ≠ .tick t := fun t he => ha ⟨t, he⟩
    rintro ⟨run, task⟩ k ⟨t, run', ht, rfl, hp, hk⟩
    rw [World.tick_of_not_tick h ha'] at ht
    refine .inr ⟨⟨t, run', ht, rfl, hp, hk⟩, token_step hw h (hw.rows t run' task ht hp) ?_⟩
    intro r hr hkey
    obtain ⟨hrun, rfl⟩ := Prod.mk.inj hkey
    exact hc ha' t run' ht r hr hrun hp

end Step

/-- **The tick writes what it has read.** In every run in which no other party moves a row the tick
may still move, each call of the tick changes a row only while it has the state and the try of the
snapshot. -/
theorem tick_writes_snapshot {cfg : Config} {w : World} (h : (World.system cfg).Reaches Undisturbed w)
    (a : Action) : WritesSnapshot w a := by
  have hfence : snapshotFence.Current w := by
    refine h.invariant (fun w hi => ?_) fun w a w' hr hw hc hs => ?_
    · obtain ⟨now, rfl⟩ := hi
      rintro i k ⟨t, run, ht, -⟩
      cases ht
    · exact hw.step (respects_step (wellFormed_reaches hr) hc hs)
  unfold WritesSnapshot
  split
  next b run op ops rest ids ht =>
    intro r hr htask hrow
    obtain ⟨s, hs, hg⟩ := Write.statement_of_row_ne hrow
    have hpend : (Tick.advancing b run (op :: ops) rest).Pends run r.taskId :=
      .inr ⟨_, rfl, List.mem_append_left _ htask⟩
    have htoken := hfence r.key _ ⟨_, run, ht, (Op.guard_run hs hg).1.symm, hpend, rfl⟩ r hr rfl
    exact ⟨congrArg Prod.fst htoken, congrArg Prod.snd htoken⟩
  · trivial

/-- Every action is allowed between two ticks, and the tick's own at any time. -/
def isQuiet (w : World) : Action → Bool
  | .tick _ => true
  | _ => w.ctl.tick.isNone

theorem undisturbed_of_isQuiet (w : World) (a : Action) (h : isQuiet w a) : Undisturbed w a := by
  intro ha t run ht
  cases a with
  | tick t => exact absurd rfl (ha t)
  | _ => simp [isQuiet, ht] at h

/-- A run of one task until the tick is about to move it to `scheduled`. -/
theorem tick_writes_snapshot_scheduled : ∃ w, (World.system oneTask).runIf isQuiet (.empty 1)
        (materialize "run" "v1" ["ti"] ++ tickStarts) = some w ∧
      w.db.tis.map ((w.write (.tick (.call []))).row w.db) ≠ w.db.tis ∧
      WritesSnapshot w (.tick (.call [])) := by
  have hrun := (Option.some_get (x := (World.system oneTask).runIf isQuiet
    (.empty 1) (materialize "run" "v1" ["ti"] ++ tickStarts)) (by decide)).symm
  exact ⟨_, hrun, by decide, tick_writes_snapshot
    (Lib.System.Reaches.runIf (.init ⟨1, rfl⟩) undisturbed_of_isQuiet hrun) _⟩

/-! ## A report between the dispatch and the `queued` write -/

/-- The `queued` write after the dispatch puts a row back that is already running. -/
theorem queued_write_overwrites_running :
    ¬ ∀ cfg w a w', (World.system cfg).Reachable w → w.step cfg a = some w' → WritesSnapshot w a := by
  intro h
  have hr : (World.system oneTask).Reachable
      (((World.system oneTask).run (.empty 1) (dispatched ++ startsRunning)).get (by decide)) :=
    .run (.init ⟨1, rfl⟩) (Option.some_get _).symm
  exact absurd (h oneTask _ (.tick (.call [])) _ hr (Option.some_get (by decide)).symm) (by decide)

end Leoflow
