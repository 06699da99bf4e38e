import Leoflow.System.DispatchGates

/-!
# Reclaim loops

`RequeueForRedispatch` puts a queued row back to `scheduled` and counts nothing. A row that is reclaimed over and over
is bounded by `dispatch_attempts` and spaced by `next_dispatch_at`, which only a failed dispatch writes.
-/

namespace Leoflow

open Lib (GoMap)
open World List

/-! ## The record of a row -/

/-- A dispatch that went through after a reclaim: when the one before the reclaim did, when this one
did, and the attempts charged by then. -/
structure Redispatch where
  before : Time
  after : Time
  attempts : Nat
deriving DecidableEq

/-- What happened to a row: its reclaims at its try and re-place, the attempts charged when it was last reclaimed
if no dispatch has gone through since, when one last did, and those that followed a reclaim. -/
structure Reclaims where
  count : Nat := 0
  since : Option Nat := none
  landed : Option Time := none
  redispatches : List Redispatch := []
deriving DecidableEq

/-- The action takes the task back from a warm worker. -/
def Action.reclaims (r : TaskInstance) : Action → Bool
  | .requeue l => (requeueForRedispatch l.run l.task l.tryNumber).guard r
  | _ => false

/-- A dispatch of the task lands with the action. -/
def World.lands (w : World) (r : TaskInstance) : Action → Bool
  | .tick t => (Tick.dispatches w.ctl.tick t).any fun d => r.isFor d.1 d.2.1
  | _ => false

/-- The record after an action. -/
def Reclaims.noted (g : Reclaims) (w : World) (a : Action) (r : TaskInstance) : Reclaims :=
  if a.reclaims r then { g with count := g.count + 1, since := some r.dispatchAttempts }
  else if w.lands r a then
    { g with
      since := none
      landed := some w.db.now
      redispatches := if g.since.isSome then
          g.landed.toList.map (⟨·, w.db.now, r.dispatchAttempts⟩) ++ g.redispatches
        else g.redispatches }
  else if r.movedOn ((w.write a).row w.db r) then { g with count := 0, since := none }
  else g

/-- The records of all rows, by id. -/
def noteReclaims (w : World) (a : Action) (_ : World) (g : String → Reclaims) (id : String) :
    Reclaims :=
  match w.db.tis.find? fun r => r.id == id with
  | some r => (g id).noted w a r
  | none => g id

/-- The system with that record. -/
abbrev reclaimSystem (cfg : Config) : Lib.System (World × (String → Reclaims)) Action :=
  (World.system cfg).withGhost (fun _ => {}) noteReclaims

/-- A dispatch of a reclaimed row goes through only after a failed one was recorded since; and no
snapshot is read at the zero time, at which the gates of the planner are open. -/
def redispatchIsCharged (p : World × (String → Reclaims)) : Action → Bool
  | .tick .load => p.1.db.now != 0
  | a => p.1.db.tis.all fun r =>
    !p.1.lands r a || (p.2 r.id).since.all fun n => decide (n < r.dispatchAttempts)

/-- At one try and one re-place a row is reclaimed at most as often as dispatches may fail, each reclaim but the
last is charged to its dispatch attempts, and a dispatch after a reclaim is a backoff later than the one before.
-/
structure ReclaimsBounded (g : Reclaims) (r : TaskInstance) : Prop where
  count : (g.count : Int) ≤ dispatchMaxAttempts
  charged : g.count ≤ r.dispatchAttempts + 1
  apart : ∀ x ∈ g.redispatches, x.before + dispatchBackoff x.attempts ≤ x.after

/-! ## The invariant -/

namespace Reclaims

/-- The failure recorded since the last reclaim keeps the next dispatch a backoff away. -/
def Gate (g : Reclaims) (r : TaskInstance) : Prop :=
  ∀ n t, g.since = some n → n < r.dispatchAttempts → g.landed = some t →
    ∃ nextAt, r.nextDispatchAt = some nextAt ∧ t + dispatchBackoff r.dispatchAttempts ≤ nextAt

/-- The invariant of a row. -/
structure Kept (g : Reclaims) (now : Time) (r : TaskInstance) : Prop where
  attempts : (r.dispatchAttempts : Int) < dispatchMaxAttempts
  past : ∀ t, g.landed = some t → t ≤ now
  queued : r.state = .queued → g.since = none
  settled : g.since = none → g.count ≤ r.dispatchAttempts
  charged : ∀ n, g.since = some n → g.count ≤ n + 1 ∧ n ≤ r.dispatchAttempts
  gate : r.state.isDispatchable → g.Gate r
  apart : ∀ x ∈ g.redispatches, x.before + dispatchBackoff x.attempts ≤ x.after

/-- What a row keeps that the tick has read in a state it may be dispatched from and may still
move. -/
structure Read (g : Reclaims) (now : Time) (run : RunState) (r : TaskInstance) : Prop where
  clock : run.now ≠ 0
  past : run.now ≤ now
  attempts : (r.dispatchAttempts : Int) ≤ run.dispatchAttempts.getD r.taskId 0
  next : ∀ n, r.nextDispatchAt = some n → run.nextDispatchAt.lookup r.taskId = some n
  notQueued : r.state ≠ .queued
  landed : g.since.isSome → ∀ t, g.landed = some t → t ≤ run.now
  gate : g.Gate r

variable {g : Reclaims} {now now' : Time} {run : RunState} {r r' : TaskInstance}

/-! ### One row -/

theorem Gate.congr (h : g.Gate r) (hc : r.SameDispatch r') : g.Gate r' := by
  intro n t hn hlt ht
  rw [hc.dispatchAttempts] at hlt ⊢
  rw [hc.nextDispatchAt]
  exact h n t hn hlt ht

section

variable (hk : g.Kept now r)
include hk

theorem Kept.later (hnow : now ≤ now') : g.Kept now' r :=
  { hk with past := fun t ht => (hk.past t ht).trans hnow }

theorem Kept.same (hc : r.SameDispatch r') (hqueued : r'.state = .queued → g.since = none)
    (hgate : r'.state.isDispatchable → g.Gate r) : g.Kept now r' where
  attempts := hc.dispatchAttempts ▸ hk.attempts
  past := hk.past
  queued := hqueued
  settled := hc.dispatchAttempts ▸ hk.settled
  charged := hc.dispatchAttempts ▸ hk.charged
  gate hs := (hgate hs).congr hc
  apart := hk.apart

theorem Kept.reclaimed (hs : r.state = .queued) (hc : r.SameDispatch r') (hs' : r'.state = .scheduled) :
    Kept { g with count := g.count + 1, since := some r.dispatchAttempts } now r' where
  attempts := hc.dispatchAttempts ▸ hk.attempts
  past := hk.past
  queued hq := absurd (hs'.symm.trans hq) (by decide)
  settled hn := by cases hn
  charged n hn := by
    cases hn
    rw [hc.dispatchAttempts]
    exact ⟨Nat.succ_le_succ (hk.settled (hk.queued hs)), Nat.le_refl _⟩
  gate _ n t hn hlt := by
    cases hn
    rw [hc.dispatchAttempts] at hlt
    exact absurd hlt (Nat.lt_irrefl _)
  apart := hk.apart

theorem Kept.landed (hcharged : ∀ n, g.since = some n → n < r.dispatchAttempts)
    (hgate : ∀ t, g.since.isSome → g.landed = some t → t + dispatchBackoff r.dispatchAttempts ≤ now) :
    Kept { g with
      since := none
      landed := some now
      redispatches := if g.since.isSome then
          g.landed.toList.map (⟨·, now, r.dispatchAttempts⟩) ++ g.redispatches
        else g.redispatches } now r where
  attempts := hk.attempts
  past t ht := by
    cases ht
    exact Int.le_refl now
  queued _ := rfl
  settled _ := by
    cases hn : g.since with
    | none => exact hk.settled hn
    | some n => exact (hk.charged n hn).1.trans (hcharged n hn)
  charged n hn := by cases hn
  gate _ n t hn := by cases hn
  apart x hx := by
    split at hx
    next hsince =>
      rcases mem_append.mp hx with hx | hx
      · obtain ⟨t, ht, rfl⟩ := mem_map.mp hx
        exact hgate t hsince (Option.mem_toList.mp ht)
      · exact hk.apart x hx
    · exact hk.apart x hx

theorem Kept.restarted (ha : r'.dispatchAttempts = 0) : Kept { g with count := 0, since := none } now r' where
  attempts := by rw [ha]; decide
  past := hk.past
  queued _ := rfl
  settled _ := Nat.zero_le _
  charged n hn := by cases hn
  gate _ n t hn := by cases hn
  apart := hk.apart

theorem Kept.failed (hr : g.Read now run r) {nextAt : Time}
    (hop : (Op.recordDispatchFailure r.taskId nextAt).Gated run) (hs' : r'.state = .scheduled)
    (ha : r'.dispatchAttempts = r.dispatchAttempts + 1) (hn : r'.nextDispatchAt = some nextAt) : g.Kept now r' where
  attempts := by
    have hlt := hop.2.1
    have hle := hr.attempts
    rw [ha]
    push_cast
    omega
  past := hk.past
  queued hq := absurd (hs'.symm.trans hq) (by decide)
  settled hsince := (hk.settled hsince).trans (ha ▸ Nat.le_succ _)
  charged n hsince := ⟨(hk.charged n hsince).1, (hk.charged n hsince).2.trans (ha ▸ Nat.le_succ _)⟩
  gate _ n t hsince _ ht := by
    refine ⟨nextAt, hn, ?_⟩
    rw [hop.2.2 hr.clock, ha]
    refine Int.add_le_add (hr.landed (by rw [hsince]; rfl) t ht) (dispatchBackoff_mono ?_)
    push_cast
    exact Int.add_le_add_right hr.attempts 1
  apart := hk.apart

theorem Kept.delayed (hr : g.Read now run r) {nextAt : Time}
    (hop : (Op.recordDispatchBackpressure r.taskId nextAt).Gated run) (hs' : r'.state = .scheduled)
    (ha : r'.dispatchAttempts = r.dispatchAttempts) (hn : r'.nextDispatchAt = some nextAt) : g.Kept now r' where
  attempts := ha ▸ hk.attempts
  past := hk.past
  queued hq := absurd (hs'.symm.trans hq) (by decide)
  settled := ha ▸ hk.settled
  charged := ha ▸ hk.charged
  gate _ n t hsince _ ht := by
    refine ⟨nextAt, hn, ?_⟩
    rw [hop.2 hr.clock, ha]
    refine Int.add_le_add (hr.landed (by rw [hsince]; rfl) t ht) (dispatchBackoff_mono ?_)
    exact hr.attempts.trans (Int.le_add_of_nonneg_right (by decide))
  apart := hk.apart

theorem Kept.exhausted (hs' : r'.state = .failed) (ha : r'.dispatchAttempts = r.dispatchAttempts) : g.Kept now r' where
  attempts := ha ▸ hk.attempts
  past := hk.past
  queued hq := absurd (hs'.symm.trans hq) (by decide)
  settled := ha ▸ hk.settled
  charged := ha ▸ hk.charged
  gate hopen := by
    rw [hs'] at hopen
    cases hopen
  apart := hk.apart

end

/-- The gate of a charged row is open to a tick that has read it a backoff after the last dispatch. -/
theorem Read.reached (hr : g.Read now run r) (hready : run.readyToDispatch r.taskId)
    {n : Nat} {t : Time} (hn : g.since = some n) (hlt : n < r.dispatchAttempts)
    (ht : g.landed = some t) : t + dispatchBackoff r.dispatchAttempts ≤ now := by
  obtain ⟨nextAt, hnext, hle⟩ := hr.gate n t hn hlt ht
  rw [RunState.readyToDispatch, hr.next nextAt hnext, RunState.reached] at hready
  simp only [beq_eq_false_iff_ne.mpr hr.clock, Bool.false_or, Bool.not_eq_true',
    decide_eq_false_iff_not, Int.not_lt] at hready
  exact hle.trans (hready.trans hr.past)

/-- A step that keeps the dispatch columns of a row the tick has read, or starts them again. -/
theorem Read.step {g' : Reclaims} (hr : g.Read now run r) (hnow : now ≤ now')
    (hg : g'.since = none ∨ (g' = g ∧ r.movedOn r' = false)) (htask : r'.taskId = r.taskId)
    (hq : r'.state ≠ .queued) (heffect : r.SameDispatch r' ∨
      (r.movedOn r' ∧ r'.dispatchAttempts = 0 ∧ r'.nextDispatchAt = none)) : g'.Read now' run r' := by
  have hattempts : r'.dispatchAttempts ≤ r.dispatchAttempts := by
    rcases heffect with hc | ⟨-, ha, -⟩
    · exact Nat.le_of_eq hc.dispatchAttempts
    · exact ha ▸ Nat.zero_le _
  refine ⟨hr.clock, hr.past.trans hnow, ?_, fun n hn => ?_, hq, fun hsince => ?_, fun n t hn => ?_⟩
  · rw [htask]
    exact (Int.ofNat_le.mpr hattempts).trans hr.attempts
  · rw [htask]
    rcases heffect with hc | ⟨-, -, hnone⟩
    · exact hr.next n (hc.nextDispatchAt ▸ hn)
    · rw [hnone] at hn
      cases hn
  · rcases hg with hnone | ⟨rfl, -⟩
    · rw [hnone] at hsince
      cases hsince
    · exact hr.landed hsince
  · rcases hg with hnone | ⟨rfl, hm⟩
    · rw [hnone] at hn
      cases hn
    · rcases heffect with hc | ⟨hm', -⟩
      · exact hr.gate.congr hc n t hn
      · rw [hm'] at hm
        cases hm

/-- A row that was not queued is not reclaimed: its record says that no reclaim is open, or is as it
was. -/
theorem noted_of_not_queued (w : World) (a : Action) (hq : r.state ≠ .queued) : (g.noted w a r).since = none ∨
      (g.noted w a r = g ∧ r.movedOn ((w.write a).row w.db r) = false) := by
  have hnot : a.reclaims r = false := by
    cases a with
    | requeue l => simp [Action.reclaims, requeueForRedispatch, hq]
    | _ => rfl
  unfold noted
  rw [hnot, if_neg Bool.false_ne_true]
  split
  · exact .inl rfl
  · split
    · exact .inl rfl
    · exact .inr ⟨rfl, Bool.not_eq_true _ ▸ ‹_›⟩

end Reclaims

/-! ### All rows -/

/-- The snapshot shows the task in a state it may be dispatched from. -/
def RunState.ShowsDispatchable (run : RunState) (task : String) : Prop :=
  (run.states.lookup task).any TaskState.isDispatchable

/-- The invariant. A tick about to write `queued` has just had the dispatch go through. -/
structure ReclaimInv (w : World) (g : String → Reclaims) : Prop where
  fresh : ∀ id, (∀ r ∈ w.db.tis, r.id ≠ id) → g id = {}
  kept : ∀ r ∈ w.db.tis, (g r.id).Kept w.db.now r
  read : ∀ t run, w.ctl.tick = some t → ∀ r ∈ w.db.tis, r.dagRunId = run.runID →
    t.Pends run r.taskId → run.ShowsDispatchable r.taskId → (g r.id).Read w.db.now run r
  landing : ∀ t run ops, w.ctl.tick = some t → t.current? = some (run, ops) →
    ∀ r ∈ w.db.tis, r.dagRunId = run.runID → .applyTransition r.taskId .queued ∈ ops → (g r.id).since = none

section Step

variable {cfg : Config} {w w' : World} {a : Action} {g : String → Reclaims} {r : TaskInstance}

/-- The ground of the calls of a world's tick. -/
def World.TickGated (w : World) : Prop :=
  ∀ t, w.ctl.tick = some t → ∀ run ops, t.current? = some (run, ops) → ∀ op ∈ ops, op.Gated run

theorem noteReclaims_of_mem (hk : w.db.Keyed) (hr : r ∈ w.db.tis) :
    noteReclaims w a w' g r.id = (g r.id).noted w a r := by
  simp only [noteReclaims, hk.find?_id hr]

theorem noteReclaims_of_not_mem {id : String} (h : ∀ r ∈ w.db.tis, r.id ≠ id) : noteReclaims w a w' g id = g id := by
  have hnone : w.db.tis.find? (fun r => r.id == id) = none :=
    List.find?_eq_none.mpr fun r hr => by simp [h r hr]
  simp only [noteReclaims, hnone]

section

variable (hi : ReclaimInv w g)
include hi

theorem ReclaimInv.read_call {b : Budget} {run : RunState} {op : Op} {ops : List Op} {rest : List RunState}
    (ht : w.ctl.tick = some (.advancing b run (op :: ops) rest)) (hr : r ∈ w.db.tis)
    (hrun : r.dagRunId = run.runID) (htask : r.taskId ∈ op.tasks) {s : TaskState}
    (hs : run.states.lookup r.taskId = some s) (hopen : s.isDispatchable) : (g r.id).Read w.db.now run r := by
  refine hi.read _ run ht r hr hrun (.inr ⟨_, rfl, mem_append_left _ htask⟩) ?_
  rw [RunState.ShowsDispatchable, hs]
  exact hopen

section

variable (hgated : w.TickGated) (hr : r ∈ w.db.tis) {s : Statement} (hs : (w.write a).statement w.db = some s)
  (hguard : (s.update w.db.now).guard r)
include hgated hr hs hguard

theorem ReclaimInv.kept_written {r' : TaskInstance} (hc : r.SameDispatch r')
    (hw : s.plannedTarget = some r'.state) : (g r.id).Kept w.db.now r' := by
  have hchan : s.channel = .tick := by
    cases s <;> first | rfl | cases hw
  obtain ⟨ids, b, run, op, ops, rest, -, ht, hop⟩ := call_of_statement hs hchan
  have hground := hgated _ ht run _ rfl op mem_cons_self
  have hrun := (Op.guard_run hop hguard).1
  cases op with
  | applyTransition task target =>
    cases hop
    obtain rfl : target = r'.state := Option.some.inj hw
    have htask : r.taskId = task := by
      simp only [Statement.update, updateTaskInstanceStateByRunTask, TaskInstance.isFor,
        Bool.and_eq_true, beq_iff_eq] at hguard
      exact hguard.2
    subst htask
    refine (hi.kept r hr).same hc (fun hq => ?_) fun hopen => ?_
    · refine hi.landing _ run _ ht rfl r hr hrun ?_
      rw [hq]
      exact mem_cons_self
    · exact (hi.read_call ht hr hrun mem_cons_self (hground hopen).2 rfl).gate
  | applyTransitions tasks target =>
    cases hop
    obtain rfl : target = r'.state := Option.some.inj hw
    have htask : r.taskId ∈ tasks := by
      simp only [Statement.update, updateTaskInstanceStatesByRunTasks, Bool.and_eq_true, contains_iff_mem] at hguard
      exact hguard.2
    refine (hi.kept r hr).same hc (fun hq => ?_) fun hopen => ?_
    · have hsched := (hground r.taskId htask (by rw [hq]; rfl)).1
      exact absurd (hsched.symm.trans hq) (by decide)
    · exact (hi.read_call ht hr hrun htask (hground r.taskId htask hopen).2 rfl).gate
  | _ => cases hop <;> cases hw

/-- A statement keeps the ghost in step with its row. -/
theorem ReclaimInv.kept_statement : Reclaims.Kept (if r.movedOn ((s.update w.db.now).set r) then
      { g r.id with count := 0, since := none } else g r.id) w.db.now ((s.update w.db.now).set r) := by
  have hk := hi.kept r hr
  cases s.dispatchEffect (isIssued_of_statement hs) hguard with
  | restarted hm ha =>
    rw [if_pos hm]
    exact hk.restarted ha
  | kept hc hopen hq =>
    rw [hc.not_movedOn]
    exact hk.same hc (fun h => hk.queued (hq h)) fun h => hk.gate (hopen h)
  | written hc hw =>
    rw [hc.not_movedOn]
    exact hi.kept_written hgated hr hs hguard hc hw
  | charged he hst hs' hm ha hn =>
    subst he
    rw [hm]
    obtain ⟨ids, b, run, op, ops, rest, -, ht, hop⟩ := call_of_statement hs rfl
    have hground := hgated _ ht run _ rfl op mem_cons_self
    obtain ⟨hrun, htask⟩ := Op.guard_run hop hguard
    cases op with
    | recordDispatchFailure task nextAt =>
      obtain rfl : r.taskId = task := by simpa [Op.tasks] using htask
      cases hop
      exact hk.failed (hi.read_call ht hr hrun mem_cons_self hground.1 rfl) hground hs' ha hn
    | _ => cases hop
  | delayed he hst hs' hm ha hn =>
    subst he
    rw [hm]
    obtain ⟨ids, b, run, op, ops, rest, -, ht, hop⟩ := call_of_statement hs rfl
    have hground := hgated _ ht run _ rfl op mem_cons_self
    obtain ⟨hrun, htask⟩ := Op.guard_run hop hguard
    cases op with
    | recordDispatchBackpressure task nextAt =>
      obtain rfl : r.taskId = task := by simpa [Op.tasks] using htask
      cases hop
      exact hk.delayed (hi.read_call ht hr hrun mem_cons_self hground.1 rfl) hground hs' ha hn
    | _ => cases hop
  | exhausted _ hs' hm ha =>
    rw [hm]
    exact hk.exhausted hs' ha

end

/-- A landing finds the row charged and its backoff over. -/
theorem ReclaimInv.kept_landed (hgated : w.TickGated) (hr : r ∈ w.db.tis)
    (hc : redispatchIsCharged (w, g) a) (hl : w.lands r a) :
    (w.write a).row w.db r = r ∧ (∀ n, (g r.id).since = some n → n < r.dispatchAttempts) ∧
      ∀ t, (g r.id).since.isSome → (g r.id).landed = some t →
        t + dispatchBackoff r.dispatchAttempts ≤ w.db.now := by
  cases a with
  | tick ta =>
    obtain ⟨d, hd, hfor⟩ := (Option.any_eq_true _ _).mp hl
    have hrow : (w.write (.tick ta)).row w.db r = r := by
      rw [write_of_dispatches hd]
      exact Write.row_of_none rfl
    unfold Tick.dispatches at hd
    split at hd
    next b run task ops rest outcome buffered ht =>
      simp only [Lib.guard_eq_some] at hd
      obtain ⟨-, rfl⟩ := hd
      have hcharged : ∀ n, (g r.id).since = some n → n < r.dispatchAttempts := by
        intro n hn
        have hall := all_eq_true.mp hc r hr
        simpa [hl, hn] using hall
      simp only [TaskInstance.isFor, Bool.and_eq_true, beq_iff_eq] at hfor
      obtain ⟨hrun, rfl⟩ := hfor
      have hground := hgated _ ht run _ rfl _ mem_cons_self
      have hread := hi.read_call ht hr hrun mem_cons_self hground.1 rfl
      refine ⟨hrow, hcharged, fun t hsince hlanded => ?_⟩
      obtain ⟨n, hn⟩ := Option.isSome_iff_exists.mp hsince
      exact hread.reached hground.2 hn (hcharged n hn) hlanded
    · cases hd
  | _ => cases hl

theorem ReclaimInv.kept_row (hgated : w.TickGated) (hc : redispatchIsCharged (w, g) a) (hr : r ∈ w.db.tis) :
    ((g r.id).noted w a r).Kept w.db.now ((w.write a).row w.db r) := by
  have hk := hi.kept r hr
  unfold Reclaims.noted
  split
  next hreclaim =>
    cases a with
    | requeue l =>
      have hstate : r.state = .queued := by
        simp only [Action.reclaims, requeueForRedispatch, Bool.and_eq_true, beq_iff_eq] at hreclaim
        exact hreclaim.2
      have hguard : ((Statement.requeueForRedispatch l.run l.task l.tryNumber).update
          w.db.now).guard r := hreclaim
      rw [Write.row_of_statement rfl, Lib.Update.row_of_guard _ hguard]
      exact hk.reclaimed hstate ⟨rfl, rfl, rfl, rfl⟩ rfl
    | _ => cases hreclaim
  split
  next hlands =>
    obtain ⟨hrow, hcharged, hgate⟩ := hi.kept_landed hgated hr hc hlands
    rw [hrow]
    exact hk.landed hcharged hgate
  by_cases hrow : (w.write a).row w.db r = r
  · have hsame : r.SameDispatch r := ⟨rfl, rfl, rfl, rfl⟩
    rw [hrow, hsame.not_movedOn]
    exact hk
  · obtain ⟨s, hs, hguard⟩ := Write.statement_of_row_ne hrow
    rw [Write.row_of_statement hs, Lib.Update.row_of_guard _ hguard]
    exact hi.kept_statement hgated hr hs hguard

end

/-- The other parties keep the dispatch columns of a row or start them again, and queue nothing. -/
theorem World.dispatch_of_not_tick (ha : ∀ ta, a ≠ .tick ta) (r : TaskInstance) :
    (((w.write a).row w.db r).state = .queued → r.state = .queued) ∧
    (r.SameDispatch ((w.write a).row w.db r) ∨ (r.movedOn ((w.write a).row w.db r) ∧
      ((w.write a).row w.db r).dispatchAttempts = 0 ∧ ((w.write a).row w.db r).nextDispatchAt = none)) := by
  by_cases hrow : (w.write a).row w.db r = r
  · rw [hrow]
    exact ⟨id, .inl ⟨rfl, rfl, rfl, rfl⟩⟩
  obtain ⟨s, hs, hguard⟩ := Write.statement_of_row_ne hrow
  have hnot : s.channel ≠ .tick := fun he => by
    obtain ⟨ids, -, -, -, -, -, rfl, -⟩ := call_of_statement hs he
    exact ha _ rfl
  rw [Write.row_of_statement hs, Lib.Update.row_of_guard _ hguard]
  cases s.dispatchEffect (isIssued_of_statement hs) hguard with
  | restarted hm hz hn hst =>
    refine ⟨fun hq => ?_, .inr ⟨hm, hz, hn⟩⟩
    rw [hst] at hq
    cases hq
  | kept hc _ hq => exact ⟨hq, .inl hc⟩
  | written _ hw =>
    refine absurd ?_ hnot
    cases s <;> first | rfl | cases hw
  | charged he =>
    subst he
    exact absurd rfl hnot
  | delayed he =>
    subst he
    exact absurd rfl hnot
  | exhausted he => exact absurd he hnot

/-- The columns of a row that its record and the gates are about. -/
def TaskInstance.gateColumns (r : TaskInstance) : TaskState × Nat × Nat × Nat × Option Time :=
  (r.state, r.tryNumber, r.infraAttempts, r.dispatchAttempts, r.nextDispatchAt)

section

variable (hi : ReclaimInv w g)
include hi

theorem ReclaimInv.read_snapshot (hk : w.db.Keyed) (hclock : w.db.now ≠ 0)
    (cfg : Config) {d : DagRun} (hr : r ∈ w.db.tis) (hrun : r.dagRunId = d.id)
    (hplan : (snapshot cfg w.db d).MayPlan r.taskId) (hopen : (snapshot cfg w.db d).ShowsDispatchable r.taskId) :
    (g r.id).Read w.db.now (snapshot cfg w.db d) r := by
  have hmem := mem_listTaskInstancesByRun.mpr ⟨hr, hrun⟩
  have hget : ∀ {α : Type} (column : TaskInstance → Option α),
      (mapOf (listTaskInstancesByRun w.db d.id) column).lookup r.taskId = column r :=
    fun _ => GoMap.lookup_collect (hk.taskIds d.id) hmem
  have hstate : (snapshot cfg w.db d).states.lookup r.taskId = some r.state := hget _
  have hkept := hi.kept r hr
  refine ⟨hclock, Int.le_refl _, ?_, fun n hn => (hget _).trans hn, fun hq => ?_, fun _ => hkept.past, hkept.gate ?_⟩
  · simp [snapshot, runState, GoMap.getD, hget, positive_getD]
  · obtain ⟨s, hs, hlive⟩ := hplan.lookup
    cases hstate.symm.trans hs
    rw [hq] at hlive
    cases hlive
  · rw [RunState.ShowsDispatchable, hstate] at hopen
    exact hopen

/-- What the tick shows as dispatchable is as the ghost has it. -/
theorem ReclaimInv.read_step (hw : w.WellFormed)
    (hc : redispatchIsCharged (w, g) a) (h : w.step cfg a = some w') :
    ∀ t run, w'.ctl.tick = some t → ∀ r ∈ w'.db.tis, r.dagRunId = run.runID →
      t.Pends run r.taskId → run.ShowsDispatchable r.taskId → (noteReclaims w a w' g r.id).Read w'.db.now run r := by
  refine pending_step TaskInstance.gateColumns (fun _ _ => rfl)
    (P := fun run r => r ∈ w.db.tis → run.ShowsDispatchable r.taskId → (g r.id).Read w.db.now run r)
    (Q := fun run r => run.ShowsDispatchable r.taskId → (noteReclaims w a w' g r.id).Read w'.db.now run r) hw h
    (fun t run ht r hr hrun hp _ hopen => hi.read t run ht r hr hrun hp hopen) ?_ ?_ ?_ ?_
  · intro b run r hread hr hopen
    obtain ⟨hclock, hpast, hattempts, hnext, hq, hlanded, hgate⟩ := hread hr hopen
    exact ⟨hclock, hpast, hattempts, hnext, hq, hlanded, hgate⟩
  · intro ha d r hr hrun hplan hopen
    subst ha
    rw [noteReclaims_of_mem hw.keyed hr]
    have hread := hi.read_snapshot hw.keyed (bne_iff_ne.mp hc) cfg hr hrun hplan hopen
    have hrow : (w.write (.tick .load)).row w.db r = r := by
      rw [write_tick (by simp)]
      exact Write.row_of_none rfl
    have hnoted := (g r.id).noted_of_not_queued w (.tick .load) hread.notQueued
    rw [hrow] at hnoted
    exact hread.step (now_le_step h) hnoted rfl hread.notQueued (.inl ⟨rfl, rfl, rfl, rfl⟩)
  · intro ta ha run r hr hrun hread hcols hopen
    subst ha
    rw [Write.row_taskId] at hopen
    rw [Write.row_id, noteReclaims_of_mem hw.keyed hr]
    have hread := hread hr hopen
    simp only [TaskInstance.gateColumns, Prod.mk.injEq] at hcols
    obtain ⟨hstate, htry, hinfra, hattempts, hnext⟩ := hcols
    exact hread.step (now_le_step h) ((g r.id).noted_of_not_queued w _ hread.notQueued)
      (Write.row_taskId ..) (fun hst => hread.notQueued (hstate.symm.trans hst))
      (.inl ⟨htry, hinfra, hattempts, hnext⟩)
  · intro ha t run ht r hr hrun hp hread hopen
    rw [Write.row_taskId] at hopen
    rw [Write.row_id, noteReclaims_of_mem hw.keyed hr]
    have hread := hread hr hopen
    obtain ⟨hq, heffect⟩ := dispatch_of_not_tick (w := w) ha r
    exact hread.step (now_le_step h) ((g r.id).noted_of_not_queued w a hread.notQueued)
      (Write.row_taskId ..) (fun hst => hread.notQueued (hq hst)) heffect

theorem ReclaimInv.fresh_step (h : w.step cfg a = some w') (id : String)
    (hid : ∀ r ∈ w'.db.tis, r.id ≠ id) : noteReclaims w a w' g id = {} := by
  have hid : ∀ r ∈ w.db.tis, r.id ≠ id := fun r hr => by
    have hr' := (mem_step_tis h).mpr (.inl ⟨r, hr, rfl⟩)
    exact Write.row_id .. ▸ hid _ hr'
  rw [noteReclaims_of_not_mem hid]
  exact hi.fresh id hid

theorem ReclaimInv.record_inserted (h : w.step cfg a = some w')
    (hins : r ∈ (w.write a).inserted) : noteReclaims w a w' g r.id = {} := by
  have hid : ∀ s ∈ w.db.tis, s.id ≠ r.id := inserted_id_ne h hins
  rw [noteReclaims_of_not_mem hid]
  exact hi.fresh r.id hid

theorem ReclaimInv.kept_step (hw : w.WellFormed) (hgated : w.TickGated)
    (hc : redispatchIsCharged (w, g) a) (h : w.step cfg a = some w') :
    ∀ r ∈ w'.db.tis, (noteReclaims w a w' g r.id).Kept w'.db.now r := by
  intro r' hr'
  rcases (mem_step_tis h).mp hr' with ⟨r, hr, rfl⟩ | hins
  · rw [Write.row_id, noteReclaims_of_mem hw.keyed hr]
    exact (hi.kept_row hgated hc hr).later (now_le_step h)
  · rw [hi.record_inserted h hins]
    obtain ⟨_, _, _, _, _, t, id, -, -, -, rfl⟩ := mem_inserted hins
    have hattempts : ((0 : Nat) : Int) < dispatchMaxAttempts := by decide
    exact ⟨hattempts, (fun _ ht => by cases ht), fun _ => rfl, fun _ => Nat.le_refl 0,
      (fun _ hn => by cases hn), (fun _ _ _ hn => by cases hn), forall_mem_nil _⟩

/-- Once a dispatch has gone through, no reclaim is open. -/
theorem ReclaimInv.landing_step (hw : w.WellFormed) (hgated : w.TickGated)
    (h : w.step cfg a = some w') : ∀ t run ops, w'.ctl.tick = some t →
      t.current? = some (run, ops) → ∀ r ∈ w'.db.tis, r.dagRunId = run.runID →
        .applyTransition r.taskId .queued ∈ ops → (noteReclaims w a w' g r.id).since = none := by
  intro t run ops ht hcur r' hr' hrun hop
  rcases (mem_step_tis h).mp hr' with ⟨r, hr, rfl⟩ | hins
  · rw [Write.row_dagRunId] at hrun
    rw [Write.row_taskId] at hop
    rw [Write.row_id, noteReclaims_of_mem hw.keyed hr]
    -- A call that was pending before: the tick has read the row as scheduled, so no one has queued it.
    have hold : ∀ t0 ops0, w.ctl.tick = some t0 → t0.current? = some (run, ops0) →
        .applyTransition r.taskId .queued ∈ ops0 → ((g r.id).noted w a r).since = none := by
      intro t0 ops0 ht0 hcur0 hop0
      have hshown := (hgated t0 ht0 run ops0 hcur0 _ hop0 rfl).2
      have hread := hi.read t0 run ht0 r hr hrun (.inr ⟨ops0, hcur0, mem_flatMap.mpr ⟨_, hop0, mem_cons_self⟩⟩)
        (by rw [RunState.ShowsDispatchable, hshown]; rfl)
      rcases (g r.id).noted_of_not_queued w a hread.notQueued with hnone | ⟨he, -⟩
      · exact hnone
      · rw [he]
        exact hi.landing t0 run ops0 ht0 hcur0 r hr hrun hop0
    rcases tick_step h ht with ⟨ta, rfl, hm⟩ | ⟨-, ht⟩
    · generalize htick : w.ctl.tick = t0 at hm
      cases hm with
      | start b r0 rest =>
        cases hcur
        exact absurd hop (RunState.applyTransition_queued_not_mem _ _ _)
      | dispatch b run' task ops' rest outcome buffered =>
        cases hcur
        rcases mem_cons.mp hop with hafter | hop
        · obtain ⟨rfl, rfl⟩ := RunState.dispatched_of_afterDispatch hafter.symm
          have hlands : w.lands r (.tick (.dispatch .dispatched buffered)) := by
            simp [lands, htick, Tick.dispatches, DispatchOutcome.landed, TaskInstance.isFor, hrun]
          simp [Reclaims.noted, Action.reclaims, hlands]
        · exact hold _ _ htick rfl (mem_cons_of_mem _ hop)
      | call | skip =>
        cases hcur
        exact hold _ _ htick rfl (mem_cons_of_mem _ hop)
      | _ => cases hcur
    · exact hold t ops ht hcur hop
  · rw [hi.record_inserted h hins]

end

end Step

theorem reclaimInv_reaches {cfg : Config} {p : World × (String → Reclaims)}
    (h : (reclaimSystem cfg).Reaches (fun p a => redispatchIsCharged p a) p) : ReclaimInv p.1 p.2 := by
  refine h.invariant (I := fun p => ReclaimInv p.1 p.2) (fun p hi => ?_) fun p a p' hreach hi hc hs => ?_
  · obtain ⟨⟨now, hw⟩, hg⟩ := hi
    rw [hw, hg]
    exact ⟨fun _ _ => rfl, forall_mem_nil _, (fun _ _ ht => by cases ht), fun _ _ _ ht => by cases ht⟩
  · obtain ⟨hs, hg⟩ := Lib.System.withGhost_step.mp hs
    have hreachable := hreach.reachable_fst
    have hw := wellFormed_reaches hreachable
    have hgated : p.1.TickGated := fun t ht _ _ => gated_reaches hreachable ht
    rw [hg]
    exact ⟨hi.fresh_step hs, hi.kept_step hw hgated hc hs, hi.read_step hw hc hs, hi.landing_step hw hgated hs⟩

/-- A tick dispatches the task for the given time, and its warm worker gives the attempt back before
it has reported. -/
def dispatchAndReclaim (placement : Nat) : List Action :=
  let request : Request := ⟨"run", "task", 1, placement, true, .accepted⟩
  let attempt : Attempt := ⟨"ti", "run", "task", 1, placement⟩
  quietTick [.dispatch .dispatched true, .call []] ++
    [.resolve request, .create { request with stage := .resolved attempt } true, .requeue attempt]

/-- The task of a run of one task is scheduled. -/
def schedulesTask : List Action := materialize "run" "v1" ["ti"] ++ quietTick [.call []]

/-- A reclaim, a dispatch that the cluster refuses, and after the backoff a dispatch that is reclaimed
again. -/
def reclaimedTwice : List Action :=
  schedulesTask ++ dispatchAndReclaim 1 ++ quietTick [.dispatch (.rejected "no node" false) true, .call []] ++
    [.clock 5000000000] ++ dispatchAndReclaim 2

/-- Seven workers in a row give the attempt back. -/
def reclaimedSevenTimes : List Action :=
  schedulesTask ++ [1, 2, 3, 4, 5, 6, 7].flatMap dispatchAndReclaim

end Leoflow
