import Leoflow.System.Alerts
import Leoflow.System.Provenance

/-!
# One page per failure

`ClearTaskInstances` with `reset_dag_runs` re-opens the run whatever its resets matched, and a re-open
forgets that the run's failure was already paged. When a reset did match a row the run has something
to do before it can fail again; when none did, the next tick fails it as it was and pages once more.
-/

namespace Leoflow

open World Lib.Update List

variable {u : Lib.Update DagRun} {run : String}

/-- What happened to the pages of the runs: which were recorded as delivered, which runs have a task instance
reset or newly failed since, whether the clear in progress has reset a row, and what ought not to happen: the
pages sent for no new reason, and the runs a clear changed without resetting a row. -/
structure PageLog where
  delivered : List String := []
  touched : List String := []
  matched : Bool := false
  unprompted : List String := []
  moved : List String := []
deriving DecidableEq

/-- No page was sent for a reason that had been paged, and no clear changed a run for nothing. -/
def PageLog.OnePerFailure (g : PageLog) : Prop := g.unprompted = [] ∧ g.moved = []

/-- The row is one a clear's next reset matches. -/
def Clear.matches (c : Clear) (now : Time) (r : TaskInstance) : Bool :=
  match c.resets with
  | x :: _ => ((x.statement c.run).update now).guard r
  | [] => false

namespace World

/-- The row is reset by the action, or newly failed by it. -/
def touchesRow (w : World) (a : Action) (r : TaskInstance) : Bool :=
  (match a with
    | .clearNext c => c.matches w.db.now r
    | _ => false) ||
  (r.state != .failed && ((w.write a).row w.db r).state == .failed)

/-- The runs of the rows an action touches. -/
def touched (w : World) (a : Action) : List String :=
  (w.db.tis.filter (w.touchesRow a)).map TaskInstance.dagRunId

end World

namespace AlertWorld

/-- The run whose page is started. -/
def starts (p : AlertWorld) : AlertAction → Option String
  | .claim run room => if room && p.world.claimedAttempt run != 0 then some run else none
  | .claimFails run _ room => if room then some run else none
  | _ => none

/-- The run whose page is recorded as delivered. -/
def stamped (p : AlertWorld) : AlertAction → Option String
  | .stamp s =>
    if p.world.db.runs.any (markRunAlertDelivered p.world.db.now s.run s.attempt).guard then some s.run
    else none
  | _ => none

/-- The runs of the task instances an action touches. -/
def touched (p : AlertWorld) : AlertAction → List String
  | .world a => p.world.touched a
  | _ => []

/-- The clear in progress has reset a row, after an action. -/
def matched (p : AlertWorld) (before : Bool) : AlertAction → Bool
  | .world (.clear ..) => false
  | .world (.clearNext c) => before || p.world.db.tis.any (c.matches p.world.db.now)
  | _ => before

/-- The log after a step. -/
def log (p : AlertWorld) (a : AlertAction) (p' : AlertWorld) (g : PageLog) : PageLog where
  delivered := (p.stamped a).toList ++ g.delivered
  touched := p.touched a ++ g.touched.filter fun run => p.stamped a != some run
  matched := p.matched g.matched a
  unprompted :=
    ((p.starts a).toList.filter fun run => run ∈ g.delivered ∧ run ∉ g.touched) ++ g.unprompted
  moved :=
    match a with
    | .world (.clearNext c) =>
      if p.matched g.matched a = false ∧ p'.world.db.runs ≠ p.world.db.runs then c.run :: g.moved
      else g.moved
    | _ => g.moved

/-- The system with its log. -/
abbrev pages (cfg : AlertConfig) : Lib.System (AlertWorld × PageLog) AlertAction :=
  (system cfg).withGhost {} log

/-- The ticks, the clears and what goes on between them, but no operator that sets a run's state. A clear does not
fall between a verdict and its page. -/
def isTickOrClear (p : AlertWorld) : AlertAction → Bool
  | .world (.clearNext _) | .world (.clearFails _) => true
  | .world (.updateDagRunState _) => false
  | .world (.clear ..) => p.world.ctl.clears.isEmpty && p.pending.isNone
  | _ => p.world.ctl.clears.isEmpty

/-- A clear that re-opens its run resets at least one of its task instances. -/
def reopensForReset (p : AlertWorld) : AlertAction → Bool
  | .world (.clear run taskIDs onlyFailed opts _) =>
    !opts.resetDagRun || (resetTaskInstances taskIDs onlyFailed).any fun x =>
      p.world.db.tis.any ((x.statement run).update p.world.db.now).guard
  | _ => true

/-- The check as a condition. -/
abbrev IsTickOrClear (p : AlertWorld) (a : AlertAction) : Prop := p.isTickOrClear a

/-- Both checks as a condition. -/
abbrev ReopensForReset (p : AlertWorld) (a : AlertAction) : Prop :=
  p.isTickOrClear a ∧ p.reopensForReset a

end AlertWorld

/-! ## Which runs have no attempt -/

/-- The tick has still to write the run's state, as far as it will. -/
def Tick.Visits (t : Tick) (id : String) : Prop :=
  (∃ d ∈ t.todo, d.id = id) ∨ ∃ run, t.Holds run ∧ run.runID = id

namespace AlertWorld

/-- The run is unfinished, or a tick goes on with it, or its page is about to be claimed. -/
def Ahead (p : AlertWorld) (d : DagRun) : Prop :=
  d.state.isTerminal = false ∨ (∃ t, p.world.ctl.tick = some t ∧ t.Visits d.id) ∨ p.pending = some d.id

/-- The tick has written the verdict on the run and has nothing else to do for it. -/
structure Judged (w : World) (run : String) : Prop where
  tick : ∃ b r rest, w.ctl.tick = some (.advancing b r [] rest) ∧ r.runID = run
  row : ∃ d ∈ w.db.runs, d.id = run ∧ d.state.isTerminal

/-- No attempt was claimed for a run that is still ahead. -/
structure Unclaimed (p : AlertWorld) : Prop where
  well : p.world.WellFormed
  known : KnownRuns p.world
  numbered : ∀ s ∈ p.sends, s.attempt ≠ 0
  ahead : ∀ d ∈ p.world.db.runs, p.Ahead d → d.alertAttempts = 0
  judged : ∀ run, p.pending = some run → Judged p.world run
  alone : p.pending.isSome → p.world.ctl.clears = []

end AlertWorld

theorem World.WellFormed.executeAlert {w : World} (hw : w.WellFormed) (hu : ∀ d, (u.set d).id = d.id) :
    (w.executeAlert u).WellFormed where
  keyed :=
    { hw.keyed with
      runs := by
        have hids := u.map_exec DagRun.id (u.row_congr _ fun d _ => hu d) w.db.runs
        exact (congrArg List.Nodup hids).mpr hw.keyed.runs }
  tick t ht := (hw.tick t ht).mono fun _ h => h
  rows := hw.rows

theorem KnownRuns.executeAlert {w : World} (hk : KnownRuns w) (hu : ∀ d, (u.set d).id = d.id) :
    KnownRuns (w.executeAlert u) := by
  have hids := u.map_exec DagRun.id (u.row_congr _ fun d _ => hu d) w.db.runs
  exact ⟨fun r hr => hids ▸ hk.rows r hr, fun t ht id hid => hids ▸ hk.tick t ht id hid⟩

theorem Tick.Moves.visits {cfg : Config} {db : Database} {t : Option Tick} {a : TickAction} {t' : Tick}
    (hm : Tick.Moves cfg db t a (some t')) {id : String} (hv : t'.Visits id) :
    (∃ d ∈ listActiveDagRuns db, d.id = id) ∨ ∃ t0, t = some t0 ∧ t0.Visits id := by
  rcases hv with ⟨d, hd, hid⟩ | ⟨run, hh, hid⟩
  · rcases hm.todo hd with ⟨-, hlisted⟩ | ⟨t0, ht0, hd0⟩
    · exact .inl ⟨d, hlisted, hid⟩
    · exact .inr ⟨t0, ht0, .inl ⟨d, hd0, hid⟩⟩
  · right
    rcases hm.holds hh with ⟨d, todo, loaded, ht, -, rfl⟩ | ⟨t0, run0, ht0, hh0, hsame, -⟩
    · exact ⟨_, ht, .inl ⟨d, mem_cons_self, hid⟩⟩
    · exact ⟨t0, ht0, .inr ⟨run0, hh0, hsame.trans hid⟩⟩

namespace AlertWorld

section Step

variable {cfg : AlertConfig} {p p' : AlertWorld} {a : Action} {w' : World} {d : DagRun}

/-- A page is about to be claimed after an action that fails its run, or it was before it. -/
theorem nextPending_cases (h : p.nextPending cfg a = some run) : (∃ ids b r ops rest, a = .tick (.call ids) ∧
      p.world.ctl.tick = some (.advancing b r (.setRunState .failed :: ops) rest) ∧ r.runID = run) ∨
    p.pending = some run ∧ a ≠ .tick .stop := by
  by_cases hstop : a = .tick .stop
  · subst hstop
    cases h
  have hor : (p.world.alertsFor cfg a).or p.pending = some run := by
    unfold nextPending at h
    split at h
    · exact absurd rfl hstop
    · exact h
  rcases Option.or_eq_some_iff.mp hor with hfor | ⟨-, hpending⟩
  · left
    unfold alertsFor at hfor
    split at hfor
    · split at hfor
      next ids b r ops rest ht =>
        simp only [Option.ite_none_left_eq_some, Option.some.injEq] at hfor
        exact ⟨_, _, _, _, _, rfl, ht, hfor.2⟩
      · cases hfor
    · cases hfor
  · exact .inr ⟨hpending, hstop⟩

/-- A run that is ahead after a step that does not re-open it was ahead before. -/
theorem ahead_of_step (hp : Unclaimed p) (hc : p.isTickOrClear (.world a))
    (h : p.world.step cfg.config a = some w') (hd : d ∈ p.world.db.runs) (hne : World.reopened a ≠ some d.id)
    (ha : Ahead { p with world := w', pending := p.nextPending cfg a, reopens := p.countReopens a }
      ((p.world.write a).runRow p.world.db d)) : p.Ahead d := by
  rcases ha with hstate | ⟨t, ht, hv⟩ | hpending
  · have hrow := runEffect p.world a d
    generalize (p.world.write a).runRow p.world.db d = d' at hrow hstate
    cases hrow with
    | kept => exact .inl hstate
    | stamped _ ht hid =>
      exact .inr (.inl ⟨_, ht, .inr ⟨_, .inr ⟨_, rfl, cons_ne_nil _ _⟩, hid.symm⟩⟩)
    | reopened ha hr ho hid =>
      subst ha
      simp [World.reopened, hr, ho, hid] at hne
    | orphaned => cases hstate
    | marked ha =>
      subst ha
      cases hc
  · rw [Write.runRow_id] at hv
    rcases tick_step h ht with ⟨ta, rfl, hm⟩ | ⟨-, ht⟩
    · rcases hm.visits hv with ⟨d0, hd0, hid⟩ | ⟨t0, ht0, hv0⟩
      · obtain ⟨hmem, hstate⟩ := mem_listActiveDagRuns.mp hd0
        exact .inl (inj_on_of_nodup_map hp.well.keyed.runs hmem hd hid ▸ hstate)
      · exact .inr (.inl ⟨t0, ht0, hv0⟩)
    · exact .inr (.inl ⟨t, ht, hv⟩)
  · rw [Write.runRow_id] at hpending
    rcases nextPending_cases hpending with ⟨ids, b, r, ops, rest, -, ht, hid⟩ | ⟨hpending, -⟩
    · exact .inr (.inl ⟨_, ht, .inr ⟨r, .inr ⟨_, rfl, cons_ne_nil _ _⟩, hid⟩⟩)
    · exact .inr (.inr hpending)

theorem judged_of_setRunState (hw : p.world.WellFormed) (hk : KnownRuns p.world) {ids : List String}
    {b : Budget} {r : RunState} {ops : List Op} {rest : List RunState}
    (ht : p.world.ctl.tick = some (.advancing b r (.setRunState .failed :: ops) rest))
    (h : p.world.step cfg.config (.tick (.call ids)) = some w') : Judged w' r.runID where
  tick := by
    have hlast := ((hw.tick _ ht).pending _ _ rfl).last .failed rfl mem_cons_self
    have hm := tick_moves h
    rw [ht] at hm
    generalize w'.ctl.tick = t' at hm ⊢
    cases hm with
    | call => exact ⟨b, r, rest, by rw [(List.cons.inj hlast).2], rfl⟩
  row := by
    have hid := hk.tick _ ht r.runID (mem_append_left _ (mem_append_right _ mem_cons_self))
    obtain ⟨d, hd, hid⟩ := mem_map.mp hid
    refine ⟨_, (mem_step_runs h).mpr (.inl ⟨d, hd, rfl⟩), by rw [Write.runRow_id, hid], ?_⟩
    have hs : (p.world.write (.tick (.call ids))).runStatement p.world.db =
        some (.stampDagRunState r.runID .failed) := by
      simp only [World.write, ht, Tick.write, Op.write, Write.runStatement]
    rw [Write.runRow_of_statement hs, row_of_guard _ (beq_iff_eq.mpr hid)]
    rfl

theorem Judged.step (hj : Judged p.world run) (hclears : p.world.ctl.clears = []) (hc : p.isTickOrClear (.world a))
    (ha : ∀ t, a ≠ .tick t) (h : p.world.step cfg.config a = some w') : Judged w' run where
  tick := by
    rw [tick_of_not_tick h ha]
    exact hj.tick
  row := by
    obtain ⟨d, hd, hid, hstate⟩ := hj.row
    refine ⟨_, (mem_step_runs h).mpr (.inl ⟨d, hd, rfl⟩), by rw [Write.runRow_id, hid], ?_⟩
    have hrow := runEffect p.world a d
    generalize (p.world.write a).runRow p.world.db d = d' at hrow
    cases hrow with
    | kept => exact hstate
    | stamped hat => exact absurd hat (ha _)
    | reopened hat =>
      subst hat
      have hn := step_ctl h
      simp [World.next, hclears] at hn
    | orphaned => rfl
    | marked hat =>
      subst hat
      cases hc

/-- No clear is in progress when a step is another party's. -/
theorem clears_of_isTickOrClear (hc : p.isTickOrClear (.world a))
    (hn : ∀ c, a ≠ .clearNext c) (hf : ∀ c, a ≠ .clearFails c) : p.world.ctl.clears = [] := by
  unfold isTickOrClear at hc
  split at hc
  next he =>
    cases he
    exact absurd rfl (hn _)
  next he =>
    cases he
    exact absurd rfl (hf _)
  · cases hc
  · exact List.isEmpty_iff.mp (Bool.and_eq_true_iff.mp hc).1
  · exact List.isEmpty_iff.mp hc

section

variable (hp : Unclaimed p)
include hp

theorem clears_of_pending (hpending : p.pending.isSome)
    (hc : p.isTickOrClear (.world a)) (h : p.world.step cfg.config a = some w') : w'.ctl.clears = [] := by
  have hclears := hp.alone hpending
  have hn := step_ctl h
  rw [← hclears]
  refine clears_of_next hn ?_ ?_ ?_
  · rintro run taskIDs onlyFailed opts v rfl
    have hnone := (Bool.and_eq_true_iff.mp hc).2
    rw [Option.isNone_iff_eq_none] at hnone
    rw [hnone] at hpending
    cases hpending
  · rintro c rfl
    simp [World.next, hclears] at hn
  · rintro c rfl
    simp [World.next, hclears] at hn

theorem Unclaimed.world (hb : p.blocks a = false)
    (hc : p.isTickOrClear (.world a)) (h : p.world.step cfg.config a = some w') : Unclaimed { p with
      world := w', pending := p.nextPending cfg a, reopens := p.countReopens a } where
  well := ⟨keyed_step hp.well h, tickOk_step hp.well h, rows_step hp.well h⟩
  known := knownRuns_step hp.known h
  numbered := hp.numbered
  ahead d' hd' ha := by
    rcases alert_step h hd' with hun | ⟨d, hd, rfl, hsame, hne⟩
    · exact hun.alertAttempts
    · rw [hsame.alertAttempts]
      exact hp.ahead d hd (ahead_of_step hp hc h hd hne ha)
  judged run hrun := by
    rcases nextPending_cases hrun with ⟨ids, b, r, ops, rest, rfl, ht, rfl⟩ | ⟨hpending, hstop⟩
    · exact judged_of_setRunState hp.well hp.known ht h
    · refine (hp.judged run hpending).step (hp.alone (by rw [hpending]; rfl)) hc ?_ h
      rintro t rfl
      cases t with
      | stop => exact hstop rfl
      | _ => simp [blocks, hpending] at hb
  alone hsome := by
    obtain ⟨run, hrun⟩ := Option.isSome_iff_exists.mp hsome
    rcases nextPending_cases hrun with ⟨ids, b, r, ops, rest, rfl, ht, rfl⟩ | ⟨hpending, -⟩
    · have hclears := clears_of_isTickOrClear hc (by simp) (by simp)
      rw [← hclears]
      exact clears_of_next (step_ctl h) (by simp) (by simp) (by simp)
    · exact clears_of_pending hp (by rw [hpending]; rfl) hc h

theorem Unclaimed.claim (hpending : p.pending = some run) {sends : List Send} (hsends : ∀ s ∈ sends, s.attempt ≠ 0) :
    Unclaimed { p with
      world := p.world.executeAlert (p.world.claimUpdate run), pending := none, sends := sends } where
  well := hp.well.executeAlert fun _ => rfl
  known := hp.known.executeAlert fun _ => rfl
  numbered := hsends
  ahead := by
    obtain ⟨⟨b, r, rest, ht, hr⟩, d0, hd0, hid0, hstate0⟩ := hp.judged run hpending
    refine forall_exec _ (fun d hd hg ha => ?_) fun d hd _ ha => ?_
    · have hid : d.id = run := by
        simp only [claimUpdate, claimAlertAttempt, Bool.and_eq_true, beq_iff_eq] at hg
        exact hg.1.1.1
      rcases ha with hstate | ⟨t, ht', hv⟩ | hnone
      · have hd' : d = d0 :=
          inj_on_of_nodup_map hp.well.keyed.runs hd hd0 (hid.trans hid0.symm)
        have hrow : d.state.isTerminal = false := hstate
        rw [hd', hstate0] at hrow
        cases hrow
      · have htick : p.world.ctl.tick = some t := ht'
        rw [ht] at htick
        cases htick
        rcases hv with ⟨_, hmem, -⟩ | ⟨x, hmem | ⟨ops, hc, hne⟩, hx⟩
        · cases hmem
        · exact absurd (hx.trans (hid.trans hr.symm)) ((hp.well.tick _ ht).run_ne hmem)
        · cases hc
          exact absurd rfl hne
      · cases hnone
    · refine hp.ahead d hd (ha.imp_right (Or.imp_right fun hnone => ?_))
      cases hnone
  judged _ hnone := by cases hnone
  alone hnone := by cases hnone

/-- The pages that are under way, and the stamps of those that returned, do not matter to it. -/
theorem Unclaimed.of_same {sends paged : List Send}
    (hsends : ∀ s ∈ sends, s.attempt ≠ 0) : Unclaimed { p with sends := sends, paged := paged } :=
  ⟨hp.well, hp.known, hsends, hp.ahead, hp.judged, hp.alone⟩

theorem Unclaimed.stamp (now : Time) (s : Send) : Unclaimed { p with
      world := p.world.executeAlert (markRunAlertDelivered now s.run s.attempt)
      sends := p.sends.erase s } where
  well := hp.well.executeAlert fun _ => rfl
  known := hp.known.executeAlert fun _ => rfl
  numbered s' hs' := hp.numbered s' (mem_of_mem_erase hs')
  ahead := forall_exec _ (fun d hd _ => hp.ahead d hd) fun d hd _ => hp.ahead d hd
  judged run hrun := by
    obtain ⟨htick, d, hd, hid, hstate⟩ := hp.judged run hrun
    have hrow : ∀ (f : DagRun → Prop), f ((markRunAlertDelivered now s.run s.attempt).set d) → f d →
        f ((markRunAlertDelivered now s.run s.attempt).row d) := by
      intro f hset hkeep
      unfold Lib.Update.row
      split
      · exact hset
      · exact hkeep
    exact ⟨htick, _, mem_map_of_mem hd, hrow (·.id = run) hid hid, hrow (·.state.isTerminal) hstate hstate⟩
  alone := hp.alone

end

/-- What is unclaimed stays so, if only ticks and clears run. -/
theorem unclaimed_step {a : AlertAction} (hp : Unclaimed p) (hc : p.isTickOrClear a)
    (h : p.step cfg a = some p') : Unclaimed p' := by
  have herase : ∀ s, ∀ s' ∈ p.sends.erase s, s'.attempt ≠ 0 := fun s s' hs' =>
    hp.numbered s' (mem_of_mem_erase hs')
  cases a with
  | world a =>
    simp only [step, Option.ite_none_left_eq_some, Option.map_eq_some_iff] at h
    obtain ⟨hb, w, hw, rfl⟩ := h
    exact hp.world (eq_false_of_ne_true hb) hc hw
  | claim run room =>
    simp only [step, Lib.guard_eq_some] at h
    obtain ⟨hpending, rfl⟩ := h
    refine hp.claim hpending ?_
    split
    · exact hp.numbered
    next hne =>
      unfold start
      split
      · exact forall_mem_cons.mpr ⟨hne, hp.numbered⟩
      · exact hp.numbered
  | claimFails run committed room =>
    simp only [step, Lib.guard_eq_some] at h
    obtain ⟨hpending, rfl⟩ := h
    have hunknown : alertAttemptUnknown ≠ 0 := by decide
    have hsends : ∀ s ∈ p.start run alertAttemptUnknown room, s.attempt ≠ 0 := by
      unfold start
      split
      · exact forall_mem_cons.mpr ⟨hunknown, hp.numbered⟩
      · exact hp.numbered
    cases committed with
    | true => exact hp.claim hpending hsends
    | false =>
      refine ⟨hp.well, hp.known, hsends, fun d hd ha => hp.ahead d hd ?_, (fun _ h => by cases h),
        (fun h => by cases h)⟩
      refine ha.imp_right (Or.imp_right fun hnone => ?_)
      cases hnone
  | returns s delivered =>
    simp only [step, Lib.guard_eq_some] at h
    obtain ⟨⟨hs, -⟩, rfl⟩ := h
    cases delivered with
    | true => exact hp.of_same (forall_mem_cons.mpr ⟨hp.numbered s hs, herase s⟩)
    | false => exact hp.of_same (herase s)
  | stamp s =>
    simp only [step, Lib.guard_eq_some] at h
    obtain ⟨-, rfl⟩ := h
    exact hp.stamp _ s
  | stampFails s | lost s =>
    simp only [step, Lib.guard_eq_some] at h
    obtain ⟨-, rfl⟩ := h
    exact hp.of_same (herase s)

end Step

/-! ## The log -/

/-- The clear in progress is the only one. It has reset a row of its run, or has still to, before it
re-opens the run. -/
structure Clearing (w : World) (g : PageLog) (c : Clear) : Prop where
  only : w.ctl.clears = [c]
  touched : g.matched → c.run ∈ g.touched
  resets : c.reopen.isSome → g.matched = false →
    ∃ x ∈ c.resets, ∃ r ∈ w.db.tis, ((x.statement c.run).update w.db.now).guard r

/-- What the log says of the state: a delivered run that has no attempt was touched since. -/
structure Accounted (p : AlertWorld) (g : PageLog) : Prop where
  known : ∀ run ∈ g.delivered, run ∈ p.world.db.runs.map DagRun.id
  owed : ∀ d ∈ p.world.db.runs, d.alertAttempts = 0 → d.id ∈ g.delivered → d.id ∈ g.touched
  clearing : ∀ c ∈ p.world.ctl.clears, Clearing p.world g c
  once : g.OnePerFailure

section Log

variable {cfg : AlertConfig} {p p' : AlertWorld} {g : PageLog} {a : Action} {w' : World} {c : Clear}

theorem mem_touched_of_matches {r : TaskInstance} (hr : r ∈ p.world.db.tis)
    (hm : c.matches p.world.db.now r) : c.run ∈ p.world.touched (.clearNext c) := by
  refine mem_map.mpr ⟨r, mem_filter.mpr ⟨hr, ?_⟩, ?_⟩
  · simp [World.touchesRow, hm]
  · unfold Clear.matches at hm
    split at hm
    next x xs hresets =>
      have hs : c.write.statement p.world.db = some (x.statement c.run) := by
        simp only [Clear.write, hresets, Write.statement]
      exact Clear.guard_run hs hm
    · cases hm

theorem tis_of_not_matches (h : p.world.step cfg.config (.clearNext c) = some w')
    (hm : p.world.db.tis.any (c.matches p.world.db.now) = false) : w'.db.tis = p.world.db.tis := by
  have hins : (p.world.write (.clearNext c)).inserted = [] := by
    simp only [World.write, Clear.write]
    split <;> rfl
  rw [step_tis h, hins, append_nil]
  refine (map_congr_left fun r hr => ?_).trans (map_id _)
  by_contra hne
  obtain ⟨s, hs, hg⟩ := Write.statement_of_row_ne hne
  refine any_eq_false.mp hm r hr ?_
  unfold Clear.matches
  simp only [World.write, Clear.write] at hs
  split at hs
  next x xs _ hresets =>
    cases hs
    rw [hresets]
    exact hg
  · cases hs
  · cases hs

theorem runs_of_not_reopen (h : p.world.step cfg.config (.clearNext c) = some w')
    (hc : c.resets ≠ [] ∨ c.reopen = none) : w'.db.runs = p.world.db.runs := by
  rw [step_db h]
  refine Write.runs_of_keepsRuns ?_ p.world.db
  simp only [World.write, Clear.write]
  split
  · rfl
  next hresets hreopen =>
    rcases hc with hne | hnone
    · exact absurd hresets hne
    · rw [hnone] at hreopen
      cases hreopen
  · rfl

/-- The clear goes on with its next statement. -/
theorem Clearing.next (hc : Clearing p.world g c)
    (h : p.world.step cfg.config (.clearNext c) = some w') {c' : Clear} (hmem : c' ∈ w'.ctl.clears) {g' : PageLog}
    (htouched : ∀ run, run ∈ g.touched ∨ run ∈ p.world.touched (.clearNext c) → run ∈ g'.touched)
    (hmatched : g'.matched = (g.matched || p.world.db.tis.any (c.matches p.world.db.now))) : Clearing w' g' c' := by
  have hn := step_ctl h
  simp only [World.next, Lib.guard_eq_some] at hn
  have hclears : w'.ctl.clears = c.rest.add [] := by
    rw [← hn.2, hc.only, erase_cons_head]
  cases hresets : c.resets with
  | nil =>
    rw [hclears] at hmem
    simp [Clear.rest, hresets, Clear.add, Clear.isDone] at hmem
  | cons x xs =>
    have hrest : c.rest = { c with resets := xs } := by simp only [Clear.rest, hresets]
    have hc' : c' = { c with resets := xs } ∧ w'.ctl.clears = [c'] := by
      rw [hclears, hrest] at hmem ⊢
      unfold Clear.add at hmem ⊢
      split at hmem
      · cases hmem
      next hdone =>
        rw [mem_singleton.mp hmem, if_neg hdone]
        exact ⟨rfl, rfl⟩
    obtain ⟨rfl, honly⟩ := hc'
    refine ⟨honly, fun htrue => ?_, fun hopen hfalse => ?_⟩
    · refine htouched _ ?_
      rw [hmatched, Bool.or_eq_true, any_eq_true] at htrue
      rcases htrue with hbefore | ⟨r, hr, hm⟩
      · exact .inl (hc.touched hbefore)
      · exact .inr (mem_touched_of_matches hr hm)
    · rw [hmatched, Bool.or_eq_false_iff] at hfalse
      obtain ⟨y, hy, r, hr, hguard⟩ := hc.resets hopen hfalse.1
      rw [tis_of_not_matches h hfalse.2]
      rw [hresets] at hy
      rcases mem_cons.mp hy with rfl | hy
      · have hm : c.matches p.world.db.now r := by
          simp only [Clear.matches, hresets]
          exact hguard
        exact absurd hm (any_eq_false.mp hfalse.2 r hr)
      · refine ⟨y, hy, r, hr, ?_⟩
        have hnow : w'.db.now = p.world.db.now := by
          rw [step_db h]
          exact Database.write_now ..
        rw [hnow]
        exact hguard

/-- A clear begins. -/
theorem Clearing.begin {taskIDs : List String} {onlyFailed : Bool} {opts : ClearOptions} {v : String}
    (hc : p.isTickOrClear (.world (.clear run taskIDs onlyFailed opts v)))
    (hr : p.reopensForReset (.world (.clear run taskIDs onlyFailed opts v)))
    (h : p.world.step cfg.config (.clear run taskIDs onlyFailed opts v) = some w') (hmem : c ∈ w'.ctl.clears)
    {g' : PageLog} (hmatched : g'.matched = false) : Clearing w' g' c := by
  have hclears := clears_of_isTickOrClear hc (by simp) (by simp)
  have hn := step_ctl h
  simp only [World.next, Lib.guard_eq_some] at hn
  have honly : c = clearTaskInstances run taskIDs onlyFailed opts v ∧ w'.ctl.clears = [c] := by
    rw [← hn.2, hclears] at hmem ⊢
    unfold Clear.add at hmem ⊢
    split at hmem
    · cases hmem
    next hdone =>
      rw [mem_singleton.mp hmem, if_neg hdone]
      exact ⟨rfl, rfl⟩
  obtain ⟨rfl, honly⟩ := honly
  refine ⟨honly, fun htrue => ?_, fun hopen _ => ?_⟩
  · rw [hmatched] at htrue
    cases htrue
  · have hreset : opts.resetDagRun := by
      by_contra hno
      simp [clearTaskInstances, hno] at hopen
    simp only [reopensForReset, hreset, Bool.not_true, Bool.false_or, any_eq_true] at hr
    rw [step_db h]
    exact hr

section

variable (hg : Accounted p g)
include hg

theorem touched_of_reopened (h : p.world.step cfg.config a = some w') (hr : World.reopened a = some run) :
    run ∈ g.touched := by
  unfold World.reopened at hr
  split at hr
  next c =>
    simp only [Option.ite_none_right_eq_some, Bool.and_eq_true, List.isEmpty_iff, Option.some.injEq] at hr
    obtain ⟨⟨hresets, hopen⟩, rfl⟩ := hr
    have hn := step_ctl h
    simp only [World.next, Option.ite_none_right_eq_some] at hn
    have hc := hg.clearing c hn.1
    cases hmatched : g.matched with
    | true => exact hc.touched hmatched
    | false =>
      obtain ⟨x, hx, -⟩ := hc.resets hopen hmatched
      rw [hresets] at hx
      cases hx
  · cases hr

theorem runs_of_not_matched (h : p.world.step cfg.config (.clearNext c) = some w') (hmatched : g.matched = false) :
    w'.db.runs = p.world.db.runs := by
  have hn := step_ctl h
  simp only [World.next, Option.ite_none_right_eq_some] at hn
  refine runs_of_not_reopen h ?_
  cases hreopen : c.reopen with
  | none => exact .inr rfl
  | some o =>
    obtain ⟨x, hx, -⟩ := (hg.clearing c hn.1).resets (by rw [hreopen]; rfl) hmatched
    exact .inl (ne_nil_of_mem hx)

/-- A step of the control plane adds no page that the log does not account for. -/
theorem Accounted.world (hc : p.isTickOrClear (.world a))
    (hr : p.reopensForReset (.world a)) (h : p.world.step cfg.config a = some w')
    (hworld : p'.world = w') : Accounted p' (log p (.world a) p' g) where
  known run hrun := by
    rw [hworld]
    exact run_id_mem_step h (hg.known run hrun)
  owed d' hd' hattempts hdelivered := by
    rw [hworld] at hd'
    refine mem_append_right _ (mem_filter.mpr ⟨?_, rfl⟩)
    rcases (mem_step_runs h).mp hd' with ⟨d, hd, rfl⟩ | hnew
    · rw [Write.runRow_id] at hdelivered ⊢
      rcases runRow_alert (w := p.world) (a := a) d with ⟨hre, -⟩ | ⟨-, hsame⟩
      · exact touched_of_reopened hg h hre
      · rw [hsame.alertAttempts] at hattempts
        exact hg.owed d hd hattempts hdelivered
    · obtain ⟨-, hfresh⟩ := mem_createdRuns h hnew
      obtain ⟨d, hd, hid⟩ := mem_map.mp (hg.known _ hdelivered)
      exact absurd hid (hfresh d hd)
  clearing c' hc' := by
    rw [hworld] at hc' ⊢
    cases a with
    | clear run taskIDs onlyFailed opts v => exact .begin hc hr h hc' rfl
    | clearNext c =>
      have hn := step_ctl h
      simp only [World.next, Option.ite_none_right_eq_some] at hn
      refine (hg.clearing c hn.1).next h hc' (fun run hrun => ?_) rfl
      rcases hrun with hbefore | hnow
      · exact mem_append_right _ (mem_filter.mpr ⟨hbefore, rfl⟩)
      · exact mem_append_left _ hnow
    | clearFails c =>
      have hn := step_ctl h
      simp only [World.next, Lib.guard_eq_some] at hn
      rw [← hn.2, (hg.clearing c hn.1).only, erase_cons_head] at hc'
      cases hc'
    | _ =>
      rw [clears_of_next (step_ctl h) (by simp) (by simp) (by simp),
        clears_of_isTickOrClear hc (by simp) (by simp)] at hc'
      cases hc'
  once := by
    refine ⟨hg.once.1, ?_⟩
    cases a with
    | clearNext c =>
      simp only [log]
      split
      next hmoved =>
        rw [hworld] at hmoved
        simp only [matched, Bool.or_eq_false_iff] at hmoved
        exact absurd (runs_of_not_matched hg h hmoved.1.1) hmoved.2
      · exact hg.once.2
    | _ => exact hg.once.2

/-- The page of a judged run has a new reason. -/
theorem Accounted.prompted (hp : Unclaimed p) (hpending : p.pending = some run) (hdelivered : run ∈ g.delivered) :
    run ∈ g.touched := by
  obtain ⟨d, hd, rfl, -⟩ := (hp.judged run hpending).row
  exact hg.owed d hd (hp.ahead d hd (.inr (.inr hpending))) hdelivered

theorem Accounted.alert {a : AlertAction} (hclears : p.world.ctl.clears = []) (hstamped : p.stamped a = none)
    (htouched : p.touched a = []) (hstarts : ∀ run ∈ p.starts a, run ∈ g.delivered → run ∈ g.touched)
    (hmoved : (log p a p' g).moved = g.moved) (hid : ∀ d, (u.set d).id = d.id)
    (hset : ∀ d, (u.set d).alertAttempts = 0 → d.alertAttempts = 0) (hworld : p'.world = p.world.executeAlert u) :
    Accounted p' (log p a p' g) := by
  have hids := u.map_exec DagRun.id (u.row_congr _ fun d _ => hid d) p.world.db.runs
  have hruns : p'.world.db.runs = u.exec p.world.db.runs := by rw [hworld]; rfl
  have hsame : (log p a p' g).touched = g.touched := by
    simp [log, hstamped, htouched]
  have hdelivered : (log p a p' g).delivered = g.delivered := by simp [log, hstamped]
  refine ⟨?_, ?_, ?_, ?_, hmoved.trans hg.once.2⟩
  · rw [hdelivered, hruns, hids]
    exact hg.known
  · rw [hdelivered, hsame, hruns]
    refine forall_exec _ (fun d hd _ hattempts => ?_) fun d hd _ => hg.owed d hd
    rw [hid d]
    exact hg.owed d hd (hset d hattempts)
  · rw [hworld]
    intro c hc
    have hmem : c ∈ p.world.ctl.clears := hc
    rw [hclears] at hmem
    cases hmem
  · simp only [log, hg.once.1, append_nil, filter_eq_nil_iff, Option.mem_toList, decide_eq_true_eq, not_and, not_not]
    exact hstarts

/-- Nor does the stamp of a delivery. -/
theorem Accounted.stamp (hp : Unclaimed p) (hclears : p.world.ctl.clears = []) {s : Send} (hs : s ∈ p.sends)
    (hworld : p'.world = p.world.executeAlert (markRunAlertDelivered p.world.db.now s.run s.attempt)) :
    Accounted p' (log p (.stamp s) p' g) := by
  have hids : p'.world.db.runs.map DagRun.id = p.world.db.runs.map DagRun.id := by
    rw [hworld]
    exact map_exec _ DagRun.id (Lib.Update.row_congr _ _ fun _ _ => rfl) _
  cases hany : p.world.db.runs.any (markRunAlertDelivered p.world.db.now s.run s.attempt).guard with
  | false =>
    have hnone : p.stamped (.stamp s) = none := by simp [stamped, hany]
    exact hg.alert hclears hnone rfl (fun _ h => by cases h) rfl (fun _ => rfl) (fun _ h => h) hworld
  | true =>
    have hsome : p.stamped (.stamp s) = some s.run := by simp [stamped, hany]
    obtain ⟨d0, hd0, hguard⟩ := any_eq_true.mp hany
    simp only [markRunAlertDelivered, Bool.and_eq_true, beq_iff_eq] at hguard
    have hne : ∀ d ∈ p.world.db.runs, d.alertAttempts = 0 → d.id ≠ s.run := by
      intro d hd hattempts hid
      have hd' : d = d0 :=
        inj_on_of_nodup_map hp.well.keyed.runs hd hd0 (hid.trans hguard.1.symm)
      refine hp.numbered s hs ?_
      rw [← hguard.2, ← hd', hattempts]
      rfl
    refine ⟨?_, ?_, ?_, ?_, hg.once.2⟩
    · rw [hids]
      intro run hrun
      simp only [log, hsome, Option.toList_some, singleton_append, mem_cons] at hrun
      rcases hrun with rfl | hrun
      · exact hguard.1 ▸ mem_map_of_mem hd0
      · exact hg.known run hrun
    · rw [hworld]
      have howed : ∀ d ∈ p.world.db.runs, d.alertAttempts = 0 →
          d.id ∈ (log p (.stamp s) p' g).delivered → d.id ∈ (log p (.stamp s) p' g).touched := by
        intro d hd hattempts hdelivered
        have hother := hne d hd hattempts
        simp only [log, hsome, Option.toList_some, singleton_append, mem_cons, hother, false_or] at hdelivered
        refine mem_append_right _ (mem_filter.mpr ⟨hg.owed d hd hattempts hdelivered, ?_⟩)
        simp [hsome, Ne.symm hother]
      exact forall_exec _ (fun d hd _ => howed d hd) fun d hd _ => howed d hd
    · intro c hc
      have hmem : c ∈ p.world.ctl.clears := by rwa [hworld] at hc
      rw [hclears] at hmem
      cases hmem
    · exact hg.once.1

end

/-- Every page stays accounted for. -/
theorem accounted_step {a : AlertAction} (hp : Unclaimed p) (hg : Accounted p g)
    (hc : p.isTickOrClear a) (hr : p.reopensForReset a)
    (h : p.step cfg a = some p') : Accounted p' (log p a p' g) := by
  -- A step that writes nothing is the update that matches no row.
  have hquiet : p.world = p.world.executeAlert ⟨fun _ => false, id⟩ := by
    have hruns : p.world.db.runs.map (Lib.Update.row ⟨fun _ => false, id⟩) = p.world.db.runs :=
      (map_congr_left fun d _ => row_of_not_guard _ rfl).trans (map_id _)
    simp only [World.executeAlert, exec, hruns]
  cases a with
  | world a =>
    simp only [step, Option.ite_none_left_eq_some, Option.map_eq_some_iff] at h
    obtain ⟨-, w, hw, rfl⟩ := h
    exact hg.world hc hr hw rfl
  | claim run room =>
    simp only [step, Lib.guard_eq_some] at h
    obtain ⟨hpending, rfl⟩ := h
    refine hg.alert (List.isEmpty_iff.mp hc) rfl rfl (fun run' hrun => ?_) rfl (fun _ => rfl)
      (fun d hd => absurd hd (Nat.succ_ne_zero _)) rfl
    simp only [starts, Option.mem_def, Lib.guard_eq_some] at hrun
    exact hrun.2 ▸ hg.prompted hp hpending
  | claimFails run committed room =>
    simp only [step, Lib.guard_eq_some] at h
    obtain ⟨hpending, rfl⟩ := h
    have hstarts : ∀ run' ∈ p.starts (.claimFails run committed room), run' ∈ g.delivered → run' ∈ g.touched := by
      intro run' hrun
      simp only [starts, Option.mem_def, Lib.guard_eq_some] at hrun
      exact hrun.2 ▸ hg.prompted hp hpending
    cases committed with
    | true =>
      exact hg.alert (List.isEmpty_iff.mp hc) rfl rfl hstarts rfl (fun _ => rfl)
        (fun d hd => absurd hd (Nat.succ_ne_zero _)) rfl
    | false =>
      exact hg.alert (List.isEmpty_iff.mp hc) rfl rfl hstarts rfl (fun _ => rfl) (fun _ h => h) hquiet
  | stamp s =>
    simp only [step, Lib.guard_eq_some] at h
    obtain ⟨⟨hs, -⟩, rfl⟩ := h
    exact hg.stamp hp (List.isEmpty_iff.mp hc) hs rfl
  | returns s delivered | stampFails s | lost s =>
    simp only [step, Lib.guard_eq_some] at h
    obtain ⟨-, rfl⟩ := h
    exact hg.alert (List.isEmpty_iff.mp hc) rfl rfl (fun _ h => by cases h) rfl (fun _ => rfl) (fun _ h => h) hquiet

end Log

/-- **One page per failure.** In every run of ticks and clears in which a clear re-opens a run only
where it resets one of its task instances. -/
theorem one_page_per_failure {cfg : AlertConfig} {p : AlertWorld × PageLog}
    (h : (pages cfg).Reaches (fun p a => p.1.ReopensForReset a) p) : p.2.OnePerFailure := by
  have hp : Unclaimed p.1 ∧ Accounted p.1 p.2 := by
    refine h.ghost_invariant (I := fun p g => Unclaimed p ∧ Accounted p g) ?_ ?_
    · rintro p ⟨now, rfl⟩
      refine ⟨⟨⟨⟨nodup_nil, nodup_nil, nodup_nil⟩, (fun _ ht => by cases ht),
        fun _ _ _ ht => by cases ht⟩, ⟨forall_mem_nil _, fun _ ht => by cases ht⟩,
        forall_mem_nil _, forall_mem_nil _, (fun _ h => by cases h), fun _ => rfl⟩,
        forall_mem_nil _, forall_mem_nil _, forall_mem_nil _, rfl, rfl⟩
    · rintro p a p' g - ⟨hp, hg⟩ ⟨hc, hr⟩ hs
      exact ⟨unclaimed_step hp hc hs, accounted_step hp hg hc hr hs⟩
  exact hp.2.once

/-- The page of the first failure is delivered. -/
def pagedOnce : List AlertAction :=
  firstFailure ++ [.claim "run" true, .returns ⟨"run", 1, 0, false⟩ true, .stamp ⟨"run", 1, 0, true⟩]

/-- The failed task is reset, fails again, and is paged again. -/
def pagedForReset : List AlertAction := pagedOnce ++ nextFailure ++ [.claim "run" true]

theorem one_page_per_failure_reset : ∃ p, (pages oneTaskAlerted).runIf
        (fun p a => p.1.isTickOrClear a && p.1.reopensForReset a) ({ world := .empty 1 }, {})
        pagedForReset = some p ∧
      p.1.sends = [⟨"run", 1, 1, false⟩] ∧ p.2.delivered = ["run"] ∧ p.2.OnePerFailure := by
  refine Lib.exists_eq_some (by decide +kernel) fun hrun => ?_
  exact ⟨by decide +kernel, by decide +kernel, one_page_per_failure
    (Lib.System.Reaches.runIf (.init ⟨⟨1, rfl⟩, rfl⟩) (fun _ _ hc => Bool.and_eq_true_iff.mp hc) hrun)⟩

/-- The tick is over and a clear of no task re-opens the run. -/
def clearsNothing : List Action :=
  [.tick .finish, .tick .stop, .clear "run" [] false ⟨true, false⟩ "v1", .clearNext ⟨"run", [], some .keepingVersion⟩]

/-- The next tick finds the task failed as it was. -/
def pagedForNothing : List AlertAction :=
  pagedOnce ++ (clearsNothing ++ finalizes).map .world ++ [.claim "run" true]

/-- One failure is paged twice. -/
theorem paged_for_nothing : ¬ ∀ (cfg : AlertConfig) (p : AlertWorld × PageLog),
    (pages cfg).Reaches (fun p a => p.1.IsTickOrClear a) p → p.2.OnePerFailure := by
  intro h
  have hrun := (Option.some_get (x := (pages oneTaskAlerted).runIf
    (fun p a => p.1.isTickOrClear a) ({ world := .empty 1 }, {}) pagedForNothing)
    (by decide +kernel)).symm
  have honce := h oneTaskAlerted _ (Lib.System.Reaches.runIf (.init ⟨⟨1, rfl⟩, rfl⟩) (fun _ _ hc => hc) hrun)
  exact absurd honce.1 (by decide +kernel)

end AlertWorld

end Leoflow
