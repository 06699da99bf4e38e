import Leoflow.Lib.Fence
import Leoflow.System.Holdings
import Leoflow.System.WellFormed

/-!
# Attempt fencing

A row keeps its id when it is retried or cleared; only `try_number` tells its attempts apart. Most
writers compare it. Five statements do not: `RescheduleTaskInstance`, `MarkTaskDispatchFailed` and
the marks of the dispatch-lost, agent-lost and pod-lost reapers. The try such a writer was started
for is a token that goes stale when a new try starts under it.
-/

namespace Leoflow

open Lib (Fence)
open World Option

variable {n : Nat} {k : Handle}

/-- The try a write of the action was started for: the attempt of an agent, pod or lease, the try a
reaper's listing showed, or the try of the row when its dispatch was asked for. -/
def Action.tryNumber? : Action → Option Nat
  | .requestFails q _ => some q.tryNumber
  | .reportRunning g | .reportOutcome g | .heartbeat g => some g.attempt.tryNumber
  | .bindWarm l _ | .requeue l => some l.tryNumber
  | .settle p _ => some p.tryNumber
  | .mark i => i.candidate.tryNumber?
  | _ => none

/-- A write changes only rows of the try it was started for. -/
def WritesOwnTry (w : World) (a : Action) : Prop :=
  ∀ n ∈ a.tryNumber?, ∀ r ∈ w.db.tis, (w.write a).row w.db r ≠ r → r.tryNumber = n

instance (w : World) (a : Action) : Decidable (WritesOwnTry w a) := by
  unfold WritesOwnTry
  infer_instance

/-! ## Fenced and unfenced statements -/

/-- The try the `WHERE` clause compares. -/
def Statement.comparesTry : Statement → Option Nat
  | .reportTaskResult _ _ _ _ _ n | .recordTaskHeartbeat _ _ n | .bindWarmAttempt _ _ n _
  | .requeueForRedispatch _ _ n | .failTaskInstanceIfActive _ n _
  | .succeedTaskInstanceIfActive _ n | .rescheduleTaskInstanceByIDIfActive _ n _ => some n
  | _ => none

theorem Statement.tryNumber_of_guard {s : Statement} {now : Time} {r : TaskInstance} (hs : s.comparesTry = some n)
    (hg : (s.update now).guard r) : r.tryNumber = n := by
  cases s <;> simp only [comparesTry, Option.some.injEq, reduceCtorEq] at hs
  all_goals
    subst hs
    simp only [update, Leoflow.reportTaskResult, Leoflow.recordTaskHeartbeat,
      Leoflow.bindWarmAttempt, Leoflow.requeueForRedispatch, Leoflow.failTaskInstanceIfActive,
      Leoflow.succeedTaskInstanceIfActive, Leoflow.rescheduleTaskInstanceByIDIfActive,
      Bool.and_eq_true, beq_iff_eq] at hg
    exact hg.1.2

/-- A party that may still write without a try: a buffered dispatch that may fail, a dispatch about to start an
agent, an agent that may report a reschedule, and a candidate that is not marked yet. -/
inductive UnfencedWriter (w : World) : Handle → Nat → Prop where
  | dispatch {q : Request} (hq : q ∈ w.ctl.requests) (hb : q.buffered) :
      UnfencedWriter w (.key q.run q.task) q.tryNumber
  | starting {q : Request} {att : Attempt} (hq : q ∈ w.ctl.requests) (hs : q.stage = .resolved att) :
      UnfencedWriter w (.key att.run att.task) att.tryNumber
  | agent {g : Agent} (hg : g ∈ w.ctl.agents) (hm : g.mayReschedule) :
      UnfencedWriter w (.key g.attempt.run g.attempt.task) g.attempt.tryNumber
  | reaper {i : Reap} {id : String} {n : Nat} (hi : i ∈ w.ctl.reaps) (hm : i.marked = none)
      (hid : i.candidate.taskInstanceID? = some id) (hn : i.candidate.tryNumber? = some n) :
      UnfencedWriter w (.id id) n

/-- No new try of a row starts while an unfenced writer of the row is outstanding. -/
def TriesStartUnheld (w : World) (a : Action) : Prop :=
  ∀ s, (w.write a).statement w.db = some s → s.startsTry →
    ∀ r ∈ w.db.tis, (s.update w.db.now).guard r →
      ∀ h n, UnfencedWriter w h n → h.covers r = false

/-! ## The try number as a token -/

/-- A row's token is its try; the unfenced writers hold the try they were started for. -/
def tryFence : Fence World Handle Nat where
  token w h n := ∃ r ∈ w.db.tis, h.covers r ∧ r.tryNumber = n
  holds := UnfencedWriter

theorem Candidate.row_of_taken {cfg : ReaperConfig} {db : Database} {now : Time} {c : Candidate}
    (h : c.taken cfg db now) {id : String} (hid : c.taskInstanceID? = some id) (hn : c.tryNumber? = some n) :
    ∃ r ∈ db.tis, r.id = id ∧ r.tryNumber = n := by
  cases c with
  | orphan => cases hid
  | _ =>
    simp only [taken, Bool.and_eq_true, List.contains_iff_mem, listAgentLostCandidates,
      listStaleQueuedCandidates, listRunningTasks, listWarmBoundRunningTIs, List.mem_map] at h
    obtain ⟨r, hr, rfl⟩ : ∃ r ∈ listTasks db _ _, _ := by first | exact h.1.1 | exact h
    exact ⟨r, (mem_of_mem_listTasks hr).1, Option.some.inj hid, Option.some.inj hn⟩

section Step

variable {cfg : Config} {w w' : World} {a : Action}

theorem tryFence_token_step (hc : TriesStartUnheld w a) (h : w.step cfg a = some w') (hold : UnfencedWriter w k n)
    (ht : tryFence.token w k n) : tryFence.token w' k n := by
  obtain ⟨r, hr, hcov, rfl⟩ := ht
  refine ⟨_, (mem_step_tis h).mpr (.inl ⟨r, hr, rfl⟩), Handle.covers_row.trans hcov, ?_⟩
  cases hs : (w.write a).statement w.db with
  | none => rw [Write.row_of_none hs]
  | some s =>
    rw [Write.row_of_statement hs, Statement.row_tryNumber]
    refine if_neg fun hg => ?_
    rw [Bool.and_eq_true] at hg
    exact absurd hcov (by simp [hc s hs hg.1 r hr hg.2 k _ hold])

theorem tryFence_token_of_nothing (h : w.step cfg a = some w') (hn : w.write a = .nothing) (ht : tryFence.token w k n) :
    tryFence.token w' k n := by
  simpa only [tryFence, tis_of_nothing h hn] using ht

/-- A party becomes an unfenced writer of a try only with the row's own. -/
theorem unfencedWriter_step (hw : w.WellFormed) (h : w.step cfg a = some w') (hold : UnfencedWriter w' k n) :
    tryFence.token w' k n ∨ UnfencedWriter w k n := by
  have hn := step_ctl h
  cases hold with
  | dispatch hq hb =>
    rcases mem_requests hn hq with hq | ⟨t, run, task, buffered, rfl, hd, rfl⟩ |
        ⟨q, hq₀, r, -, -, -, rfl⟩ | ⟨q, hq₀, att, -, rfl⟩
    · exact .inr (.dispatch hq hb)
    · left
      obtain ⟨r, hr⟩ := rowFor_of_dispatches hw hd
      refine tryFence_token_of_nothing h (write_of_dispatches hd) ?_
      exact ⟨r, (rowFor_mem hr).1, (rowFor_mem hr).2, by simp [request, hr]⟩
    · exact .inr (.dispatch (q := q) hq₀ hb)
    · exact .inr (.dispatch (q := q) hq₀ hb)
  | starting hq hs =>
    rcases mem_requests hn hq with hq | ⟨t, run, task, buffered, rfl, hd, rfl⟩ |
        ⟨q, hq, r, rfl, -, hr, rfl⟩ | ⟨q, hq, att, -, rfl⟩
    · exact .inr (.starting hq hs)
    · cases hs
    · left
      cases hs
      exact tryFence_token_of_nothing h rfl ⟨r, (rowFor_mem hr).1, (rowFor_mem hr).2, rfl⟩
    · cases hs
  | agent hg hm =>
    rcases mem_agents hn hg with hg | ⟨q, hq, -, att, -, hs, rfl⟩ | ⟨g, hg₀, -, rfl⟩ |
        ⟨g, hg₀, o, -, ho, rfl⟩
    · exact .inr (.agent hg hm)
    · exact .inr (.starting hq hs)
    · exact .inr (.agent (g := g) hg₀ hm)
    · exact .inr (.agent (g := g) hg₀ (by simp [Agent.mayReschedule, ho]))
  | reaper hi hm hid hnum =>
    rcases mem_reaps hn hi with hi | ⟨c, clock, rfl, htaken, rfl⟩ | ⟨i₀, hi, -, hm₀, rfl⟩
    · exact .inr (.reaper hi hm hid hnum)
    · left
      obtain ⟨r, hr, hrid, hrn⟩ := Candidate.row_of_taken htaken hid hnum
      exact tryFence_token_of_nothing h rfl ⟨r, hr, beq_iff_eq.mpr hrid, hrn⟩
    · cases hm

theorem tryFence_respects (hw : w.WellFormed) (hc : TriesStartUnheld w a)
    (h : w.step cfg a = some w') : tryFence.Respects w w' := by
  intro k n hold
  rcases unfencedWriter_step hw h hold with ht | hold
  · exact .inl ht
  · exact .inr ⟨hold, tryFence_token_step hc h hold⟩

/-- A statement of an attempt compares the try, or its writer is one of the unfenced. -/
theorem comparesTry_or_unfenced (h : w.step cfg a = some w') (hn : a.tryNumber? = some n) {s : Statement}
    (hs : (w.write a).statement w.db = some s) : s.comparesTry = some n ∨ ∃ k, UnfencedWriter w k n ∧
      ∀ r, (s.update w.db.now).guard r → k.covers r := by
  have hctl := step_ctl h
  cases a with
  | reportRunning | heartbeat | bindWarm | requeue => cases hs; exact .inl hn
  | settle p v => cases v <;> cases hs <;> exact .inl hn
  | requestFails q reason =>
    cases hn
    simp only [World.next, ite_none_right_eq_some] at hctl
    simp only [World.write] at hs
    split at hs
    · rename_i hb
      cases hs
      refine .inr ⟨_, .dispatch hctl.1 hb, fun r hg => ?_⟩
      simp only [Statement.update, markTaskDispatchFailed, Bool.and_eq_true] at hg
      exact hg.1
    · cases hs
  | reportOutcome g =>
    cases hn
    simp only [World.next, ite_none_right_eq_some] at hctl
    simp only [World.write] at hs
    split at hs
    · rename_i o ho
      cases o with
      | reschedule pokeAt =>
        cases hs
        refine .inr ⟨_, .agent hctl.1.1 (by simp [Agent.mayReschedule, ho]), fun r hg => ?_⟩
        simp only [AgentOutcome.statement, Statement.update, rescheduleTaskInstance,
          Bool.and_eq_true] at hg
        exact hg.1
      | _ => cases hs; exact .inl rfl
    · cases hs
  | mark i =>
    simp only [World.next, ite_none_right_eq_some] at hctl
    right
    simp only [Action.tryNumber?] at hn
    cases hc : i.candidate with
    | orphan => rw [hc] at hn; cases hn
    | _ c =>
      refine ⟨.id c.taskInstanceID, .reaper hctl.1.1 hctl.1.2.1 (by rw [hc]; rfl) hn, fun r hg => ?_⟩
      simp only [World.write, hc, Candidate.mark] at hs
      cases hs
      simp only [Statement.update, markTaskAgentLost, markTaskDispatchLost, markTaskPodLost,
        Bool.and_eq_true] at hg
      exact hg.1
  | _ => cases hn

end Step

/-- **Attempt fencing.** In every run in which no try of a row starts while an unfenced writer of the
row is outstanding, each write that was started for a try changes only rows of that try. -/
theorem writes_own_try {cfg : Config} {w w' : World} {a : Action}
    (h : (World.system cfg).Reaches TriesStartUnheld w) (hs : w.step cfg a = some w') :
    WritesOwnTry w a := by
  have hfence : tryFence.Current w := by
    refine h.invariant (fun w hi => ?_) fun w a w' hr hw hc hs => ?_
    · obtain ⟨now, rfl⟩ := hi
      rintro k n (⟨hq, -⟩ | ⟨hq, -⟩ | ⟨hg, -⟩ | ⟨hi, -⟩)
      all_goals contradiction
    · exact hw.step (tryFence_respects (wellFormed_reaches hr) hc hs)
  intro n hn r hr hrow
  obtain ⟨s, hst, hg⟩ := Write.statement_of_row_ne hrow
  rcases comparesTry_or_unfenced hs hn hst with hcmp | ⟨k, hold, hcov⟩
  · exact Statement.tryNumber_of_guard hcmp hg
  · obtain ⟨r₀, hr₀, hcov₀, rfl⟩ := hfence k n hold
    rw [Handle.eq_of_covers (wellFormed_reaches h).keyed hr hr₀ (hcov r hg) hcov₀]

/-- Tries start only where nobody is on the way. -/
def startsTryUnheld (w : World) (a : Action) : Bool :=
  ((w.write a).statement w.db).all (fun s => !s.startsTry) ||
    (w.ctl.requests.isEmpty && w.ctl.agents.isEmpty && w.ctl.reaps.isEmpty)

theorem triesStartUnheld_of_check (w : World) (a : Action) (h : startsTryUnheld w a) : TriesStartUnheld w a := by
  intro s hs hstart r _ _ k n hold
  simp only [startsTryUnheld, hs, all_some, hstart, Bool.not_true, Bool.false_or,
    Bool.and_eq_true, List.isEmpty_iff] at h
  obtain ⟨⟨h1, h2⟩, h3⟩ := h
  cases hold with
  | dispatch hq => rw [h1] at hq; cases hq
  | starting hq => rw [h1] at hq; cases hq
  | agent hg => rw [h2] at hg; cases hg
  | reaper hi => rw [h3] at hi; cases hi

/-- The second try of a task with one retry reports RUNNING. -/
theorem writes_own_try_second :
    ∃ w, (World.system oneRetry).runIf startsTryUnheld (.empty 1)
        (firstRunning ++ failsThenRetries) = some w ∧
      w.db.tis.map ((w.write (.reportRunning ⟨⟨"ti", "run", "task", 2, 2⟩, false, none⟩)).row w.db) ≠
        w.db.tis ∧
      WritesOwnTry w (.reportRunning ⟨⟨"ti", "run", "task", 2, 2⟩, false, none⟩) := by
  refine Lib.exists_eq_some (by decide +kernel) fun hrun => ?_
  exact ⟨by decide +kernel, writes_own_try
    (Lib.System.Reaches.runIf (.init ⟨1, rfl⟩) triesStartUnheld_of_check hrun)
    (some_get (by decide +kernel)).symm⟩

/-- An operator clears a running task, which is scheduled again before its old agent asks for a
reschedule. -/
def clearedUnderAgent : List Action :=
  firstRunning ++
    [.clear "run" ["task"] false ⟨false, false⟩ "v1", .clearNext ⟨"run", [.task "task"], none⟩] ++
    quietTick [.call []] ++ [.processEnds firstAgent (.reschedule 5)]

/-- The reschedule report of the first try parks the second one. -/
theorem reschedule_of_old_try_applies :
    ¬ ∀ cfg w a w', (World.system cfg).Reachable w → w.step cfg a = some w' → WritesOwnTry w a := by
  intro h
  have hr : (World.system oneTask).Reachable
      (((World.system oneTask).run (.empty 1) clearedUnderAgent).get (by decide +kernel)) :=
    .run (.init ⟨1, rfl⟩) (some_get _).symm
  exact absurd (h oneTask _ (.reportOutcome { firstAgent with outcome := some (.reschedule 5) }) _ hr
    (some_get (by decide +kernel)).symm) (by decide +kernel)

end Leoflow
