import Leoflow.System.TaskMarks

/-!
# What a retry is charged to

The planner decides from `last_failure_kind` alone whether a failure is charged. `FailDispatchExhausted`,
`MarkTaskDispatchFailed`, the orphan mark, the failure of a task no executor takes and an operator's mark leave the
column as it is, so an attempt that never ran is charged like one that reported its failure.
-/

namespace Leoflow

/-- A failure that only says that the attempt could not be placed. -/
def Statement.isUnplaced : Statement → Bool
  | .failDispatchExhausted .. | .markTaskDispatchFailed .. => true
  | _ => false

/-- The statements that fail a row without a report and leave the kind of its failure unset. -/
def Statement.failsUnreported : Statement → Bool
  | .failDispatchExhausted .. | .markTaskDispatchFailed .. | .markRunOrphanedTaskInstances .. => true
  | .updateTaskInstanceStateByRunTask _ _ target => target == .failed
  | _ => false

/-- What an action reports as failed: the row an agent or the reconciler addresses, and the try. -/
def MarkAction.failureReport : MarkAction → Option (Handle × Nat)
  | .world (.reportOutcome ⟨a, _, some (.failed ..)⟩) => some (.key a.run a.task, a.tryNumber)
  | .world (.settle p (.fail _)) => some (.id p.taskInstanceID, p.tryNumber)
  | _ => none

/-- The reports of failures, and the rows whose last failure is that they could not be placed. -/
structure Causes where
  reports : List (Handle × Nat) := []
  unplaced : String → Bool := fun _ => false

/-- The action fails the row. -/
def World.failsRow (w : World) (a : MarkAction) (r : TaskInstance) : Bool :=
  ((a.write w).statement w.db).any fun s => s.fails && (s.update w.db.now).guard r

/-- The causes after an action. -/
def noteCauses (w : World) (a : MarkAction) (_ : World) (g : Causes) : Causes where
  reports := a.failureReport.toList ++ g.reports
  unplaced id :=
    if w.db.tis.any fun r => r.id == id && w.failsRow a r then
      ((a.write w).statement w.db).any Statement.isUnplaced
    else g.unplaced id

/-- The system with the operators' marks, and the causes of the failures. -/
abbrev causeSystem (cfg : Config) : Lib.System (World × Causes) MarkAction :=
  (markSystem cfg).withGhost {} noteCauses

/-- The row's try was reported as failed, and its last failure is not that it could not be placed. -/
structure Causes.Explain (g : Causes) (r : TaskInstance) : Prop where
  reported : ∃ k ∈ g.reports, k.1.covers r ∧ k.2 = r.tryNumber
  placed : g.unplaced r.id = false

instance (g : Causes) (r : TaskInstance) : Decidable (g.Explain r) :=
  decidable_of_iff ((∃ k ∈ g.reports, k.1.covers r ∧ k.2 = r.tryNumber) ∧
    g.unplaced r.id = false) ⟨fun h => ⟨h.1, h.2⟩, fun h => ⟨h.1, h.2⟩⟩

/-- A step that is not of a clear starts a new try only of rows whose try was reported as failed. -/
def ChargesReported (w : World) (g : Causes) (a : MarkAction) : Prop :=
  a.isClear = false → ∀ r ∈ w.db.tis, ((a.write w).row w.db r).tryNumber ≠ r.tryNumber → g.Explain r

instance (w : World) (g : Causes) (a : MarkAction) : Decidable (ChargesReported w g a) := by
  unfold ChargesReported
  infer_instance

/-- A statement that fails rows without a report changes none with tries left, and no operator changes a row
the tick has read as failed and may still move. -/
structure FailsReported (w : World) (a : MarkAction) : Prop where
  unreported : ∀ s, (a.write w).statement w.db = some s → s.failsUnreported →
    ∀ r ∈ w.db.tis, (s.update w.db.now).row r ≠ r → r.maxTries ≤ r.tryNumber
  reads : LeavesReads w a

/-! ## The invariant -/

/-- The retry rail may charge the row: it is parked, or has failed on its own with tries left. -/
def TaskInstance.Chargeable (r : TaskInstance) : Prop :=
  r.state = .upForRetry ∨ (r.state = .failed ∧ r.isInfraFailed = false ∧ (r.tryNumber : Int) < r.maxTries)

section Step

variable {cfg : Config} {w w' : World} {a : MarkAction} {g : Causes}

section

variable {s : Statement} (hs : (a.write w).statement w.db = some s) {r : TaskInstance}
  (hg : (s.update w.db.now).guard r)
include hs hg

/-- A statement that fails a row with a report is the report's. -/
theorem failureReport_of_fails (hf : s.fails)
    (hu : s.failsUnreported = false) (hk : ((s.update w.db.now).row r).isInfraFailed = false) :
    ∃ k, a.failureReport = some k ∧ k.1.covers r ∧ k.2 = r.tryNumber := by
  have hunmarked : ∀ run task target, s ≠ .updateTaskInstanceStateByRunTask run task target := by
    rintro run task target rfl
    simp only [Statement.fails, Statement.failsUnreported] at hf hu
    rw [hf] at hu
    cases hu
  cases a with
  | setTaskInstanceState => exact absurd (Option.some.inj hs).symm (hunmarked _ _ _)
  | world a =>
    have hchan := World.channel_of_statement hs
    cases s with
    | updateTaskInstanceStateByRunTask => exact absurd rfl (hunmarked _ _ _)
    | failDispatchExhausted | markTaskDispatchFailed | markRunOrphanedTaskInstances => cases hu
    | markTaskDispatchLost | markTaskAgentLost | markTaskPodLost =>
      rw [Lib.Update.row_of_guard _ hg] at hk
      cases hk
    | reportTaskResult run task target =>
      simp only [Statement.fails, beq_iff_eq] at hf
      subst hf
      simp only [Statement.update, reportTaskResult, Bool.and_eq_true, beq_iff_eq] at hg
      cases a with
      | reportRunning => cases hs
      | reportOutcome b =>
        obtain ⟨att, running, outcome⟩ := b
        cases outcome with
        | none => cases hs
        | some o =>
          cases o <;> cases hs
          exact ⟨_, rfl, hg.1.1, hg.1.2.symm⟩
      | _ => cases hchan
    | failTaskInstanceIfActive id n message =>
      simp only [Statement.update, failTaskInstanceIfActive, Bool.and_eq_true, beq_iff_eq] at hg
      cases a with
      | settle p v =>
        cases v <;> cases hs
        exact ⟨_, rfl, by simp [Handle.covers, hg.1.1], hg.1.2.symm⟩
      | _ => cases hchan
    | _ => cases hf

theorem failsRow_of_statement : w.failsRow a r = s.fails := by
  simp [World.failsRow, hs, hg]

end

theorem Statement.failsUnreported_of_isUnplaced {s : Statement} (h : s.isUnplaced) :
    s.failsUnreported := by
  cases s <;> first | rfl | cases h

theorem Causes.Explain.keep (hk : w.db.Keyed) {r : TaskInstance} (hr : r ∈ w.db.tis)
    (h : g.Explain r) (htry : ((a.write w).row w.db r).tryNumber = r.tryNumber)
    (hf : w.failsRow a r → ((a.write w).statement w.db).any Statement.isUnplaced = false) :
    (noteCauses w a w' g).Explain ((a.write w).row w.db r) where
  reported := by
    obtain ⟨k, hmem, hcov, hn⟩ := h.reported
    exact ⟨k, List.mem_append_right _ hmem, by rw [Handle.covers_row]; exact hcov, hn.trans htry.symm⟩
  placed := by
    simp only [noteCauses, Write.row_id, hk.any_id hr (w.failsRow a)]
    split
    next hfails => exact hf hfails
    · exact h.placed

/-- A row that could not be placed becomes failed. -/
theorem Statement.row_ne_of_isUnplaced {s : Statement} (h : s.isUnplaced) {now : Time} {r : TaskInstance}
    (hg : (s.update now).guard r) : (s.update now).row r ≠ r := by
  rw [Lib.Update.row_of_guard _ hg]
  intro he
  have hfailed : r.state = .failed := by
    rw [← he]
    cases s <;> first | rfl | cases h
  cases s with
  | failDispatchExhausted | markTaskDispatchFailed =>
    simp [update, Leoflow.failDispatchExhausted, Leoflow.markTaskDispatchFailed, hfailed] at hg
  | _ => cases h

/-- A step that reports its failures keeps every chargeable failure explained. -/
theorem explain_step (hok : RailOk w) (h : a.step cfg w = some w') (hc : FailsReported w a)
    (hg : ∀ r ∈ w.db.tis, r.Chargeable → g.Explain r) {r : TaskInstance} (hr : r ∈ w.db.tis)
    (hch : ((a.write w).row w.db r).Chargeable) : (noteCauses w a w' g).Explain ((a.write w).row w.db r) := by
  have hk := hok.wellFormed.keyed
  by_cases hsame : (a.write w).row w.db r = r
  · refine (hg r hr (hsame ▸ hch)).keep hk hr (by rw [hsame]) fun hfails => ?_
    simp only [World.failsRow, Option.any_eq_true, Bool.and_eq_true] at hfails
    obtain ⟨s, hs, -, hguard⟩ := hfails
    rw [Write.row_of_statement hs] at hsame
    rw [hs, Option.any_some, Bool.eq_false_iff]
    exact fun hu => Statement.row_ne_of_isUnplaced hu hguard hsame
  obtain ⟨s, hs, hguard⟩ := Write.statement_of_row_ne hsame
  have hrow : (a.write w).row w.db r = _ := Write.row_of_statement hs
  have hfails := failsRow_of_statement hs hguard
  have hcalm : s.fails = false →
      w.failsRow a r → ((a.write w).statement w.db).any Statement.isUnplaced = false := by
    intro hnf hyes
    rw [hfails, hnf] at hyes
    cases hyes
  have heffect := hok.retryEffect h hs hr hguard
  rw [← hrow] at heffect
  cases heffect with
  | kept hb hst hk' hnf =>
    refine (hg r hr ?_).keep hk hr hb.tries (hcalm hnf)
    simpa only [TaskInstance.Chargeable, TaskInstance.isInfraFailed, hst, hk', hb.tries, hb.maxTries] using hch
  | moved _ _ hnf hnu =>
    rcases hch with h | ⟨h, -⟩
    · exact absurd h hnu
    · exact absurd h hnf
  | failed hb hst hyes =>
    obtain ⟨-, hkind, hlt⟩ : ((a.write w).row w.db r).state = .failed ∧ _ :=
      hch.resolve_left (by simp [hst])
    rw [hb.tries, hb.maxTries] at hlt
    -- A failure without a report would change a row without tries left.
    have hrep : s.failsUnreported = false := by
      by_contra hu
      have := hc.unreported s hs (by simpa using hu) r hr (hrow ▸ hsame)
      omega
    obtain ⟨k, hk', hcov, hn⟩ := failureReport_of_fails hs hguard hyes hrep (hrow ▸ hkind)
    refine ⟨⟨k, by simp [noteCauses, hk'], by rw [Handle.covers_row]; exact hcov, hn.trans hb.tries.symm⟩, ?_⟩
    simp only [noteCauses, Write.row_id, hk.any_id hr (w.failsRow a), hfails, hyes, if_true, hs, Option.any_some]
    by_contra hu
    rw [Statement.failsUnreported_of_isUnplaced (by simpa using hu)] at hrep
    cases hrep
  | parked hb hst hk' hlt _ hnf =>
    exact (hg r hr (.inr ⟨hst, hk', hlt⟩)).keep hk hr hb.tries (hcalm hnf)
  | redispatched _ _ hn | retried _ hn | replaced _ hn | cleared _ hn =>
    rcases hch with h | ⟨h, -⟩ <;> rw [hn] at h <;> cases h

end Step

theorem explain_reaches {cfg : Config} {p : World × Causes}
    (h : (causeSystem cfg).Reaches (fun p a => FailsReported p.1 a) p) :
    ∀ r ∈ p.1.db.tis, r.Chargeable → p.2.Explain r := by
  refine Lib.System.Reaches.ghost_invariant (I := fun w g => ∀ r ∈ w.db.tis, r.Chargeable → g.Explain r)
    (fun w hi => ?_) (fun w a w' g hr hg hc hs => ?_) h
  · obtain ⟨now, rfl⟩ := hi
    exact fun r hr => by cases hr
  · intro r' hr' hch
    rcases (MarkAction.mem_tis hs).mp hr' with ⟨r, hmem, rfl⟩ | hins
    · exact explain_step (railOk_reaches (fun _ _ hc => hc.reads) hr) hs hc hg hmem hch
    · cases a with
      | setTaskInstanceState => cases hins
      | world a =>
        obtain ⟨_, _, run, _, _, t, id, -, -, -, rfl⟩ := World.mem_inserted hins
        rcases hch with h | ⟨h, -⟩ <;> cases h

/-- A check that gives the condition. -/
def failsReported (w : World) (a : MarkAction) : Bool :=
  (!a.isOperators || w.ctl.tick.isNone) && ((a.write w).statement w.db).all fun s => !s.failsUnreported ||
    w.db.tis.all fun r => !(s.update w.db.now).guard r || decide (r.maxTries ≤ r.tryNumber)

theorem failsReported_of_check (w : World) (a : MarkAction) (h : failsReported w a) : FailsReported w a := by
  simp only [failsReported, Bool.and_eq_true, Bool.or_eq_true, Bool.not_eq_true'] at h
  refine ⟨fun s hs hu r hr hne => ?_, fun ha t run ht => ?_⟩
  · simp only [hs, Option.all_some, hu, Bool.not_true, Bool.false_or, List.all_eq_true,
      Bool.or_eq_true, Bool.not_eq_true', decide_eq_true_eq] at h
    exact (h.2 r hr).resolve_left fun hg => hne (Lib.Update.row_of_not_guard _ hg)
  · rw [ha, ht] at h
    simp at h

/-- The running first try reports its failure, and the retry rail has parked the task and is about to
reset it. -/
def failsAndIsParked : List Action :=
  firstRunning ++ failsThenRetries.take 4 ++ quietTick [.call []] ++ tickStarts

/-- The queued task's buffered dispatch fails, and the retry rail has parked the task and is about to
reset it. -/
def failsInBuffer : List Action :=
  dispatched ++ [.tick (.call []), .tick .finish, .tick .stop,
    .requestFails firstRequest "create pod: no quota"] ++ quietTick [.call []] ++ tickStarts

end Leoflow
