import Leoflow.Scheduler.Reads
import Leoflow.System.WellFormed

/-!
# A clear as a fresh start

The clears leave three columns that somebody reads later: `infra_attempts` and `last_heartbeat_at` in all of them,
`first_reschedule_at` in those of the failed tasks. Everything the planner, the reapers and the agent of the task
decide afterwards is the same for two cleared rows of one task exactly where these columns already agreed as far as
their readers can tell.
-/

namespace Leoflow

open List

/-! ## What a reader can tell -/

/-- The columns of a row that the planner and the reapers do not read, or read only in part. -/
structure Hidden where
  pool : Option String
  duration : Option Duration
  exitCode : Option Int
  errorMessage : Option String
  note : Option String
  rescheduleAt : Option Time
  firstRescheduleAt : Option Time
  infraAttempts : Nat
  lastHeartbeatAt : Option Time

namespace TaskInstance

/-- The hidden columns of a row. -/
def hidden (r : TaskInstance) : Hidden where
  pool := r.pool
  duration := r.duration
  exitCode := r.exitCode
  errorMessage := r.errorMessage
  note := r.note
  rescheduleAt := r.rescheduleAt
  firstRescheduleAt := r.firstRescheduleAt
  infraAttempts := r.infraAttempts
  lastHeartbeatAt := r.lastHeartbeatAt

/-- The row with other hidden columns. -/
def withHidden (r : TaskInstance) (h : Hidden) : TaskInstance :=
  { r with
    pool := h.pool
    duration := h.duration
    exitCode := h.exitCode
    errorMessage := h.errorMessage
    note := h.note
    rescheduleAt := h.rescheduleAt
    firstRescheduleAt := h.firstRescheduleAt
    infraAttempts := h.infraAttempts
    lastHeartbeatAt := h.lastHeartbeatAt }

/-- What the readers can tell of the hidden columns: the instant of the next poke while a sensor is
parked, the second of the first reschedule, the re-places up to their limit, and the last
heartbeat, where `NULL` reads as the zero time. -/
structure Alike (r s : TaskInstance) : Prop where
  visible : s = r.withHidden s.hidden
  reschedule : r.state = .upForReschedule → s.rescheduleAt = r.rescheduleAt
  firstReschedule : s.firstRescheduleAt.map (· / second) = r.firstRescheduleAt.map (· / second)
  infra : min (s.infraAttempts : Int) infraMaxAttempts = min (r.infraAttempts : Int) infraMaxAttempts
  heartbeat : s.lastHeartbeatAt.getD 0 = r.lastHeartbeatAt.getD 0

variable {r s : TaskInstance}

theorem Alike.refl (r : TaskInstance) : r.Alike r := ⟨rfl, fun _ => rfl, rfl, rfl, rfl⟩

theorem Alike.column {β : Type} (h : r.Alike s) (g : TaskInstance → β)
    (hg : ∀ r k, g (r.withHidden k) = g r) : g s = g r := by
  rw [h.visible]
  exact hg r _

theorem Alike.guard (h : r.Alike s) (st : Statement) (now : Time) :
    (st.update now).guard s = (st.update now).guard r := by
  rw [h.visible]
  cases st <;> rfl

theorem set_withHidden (st : Statement) (now : Time) (r : TaskInstance) (k : Hidden) :
    (st.update now).set (r.withHidden k) =
      ((st.update now).set r).withHidden ((st.update now).set (r.withHidden k)).hidden := by
  cases st <;> rfl

theorem firstReschedule_rescheduledTo {a b : Option Time} (now : Time) (h : a.map (· / second) = b.map (· / second)) :
    (a.or (some now)).map (· / second) = (b.or (some now)).map (· / second) := by
  cases a <;> cases b <;> simp_all

/-- A statement keeps rows alike. -/
theorem Alike.set (h : r.Alike s) {st : Statement} (hst : st.isIssued) (now : Time) :
    ((st.update now).set r).Alike ((st.update now).set s) where
  visible := by
    rw [h.visible]
    exact set_withHidden st now r s.hidden
  reschedule hs := by
    rw [st.set_state] at hs
    cases st with
    | updateTaskInstanceStateByRunTask run task target
    | updateTaskInstanceStatesByRunTasks run tasks target
    | reportTaskResult run task target =>
      subst hs
      cases hst
    | recordDispatchFailure | recordDispatchBackpressure | setTaskInstanceNote | recordTaskHeartbeat
    | bindWarmAttempt => exact h.reschedule hs
    | rescheduleTaskInstance | rescheduleTaskInstanceByIDIfActive => rfl
    | _ => cases hs
  firstReschedule := by
    cases st with
    | resetTaskInstanceForRetry | resetTaskInstanceInfraReplace | resetTaskInstanceToNone => rfl
    | rescheduleTaskInstance | rescheduleTaskInstanceByIDIfActive =>
      exact firstReschedule_rescheduledTo now h.firstReschedule
    | _ => exact h.firstReschedule
  infra := by
    cases st with
    | resetTaskInstanceInfraReplace =>
      have hinfra := h.infra
      simp only [Statement.update, resetTaskInstanceInfraReplace]
      push_cast
      omega
    | _ => exact h.infra
  heartbeat := by
    cases st with
    | recordTaskHeartbeat => rfl
    | _ => exact h.heartbeat

theorem Alike.row (h : r.Alike s) {st : Statement} (hst : st.isIssued) (now : Time) :
    ((st.update now).row r).Alike ((st.update now).row s) := by
  have hguard := h.guard st now
  unfold Lib.Update.row
  rw [hguard]
  split
  · exact h.set hst now
  · exact h

end TaskInstance

/-- What a list of statements makes of a row, each at its own time. -/
def TaskInstance.later (events : List (Time × Statement)) (r : TaskInstance) : TaskInstance :=
  events.foldl (fun r e => (e.2.update e.1).row r) r

theorem TaskInstance.Alike.later {r s : TaskInstance} (h : r.Alike s)
    {events : List (Time × Statement)} (hev : ∀ e ∈ events, e.2.isIssued) :
    (r.later events).Alike (s.later events) := by
  induction events generalizing r s with
  | nil => exact h
  | cons e events ih =>
    obtain ⟨he, hev⟩ := forall_mem_cons.mp hev
    exact ih (h.row he e.1) hev

/-! ## Decisions -/

/-- The database with another row in the place of one. -/
def Database.replacing (db : Database) (s : TaskInstance) : Database :=
  { db with tis := db.tis.map fun x => if x.id = s.id then s else x }

/-- With either database, the planner makes the same calls for every run, each reaper takes the row or
leaves it alike, and the agent of the task is given the same deadline. -/
structure DecideAlike (cfg : Config) (db db' : Database) (r : TaskInstance) : Prop where
  planner : ∀ (b : Budget), ∀ d ∈ db.runs, ∀ dispatcher, (b.prepare (snapshot cfg db' d)).advance dispatcher =
      (b.prepare (snapshot cfg db d)).advance dispatcher
  afterDispatch : ∀ (b : Budget), ∀ d ∈ db.runs, ∀ task wall outcome,
    (b.prepare (snapshot cfg db' d)).afterDispatch task wall outcome =
      (b.prepare (snapshot cfg db d)).afterDispatch task wall outcome
  agentLost : ∀ clock, (∃ c, (Candidate.agentLost c).taken cfg.reapers db' clock ∧ c.taskInstanceID = r.id) ↔
      ∃ c, (Candidate.agentLost c).taken cfg.reapers db clock ∧ c.taskInstanceID = r.id
  reapers : ∀ clock (c : Candidate), (∀ a, c ≠ .agentLost a) →
    c.taken cfg.reapers db' clock = c.taken cfg.reapers db clock
  deadline : deliveredFirstRescheduleAt db' r.dagRunId r.taskId = deliveredFirstRescheduleAt db r.dagRunId r.taskId

section Alike

variable {db : Database} {f : TaskInstance → TaskInstance}

theorem listTaskInstancesByRun_map (hrun : ∀ x ∈ db.tis, (f x).dagRunId = x.dagRunId)
    (htask : ∀ x ∈ db.tis, (f x).taskId = x.taskId) (run : String) :
    listTaskInstancesByRun { db with tis := db.tis.map f } run = (listTaskInstancesByRun db run).map f := by
  unfold listTaskInstancesByRun
  have hfilter : db.tis.filter ((fun r => r.dagRunId == run) ∘ f) = db.tis.filter fun r => r.dagRunId == run :=
    filter_congr fun x hx => by simp [hrun x hx]
  rw [filter_map, hfilter]
  refine (map_insertionSort _ _ f _ ?_).symm
  intro x hx y hy
  rw [htask x (mem_of_mem_filter hx), htask y (mem_of_mem_filter hy)]

theorem listTasks_map {β : Type} {keep : TaskInstance → Bool} {by_ : TaskInstance → Option Time}
    {show_ : TaskInstance → β} (hkeep : ∀ x ∈ db.tis, keep (f x) = keep x)
    (hby : ∀ x ∈ db.tis, by_ (f x) = by_ x) (hshow : ∀ x ∈ db.tis, show_ (f x) = show_ x) :
    (listTasks { db with tis := db.tis.map f } keep by_).map show_ = (listTasks db keep by_).map show_ := by
  have hlist : listTasks { db with tis := db.tis.map f } keep by_ = (listTasks db keep by_).map f := by
    unfold listTasks
    have hfilter : db.tis.filter (keep ∘ f) = db.tis.filter keep :=
      filter_congr fun x hx => hkeep x hx
    rw [map_take, filter_map, hfilter]
    refine congrArg (List.take 100) (map_insertionSort _ _ f _ ?_).symm
    intro x hx y hy
    rw [hby x (mem_of_mem_filter hx), hby y (mem_of_mem_filter hy)]
  rw [hlist, map_map]
  exact map_congr_left fun x hx => hshow x (mem_of_mem_listTasks hx).1

/-- Rows that are alike give a tick the same reading. -/
theorem snapshot_map (cfg : Config) (hk : db.Keyed) (hf : ∀ x ∈ db.tis, x.Alike (f x)) (d : DagRun) :
    ∃ m n, snapshot cfg { db with tis := db.tis.map f } d = (snapshot cfg db d).reading m n ∧
      (snapshot cfg db d).ReadsAlike m n := by
  have hmem : ∀ x ∈ listTaskInstancesByRun db d.id, x ∈ db.tis := fun x hx =>
    (mem_listTaskInstancesByRun.mp hx).1
  have htask : ∀ x ∈ db.tis, (f x).taskId = x.taskId := fun x hx =>
    (hf x hx).column TaskInstance.taskId fun _ _ => rfl
  have htask' : ∀ x ∈ listTaskInstancesByRun db d.id, (f x).taskId = x.taskId := fun x hx =>
    htask x (hmem x hx)
  have hcol : ∀ {α : Type} (column : TaskInstance → Option α), (∀ r k, column (r.withHidden k) = column r) →
      mapOf ((listTaskInstancesByRun db d.id).map f) column =
        mapOf (listTaskInstancesByRun db d.id) column := fun column hg =>
    mapOf_map htask' fun x hx => (hf x (hmem x hx)).column column hg
  have hnd := hk.taskIds d.id
  refine ⟨mapOf ((listTaskInstancesByRun db d.id).map f) TaskInstance.rescheduleAt,
    mapOf ((listTaskInstancesByRun db d.id).map f) fun r => positive r.infraAttempts, ?_, ?_, ?_⟩
  · rw [snapshot, listTaskInstancesByRun_map (fun x hx => (hf x hx).column _ fun _ _ => rfl) htask]
    simp only [runState, RunState.reading, snapshot]
    rw [hcol (fun r => some r.state) fun _ _ => rfl, hcol (fun r => some (r.tryNumber : Int)) fun _ _ => rfl,
      hcol (fun r => some r.maxTries) fun _ _ => rfl,
      hcol TaskInstance.endedAt fun _ _ => rfl,
      hcol TaskInstance.nextDispatchAt fun _ _ => rfl,
      hcol (fun r => positive r.dispatchAttempts) fun _ _ => rfl,
      hcol (fun r => if r.isInfraFailed then some true else none) fun _ _ => rfl]
  · intro id hs
    obtain ⟨r, hr, rfl, hstate⟩ := Lib.GoMap.mem_of_lookup_collect hs
    refine (lookup_mapOf_map hnd htask' _ hr).trans ?_
    exact ((hf r (hmem r hr)).reschedule (Option.some.inj hstate)).trans (lookup_mapOf hnd _ hr).symm
  · intro id
    by_cases hrow : ∃ r ∈ listTaskInstancesByRun db d.id, r.taskId = id
    · obtain ⟨r, hr, rfl⟩ := hrow
      rw [Lib.GoMap.getD, Lib.GoMap.getD, lookup_mapOf_map hnd htask' _ hr, getD_positive]
      refine (hf r (hmem r hr)).infra.trans ?_
      change _ = min (((mapOf _ fun r => positive r.infraAttempts).lookup r.taskId).getD 0) _
      rw [lookup_mapOf hnd _ hr, getD_positive]
    · have hno : ∀ r ∈ listTaskInstancesByRun db d.id, r.taskId ≠ id := fun r hr he =>
        hrow ⟨r, hr, he⟩
      have hno' : ∀ r ∈ (listTaskInstancesByRun db d.id).map f, r.taskId ≠ id := by
        intro x hx
        obtain ⟨r, hr, rfl⟩ := mem_map.mp hx
        rw [htask' r hr]
        exact hno r hr
      rw [Lib.GoMap.getD, lookup_mapOf_eq_none _ hno']
      change _ = min (((mapOf _ fun r => positive r.infraAttempts).lookup id).getD 0) _
      rw [lookup_mapOf_eq_none _ hno]

/-- Rows that are alike give the same orphan candidates. -/
theorem listOrphanCandidates_map (hf : ∀ x ∈ db.tis, x.Alike (f x)) :
    listOrphanCandidates { db with tis := db.tis.map f } = listOrphanCandidates db := by
  have hrow : ∀ d : DagRun, (db.tis.map f).filter (fun r => r.dagRunId == d.id) =
      (db.tis.filter fun r => r.dagRunId == d.id).map f := by
    intro d
    rw [filter_map]
    exact congrArg (List.map f) (filter_congr fun x hx =>
      (hf x hx).column (fun r => r.dagRunId == d.id) fun _ _ => rfl)
  have hcand : isOrphanCandidate { db with tis := db.tis.map f } = isOrphanCandidate db := by
    funext d
    have hany : ((db.tis.map f).any fun r => r.dagRunId == d.id && r.state.isActive) =
        db.tis.any fun r => r.dagRunId == d.id && r.state.isActive := by
      rw [any_map, Bool.eq_iff_iff, any_eq_true, any_eq_true]
      refine exists_congr fun x => and_congr_right fun hx => ?_
      rw [← (hf x hx).column (fun r => r.dagRunId == d.id && r.state.isActive) fun _ _ => rfl]
      rfl
    simp only [isOrphanCandidate, hany]
  have hactivity : ∀ d, lastActivity d ((db.tis.filter fun r => r.dagRunId == d.id).map f) =
      lastActivity d (db.tis.filter fun r => r.dagRunId == d.id) := by
    intro d
    have hcol : ∀ column : TaskInstance → Option Time, (∀ r k, column (r.withHidden k) = column r) →
        (db.tis.filter fun r => r.dagRunId == d.id).filterMap (column ∘ f) =
          (db.tis.filter fun r => r.dagRunId == d.id).filterMap column := fun column hg =>
      filterMap_congr fun x hx => (hf x (mem_of_mem_filter hx)).column column hg
    simp only [lastActivity, filterMap_map]
    rw [hcol TaskInstance.endedAt fun _ _ => rfl, hcol TaskInstance.startedAt fun _ _ => rfl]
  simp only [listOrphanCandidates, hcand, hrow, hactivity]

theorem taken_map (cfg : ReaperConfig) (hf : ∀ x ∈ db.tis, x.Alike (f x)) (clock : Time)
    {c : Candidate} (hc : ∀ a, c ≠ .agentLost a) :
    c.taken cfg { db with tis := db.tis.map f } clock = c.taken cfg db clock := by
  cases c with
  | agentLost a => exact absurd rfl (hc a)
  | orphan c => simp only [Candidate.taken, listOrphanCandidates_map hf]
  | dispatchLost c =>
    simp only [Candidate.taken, listStaleQueuedCandidates]
    rw [listTasks_map (fun x hx => (hf x hx).column _ fun _ _ => rfl)
      (fun x hx => (hf x hx).column _ fun _ _ => rfl) fun x hx => (hf x hx).column _ fun _ _ => rfl]
  | podLost c =>
    simp only [Candidate.taken, listRunningTasks]
    rw [listTasks_map (fun x hx => (hf x hx).column _ fun _ _ => rfl)
      (fun x hx => (hf x hx).column _ fun _ _ => rfl) fun x hx => (hf x hx).column _ fun _ _ => rfl]
  | warmWorkerLost c =>
    simp only [Candidate.taken, listWarmBoundRunningTIs]
    rw [listTasks_map (fun x hx => (hf x hx).column _ fun _ _ => rfl)
      (fun x hx => (hf x hx).column _ fun _ _ => rfl) fun x hx => (hf x hx).column _ fun _ _ => rfl]

theorem heartbeat_of_taken (hk : db.Keyed) {cfg : ReaperConfig} {clock : Time} {r : TaskInstance}
    (hr : r ∈ db.tis) {c : AgentLostCandidate}
    (h : (Candidate.agentLost c).taken cfg db clock) (hid : c.taskInstanceID = r.id) :
    r.lastHeartbeatAt.getD 0 ≠ 0 := by
  simp only [Candidate.taken, isAgentLost, Bool.and_eq_true, contains_iff_mem, bne_iff_ne] at h
  obtain ⟨x, hx, rfl⟩ := mem_map.mp h.1.1
  rw [← hk.eq_of_id (mem_of_mem_listTasks hx).1 hr hid]
  exact h.1.2.1

end Alike

section Replacing

variable {db : Database} {r s : TaskInstance}

theorem alike_replacing (hk : db.Keyed) (hr : r ∈ db.tis) (h : r.Alike s) :
    ∀ x ∈ db.tis, x.Alike (if x.id = s.id then s else x) := by
  have hid : s.id = r.id := h.column TaskInstance.id fun _ _ => rfl
  intro x hx
  split
  next hxid =>
    rw [hk.eq_of_id hx hr (hxid.trans hid)]
    exact h
  · exact .refl x

theorem keyed_replacing (hk : db.Keyed) (hr : r ∈ db.tis) (h : r.Alike s) : (db.replacing s).Keyed := by
  have hf := alike_replacing hk hr h
  have hcol : ∀ {β : Type} (g : TaskInstance → β), (∀ r k, g (r.withHidden k) = g r) →
      (db.replacing s).tis.map g = db.tis.map g := by
    intro β g hg
    rw [Database.replacing, map_map]
    exact map_congr_left fun x hx => (hf x hx).column g hg
  refine ⟨?_, ?_, hk.runs⟩
  · rw [hcol TaskInstance.id fun _ _ => rfl]
    exact hk.ids
  · rw [hcol TaskInstance.key fun _ _ => rfl]
    exact hk.keys

/-- The agent-lost reaper takes a row if and only if it takes one alike. -/
theorem agentLost_replacing (cfg : ReaperConfig) (hk : db.Keyed) (hr : r ∈ db.tis) (h : r.Alike s) (clock : Time) :
    (∃ c, (Candidate.agentLost c).taken cfg (db.replacing s) clock ∧ c.taskInstanceID = r.id) ↔
      ∃ c, (Candidate.agentLost c).taken cfg db clock ∧ c.taskInstanceID = r.id := by
  have hid : s.id = r.id := h.column TaskInstance.id fun _ _ => rfl
  have hf := alike_replacing hk hr h
  by_cases hbeat : s.lastHeartbeatAt = r.lastHeartbeatAt
  · have hbeats : ∀ x ∈ db.tis, (if x.id = s.id then s else x).lastHeartbeatAt = x.lastHeartbeatAt := by
      intro x hx
      split
      next hxid =>
        rw [hk.eq_of_id hx hr (hxid.trans hid), hbeat]
      · rfl
    have hlist : listAgentLostCandidates (db.replacing s) = listAgentLostCandidates db := by
      refine listTasks_map (fun x hx => ?_) hbeats fun x hx => ?_
      · rw [hbeats x hx, (hf x hx).column TaskInstance.state fun _ _ => rfl]
      · rw [hbeats x hx, (hf x hx).column TaskInstance.id fun _ _ => rfl,
          (hf x hx).column TaskInstance.dagRunId fun _ _ => rfl,
          (hf x hx).column TaskInstance.taskId fun _ _ => rfl,
          (hf x hx).column TaskInstance.tryNumber fun _ _ => rfl]
    simp only [Candidate.taken, hlist]
    rfl
  · -- Neither row has a heartbeat the reaper would act on.
    have hzero : r.lastHeartbeatAt.getD 0 = 0 := by
      have hread := h.heartbeat
      cases hr : r.lastHeartbeatAt <;> cases hs : s.lastHeartbeatAt <;> simp_all
    have hs : s ∈ (db.replacing s).tis := mem_map.mpr ⟨r, hr, if_pos hid.symm⟩
    constructor
    · rintro ⟨c, hc, hcid⟩
      exact absurd (h.heartbeat.trans hzero) (heartbeat_of_taken (keyed_replacing hk hr h) hs hc (hcid.trans hid.symm))
    · rintro ⟨c, hc, hcid⟩
      exact absurd hzero (heartbeat_of_taken hk hr hc hcid)

theorem find?_isFor (hk : db.Keyed) (hr : r ∈ db.tis) :
    db.tis.find? (TaskInstance.isFor r.dagRunId r.taskId) = some r := by
  have hself : r.isFor r.dagRunId r.taskId := by simp [TaskInstance.isFor]
  cases hfind : db.tis.find? (TaskInstance.isFor r.dagRunId r.taskId) with
  | none => exact absurd hself (List.find?_eq_none.mp hfind r hr)
  | some x =>
    rw [hk.eq_of_isFor (mem_of_find?_eq_some hfind) hr (List.find?_some hfind) hself]

/-- **Rows that are alike are decided alike.** -/
theorem decideAlike_of_alike (cfg : Config) (hk : db.Keyed) (hr : r ∈ db.tis) (h : r.Alike s) :
    DecideAlike cfg db (db.replacing s) r where
  planner b d _ dispatcher := by
    obtain ⟨m, n, heq, hreads⟩ := snapshot_map cfg hk (alike_replacing hk hr h) d
    have hprep : (b.prepare (snapshot cfg db d)).ReadsAlike m n := ⟨hreads.reschedule, hreads.infra⟩
    rw [Database.replacing, heq]
    exact hprep.advance dispatcher
  afterDispatch b d _ task wall outcome := by
    obtain ⟨m, n, heq, -⟩ := snapshot_map cfg hk (alike_replacing hk hr h) d
    rw [Database.replacing, heq]
    cases outcome <;> rfl
  agentLost := agentLost_replacing cfg.reapers hk hr h
  reapers clock _ hc := taken_map cfg.reapers (alike_replacing hk hr h) clock hc
  deadline := by
    have hid : s.id = r.id := h.column TaskInstance.id fun _ _ => rfl
    have hs : s ∈ (db.replacing s).tis := mem_map.mpr ⟨r, hr, if_pos hid.symm⟩
    have hfind := find?_isFor (keyed_replacing hk hr h) hs
    rw [h.column TaskInstance.dagRunId fun _ _ => rfl, h.column TaskInstance.taskId fun _ _ => rfl] at hfind
    simp only [deliveredFirstRescheduleAt, taskInstanceFirstRescheduleAt, hfind, find?_isFor hk hr]
    exact h.firstReschedule

end Replacing

/-! ## Telling rows apart -/

/-- The cleared row is queued again at time `t`. -/
def queuedAgain (t : Time) (r : TaskInstance) : List (Time × Statement) :=
  [(t, .updateTaskInstanceStatesByRunTasks r.dagRunId [r.taskId] .scheduled),
    (t, .updateTaskInstanceStateByRunTask r.dagRunId r.taskId .queued)]

/-- Its dispatch is lost. -/
def lostAgain (t : Time) (r : TaskInstance) : List (Time × Statement) :=
  queuedAgain t r ++ [(t, .markTaskDispatchLost r.id)]

/-- Its agent reports RUNNING. -/
def runsAgain (t : Time) (r : TaskInstance) : List (Time × Statement) :=
  queuedAgain t r ++ [(t, .reportTaskResult r.dagRunId r.taskId .running (some 0) none r.tryNumber)]

/-- A row that is lost again has all that a re-place depends on from the one before. -/
structure LostFrom (t : Time) (x r : TaskInstance) : Prop where
  id : x.id = r.id
  dagRunId : x.dagRunId = r.dagRunId
  taskId : x.taskId = r.taskId
  state : x.state = .failed
  kind : x.lastFailureKind = some "infra"
  endedAt : x.endedAt = some t
  infraAttempts : x.infraAttempts = r.infraAttempts

theorem later_lostAgain (t : Time) (r : TaskInstance) : LostFrom t (r.later (lostAgain t r)) r := by
  have hlater : r.later (lostAgain t r) = ((r.moveTo t .scheduled).moveTo t .queued).lostWith t
        "dispatch_lost: scheduler crashed before dispatch landed; will be retried by the run reaper" := by
    simp [TaskInstance.later, lostAgain, queuedAgain, Statement.update, Lib.Update.row,
      updateTaskInstanceStatesByRunTasks, updateTaskInstanceStateByRunTask, markTaskDispatchLost,
      TaskInstance.isFor, TaskInstance.moveTo]
  rw [hlater]
  exact ⟨rfl, rfl, rfl, rfl, rfl, rfl, rfl⟩

theorem later_runsAgain (t : Time) (r : TaskInstance) : (r.later (runsAgain t r)).state = .running ∧
      (r.later (runsAgain t r)).lastHeartbeatAt = r.lastHeartbeatAt ∧
      (r.later (runsAgain t r)).id = r.id ∧ (r.later (runsAgain t r)).dagRunId = r.dagRunId := by
  simp [TaskInstance.later, runsAgain, queuedAgain, Statement.update, Lib.Update.row,
    updateTaskInstanceStatesByRunTasks, updateTaskInstanceStateByRunTask, reportTaskResult,
    TaskInstance.isFor, TaskInstance.moveTo, TaskState.isReportable]

/-- A database with the row alone. -/
def alone (n : Time) (r : TaskInstance) : Database where
  now := n
  runs := [{ id := r.dagRunId, dagVersionId := "v1", state := .running, queuedAt := 0 }]
  tis := [r]

/-- A DAG of the row's task. -/
def onlyTask (r : TaskInstance) : Config := .ofTasks [{ taskID := r.taskId }] (nodup_singleton _)

/-- Its snapshot before it is advanced. -/
def aloneRun (n : Time) (r : TaskInstance) : RunState :=
  Budget.prepare ⟨∅, ∅, false, ∅, ∅⟩ (snapshot (onlyTask r) (alone n r)
    { id := r.dagRunId, dagVersionId := "v1", state := .running, queuedAt := 0 })

/-- When a row that was lost at `t` may be re-placed. -/
def replaceableFrom (t : Time) (r : TaskInstance) : Time :=
  t + (dispatchBackoff (r.infraAttempts + 1) + infraReplaceJitter r.dagRunId r.taskId)

section Replace

variable {n t : Time} {x : TaskInstance}

theorem lookup_aloneRun {α : Type} (column : TaskInstance → Option α) :
    (mapOf (listTaskInstancesByRun (alone n x) x.dagRunId) column).lookup x.taskId = column x := by
  have hlist : listTaskInstancesByRun (alone n x) x.dagRunId = [x] := by
    simp [listTaskInstancesByRun, alone]
  have hnd : ([x].map TaskInstance.taskId).Nodup := nodup_singleton _
  rw [hlist]
  exact lookup_mapOf hnd column (mem_singleton_self x)

section

variable (hs : x.state = .failed) (hk : x.lastFailureKind = some "infra") (he : x.endedAt = some t) (hn : n ≠ 0)
include hs hk he hn

/-- What the retry rail does with a lost row: it re-places it within the budget, from its instant
on. -/
theorem retryDecision_aloneRun :
    (aloneRun n x).retryDecision x.taskId = if (x.infraAttempts : Int) < infraMaxAttempts then
        if replaceableFrom t x ≤ n then { emit := some .none, effective := some .none, decided := true }
        else { effective := some .upForRetry, decided := true }
      else { decided := true } := by
  have hstate : (aloneRun n x).states.lookup x.taskId = some .failed :=
    (lookup_aloneRun fun r => some r.state).trans (congrArg some hs)
  have hinfra : (aloneRun n x).infraFailed.getD x.taskId false := by
    have hlook : (aloneRun n x).infraFailed.lookup x.taskId = some true :=
      (lookup_aloneRun fun r => if r.isInfraFailed then some true else none).trans
        (if_pos (by simp [TaskInstance.isInfraFailed, hs, hk]))
    rw [Lib.GoMap.getD, hlook]
    rfl
  have hattempts : (aloneRun n x).infraAttempts.getD x.taskId 0 = x.infraAttempts := by
    have hlook : (aloneRun n x).infraAttempts.lookup x.taskId = positive x.infraAttempts :=
      lookup_aloneRun fun r => positive r.infraAttempts
    rw [Lib.GoMap.getD, hlook, getD_positive]
  have hended : (aloneRun n x).endedAt.lookup x.taskId = some t :=
    (lookup_aloneRun TaskInstance.endedAt).trans he
  have hnow : (aloneRun n x).now = n := rfl
  have hid : (aloneRun n x).runID = x.dagRunId := rfl
  have hready : (aloneRun n x).readyToInfraReplace x.taskId = decide (replaceableFrom t x ≤ n) := by
    rw [Bool.eq_iff_iff, decide_eq_true_iff]
    simp only [RunState.readyToInfraReplace, hended, hattempts, RunState.reached, hnow, hid,
      Option.map_some, Bool.or_eq_true, beq_iff_eq, hn, false_or, Bool.not_eq_true',
      decide_eq_false_iff_not, Int.not_lt]
    rfl
  simp [RunState.retryDecision, hstate, hinfra, RunState.infraReplaceable, hattempts, hready]

/-- The planner calls for the re-place of a lost row exactly then. -/
theorem mem_advance_aloneRun : x.taskId ∈ opTasks ((aloneRun n x).advance true) ↔
      (x.infraAttempts : Int) < infraMaxAttempts ∧ replaceableFrom t x ≤ n := by
  have hrail := retryDecision_aloneRun (n := n) hs hk he hn
  constructor
  · intro h
    obtain ⟨t', -, hid, target, hemit | hstarts⟩ := (aloneRun n x).mayPlan_of_mem_advance h
    · rw [hrail] at hemit
      split at hemit
      next hlt =>
        split at hemit
        next hle =>
          exact ⟨hlt, hle⟩
        · cases hemit
      · cases hemit
    · have hund := hstarts.undecided
      rw [hid, hrail] at hund
      (repeat' split at hund) <;> cases hund
  · rintro ⟨hlt, hle⟩
    rw [if_pos hlt, if_pos hle] at hrail
    have hplan : (⟨x.taskId, .none⟩ : PlannedTransition) ∈ (aloneRun n x).planRun := by
      obtain ⟨added, heq, -⟩ := (aloneRun n x).planRun_eq
      rw [heq]
      refine mem_append_left _ ((aloneRun n x).mem_planRetryTransitions.mpr ⟨?_, ?_⟩)
      · exact ⟨{ taskID := x.taskId }, mem_singleton_self _, rfl⟩
      · rw [hrail]
    have hop : ∃ op ∈ (aloneRun n x).applyPlanned true ⟨x.taskId, .none⟩, op.tasks = [x.taskId] := by
      simp only [RunState.applyPlanned]
      (repeat' split) <;> exact ⟨_, mem_singleton_self _, rfl⟩
    obtain ⟨op, hop, htasks⟩ := hop
    refine mem_flatMap.mpr ⟨op, ?_, htasks ▸ mem_singleton_self _⟩
    rw [RunState.advance, if_neg (fun h => by cases h.1)]
    exact mem_append_left _ (mem_append_left _ (mem_flatMap.mpr ⟨_, hplan, hop⟩))

end

end Replace

/-! ## A crowded listing -/

/-- The row among a hundred running ones with the heartbeat `a`: one more than a sweep lists. -/
def others (id run : String) (a : Time) : List TaskInstance :=
  (List.range 100).map fun i =>
    { id := id ++ String.ofList (List.replicate (i + 1) 'x')
      dagRunId := run ++ "x"
      taskId := String.ofList (List.replicate i 'x')
      tryNumber := 1
      maxTries := 1
      state := .running
      lastHeartbeatAt := some a }

/-- A database of these rows. -/
def crowd (n a : Time) (r : TaskInstance) : Database where
  now := n
  runs := []
  tis := r :: others r.id r.dagRunId a

section Crowd

variable {n a : Time} {x y : TaskInstance}

theorem mem_others {id run : String} {o : TaskInstance} (h : o ∈ others id run a) :
    o.id ≠ id ∧ o.dagRunId ≠ run ∧ o.state = .running ∧ o.lastHeartbeatAt = some a := by
  obtain ⟨i, -, rfl⟩ := mem_map.mp h
  refine ⟨fun he => ?_, fun he => ?_, rfl, rfl⟩
  · simpa using congrArg String.length he
  · simpa using congrArg String.length he

theorem crowd_keyed (n a : Time) (x : TaskInstance) : (crowd n a x).Keyed := by
  refine ⟨?_, ?_, nodup_nil⟩
  · refine nodup_cons.mpr ⟨?_, ?_⟩
    · intro h
      obtain ⟨o, ho, hid⟩ := mem_map.mp h
      exact (mem_others ho).1 hid
    · rw [others, map_map]
      refine (nodup_map_iff_inj_on nodup_range).mpr fun i _ j _ hij => ?_
      simpa using congrArg String.length hij
  · refine nodup_cons.mpr ⟨?_, ?_⟩
    · intro h
      obtain ⟨o, ho, hkey⟩ := mem_map.mp h
      exact (mem_others ho).2.1 (congrArg Prod.fst hkey)
    · rw [others, map_map]
      refine (nodup_map_iff_inj_on nodup_range).mpr fun i _ j _ hij => ?_
      simpa using congrArg String.length (Prod.mk.inj hij).2

theorem crowd_replacing (hid : y.id = x.id) (hrun : y.dagRunId = x.dagRunId) :
    (crowd n a x).replacing y = crowd n a y := by
  have hrest : (others x.id x.dagRunId a).map (fun o => if o.id = x.id then y else o) = others x.id x.dagRunId a := by
    refine (map_congr_left fun o ho => ?_).trans (map_id _)
    exact if_neg fun he => (mem_others ho).1 he
  simp [Database.replacing, crowd, hrest, hid, hrun]

theorem orderedInsert_of_forall_not {α : Type} {r : α → α → Prop} [DecidableRel r] {l : List α} {a : α}
    (h : ∀ b ∈ l, ¬ r a b) : l.orderedInsert r a = l ++ [a] := by
  induction l with
  | nil => rfl
  | cons b l ih =>
    obtain ⟨hb, hl⟩ := forall_mem_cons.mp h
    rw [orderedInsert_of_not_le _ _ hb, ih hl]
    rfl

theorem listTasks_crowd {b : Time} (hs : x.state = .running) (hb : x.lastHeartbeatAt = some b) :
    listTasks (crowd n a x) (fun r => r.state == .running && r.lastHeartbeatAt.isSome) TaskInstance.lastHeartbeatAt =
      if b ≤ a then (x :: others x.id x.dagRunId a).take 100 else others x.id x.dagRunId a := by
  have hkeep : (crowd n a x).tis.filter (fun r => r.state == .running && r.lastHeartbeatAt.isSome) =
      x :: others x.id x.dagRunId a := by
    refine filter_eq_self.mpr fun o ho => ?_
    rcases mem_cons.mp ho with rfl | ho
    · simp [hs, hb]
    · obtain ⟨-, -, hstate, hbeat⟩ := mem_others ho
      simp [hstate, hbeat]
  have hsorted : (others x.id x.dagRunId a).insertionSort
      (fun r s => nullsLast r.lastHeartbeatAt s.lastHeartbeatAt) =
      others x.id x.dagRunId a := by
    refine List.Pairwise.insertionSort_eq (pairwise_of_forall_mem_list fun o ho o' ho' => ?_)
    obtain ⟨-, -, -, hbeat⟩ := mem_others ho
    obtain ⟨-, -, -, hbeat'⟩ := mem_others ho'
    simp [hbeat, hbeat', nullsLast]
  have hlen : (others x.id x.dagRunId a).length = 100 := by simp [others]
  have hle : ∀ o ∈ others x.id x.dagRunId a, (nullsLast x.lastHeartbeatAt o.lastHeartbeatAt ↔ b ≤ a) := by
    intro o ho
    obtain ⟨-, -, -, hbeat⟩ := mem_others ho
    simp [hb, hbeat, nullsLast]
  rw [listTasks, hkeep, insertionSort_cons, hsorted]
  split
  next hba =>
    cases hothers : others x.id x.dagRunId a with
    | nil => simp [hothers] at hlen
    | cons o rest =>
      rw [orderedInsert_cons_of_le]
      exact (hle o (hothers ▸ mem_cons_self)).mpr hba
  next hba =>
    rw [orderedInsert_of_forall_not fun o ho h => hba ((hle o ho).mp h), take_left' hlen]

/-- The agent-lost reaper takes the row out of the crowd. -/
def LostInCrowd (n a : Time) (r : TaskInstance) : Prop :=
  ∃ c, (Candidate.agentLost c).taken {} (crowd n a r) n ∧ c.taskInstanceID = r.id

theorem lostInCrowd (hs : x.state = .running) (hb : x.lastHeartbeatAt = some a) (ha : a ≠ 0)
    (hn : a + ({} : ReaperConfig).agentLostThreshold ≤ n) : LostInCrowd n a x := by
  refine ⟨⟨x.id, x.dagRunId, x.taskId, x.tryNumber, a⟩, ?_, rfl⟩
  have hlisted : (⟨x.id, x.dagRunId, x.taskId, x.tryNumber, a⟩ : AgentLostCandidate) ∈
      listAgentLostCandidates (crowd n a x) := by
    refine mem_map.mpr ⟨x, ?_, by rw [hb]; rfl⟩
    rw [listTasks_crowd hs hb, if_pos (Int.le_refl a)]
    exact mem_cons_self
  have hlost : isAgentLost ⟨x.id, x.dagRunId, x.taskId, x.tryNumber, a⟩
      ({} : ReaperConfig).agentLostThreshold n := by
    simp only [isAgentLost, Bool.and_eq_true, bne_iff_ne, decide_eq_true_iff]
    exact ⟨ha, Int.le_sub_left_of_add_le hn⟩
  simp only [Candidate.taken, Bool.and_eq_true, contains_iff_mem, decide_eq_true_iff]
  exact ⟨⟨hlisted, hlost⟩, Int.le_refl n⟩

/-- With a later one, it is not even listed. -/
theorem not_lostInCrowd {b : Time} (hs : x.state = .running) (hb : x.lastHeartbeatAt = some b)
    (hab : a < b) : ¬ LostInCrowd n a x := by
  rintro ⟨c, hc, hid⟩
  simp only [Candidate.taken, Bool.and_eq_true, contains_iff_mem, listAgentLostCandidates,
    listTasks_crowd hs hb, if_neg (Int.not_le.mpr hab)] at hc
  obtain ⟨o, ho, rfl⟩ := mem_map.mp hc.1.1
  exact (mem_others ho).1 hid

/-- A row that is taken wherever another one is has a heartbeat, and no later one. -/
theorem heartbeat_le_of_lostInCrowd {t0 : Time} (hx : x.state = .running) (hy : y.state = .running)
    (hbeat : x.lastHeartbeatAt.getD 0 ≠ 0) (h : ∀ n a, t0 ≤ n → LostInCrowd n a x → LostInCrowd n a y) :
    y.lastHeartbeatAt.getD 0 ≠ 0 ∧ y.lastHeartbeatAt.getD 0 ≤ x.lastHeartbeatAt.getD 0 := by
  cases hbx : x.lastHeartbeatAt with
  | none => exact absurd (by rw [hbx]; rfl) hbeat
  | some a =>
    rw [hbx] at hbeat
    have hlost : LostInCrowd (max t0 (a + ({} : ReaperConfig).agentLostThreshold)) a y :=
      h _ a (Int.le_max_left _ _) (lostInCrowd hx hbx hbeat (Int.le_max_right _ _))
    have hne : y.lastHeartbeatAt.getD 0 ≠ 0 := by
      obtain ⟨c, hc, hcid⟩ := hlost
      exact heartbeat_of_taken (crowd_keyed _ _ _) mem_cons_self hc hcid
    refine ⟨hne, ?_⟩
    cases hby : y.lastHeartbeatAt with
    | none => exact absurd (by rw [hby]; rfl) hne
    | some b => exact Int.not_lt.mp fun hab => not_lostInCrowd hy hby hab hlost

end Crowd

/-! ## The clear -/

/-- The row under another row's id. Nobody reads more of an id than which row it names. -/
def TaskInstance.named (id : String) (r : TaskInstance) : TaskInstance := { r with id := id }

/-- Whatever happens to the two rows from now on, and whatever else the database holds, they are
decided alike. -/
def DecidedAlikeFrom (t0 : Time) (x y : TaskInstance) : Prop :=
  ∀ (cfg : Config) (events : List (Time × Statement)) (db : Database), (∀ e ∈ events, e.2.isIssued) →
    (t0 :: events.map Prod.fst ++ [db.now]).Pairwise (· ≤ ·) → db.Keyed → x.later events ∈ db.tis →
    DecideAlike cfg db (db.replacing (y.later events)) (x.later events)

/-- The two rows are decided alike after the clear at `t0`. -/
def DecidedAlikeAfter (clear : Statement) (t0 : Time) (r s : TaskInstance) : Prop :=
  DecidedAlikeFrom t0 ((clear.update t0).row r) ((clear.update t0).row (s.named r.id))

/-- The clear forgets the reschedules. -/
def Statement.forgetsReschedules : Statement → Bool
  | resetTaskInstanceToNone .. => true
  | _ => false

/-- What the clears leave is the same as far as its readers can tell. -/
structure LeftAlike (clear : Statement) (r s : TaskInstance) : Prop where
  infra : min (s.infraAttempts : Int) infraMaxAttempts = min (r.infraAttempts : Int) infraMaxAttempts
  heartbeat : s.lastHeartbeatAt.getD 0 = r.lastHeartbeatAt.getD 0
  firstReschedule : clear.forgetsReschedules ∨
    s.firstRescheduleAt.map (· / second) = r.firstRescheduleAt.map (· / second)

section Clear

variable {clear : Statement} {t0 : Time} {r s : TaskInstance}

theorem alike_of_leftAlike (t0 : Time) (hc : clear.isClear) (hrun : s.dagRunId = r.dagRunId)
    (htask : s.taskId = r.taskId) (htry : s.tryNumber = r.tryNumber) (hmax : s.maxTries = r.maxTries)
    (h : LeftAlike clear r s) : ((clear.update t0).set r).Alike ((clear.update t0).set (s.named r.id)) := by
  obtain ⟨hinfra, hbeat, hfirst⟩ := h
  cases clear with
  | resetTaskInstanceToNone =>
    refine ⟨?_, (fun hs => by cases hs), rfl, hinfra, hbeat⟩
    simp [Statement.update, resetTaskInstanceToNone, TaskInstance.nextTry,
      TaskInstance.unrescheduled, TaskInstance.undispatched, TaskInstance.released,
      TaskInstance.named, TaskInstance.withHidden, TaskInstance.hidden, hrun, htask, htry, hmax]
  | resetFailedTaskInstance | resetAllFailedTaskInstances =>
    refine ⟨?_, (fun hs => by cases hs), hfirst.resolve_left Bool.false_ne_true, hinfra, hbeat⟩
    simp [Statement.update, resetFailedTaskInstance, resetAllFailedTaskInstances,
      TaskInstance.nextTry, TaskInstance.undispatched, TaskInstance.released,
      TaskInstance.named, TaskInstance.withHidden, TaskInstance.hidden, hrun, htask, htry, hmax]
  | _ => cases hc

/-- What a clear keeps of a row, whichever it is. -/
theorem cleared_columns (hc : clear.isClear) (t0 : Time) (x : TaskInstance) :
    ((clear.update t0).set x).id = x.id ∧ ((clear.update t0).set x).dagRunId = x.dagRunId ∧
      ((clear.update t0).set x).taskId = x.taskId ∧ ((clear.update t0).set x).tryNumber = x.tryNumber + 1 ∧
      ((clear.update t0).set x).infraAttempts = x.infraAttempts ∧
      ((clear.update t0).set x).lastHeartbeatAt = x.lastHeartbeatAt ∧
      (clear.forgetsReschedules = false → ((clear.update t0).set x).firstRescheduleAt = x.firstRescheduleAt) := by
  cases clear <;> first | (cases hc; done) | exact ⟨rfl, rfl, rfl, rfl, rfl, rfl, fun _ => rfl⟩ |
    exact ⟨rfl, rfl, rfl, rfl, rfl, rfl, fun h => by cases h⟩

theorem guard_named (hc : clear.isClear) (t0 : Time) (id : String) :
    (clear.update t0).guard (s.named id) = (clear.update t0).guard s := by
  cases clear <;> first | (cases hc; done) | rfl

end Clear

section Converse

variable {t0 : Time} {x y : TaskInstance}

theorem alone_replacing {n : Time} (hid : y.id = x.id) (hrun : y.dagRunId = x.dagRunId) :
    (alone n x).replacing y = alone n y := by
  simp [Database.replacing, alone, hid, hrun]

theorem alone_keyed (n : Time) (x : TaskInstance) : (alone n x).Keyed :=
  ⟨nodup_singleton _, nodup_singleton _, nodup_singleton _⟩

theorem DecidedAlikeFrom.firstReschedule (h : DecidedAlikeFrom t0 x y) (hid : y.id = x.id)
    (hrun : y.dagRunId = x.dagRunId) (htask : y.taskId = x.taskId) :
    y.firstRescheduleAt.map (· / second) = x.firstRescheduleAt.map (· / second) := by
  have hdead := (h oneTask [] (alone t0 x) (forall_mem_nil _) (by simp [alone])
    (alone_keyed _ _) (mem_singleton_self _)).deadline
  simp only [TaskInstance.later, foldl_nil] at hdead
  have hx := find?_isFor (alone_keyed t0 x) (mem_singleton_self x)
  have hy := find?_isFor (alone_keyed t0 y) (mem_singleton_self y)
  rw [hrun, htask] at hy
  simpa only [alone_replacing hid hrun, deliveredFirstRescheduleAt, taskInstanceFirstRescheduleAt,
    hx, hy, Option.bind_some] using hdead

/-- The backoffs before the last re-place are all different. -/
theorem dispatchBackoff_inj {i k : Nat} (hi : i < 6) (hk : k < 6)
    (h : dispatchBackoff (i + 1) = dispatchBackoff (k + 1)) : i = k := by
  interval_cases i <;> interval_cases k <;> first | rfl | exact absurd h (by decide)

/-- The instants a row may be re-placed at tell its re-places up to their limit. -/
theorem infra_eq_of_replaceable {t : Time} (hrun : y.dagRunId = x.dagRunId) (htask : y.taskId = x.taskId)
    (h : ∀ n, t < n → (((y.infraAttempts : Int) < infraMaxAttempts ∧ replaceableFrom t y ≤ n) ↔
      ((x.infraAttempts : Int) < infraMaxAttempts ∧ replaceableFrom t x ≤ n))) :
    min (y.infraAttempts : Int) infraMaxAttempts = min (x.infraAttempts : Int) infraMaxAttempts := by
  have hlater : ∀ z : TaskInstance, t < replaceableFrom t z := fun z =>
    Int.lt_add_of_pos_right t (Int.add_pos_of_pos_of_nonneg (dispatchBackoff_pos _) (infraReplaceJitter_nonneg _ _))
  by_cases hx : (x.infraAttempts : Int) < infraMaxAttempts
  · obtain ⟨hy, hle⟩ := (h _ (hlater x)).mpr ⟨hx, Int.le_refl _⟩
    obtain ⟨-, hge⟩ := (h _ (hlater y)).mp ⟨hy, Int.le_refl _⟩
    have hbackoff : dispatchBackoff (y.infraAttempts + 1) = dispatchBackoff (x.infraAttempts + 1) := by
      have heq := Int.le_antisymm hle hge
      rw [replaceableFrom, replaceableFrom, hrun, htask] at heq
      exact add_right_cancel (add_left_cancel heq)
    rw [dispatchBackoff_inj (Int.ofNat_lt.mp hy) (Int.ofNat_lt.mp hx) hbackoff]
  · by_cases hy : (y.infraAttempts : Int) < infraMaxAttempts
    · exact absurd ((h _ (hlater y)).mp ⟨hy, Int.le_refl _⟩).1 hx
    · omega

section

variable (h : DecidedAlikeFrom t0 x y) (hid : y.id = x.id) (hrun : y.dagRunId = x.dagRunId)
  (htask : y.taskId = x.taskId)
include h hid hrun htask

theorem DecidedAlikeFrom.infra :
    min (y.infraAttempts : Int) infraMaxAttempts = min (x.infraAttempts : Int) infraMaxAttempts := by
  refine infra_eq_of_replaceable (t := max t0 0) hrun htask fun n hn => ?_
  have ht0 : t0 ≤ max t0 0 := Int.le_max_left _ _
  have hn0 : n ≠ 0 := fun he => Int.not_lt.mpr (Int.le_max_right t0 0) (he ▸ hn)
  have hevents : lostAgain (max t0 0) x = lostAgain (max t0 0) y := by
    simp only [lostAgain, queuedAgain, hid, hrun, htask]
  have hplan := (h (onlyTask x) (lostAgain (max t0 0) x) (alone n (x.later (lostAgain (max t0 0) x)))
    (by simp [lostAgain, queuedAgain, Statement.isIssued])
    (by simp [lostAgain, queuedAgain, alone, ht0.trans (Int.le_of_lt hn),
      (Int.le_max_right t0 0).trans (Int.le_of_lt hn)])
    (alone_keyed _ _) (mem_singleton_self _)).planner
    ⟨∅, ∅, false, ∅, ∅⟩ _ (mem_singleton_self _) true
  have hx := later_lostAgain (max t0 0) x
  have hy : LostFrom (max t0 0) (y.later (lostAgain (max t0 0) x)) y :=
    hevents ▸ later_lostAgain (max t0 0) y
  generalize x.later (lostAgain (max t0 0) x) = x' at *
  generalize y.later (lostAgain (max t0 0) x) = y' at *
  have hid' : y'.id = x'.id := hy.id.trans (hid.trans hx.id.symm)
  have hrun' : y'.dagRunId = x'.dagRunId := hy.dagRunId.trans (hrun.trans hx.dagRunId.symm)
  have htask' : y'.taskId = x'.taskId := hy.taskId.trans (htask.trans hx.taskId.symm)
  have hadvance : (aloneRun n y').advance true = (aloneRun n x').advance true := by
    rw [alone_replacing hid' hrun'] at hplan
    simpa only [aloneRun, onlyTask, htask', hrun', hx.taskId] using hplan
  have hiff := mem_advance_aloneRun (n := n) hy.state hy.kind hy.endedAt hn0
  rw [hadvance, htask', mem_advance_aloneRun hx.state hx.kind hx.endedAt hn0] at hiff
  simpa only [replaceableFrom, hx.infraAttempts, hx.dagRunId, hx.taskId, hy.infraAttempts,
    hy.dagRunId, hy.taskId] using hiff.symm

theorem DecidedAlikeFrom.heartbeat (htry : y.tryNumber = x.tryNumber) :
    y.lastHeartbeatAt.getD 0 = x.lastHeartbeatAt.getD 0 := by
  obtain ⟨hxstate, hxbeat, hxid, hxrun⟩ := later_runsAgain t0 x
  have hevents : runsAgain t0 y = runsAgain t0 x := by
    simp only [runsAgain, queuedAgain, hrun, htask, htry]
  obtain ⟨hystate, hybeat, hyid, hyrun⟩ := hevents ▸ later_runsAgain t0 y
  have hlost : ∀ n a, t0 ≤ n →
      (LostInCrowd n a (y.later (runsAgain t0 x)) ↔ LostInCrowd n a (x.later (runsAgain t0 x))) := by
    intro n a hn
    have hsame := (h oneTask (runsAgain t0 x) (crowd n a (x.later (runsAgain t0 x)))
      (by simp [runsAgain, queuedAgain, Statement.isIssued])
      (by simp [runsAgain, queuedAgain, crowd, hn]) (crowd_keyed _ _ _) mem_cons_self).agentLost n
    rw [crowd_replacing (hyid.trans (hid.trans hxid.symm)) (hyrun.trans (hrun.trans hxrun.symm))] at hsame
    rw [hxid] at hsame
    rw [LostInCrowd, LostInCrowd, hyid, hid, hxid]
    exact hsame
  rw [← hxbeat, ← hybeat]
  by_cases hzero : (x.later (runsAgain t0 x)).lastHeartbeatAt.getD 0 = 0
  · by_contra hne
    have hyzero : (y.later (runsAgain t0 x)).lastHeartbeatAt.getD 0 ≠ 0 := fun hy => hne (hy.trans hzero.symm)
    exact (heartbeat_le_of_lostInCrowd hystate hxstate hyzero fun n a hn => (hlost n a hn).mp).1 hzero
  · obtain ⟨hyzero, hle⟩ :=
      heartbeat_le_of_lostInCrowd hxstate hystate hzero fun n a hn => (hlost n a hn).mpr
    obtain ⟨-, hge⟩ :=
      heartbeat_le_of_lostInCrowd hystate hxstate hyzero fun n a hn => (hlost n a hn).mp
    exact Int.le_antisymm hle hge

end

end Converse

/-- **A clear is a fresh start exactly for rows that agree in what it leaves.** -/
theorem clear_is_fresh_start_iff {clear : Statement} (hc : clear.isClear) (t0 : Time)
    {r s : TaskInstance} (hr : (clear.update t0).guard r)
    (hs : (clear.update t0).guard s) (hrun : s.dagRunId = r.dagRunId)
    (htask : s.taskId = r.taskId) (htry : s.tryNumber = r.tryNumber)
    (hmax : s.maxTries = r.maxTries) :
    DecidedAlikeAfter clear t0 r s ↔ LeftAlike clear r s := by
  have hguard : (clear.update t0).guard (s.named r.id) := (guard_named hc t0 r.id).trans hs
  rw [DecidedAlikeAfter, Lib.Update.row, if_pos hr, Lib.Update.row, if_pos hguard]
  constructor
  · intro h
    obtain ⟨hid, hxrun, hxtask, hxtry, hinfra, hbeat, hfirst⟩ := cleared_columns hc t0 r
    obtain ⟨hid', hyrun, hytask, hytry, hinfra', hbeat', hfirst'⟩ :=
      cleared_columns hc t0 (s.named r.id)
    have hids := hid'.trans hid.symm
    have hruns := hyrun.trans (hrun.trans hxrun.symm)
    have htasks := hytask.trans (htask.trans hxtask.symm)
    have htries := hytry.trans ((congrArg (· + 1) htry).trans hxtry.symm)
    refine ⟨?_, ?_, ?_⟩
    · have heq := h.infra hids hruns htasks
      rwa [hinfra, hinfra'] at heq
    · have heq := h.heartbeat hids hruns htasks htries
      rwa [hbeat, hbeat'] at heq
    · by_cases hforget : clear.forgetsReschedules
      · exact .inl hforget
      · have hkeeps := eq_false_of_ne_true hforget
        have heq := h.firstReschedule hids hruns htasks
        rw [hfirst hkeeps, hfirst' hkeeps] at heq
        exact .inr heq
  · intro h cfg events db hissued _ hk hmem
    have halike := (alike_of_leftAlike t0 hc hrun htask htry hmax h).later hissued
    exact decideAlike_of_alike cfg hk hmem halike

/-- The row of a task that failed in its first try. -/
def failedRow : TaskInstance where
  id := "ti"
  dagRunId := "run"
  taskId := "task"
  tryNumber := 1
  maxTries := 1
  state := .failed
  scheduledAt := some 1
  queuedAt := some 1
  startedAt := some 1
  endedAt := some 1
  duration := some 0
  exitCode := some 1
  errorMessage := some "boom"

/-- The row of a try that had three dispatch failures and failed on a warm worker. -/
def flakyRow : TaskInstance :=
  { failedRow with dispatchAttempts := 3, warmWorkerId := some "worker", exitCode := some 2 }

theorem clear_is_fresh_start_dispatch : LeftAlike (.resetFailedTaskInstance "run" "task") failedRow flakyRow ∧
      DecidedAlikeAfter (.resetFailedTaskInstance "run" "task") 2 failedRow flakyRow := by
  have hleft : LeftAlike (.resetFailedTaskInstance "run" "task") failedRow flakyRow :=
    ⟨rfl, rfl, .inr rfl⟩
  exact ⟨hleft, (clear_is_fresh_start_iff (r := failedRow) (s := flakyRow) rfl 2 (by decide)
    (by decide) rfl rfl rfl rfl).mpr hleft⟩

/-- A sensor asks to be poked in a minute. -/
def pokeMe : AgentOutcome := .reschedule 60000000000

/-- The request of the poke, a second placement of the first try. -/
def pokeRequest : Request := { firstRequest with placement := 2 }

/-- Its attempt. -/
def pokeAttempt : Attempt := { firstAttempt with placement := 2 }

/-- The task is parked once and then fails in its first try. -/
def parkedThenFails : List Action :=
  firstRunning ++ [.requestDone { firstRequest with stage := .created firstAttempt }] ++ ends firstAttempt pokeMe ++
    [.agentGone { firstAgent with outcome := some pokeMe }, .clock 60000000000] ++
    quietTick [.call []] ++ quietTick [.call []] ++ tickStarts ++
    [.tick (.dispatch .dispatched true), .tick (.call []), .tick .finish, .tick .stop,
      .resolve pokeRequest, .create { pokeRequest with stage := .resolved pokeAttempt } false,
      .reportRunning { attempt := pokeAttempt }] ++
    ends pokeAttempt (.failed 1 "boom")

/-- The row it leaves. -/
def parkedRow : TaskInstance :=
  { failedRow with
    scheduledAt := some 60000000001
    queuedAt := some 60000000001
    startedAt := some 60000000001
    endedAt := some 60000000001
    firstRescheduleAt := some 1 }

/-- A clear of the failed tasks hands a sensor's next try the deadline of the try before. -/
theorem clear_keeps_first_reschedule : ¬ ∀ (cfg : Config) (w w' : World),
    (World.system cfg).Reachable w → (World.system cfg).Reachable w' →
    ∀ (clear : Statement) (t0 : Time), clear.isClear → w.db.now ≤ t0 → w'.db.now ≤ t0 →
    ∀ r ∈ w.db.tis, ∀ s ∈ w'.db.tis, (clear.update t0).guard r →
      (clear.update t0).guard s → s.dagRunId = r.dagRunId → s.taskId = r.taskId →
      s.tryNumber = r.tryNumber → s.maxTries = r.maxTries → DecidedAlikeAfter clear t0 r s := by
  intro h
  have hinit : (World.system oneTask).Reachable (.empty 1) := .init ⟨1, rfl⟩
  have hrun := (Option.some_get (x := (World.system oneTask).run (.empty 1) failsOnce) (by decide +kernel)).symm
  have hrun' := (Option.some_get (x := (World.system oneTask).run (.empty 1) parkedThenFails) (by decide +kernel)).symm
  have hdecided := h oneTask _ _ (hinit.run hrun) (hinit.run hrun')
    (.resetFailedTaskInstance "run" "task") 60000000001 rfl (by decide +kernel) (by decide +kernel)
    failedRow (by decide +kernel) parkedRow (by decide +kernel) (by decide) (by decide) rfl rfl rfl rfl
  have hfirst := DecidedAlikeFrom.firstReschedule hdecided rfl rfl rfl
  exact absurd hfirst (by decide)

end Leoflow
