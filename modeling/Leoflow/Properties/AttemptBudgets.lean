import Leoflow.System.FailedRows

/-!
# Attempt budgets

The planner checks `try_number < max_tries` and `infra_attempts < infraMaxAttempts` on its snapshot,
and `ResetTaskInstanceForRetry` and `ResetTaskInstanceInfraReplace` bump the counters guarded on the
state alone. A row leaves `failed` and `up_for_retry` only through these two, so without a clear each
leave is paid from one of the budgets.
-/

namespace Leoflow

variable {r r' : TaskInstance}

/-- The row leaves `failed` or `up_for_retry` for `none`. -/
def TaskInstance.restarts (r r' : TaskInstance) : Bool :=
  (r.state == .failed || r.state == .upForRetry) && r'.state == .none

/-- How often a row was started anew, after an action. -/
def countRestarts (w : World) (a : Action) (_ : World) (n : String → Nat) (id : String) : Nat :=
  if w.db.tis.any fun r => r.id == id && r.restarts ((w.write a).row w.db r) then n id + 1 else n id

/-- The system with that count. -/
abbrev restartSystem (cfg : Config) : Lib.System (World × (String → Nat)) Action :=
  (World.system cfg).withGhost (fun _ => 0) countRestarts

/-- The step is not one of a clear. -/
abbrev Unattended (_ : World) (a : Action) : Prop := a.isClear = false

/-- The range the DAG schema allows for `retries`, of a task and of `default_args`. Registration
validates every version against it. -/
def DAGSpec.InSchema (spec : DAGSpec) : Prop :=
  (∀ t ∈ spec.tasks, ∀ n ∈ t.retries, 0 ≤ n ∧ n ≤ 100) ∧ ∀ n ∈ spec.defaultRetries, 0 ≤ n ∧ n ≤ 100

/-! ## A row and its restarts -/

/-- Both budgets are kept, and every restart was paid from one of them. -/
structure Paid (r : TaskInstance) (restarts : Nat) : Prop where
  first : 1 ≤ r.tryNumber
  tries : (r.tryNumber : Int) ≤ max 1 r.maxTries
  infra : (r.infraAttempts : Int) ≤ infraMaxAttempts
  parked : r.state = .upForRetry → (r.tryNumber : Int) < r.maxTries
  restarts : restarts + 1 = r.tryNumber + r.infraAttempts

theorem paid_materialized (run : String) (t : TaskSpec) (id : String) : Paid (materialized run t id) 0 where
  first := Nat.le_refl 1
  tries := Int.le_max_left 1 _
  infra := Int.natCast_nonneg 6
  parked h := by cases h
  restarts := rfl

theorem restarts_of_state_eq (hs : r'.state = r.state) : r.restarts r' = false := by
  rw [TaskInstance.restarts, hs]
  cases r.state <;> rfl

theorem Paid.keep {n : Nat} (h : Paid r n) (hb : r.SameBudgets r') (hno : r.restarts r' = false)
    (hp : r'.state = .upForRetry → (r.tryNumber : Int) < r.maxTries) :
    Paid r' (if r.restarts r' then n + 1 else n) where
  first := hb.tries ▸ h.first
  tries := by rw [hb.tries, hb.maxTries]; exact h.tries
  infra := by rw [hb.infraAttempts]; exact h.infra
  parked hs := by rw [hb.tries, hb.maxTries]; exact hp hs
  restarts := by rw [hno, hb.tries, hb.infraAttempts]; exact h.restarts

/-- One step of a row: where it restarts, one of the counters goes up by one. -/
theorem Paid.step {s : Statement} {n : Nat} (h : Paid r n) (hc : s.channel ≠ .clear) (he : RetryEffect s r r') :
    Paid r' (if r.restarts r' then n + 1 else n) := by
  cases he with
  | kept hb hs => exact h.keep hb (restarts_of_state_eq hs) fun hu => h.parked (hs ▸ hu)
  | moved hb hn _ hu => exact h.keep hb (by simp [TaskInstance.restarts, hn]) fun he => absurd he hu
  | failed hb hs' =>
    exact h.keep hb (by simp [TaskInstance.restarts, hs']) fun he => by simp [hs'] at he
  | redispatched hb hs hs' =>
    exact h.keep hb (by simp [TaskInstance.restarts, hs]) fun he => by simp [hs'] at he
  | parked hb hs _ hlt hs' => exact h.keep hb (by simp [TaskInstance.restarts, hs']) fun _ => hlt
  | retried hs hs' ht hm hi =>
    have hyes : r.restarts r' := by simp [TaskInstance.restarts, hs, hs']
    have hlt := h.parked hs
    have hcount := h.restarts
    rw [if_pos hyes]
    refine ⟨by omega, ?_, by rw [hi]; exact h.infra, fun hu => by simp [hs'] at hu, by omega⟩
    rw [ht, hm]
    exact le_max_of_le_right (by push_cast; omega)
  | replaced hs hs' ht hm hi hlt =>
    have hyes : r.restarts r' := by simp [TaskInstance.restarts, hs, hs']
    have hcount := h.restarts
    rw [if_pos hyes]
    refine ⟨ht ▸ h.first, by rw [ht, hm]; exact h.tries, ?_, fun hu => by simp [hs'] at hu, by omega⟩
    rw [hi]
    push_cast
    omega
  | cleared hclear => exact absurd hclear hc

/-! ## Every run -/

/-- Every row's restarts are paid, and no row has restarted before it exists. -/
structure RestartsPaid (w : World) (n : String → Nat) : Prop where
  rows : ∀ r ∈ w.db.tis, Paid r (n r.id)
  fresh : ∀ id, (∀ r ∈ w.db.tis, r.id ≠ id) → n id = 0

section Step

variable {cfg : Config} {w w' : World} {a : Action} {n : String → Nat}

theorem countRestarts_of_mem (hk : w.db.Keyed) (hr : r ∈ w.db.tis) :
    countRestarts w a w' n r.id = if r.restarts ((w.write a).row w.db r) then n r.id + 1 else n r.id := by
  rw [countRestarts, hk.any_id hr fun s => s.restarts ((w.write a).row w.db s)]

theorem countRestarts_of_not_mem {id : String} (h : ∀ r ∈ w.db.tis, r.id ≠ id) : countRestarts w a w' n id = n id := by
  refine if_neg fun hany => ?_
  obtain ⟨r, hr, hp⟩ := List.any_eq_true.mp hany
  simp only [Bool.and_eq_true, beq_iff_eq] at hp
  exact h r hr hp.1

theorem restartsPaid_step (hw : w.WellFormed) (hj : ∀ t, w.ctl.tick = some t → t.Justified)
    (hf : FailuresShown w) (ha : Unattended w a) (hp : RestartsPaid w n)
    (h : w.step cfg a = some w') : RestartsPaid w' (countRestarts w a w' n) := by
  refine ⟨fun r' hr' => ?_, fun id hid => ?_⟩
  · rcases (World.mem_step_tis h).mp hr' with ⟨r, hr, rfl⟩ | hins
    · rw [Write.row_id, countRestarts_of_mem hw.keyed hr]
      have hpaid := hp.rows r hr
      rcases Write.row_eq_or_statement w.db (w.write a) r with ⟨-, hrow⟩ | ⟨s, hs, hg, hrow⟩
      · rw [hrow]
        exact hpaid.keep ⟨rfl, rfl, rfl⟩ (restarts_of_state_eq rfl) hpaid.parked
      · rw [hrow]
        exact hpaid.step (World.channel_ne_clear ha hs) (retryEffect_step hj hf hs hr hg)
    · have hfresh := inserted_id_ne h hins
      rw [countRestarts_of_not_mem hfresh, hp.fresh _ hfresh]
      obtain ⟨_, _, run, _, _, t, id, -, -, -, rfl⟩ := World.mem_inserted hins
      exact paid_materialized run.runID t id
  · have hbefore : ∀ r ∈ w.db.tis, r.id ≠ id := fun r hr he =>
      hid _ ((World.mem_step_tis h).mpr (.inl ⟨r, hr, rfl⟩)) (by simpa using he)
    rw [countRestarts_of_not_mem hbefore]
    exact hp.fresh id hbefore

end Step

theorem clearsUnread_of_unattended (w : World) (a : Action) (h : Unattended w a) : ClearsUnread w a := by
  rintro c rfl
  cases h

theorem restartsPaid_reaches {cfg : Config} {p : World × (String → Nat)}
    (h : (restartSystem cfg).Reaches (fun p a => Unattended p.1 a) p) : RestartsPaid p.1 p.2 := by
  refine Lib.System.Reaches.ghost_invariant (fun w hi => ?_) (fun w a w' n hr hp ha hs => ?_) h
  · obtain ⟨now, rfl⟩ := hi
    exact ⟨(fun r hr => by cases hr), fun _ _ => rfl⟩
  · exact restartsPaid_step (wellFormed_reaches hr) (justified_reaches hr)
      (failuresShown_reaches clearsUnread_of_unattended hr) ha hp hs

/-! ## The schema -/

/-- A task of a registered version is materialised with at least one try. -/
theorem one_le_maxTries {spec : DAGSpec} (h : spec.InSchema) {t : TaskSpec}
    (ht : t ∈ applyDefaultRetries spec) (run id : String) : 1 ≤ (materialized run t id).maxTries := by
  have hrange : ∀ n ∈ t.retries, 0 ≤ n := by
    unfold applyDefaultRetries at ht
    split at ht
    · exact fun n hn => (h.1 t ht n hn).1
    next d hd =>
      obtain ⟨t0, ht0, rfl⟩ := List.mem_map.mp ht
      intro n hn
      split at hn
      · cases hn
        exact (h.2 d hd).1
      · exact (h.1 t0 ht0 n hn).1
  simp only [materialized]
  split
  · exact Int.le_refl 1
  next n hn =>
    have h0 := hrange n hn
    unfold toInt32
    omega

theorem maxTries_row (w : Write) (db : Database) (r : TaskInstance) : (w.row db r).maxTries = r.maxTries := by
  refine Write.row_congr TaskInstance.maxTries fun s _ r => ?_
  cases s <;> rfl

theorem one_le_maxTries_reaches {cfg : Config} (hcfg : ∀ v, (cfg.spec v).InSchema)
    {cond : World → Action → Prop} {w : World} (h : (World.system cfg).Reaches cond w) :
    ∀ r ∈ w.db.tis, 1 ≤ r.maxTries := by
  refine h.invariant (I := fun w => ∀ r ∈ w.db.tis, 1 ≤ r.maxTries) (fun w hi => ?_) fun w a w' hr hp _ hs => ?_
  · obtain ⟨now, rfl⟩ := hi
    exact fun _ hr => by cases hr
  · intro r' hr'
    rcases (World.mem_step_tis hs).mp hr' with ⟨r, hr, rfl⟩ | hins
    · rw [maxTries_row]
      exact hp r hr
    · obtain ⟨_, _, run, _, _, t, id, -, ht, hmem, rfl⟩ := World.mem_inserted hins
      have htasks := held_tasks_reaches hr _ run ht (.inr ⟨_, rfl, List.cons_ne_nil _ _⟩)
      exact one_le_maxTries (hcfg _) (htasks ▸ hmem) _ _

/-- **Automatic attempts are bounded.** In every run without a clear each row keeps both budgets, and
where the registered versions are in the schema's range it restarts at most as often as the two
budgets allow together. -/
theorem attempts_are_bounded {cfg : Config} {p : World × (String → Nat)}
    (h : (restartSystem cfg).Reaches (fun p a => Unattended p.1 a) p) (hr : r ∈ p.1.db.tis) :
    1 ≤ r.tryNumber ∧ (r.tryNumber : Int) ≤ max 1 r.maxTries ∧ (r.infraAttempts : Int) ≤ infraMaxAttempts ∧
      ((∀ v, (cfg.spec v).InSchema) → (p.2 r.id : Int) ≤ (r.maxTries - 1) + infraMaxAttempts) := by
  have hpaid := (restartsPaid_reaches h).rows r hr
  refine ⟨hpaid.first, hpaid.tries, hpaid.infra, fun hcfg => ?_⟩
  have hmax := one_le_maxTries_reaches hcfg h.fst r hr
  have htries := hpaid.tries
  have hinfra := hpaid.infra
  have hcount := hpaid.restarts
  rw [max_eq_right hmax] at htries
  omega

theorem oneRetry_inSchema (v : String) : (oneRetry.spec v).InSchema := by
  refine ⟨fun t ht n hn => ?_, fun n hn => by cases hn⟩
  rw [List.mem_singleton.mp ht] at hn
  cases hn
  decide

/-- A task with one retry that has failed once. -/
theorem attempts_are_bounded_second : ∃ p, (restartSystem oneRetry).runIf (fun p a => decide (Unattended p.1 a))
        (.empty 1, fun _ => 0) (firstRunning ++ failsThenRetries) = some p ∧
      p.1.db.tis.map (fun r => (r.tryNumber, r.maxTries, p.2 r.id)) = [(2, 2, 1)] ∧
      ∀ r ∈ p.1.db.tis, 1 ≤ r.tryNumber ∧ (r.tryNumber : Int) ≤ max 1 r.maxTries ∧
        (r.infraAttempts : Int) ≤ infraMaxAttempts ∧
        (p.2 r.id : Int) ≤ (r.maxTries - 1) + infraMaxAttempts := by
  have hrun := (Option.some_get (x := (restartSystem oneRetry).runIf
    (fun p a => decide (Unattended p.1 a)) (.empty 1, fun _ => 0) (firstRunning ++ failsThenRetries))
    (by decide +kernel)).symm
  refine ⟨_, hrun, by decide +kernel, fun r hr => ?_⟩
  obtain ⟨h1, h2, h3, h4⟩ := attempts_are_bounded (Lib.System.Reaches.runIf
    (.init ⟨⟨1, rfl⟩, rfl⟩) (fun _ _ hc => of_decide_eq_true hc) hrun) hr
  exact ⟨h1, h2, h3, h4 oneRetry_inSchema⟩

end Leoflow
