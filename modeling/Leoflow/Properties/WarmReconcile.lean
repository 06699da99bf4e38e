import Leoflow.Executor.WarmAllowance

/-!
# One tick of the warm pool is safe

Whatever the cluster answers, a tick deletes no busy pod, keeps every version under its ceiling and
every tenant under its budget unless it was over before, deletes an anchor only when its version has no
pod left, and creates none without its anchor. Without a busy set it does nothing.
-/

namespace Leoflow.Executor

open Lib (GoMap Traced ration)
open Lib.Traced List

variable {pods : List WarmPodInfo} {names : Nat → String} {es : List WarmEvent}
    {f : WarmPodInfo → Bool} {g : WarmTarget → Bool} {t : WarmTarget} {tenant : String}

/-- A list of active targets: one for each version, with floors that are not negative. -/
structure WarmTargets where
  list : List WarmTarget
  distinct : (list.map WarmTarget.dagVersionID).Nodup
  floors : ∀ t ∈ list, 0 ≤ t.effectiveMinIdle

/-- A listing of the fleet: the pods of a namespace have distinct names. -/
structure WarmFleet where
  pods : List WarmPodInfo
  distinct : (pods.map WarmPodInfo.name).Nodup

/-! ## The calls of a tick -/

section Calls

variable {env : WarmEnv} {cap : Int} {targets : List WarmTarget} {existing : List WarmPodInfo}
  {busy : String → Bool}

/-- What is done for an active version. -/
def activeTrace (env : WarmEnv) (cap : Int) (targets : List WarmTarget)
    (existing : List WarmPodInfo) (busy : String → Bool) (t : WarmTarget) : List WarmEvent :=
  (reconcileVersion env t (podsOf t.dagVersionID existing) busy
    (allowanceFor (createAllowances env cap targets existing busy) t.dagVersionID)).trace

theorem trace_sweepVersions : (sweepVersions env cap targets existing busy).trace =
    targets.flatMap (activeTrace env cap targets existing busy) ++
      ((env.rangeOver (GoMap.group WarmPodInfo.dagVersionID existing).keys).forM fun v =>
        drainVersion env targets (podsOf v existing) busy v).trace := by
  have hactive : (targets.forM fun t => do
      let _ ← reconcileVersion env t (podsOf t.dagVersionID existing) busy
        (allowanceFor (createAllowances env cap targets existing busy) t.dagVersionID)
      pure ()) = (⟨targets.flatMap (activeTrace env cap targets existing busy), some ()⟩ :
        Traced WarmEvent Unit) := by
    rw [forM_of_total]
    · simp only [trace_bind_pure]
      rfl
    · intro t _
      exact result_bind.mpr ⟨_, rfl, rfl⟩
  unfold sweepVersions
  simp only [GoMap.getD_group]
  show ((targets.forM _ : Traced WarmEvent Unit) >>= _).trace = _
  erw [hactive, bind_of_some rfl]
  rfl

/-- What is done for a version that is no target: pods that are not busy go, and at last the anchor. -/
theorem mem_drainVersion {v : String} {e : WarmEvent} (h : e ∈ (drainVersion env targets pods busy v).trace) :
    (∀ t ∈ targets, t.dagVersionID ≠ v) ∧
    ((∃ p ∈ pods, p.isBusy busy = false ∧ e = deletion env p) ∨ e = (.deleteWarmAnchor v, env.deleteWarmAnchor v) ∧
        (reconcileVersion env (drained v) pods busy unlimitedAllowance).result = some 0 ∧
        (reconcileVersion env (drained v) pods busy unlimitedAllowance).trace ⊆
          (drainVersion env targets pods busy v).trace) := by
  unfold drainVersion at h ⊢
  split at h
  · cases h
  next hactive =>
    rw [if_neg hactive]
    refine ⟨fun t ht he => hactive (any_eq_true.mpr ⟨t, ht, beq_iff_eq.mpr he⟩), ?_⟩
    have hsub : (reconcileVersion env (drained v) pods busy unlimitedAllowance).trace ⊆
        (reconcileVersion env (drained v) pods busy unlimitedAllowance >>= fun remaining =>
          if remaining = 0 then do
            let _ ← call (.deleteWarmAnchor v) (env.deleteWarmAnchor v)
            pure ()
          else pure ()).trace := fun e' he' => mem_bind.mpr (.inl he')
    rcases mem_bind.mp h with h | ⟨n, hn, h⟩
    · rcases mem_reconcileVersion h with hdel | ⟨hpos, -⟩
      · exact .inl hdel
      · exact absurd hpos (Int.lt_irrefl 0)
    · right
      split at h
      next hzero =>
        rw [trace_bind_pure, trace_call, mem_singleton] at h
        exact ⟨h, hzero ▸ hn, hsub⟩
      · cases h

theorem drainVersion_total (hanchor : ∀ v, env.deleteWarmAnchor v = .ok) (pods : List WarmPodInfo)
    (v : String) : (drainVersion env targets pods busy v).result = some () := by
  unfold drainVersion
  split
  · rfl
  · rw [result_bind]
    refine ⟨_, rfl, ?_⟩
    split
    · rw [hanchor]
      rfl
    · rfl

/-- What a call of the tick may be. -/
theorem mem_sweepVersions {e : WarmEvent} (h : e ∈ (sweepVersions env cap targets existing busy).trace) :
    (∃ p ∈ existing, p.isBusy busy = false ∧ e = deletion env p) ∨
    (∃ t ∈ targets, e ∈ activeTrace env cap targets existing busy t ∧
      activeTrace env cap targets existing busy t ⊆ (sweepVersions env cap targets existing busy).trace) ∨
    ∃ v, (∀ t ∈ targets, t.dagVersionID ≠ v) ∧ (∃ p ∈ existing, p.dagVersionID = v) ∧
      e = (.deleteWarmAnchor v, env.deleteWarmAnchor v) ∧
      ∀ p ∈ podsOf v existing, (.deleteWarmPod p.name, .ok) ∈ (sweepVersions env cap targets existing busy).trace := by
  rw [trace_sweepVersions] at h ⊢
  rcases mem_append.mp h with h | h
  · obtain ⟨t, ht, h⟩ := mem_flatMap.mp h
    refine .inr (.inl ⟨t, ht, h, fun e' he' => mem_append_left _ ?_⟩)
    exact mem_flatMap.mpr ⟨t, ht, he'⟩
  · obtain ⟨v, hv, h, hround⟩ := mem_forM h
    obtain ⟨hinactive, ⟨p, hp, hidle, he⟩ | ⟨he, hzero, hsub⟩⟩ := mem_drainVersion h
    · exact .inl ⟨p, (mem_filter.mp hp).1, hidle, he⟩
    · rw [(env.rangeOver_perm _).mem_iff, GoMap.mem_keys_group] at hv
      refine .inr (.inr ⟨v, hinactive, hv, he, fun p hp => mem_append_right _ ?_⟩)
      have hne : podsOf v existing ≠ [] := ne_nil_of_mem hp
      exact hround (hsub (deleted_of_drained hne hzero p hp))

/-! ## The fleet after a tick -/

/-- The pod a create leaves. -/
def WarmTarget.pod (t : WarmTarget) (name : String) : WarmPodInfo where
  name := name
  dagVersionID := t.dagVersionID
  terminal := false
  tenantID := t.tenantID

/-- The pods created by the calls, under the names the cluster generates. -/
def newPods (names : Nat → String) (es : List WarmEvent) : List WarmPodInfo :=
  (created es).zipIdx.map fun c => c.1.pod (names c.2)

/-- The fleet after the calls: what they deleted is gone, what they created is there. -/
def fleetAfter (names : Nat → String) (es : List WarmEvent) (pods : List WarmPodInfo) :
    List WarmPodInfo :=
  (pods.filter fun p => !(deletedNames es).contains p.name) ++ newPods names es

theorem countP_newPods (h : ∀ t ∈ created es, ∀ i, f (t.pod (names i)) = g t) :
    (newPods names es).countP f = (created es).countP g := by
  rw [newPods, countP_map]
  have hfst : (created es).countP g = (created es).zipIdx.countP (g ∘ Prod.fst) := by
    rw [← countP_map, zipIdx_map_fst]
  rw [hfst]
  refine countP_congr fun c hc => ?_
  have hmem : c.1 ∈ created es := fst_mem_of_mem_zipIdx hc
  rw [Function.comp_apply, Function.comp_apply, h c.1 hmem]

theorem countP_fleetAfter (h : ∀ t ∈ created es, ∀ i, f (t.pod (names i)) = g t) : (fleetAfter names es pods).countP f =
      (pods.filter fun p => !(deletedNames es).contains p.name).countP f + (created es).countP g := by
  rw [fleetAfter, countP_append, countP_newPods h]

theorem countP_fleetAfter_le (h : ∀ t ∈ created es, ∀ i, f (t.pod (names i)) = g t) :
    (fleetAfter names es pods).countP f ≤ pods.countP f + (created es).countP g := by
  rw [countP_fleetAfter h]
  exact Nat.add_le_add_right filter_sublist.countP_le _

theorem created_sweepVersions_eq : created (sweepVersions env cap targets existing busy).trace =
    targets.flatMap fun t => created (activeTrace env cap targets existing busy t) := by
  have hdrain : created ((env.rangeOver (GoMap.group WarmPodInfo.dagVersionID existing).keys).forM
      fun v => drainVersion env targets (podsOf v existing) busy v).trace = [] := by
    apply created_eq_nil
    intro e he t name uid heq
    obtain ⟨v, -, he, -⟩ := mem_forM he
    obtain ⟨-, ⟨p, -, -, rfl⟩ | ⟨rfl, -⟩⟩ := mem_drainVersion he <;> cases heq
  rw [trace_sweepVersions, created_append, hdrain, append_nil]
  exact filterMap_flatMap ..

theorem created_sweepVersions (env : WarmEnv) (cap : Int)
    (hnd : (targets.map WarmTarget.dagVersionID).Nodup) (existing : List WarmPodInfo) (busy : String → Bool) :
    ∃ n : WarmTarget → Nat, (∀ t ∈ targets, n t ≤ quota cap targets existing busy t) ∧
      created (sweepVersions env cap targets existing busy).trace =
        targets.flatMap fun t => List.replicate (n t) t := by
  have hactive : ∀ t ∈ targets, ∃ k ≤ quota cap targets existing busy t,
      created (activeTrace env cap targets existing busy t) = List.replicate k t := by
    intro t ht
    rw [← share_eq_quota env hnd ht]
    exact created_reconcileVersion ..
  choose! n hn hcreated using hactive
  refine ⟨n, hn, ?_⟩
  rw [created_sweepVersions_eq]
  exact flatMap_congr hcreated

theorem countP_copies (n : WarmTarget → Nat) (g : WarmTarget → Bool) (targets : List WarmTarget) :
    (targets.flatMap fun t => List.replicate (n t) t).countP g = ((targets.filter g).map n).sum := by
  induction targets with
  | nil => rfl
  | cons t targets ih =>
    rw [flatMap_cons, countP_append, ih, countP_replicate, filter_cons]
    split
    · rw [map_cons, sum_cons]
    · rw [Nat.zero_add]

theorem filter_version (hnd : (targets.map WarmTarget.dagVersionID).Nodup) (ht : t ∈ targets) :
    (targets.filter fun t' => t'.dagVersionID == t.dagVersionID) = [t] := by
  induction targets with
  | nil => cases ht
  | cons t' targets ih =>
    obtain ⟨hnot, hnd⟩ := nodup_cons.mp hnd
    rw [filter_cons]
    rcases mem_cons.mp ht with rfl | hmem
    · rw [if_pos (beq_self_eq_true _), cons_eq_cons]
      refine ⟨rfl, filter_eq_nil_iff.mpr fun t' ht' he => hnot ?_⟩
      rw [← beq_iff_eq.mp he]
      exact mem_map_of_mem ht'
    · have hne : t'.dagVersionID ≠ t.dagVersionID := fun he => hnot (he ▸ mem_map_of_mem hmem)
      rw [if_neg (by simpa using hne)]
      exact ih hnd hmem

/-! ## Bounds -/

theorem liveOf_eq_countP (pods : List WarmPodInfo) (v : String) :
    liveOf pods v = pods.countP fun p => p.isLive && p.dagVersionID == v := countP_filter ..

theorem quota_le_want (t : WarmTarget) : quota cap targets existing busy t ≤ want busy existing t := by
  unfold quota
  split
  · exact Nat.le_refl _
  · exact Lib.ration_le_want t

theorem nodup_tenantVersions (hnd : (targets.map WarmTarget.dagVersionID).Nodup) (tenant : String) :
    (tenantVersions targets tenant).Nodup := by
  have hperm := mergeSort_perm (targets.filter fun t => t.tenantID == tenant)
    fun a b => decide (a.dagVersionID ≤ b.dagVersionID)
  exact hperm.nodup_iff.mpr ((List.Nodup.of_map _ hnd).filter _)

theorem mem_tenantVersions : t ∈ tenantVersions targets tenant ↔ t ∈ targets ∧ t.tenantID = tenant := by
  rw [tenantVersions, mem_mergeSort, mem_filter, beq_iff_eq]

theorem quota_eq_ration (hcap : 0 < cap) (ht : t.tenantID = tenant) :
    quota cap targets existing busy t = ration (want busy existing)
      (headroom cap targets existing tenant) (tenantVersions targets tenant) t := by
  rw [quota, if_neg (Int.not_le.mpr hcap), ht]

theorem sum_quota (hcap : 0 < cap) (tenant : String) :
    ((targets.filter fun t => t.tenantID == tenant).map (quota cap targets existing busy)).sum =
      ((tenantVersions targets tenant).map (ration (want busy existing)
        (headroom cap targets existing tenant) (tenantVersions targets tenant))).sum := by
  have hperm := mergeSort_perm (targets.filter fun t => t.tenantID == tenant)
    fun a b => decide (a.dagVersionID ≤ b.dagVersionID)
  have hquota : (targets.filter fun t => t.tenantID == tenant).map
      (quota cap targets existing busy) = (targets.filter fun t => t.tenantID == tenant).map
        (ration (want busy existing) (headroom cap targets existing tenant) (tenantVersions targets tenant)) := by
    refine map_congr_left fun t ht => ?_
    exact quota_eq_ration hcap (beq_iff_eq.mp (mem_filter.mp ht).2)
  rw [hquota]
  exact ((hperm.map _).sum_eq).symm

theorem sum_quota_le (hcap : 0 < cap) (hnd : (targets.map WarmTarget.dagVersionID).Nodup) (tenant : String) :
    ((targets.filter fun t => t.tenantID == tenant).map (quota cap targets existing busy)).sum ≤
      headroom cap targets existing tenant := by
  rw [sum_quota hcap, Lib.sum_ration (nodup_tenantVersions hnd tenant)]
  exact Nat.min_le_left ..

theorem liveOf_after_le (env : WarmEnv) (hnd : (targets.map WarmTarget.dagVersionID).Nodup)
    (names : Nat → String) (ht : t ∈ targets) :
    (liveOf (fleetAfter names (sweepVersions env cap targets existing busy).trace existing)
      t.dagVersionID : Int) ≤ max (liveOf existing t.dagVersionID : Int) t.maxPool := by
  obtain ⟨n, hn, hcreated⟩ := created_sweepVersions env cap hnd existing busy
  have hcount : liveOf (fleetAfter names (sweepVersions env cap targets existing busy).trace existing)
      t.dagVersionID ≤ liveOf existing t.dagVersionID + n t := by
    rw [liveOf_eq_countP, liveOf_eq_countP]
    refine (countP_fleetAfter_le (g := fun t' => t'.dagVersionID == t.dagVersionID)
      fun t' _ i => rfl).trans (Nat.add_le_add_left ?_ _)
    rw [hcreated, countP_copies, filter_version hnd ht]
    simp
  have hwant := (hn t ht).trans (quota_le_want t)
  unfold want at hwant
  omega

theorem liveOf_after_le_of_inactive (env : WarmEnv)
    (hnd : (targets.map WarmTarget.dagVersionID).Nodup) (names : Nat → String) {v : String}
    (hv : ∀ t ∈ targets, t.dagVersionID ≠ v) :
    liveOf (fleetAfter names (sweepVersions env cap targets existing busy).trace existing) v ≤ liveOf existing v := by
  obtain ⟨n, -, hcreated⟩ := created_sweepVersions env cap hnd existing busy
  rw [liveOf_eq_countP, liveOf_eq_countP]
  refine (countP_fleetAfter_le (g := fun t' => t'.dagVersionID == v) fun t' _ i => rfl).trans ?_
  have hnone : (targets.filter fun t => t.dagVersionID == v) = [] :=
    filter_eq_nil_iff.mpr fun t ht he => hv t ht (beq_iff_eq.mp he)
  rw [hcreated, countP_copies, hnone]
  exact Nat.le_refl _

theorem attributed_pod (hnd : (targets.map WarmTarget.dagVersionID).Nodup) (ht : t ∈ targets)
    (name : String) (hne : tenant ≠ "") :
    ((t.pod name).attributed (versionTenant targets) == some tenant) = (t.tenantID == tenant) := by
  have hlookup : (versionTenant targets).lookup t.dagVersionID = some t.tenantID :=
    GoMap.lookup_collect hnd ht
  show ((if t.tenantID = "" then _ else some t.tenantID) == some tenant) = _
  split
  next hempty =>
    have hlabel : (t.tenantID == tenant) = false := by
      rw [hempty]
      exact beq_eq_false_iff_ne.mpr hne.symm
    show ((((versionTenant targets).lookup t.dagVersionID).filter (· != "")) == some tenant) = _
    rw [hlookup, hlabel, hempty]
    rfl
  · rfl

theorem tenantLiveOf_after_le (env : WarmEnv) (hcap : 0 < cap)
    (hnd : (targets.map WarmTarget.dagVersionID).Nodup) (names : Nat → String) (hne : tenant ≠ "") :
    (tenantLiveOf targets
      (fleetAfter names (sweepVersions env cap targets existing busy).trace existing) tenant : Int) ≤
      max (tenantLiveOf targets existing tenant : Int) (max cap (floorSum targets tenant)) := by
  obtain ⟨n, hn, hcreated⟩ := created_sweepVersions env cap hnd existing busy
  have hcount : tenantLiveOf targets
      (fleetAfter names (sweepVersions env cap targets existing busy).trace existing) tenant ≤
      tenantLiveOf targets existing tenant + headroom cap targets existing tenant := by
    refine (countP_fleetAfter_le (g := fun t => t.tenantID == tenant) fun t ht i => ?_).trans (Nat.add_le_add_left ?_ _)
    · rw [hcreated, mem_flatMap] at ht
      obtain ⟨t', ht', ht⟩ := ht
      obtain rfl := eq_of_mem_replicate ht
      exact attributed_pod hnd ht' (names i) hne
    · rw [hcreated, countP_copies]
      have hsum : ((targets.filter fun t => t.tenantID == tenant).map n).sum ≤
          ((targets.filter fun t => t.tenantID == tenant).map (quota cap targets existing busy)).sum :=
        sum_le_sum fun t ht => hn t (mem_filter.mp ht).1
      exact hsum.trans (sum_quota_le hcap hnd tenant)
  unfold headroom tenantBudget at hcount
  split at hcount <;> omega

end Calls

/-! ## Safety -/

/-- What a tick promises about its calls. -/
structure SafeTick (cap : Int) (targets : WarmTargets) (fleet : WarmFleet)
    (busy : Option (Except String (String → Bool))) (es : List WarmEvent) : Prop where
  busyKept : ∀ b, busy = some (.ok b) → ∀ p ∈ fleet.pods, p.terminal = false → b p.name →
    ∀ r, (.deleteWarmPod p.name, r) ∉ es
  blindIdle : (busy = none ∨ ∃ e, busy = some (.error e)) → (∀ name r, (.deleteWarmPod name, r) ∉ es) ∧
      ∀ t anchor uid r, (.createWarmPod t anchor uid, r) ∉ es
  ceiling : ∀ names, ∀ t ∈ targets.list, (liveOf (fleetAfter names es fleet.pods) t.dagVersionID : Int) ≤
      max (liveOf fleet.pods t.dagVersionID : Int) (max t.maxPoolSize t.effectiveMinIdle)
  inactive : ∀ names v, (∀ t ∈ targets.list, t.dagVersionID ≠ v) →
    liveOf (fleetAfter names es fleet.pods) v ≤ liveOf fleet.pods v
  budget : 0 < cap → ∀ names tenant, tenant ≠ "" →
    (tenantLiveOf targets.list (fleetAfter names es fleet.pods) tenant : Int) ≤
      max (tenantLiveOf targets.list fleet.pods tenant : Int) (max cap (floorSum targets.list tenant))
  anchorDrained : ∀ v r, (.deleteWarmAnchor v, r) ∈ es → (∀ t ∈ targets.list, t.dagVersionID ≠ v) ∧
    ∀ p ∈ fleet.pods, p.dagVersionID = v → (.deleteWarmPod p.name, .ok) ∈ es
  anchorFirst : ∀ t anchor uid r, (.createWarmPod t anchor uid, r) ∈ es → (.ensureWarmAnchor t.dagVersionID, .ok) ∈ es

/-- A tick without calls keeps every promise. -/
theorem SafeTick.nil (cap : Int) (targets : WarmTargets) (fleet : WarmFleet)
    (busy : Option (Except String (String → Bool))) : SafeTick cap targets fleet busy [] := by
  have hsame : ∀ names, fleetAfter names [] fleet.pods = fleet.pods := by
    intro names
    simp [fleetAfter, newPods, created, deletedNames]
  refine ⟨(fun _ _ _ _ _ _ _ h => by cases h), fun _ => ⟨(fun _ _ h => by cases h), fun _ _ _ _ h => by cases h⟩,
    fun names t _ => ?_, fun names v _ => ?_, fun _ names tenant _ => ?_, (fun _ _ h => by cases h),
    fun _ _ _ _ h => by cases h⟩
  · rw [hsame]
    exact Int.le_max_left ..
  · rw [hsame]
  · rw [hsame]
    exact Int.le_max_left ..

/-- The sweep over the versions is safe. -/
theorem safeTick_sweepVersions (env : WarmEnv) (cap : Int) (targets : WarmTargets)
    (fleet : WarmFleet) (b : String → Bool) :
    SafeTick cap targets fleet (some (.ok b)) (sweepVersions env cap targets.list fleet.pods b).trace where
  busyKept b' hb' p hp hlive hbusy r hmem := by
    cases hb'
    have hpod : p.isBusy b := by rw [WarmPodInfo.isBusy, hlive, hbusy]; rfl
    have hother : ∀ p' ∈ fleet.pods, p'.isBusy b = false → (WarmCall.deleteWarmPod p.name, r) ≠ deletion env p' := by
      intro p' hp' hidle he
      have hname : p.name = p'.name := WarmCall.deleteWarmPod.inj (congrArg Prod.fst he)
      obtain rfl := inj_on_of_nodup_map fleet.distinct hp hp' hname
      cases hidle.symm.trans hpod
    rcases mem_sweepVersions hmem with ⟨p', hp', hidle, he⟩ | ⟨t, ht, hmem, -⟩ | ⟨v, -, -, he, -⟩
    · exact hother p' hp' hidle he
    · rcases mem_reconcileVersion hmem with ⟨p', hp', hidle, he⟩ | ⟨-, n, he, -⟩
      · exact hother p' (mem_filter.mp hp').1 hidle he
      · rcases mem_ensureAnchorAndCreate he with heq | ⟨⟨i, heq⟩, -⟩ <;> cases heq
    · cases he
  blindIdle h := by
    rcases h with h | ⟨e, h⟩ <;> cases h
  ceiling names t ht := by
    refine (liveOf_after_le env targets.distinct names ht).trans ?_
    unfold WarmTarget.maxPool
    split <;> omega
  inactive names v hv := liveOf_after_le_of_inactive env targets.distinct names hv
  budget hcap names tenant hne := tenantLiveOf_after_le env hcap targets.distinct names hne
  anchorDrained v r hmem := by
    rcases mem_sweepVersions hmem with ⟨p, -, -, he⟩ | ⟨t, -, hmem, -⟩ | ⟨v', hinactive, -, he, hgone⟩
    · cases he
    · rcases mem_reconcileVersion hmem with ⟨p, -, -, he⟩ | ⟨-, n, he, -⟩
      · cases he
      · rcases mem_ensureAnchorAndCreate he with heq | ⟨⟨i, heq⟩, -⟩ <;> cases heq
    · cases he
      refine ⟨hinactive, fun p hp hv => hgone p ?_⟩
      exact mem_filter.mpr ⟨hp, beq_iff_eq.mpr hv⟩
  anchorFirst t anchor uid r hmem := by
    rcases mem_sweepVersions hmem with ⟨p, -, -, he⟩ | ⟨t', -, hmem, hsub⟩ | ⟨v, -, -, he, -⟩
    · cases he
    · obtain ⟨rfl, hensured⟩ := ensured_of_created hmem
      exact hsub hensured
    · cases he

/-- **Warm reconcile safety**: every tick, whatever the cluster answers, keeps its promises. -/
theorem reconcile_safe (env : WarmEnv) (cap : Int) (targets : WarmTargets) (fleet : WarmFleet)
    (busy : Option (Except String (String → Bool))) :
    SafeTick cap targets fleet busy (reconcile env cap (.ok targets.list) (.ok fleet.pods) busy).trace := by
  match busy with
  | none => exact SafeTick.nil ..
  | some (.error e) => exact SafeTick.nil ..
  | some (.ok b) =>
    show SafeTick cap targets fleet _ (sweepVersions env cap targets.list fleet.pods b >>= _).trace
    rw [trace_bind_pure]
    exact safeTick_sweepVersions env cap targets fleet b

end Leoflow.Executor
