import Leoflow.Properties.WarmReconcile

/-!
# The warm pool converges

With targets, busy set and caps fixed and a cluster that answers, the first tick reaps the terminal
pods and trims every version to its floor. From then on nothing is deleted, and the second tick hands
out what the deletes of the first one have freed. A second rationing of a headroom gives nothing, so
the third tick finds nothing to do.
-/

namespace Leoflow.Executor

open Lib (GoMap Traced ration)
open WarmPodInfo Lib.Traced List

/-- A cluster that answers every call. -/
structure WarmEnv.Succeeds (env : WarmEnv) : Prop where
  ensureWarmAnchor : ∀ v, env.ensureWarmAnchor v = .ok
  createWarmPod : ∀ v i, env.createWarmPod v i = .ok
  deleteWarmPod : ∀ name, env.deleteWarmPod name = .ok
  deleteWarmAnchor : ∀ v, env.deleteWarmAnchor v = .ok

/-! ## What a tick does when every call succeeds -/

section Succeeds

variable {env : WarmEnv} {busy : String → Bool}

/-- The pods a version gives up: the terminal ones and the idle ones over the floor. -/
def surplus (busy : String → Bool) (floor : Nat) (pods : List WarmPodInfo) : List WarmPodInfo :=
  pods.filter terminal ++ (pods.filter (isIdle busy)).drop floor

theorem deletedNames_append (es es' : List WarmEvent) :
    deletedNames (es ++ es') = deletedNames es ++ deletedNames es' := filterMap_append

theorem deletedNames_eq_nil {es : List WarmEvent}
    (h : ∀ e ∈ es, ∀ name, e.1 ≠ .deleteWarmPod name) : deletedNames es = [] := by
  rw [deletedNames, filterMap_eq_nil_iff]
  intro e he
  split
  next name r =>
    exact absurd rfl (h _ he name)
  · rfl

theorem deletedNames_map_deletion (hok : env.Succeeds) (pods : List WarmPodInfo) :
    deletedNames (pods.map (deletion env)) = pods.map WarmPodInfo.name := by
  induction pods with
  | nil => rfl
  | cons p pods ih =>
    rw [map_cons, map_cons, ← ih]
    simp [deletedNames, deletion, hok.deleteWarmPod, Reply.landed]

theorem created_map_deletion (pods : List WarmPodInfo) : created (pods.map (deletion env)) = [] := by
  apply created_eq_nil
  intro e he t name uid heq
  obtain ⟨p, -, rfl⟩ := mem_map.mp he
  cases heq

theorem ensureAnchorAndCreate_total (hok : env.Succeeds) (t : WarmTarget) (n : Int) :
    (ensureAnchorAndCreate env t n).trace = (if n ≤ 0 then [] else
      (.ensureWarmAnchor t.dagVersionID, .ok) :: (List.range n.toNat).map (creation env t)) := by
  unfold ensureAnchorAndCreate
  split
  · rfl
  · rw [hok.ensureWarmAnchor]
    have hcreates : (List.range n.toNat).forM (createWarmPod env t) =
        ⟨(List.range n.toNat).map (creation env t), some ()⟩ := by
      rw [forM_of_total]
      · simp only [trace_createWarmPod]
        rw [← map_eq_flatMap]
      · intro i _
        rw [createWarmPod, hok.createWarmPod]
        rfl
    show (call _ _ >>= fun ensured => _).trace = _
    rw [bind_of_some rfl]
    show _ :: ((List.range n.toNat).forM (createWarmPod env t)).trace = _
    rw [hcreates]

theorem created_map_creation (hok : env.Succeeds) (t : WarmTarget) (n : Nat) :
    created ((List.range n).map (creation env t)) = List.replicate n t := by
  have hlanded : ∀ i, env.createWarmPod t.dagVersionID i = .ok := hok.createWarmPod _
  rw [created, filterMap_map, filterMap_congr (g := some ∘ fun _ => t), filterMap_eq_map, map_const', length_range]
  intro i _
  simp [creation, hlanded, Reply.landed]

/-- With every call answered a pass creates its share and deletes the surplus. -/
theorem reconcileVersion_total (hok : env.Succeeds) {t : WarmTarget} (hfloor : 0 ≤ t.effectiveMinIdle)
    (pods : List WarmPodInfo) (allowance : Int) : created (reconcileVersion env t pods busy allowance).trace =
        List.replicate (share t (pods.countP (isIdle busy) : Nat) (pods.countP WarmPodInfo.isLive : Nat) allowance) t ∧
      deletedNames (reconcileVersion env t pods busy allowance).trace =
        (surplus busy t.effectiveMinIdle.toNat pods).map WarmPodInfo.name := by
  obtain ⟨s, hs⟩ := partitionPods_total busy hok.deleteWarmPod pods
  obtain ⟨htrace, -, hbusy, hidle⟩ := partitionPods_spec hs
  have hlen : (s.idle.length : Int) = (pods.countP (isIdle busy) : Nat) := by
    rw [hidle, ← countP_eq_length_filter]
  have hlive : s.busyCount + (pods.countP (isIdle busy) : Nat) = (pods.countP WarmPodInfo.isLive : Nat) := by
    rw [hbusy, ← Int.natCast_add, ← countP_isLive]
  rw [reconcileVersion, trace_recover, bind_of_some hs, htrace, created_append,
    deletedNames_append, created_map_deletion, deletedNames_map_deletion hok, nil_append, surplus,
    map_append, share, settleIdle]
  simp only [hlen, hlive]
  split
  next hshort =>
    have hnone : (pods.filter (isIdle busy)).drop t.effectiveMinIdle.toNat = [] := by
      rw [drop_eq_nil_iff, ← countP_eq_length_filter]
      omega
    rw [trace_bind_pure, ensureAnchorAndCreate_total hok, hnone]
    split
    next hn =>
      rw [Int.toNat_of_nonpos hn]
      exact ⟨rfl, rfl⟩
    · refine ⟨created_map_creation hok t _, ?_⟩
      rw [deletedNames_eq_nil]
      · rfl
      · intro e he name heq
        rcases mem_cons.mp he with rfl | he
        · cases heq
        · obtain ⟨i, -, rfl⟩ := mem_map.mp he
          cases heq
  · split
    · rw [if_neg (Int.not_lt.mpr hfloor)]
      obtain ⟨m, hm⟩ := deleteExcess_total hok.deleteWarmPod (s.idle.drop t.effectiveMinIdle.toNat)
        (s.remaining + s.busyCount + t.effectiveMinIdle)
      rw [(deleteExcess_spec hm).1, created_map_deletion, deletedNames_map_deletion hok, hidle]
      exact ⟨rfl, rfl⟩
    next hover =>
      have hnone : (pods.filter (isIdle busy)).drop t.effectiveMinIdle.toNat = [] := by
        rw [drop_eq_nil_iff, ← countP_eq_length_filter]
        omega
      rw [hnone]
      exact ⟨rfl, rfl⟩

end Succeeds

/-- The idle floor of a version, zero where it is not active. -/
def floorOf (targets : List WarmTarget) (v : String) : Nat :=
  match targets.find? fun t => t.dagVersionID == v with
  | some t => t.effectiveMinIdle.toNat
  | none => 0

section Sweep

variable {env : WarmEnv} {cap : Int} {targets : List WarmTarget} {existing : List WarmPodInfo}
  {busy : String → Bool}

theorem floorOf_target (hnd : (targets.map WarmTarget.dagVersionID).Nodup) {t : WarmTarget}
    (ht : t ∈ targets) : floorOf targets t.dagVersionID = t.effectiveMinIdle.toNat := by
  have hfind : targets.find? (fun t' => t'.dagVersionID == t.dagVersionID) = some t := by
    rw [← List.head?_filter, filter_version hnd ht]
    rfl
  rw [floorOf, hfind]

theorem floorOf_inactive {v : String} (hv : ∀ t ∈ targets, t.dagVersionID ≠ v) : floorOf targets v = 0 := by
  have hfind : targets.find? (fun t => t.dagVersionID == v) = none :=
    List.find?_eq_none.mpr fun t ht he => hv t ht (beq_iff_eq.mp he)
  rw [floorOf, hfind]

theorem deletedNames_drainVersion (hok : env.Succeeds) (pods : List WarmPodInfo) (v : String) :
    deletedNames (drainVersion env targets pods busy v).trace = if ∃ t ∈ targets, t.dagVersionID = v then []
      else (surplus busy 0 pods).map WarmPodInfo.name := by
  have hdrained := (@reconcileVersion_total env busy hok (drained v) (Int.le_refl 0) pods unlimitedAllowance).2
  have hactive : (targets.any fun t => t.dagVersionID == v) ↔ ∃ t ∈ targets, t.dagVersionID = v := by simp
  unfold drainVersion
  by_cases hv : ∃ t ∈ targets, t.dagVersionID = v
  · rw [if_pos (hactive.mpr hv), if_pos hv]
    rfl
  · rw [if_neg (fun h => hv (hactive.mp h)), if_neg hv]
    show deletedNames (reconcileVersion env (drained v) pods busy unlimitedAllowance >>= _).trace = _
    rw [bind_of_some rfl, deletedNames_append, hdrained]
    have hanchor : ∀ n : Int, deletedNames (if n = 0 then do
        let _ ← call (.deleteWarmAnchor v) (env.deleteWarmAnchor v)
        pure ()
      else pure () : Traced WarmEvent Unit).trace = [] := by
      intro n
      split
      · rw [trace_bind_pure, trace_call]
        rfl
      · rfl
    rw [hanchor, append_nil]
    rfl

theorem created_sweep_total (hok : env.Succeeds) (targets : WarmTargets)
    (existing : List WarmPodInfo) (busy : String → Bool) :
    created (sweepVersions env cap targets.list existing busy).trace =
      targets.list.flatMap fun t => List.replicate (quota cap targets.list existing busy t) t := by
  rw [created_sweepVersions_eq]
  refine flatMap_congr fun t ht => ?_
  rw [← share_eq_quota env targets.distinct ht]
  exact (reconcileVersion_total hok (targets.floors t ht) _ _).1

theorem deletedNames_sweep_total (hok : env.Succeeds) (targets : WarmTargets)
    (existing : List WarmPodInfo) (busy : String → Bool) :
    deletedNames (sweepVersions env cap targets.list existing busy).trace = (targets.list.flatMap fun t =>
        (surplus busy t.effectiveMinIdle.toNat (podsOf t.dagVersionID existing)).map WarmPodInfo.name) ++
      (env.rangeOver (GoMap.group dagVersionID existing).keys).flatMap fun v =>
        if ∃ t ∈ targets.list, t.dagVersionID = v then []
        else (surplus busy 0 (podsOf v existing)).map WarmPodInfo.name := by
  rw [trace_sweepVersions, deletedNames_append,
    forM_of_total fun v _ => drainVersion_total hok.deleteWarmAnchor (podsOf v existing) v]
  congr 1
  · rw [deletedNames, filterMap_flatMap]
    refine flatMap_congr fun t ht => ?_
    exact (reconcileVersion_total hok (targets.floors t ht) _ _).2
  · rw [deletedNames, filterMap_flatMap]
    refine flatMap_congr fun v _ => ?_
    exact deletedNames_drainVersion hok _ v

theorem mem_of_mem_surplus {floor : Nat} {pods : List WarmPodInfo} {p : WarmPodInfo}
    (h : p ∈ surplus busy floor pods) : p ∈ pods := by
  rcases mem_append.mp h with h | h
  · exact (mem_filter.mp h).1
  · exact (mem_filter.mp (mem_of_mem_drop h)).1

theorem mem_podsOf {v : String} {p : WarmPodInfo} : p ∈ podsOf v existing ↔ p ∈ existing ∧ p.dagVersionID = v := by
  rw [podsOf, mem_filter, beq_iff_eq]

/-- The sweep deletes the surplus of each version and no other pod. -/
theorem mem_deletedNames_sweep (hok : env.Succeeds) (targets : WarmTargets) (fleet : WarmFleet)
    {p : WarmPodInfo} (hp : p ∈ fleet.pods) :
    p.name ∈ deletedNames (sweepVersions env cap targets.list fleet.pods busy).trace ↔
      p ∈ surplus busy (floorOf targets.list p.dagVersionID) (podsOf p.dagVersionID fleet.pods) := by
  -- a name stands for one pod of the fleet, so it is surplus of the pod's own version
  have hown : ∀ {v floor}, p.name ∈ (surplus busy floor (podsOf v fleet.pods)).map WarmPodInfo.name →
      p.dagVersionID = v ∧ p ∈ surplus busy floor (podsOf v fleet.pods) := by
    intro v floor hname
    obtain ⟨p', hp', hname⟩ := mem_map.mp hname
    obtain ⟨hmem, hv⟩ := mem_podsOf.mp (mem_of_mem_surplus hp')
    obtain rfl := inj_on_of_nodup_map fleet.distinct hmem hp hname
    exact ⟨hv, hp'⟩
  rw [deletedNames_sweep_total hok, mem_append, mem_flatMap, mem_flatMap]
  constructor
  · rintro (⟨t, ht, hname⟩ | ⟨v, -, hname⟩)
    · obtain ⟨hv, hmem⟩ := hown hname
      rw [hv, floorOf_target targets.distinct ht]
      exact hmem
    · split at hname
      · cases hname
      next hinactive =>
        obtain ⟨hv, hmem⟩ := hown hname
        rw [hv, floorOf_inactive fun t ht he => hinactive ⟨t, ht, he⟩]
        exact hmem
  · intro hmem
    by_cases hactive : ∃ t ∈ targets.list, t.dagVersionID = p.dagVersionID
    · obtain ⟨t, ht, hv⟩ := hactive
      rw [← hv, floorOf_target targets.distinct ht] at hmem
      exact .inl ⟨t, ht, mem_map_of_mem hmem⟩
    · refine .inr ⟨p.dagVersionID, ?_, ?_⟩
      · rw [(env.rangeOver_perm _).mem_iff, GoMap.mem_keys_group]
        exact ⟨p, hp, rfl⟩
      · rw [floorOf_inactive fun t ht he => hactive ⟨t, ht, he⟩] at hmem
        rw [if_neg hactive]
        exact mem_map_of_mem hmem

end Sweep

/-! ## Two ticks -/

/-- A tick whose calls succeed: the next listing has the created pods, live and under names that are not busy, and
not the deleted ones. -/
def Tick (cap : Int) (targets : WarmTargets) (busy : String → Bool) (fleet fleet' : WarmFleet) : Prop :=
  ∃ env names, env.Succeeds ∧ (∀ i, busy (names i) = false) ∧ fleet'.pods.Perm (fleetAfter names
      (reconcile env cap (.ok targets.list) (.ok fleet.pods) (some (.ok busy))).trace fleet.pods)

/-- No pod is terminal and no version is over its floor. -/
structure Settled (targets : WarmTargets) (busy : String → Bool) (fleet : WarmFleet) : Prop where
  live : ∀ p ∈ fleet.pods, p.terminal = false
  idle : ∀ v, idleOf busy fleet.pods v ≤ floorOf targets.list v

section Ticks

variable {env : WarmEnv} {cap : Int} {targets : WarmTargets} {fleet fleet' : WarmFleet}
  {busy : String → Bool}

theorem trace_reconcile (env : WarmEnv) (cap : Int) (targets : WarmTargets) (fleet : WarmFleet) (busy : String → Bool) :
    (reconcile env cap (.ok targets.list) (.ok fleet.pods) (some (.ok busy))).trace =
      (sweepVersions env cap targets.list fleet.pods busy).trace := by
  show (sweepVersions env cap targets.list fleet.pods busy >>= _).trace = _
  rw [trace_bind_pure]

theorem idleOf_eq_countP (pods : List WarmPodInfo) (v : String) :
    idleOf busy pods v = pods.countP fun p => p.isIdle busy && p.dagVersionID == v :=
  countP_filter ..

/-- The quota a tick creates for a version. -/
def createdOf (cap : Int) (targets : WarmTargets) (busy : String → Bool) (fleet : WarmFleet) (v : String) : Nat :=
  ((targets.list.filter fun t => t.dagVersionID == v).map (quota cap targets.list fleet.pods busy)).sum

theorem createdOf_target {t : WarmTarget} (ht : t ∈ targets.list) :
    createdOf cap targets busy fleet t.dagVersionID = quota cap targets.list fleet.pods busy t := by
  rw [createdOf, filter_version targets.distinct ht]
  exact Nat.add_zero _

theorem createdOf_inactive {v : String} (hv : ∀ t ∈ targets.list, t.dagVersionID ≠ v) :
    createdOf cap targets busy fleet v = 0 := by
  have hnone : (targets.list.filter fun t => t.dagVersionID == v) = [] :=
    filter_eq_nil_iff.mpr fun t ht he => hv t ht (beq_iff_eq.mp he)
  rw [createdOf, hnone]
  rfl

theorem createdOf_le (v : String) :
    createdOf cap targets busy fleet v ≤ floorOf targets.list v - idleOf busy fleet.pods v := by
  by_cases hactive : ∃ t ∈ targets.list, t.dagVersionID = v
  · obtain ⟨t, ht, rfl⟩ := hactive
    have hquota := @quota_le_want cap targets.list fleet.pods busy t
    rw [createdOf_target ht, floorOf_target targets.distinct ht]
    unfold want at hquota
    omega
  · rw [createdOf_inactive fun t ht he => hactive ⟨t, ht, he⟩]
    exact Nat.zero_le _

theorem length_filter_not_mem_drop (m : Nat) (l : List WarmPodInfo) :
    (l.filter fun p => decide (p ∉ l.drop m)).length ≤ m := by
  have hdrop : (l.drop m).filter (fun p => decide (p ∉ l.drop m)) = [] := by
    rw [filter_eq_nil_iff]
    intro p hp
    simp [hp]
  calc (l.filter fun p => decide (p ∉ l.drop m)).length
      = ((l.take m ++ l.drop m).filter fun p => decide (p ∉ l.drop m)).length := by
        rw [take_append_drop]
    _ = ((l.take m).filter fun p => decide (p ∉ l.drop m)).length := by
        rw [filter_append, hdrop, append_nil]
    _ ≤ (l.take m).length := length_filter_le ..
    _ ≤ m := length_take_le ..

/-- The pods a tick does not delete. -/
def kept (env : WarmEnv) (cap : Int) (targets : WarmTargets) (fleet : WarmFleet)
    (busy : String → Bool) : List WarmPodInfo :=
  fleet.pods.filter fun p =>
    !(deletedNames (sweepVersions env cap targets.list fleet.pods busy).trace).contains p.name

theorem mem_kept (hok : env.Succeeds) {p : WarmPodInfo} : p ∈ kept env cap targets fleet busy ↔ p ∈ fleet.pods ∧
      p ∉ surplus busy (floorOf targets.list p.dagVersionID) (podsOf p.dagVersionID fleet.pods) := by
  rw [kept, mem_filter]
  refine and_congr_right fun hp => ?_
  rw [← @mem_deletedNames_sweep env cap busy hok targets fleet p hp]
  simp

theorem idleOf_kept_le (hok : env.Succeeds) (v : String) :
    idleOf busy (kept env cap targets fleet busy) v ≤ floorOf targets.list v := by
  let idle := (podsOf v fleet.pods).filter (isIdle busy)
  let still := (podsOf v (kept env cap targets fleet busy)).filter (isIdle busy)
  have hsub : still.Sublist (idle.filter fun p => decide (p ∉ idle.drop (floorOf targets.list v))) := by
    have hidle : still.Sublist idle := (filter_sublist.filter _).filter _
    have hfirst := hidle.filter fun p => decide (p ∉ idle.drop (floorOf targets.list v))
    rwa [filter_eq_self.mpr] at hfirst
    intro p hp
    obtain ⟨hmem, -⟩ := mem_filter.mp hp
    obtain ⟨hkept, rfl⟩ := mem_podsOf.mp hmem
    have hnot := ((mem_kept hok).mp hkept).2
    exact decide_eq_true fun hdrop => hnot (mem_append_right _ hdrop)
  rw [idleOf, countP_eq_length_filter]
  exact hsub.length_le.trans (length_filter_not_mem_drop _ _)

theorem countP_tick (hok : env.Succeeds) {names : Nat → String} {f : WarmPodInfo → Bool}
    {g : WarmTarget → Bool} (h : ∀ t ∈ targets.list, ∀ i, f (t.pod (names i)) = g t) :
    (fleetAfter names (sweepVersions env cap targets.list fleet.pods busy).trace fleet.pods).countP f =
      (kept env cap targets fleet busy).countP f +
        ((targets.list.filter g).map (quota cap targets.list fleet.pods busy)).sum := by
  rw [countP_fleetAfter (g := g), created_sweep_total hok, countP_copies]
  · rfl
  · intro t ht i
    rw [created_sweep_total hok, mem_flatMap] at ht
    obtain ⟨t', ht', ht⟩ := ht
    obtain rfl := eq_of_mem_replicate ht
    exact h t ht' i

/-- After one tick no pod is terminal and no version is over its floor. -/
theorem Tick.settled (h : Tick cap targets busy fleet fleet') : Settled targets busy fleet' := by
  obtain ⟨env, names, hok, hnames, hperm⟩ := h
  rw [trace_reconcile] at hperm
  constructor
  · intro p hp
    rcases mem_append.mp (hperm.mem_iff.mp hp) with hp | hp
    · obtain ⟨hmem, hnot⟩ := (mem_kept hok).mp hp
      cases ht : p.terminal with
      | false => rfl
      | true =>
        refine absurd (mem_append_left _ ?_) hnot
        exact mem_filter.mpr ⟨mem_podsOf.mpr ⟨hmem, rfl⟩, ht⟩
    · obtain ⟨c, -, rfl⟩ := mem_map.mp hp
      rfl
  · intro v
    have hkept : idleOf busy (kept env cap targets fleet busy) v ≤ idleOf busy fleet.pods v :=
      (filter_sublist.filter _).countP_le
    have hfloor := @idleOf_kept_le env cap targets fleet busy hok v
    have hcreated := @createdOf_le cap targets fleet busy v
    have hnew : ∀ t ∈ targets.list, ∀ i, ((t.pod (names i)).isIdle busy &&
        (t.pod (names i)).dagVersionID == v) = (t.dagVersionID == v) := by
      intro t _ i
      show (!false && !busy (names i) && t.dagVersionID == v) = _
      rw [hnames]
      rfl
    rw [idleOf_eq_countP, hperm.countP_eq, countP_tick hok hnew, ← idleOf_eq_countP]
    show idleOf busy (kept env cap targets fleet busy) v + createdOf cap targets busy fleet v ≤ _
    omega

/-! ## Nothing is deleted from a settled fleet -/

theorem Settled.surplus_eq_nil (h : Settled targets busy fleet) (v : String) :
    surplus busy (floorOf targets.list v) (podsOf v fleet.pods) = [] := by
  rw [surplus, append_eq_nil_iff]
  constructor
  · rw [filter_eq_nil_iff]
    intro p hp ht
    cases ht.symm.trans (h.live p (mem_podsOf.mp hp).1)
  · rw [drop_eq_nil_iff, ← countP_eq_length_filter]
    exact h.idle v

theorem Settled.kept_eq (h : Settled targets busy fleet) (hok : env.Succeeds) :
    kept env cap targets fleet busy = fleet.pods := by
  rw [kept, filter_eq_self]
  intro p hp
  have hnot := @mem_deletedNames_sweep env cap busy hok targets fleet p hp
  rw [h.surplus_eq_nil] at hnot
  simpa using hnot

theorem Settled.counts (h : Settled targets busy fleet) (ht : Tick cap targets busy fleet fleet') :
    (∀ t ∈ targets.list, idleOf busy fleet'.pods t.dagVersionID = idleOf busy fleet.pods t.dagVersionID +
        quota cap targets.list fleet.pods busy t ∧
      liveOf fleet'.pods t.dagVersionID = liveOf fleet.pods t.dagVersionID + quota cap targets.list fleet.pods busy t) ∧
    ∀ tenant, tenant ≠ "" → tenantLiveOf targets.list fleet'.pods tenant =
      tenantLiveOf targets.list fleet.pods tenant + ((targets.list.filter fun t => t.tenantID == tenant).map
          (quota cap targets.list fleet.pods busy)).sum := by
  obtain ⟨env, names, hok, hnames, hperm⟩ := ht
  rw [trace_reconcile] at hperm
  constructor
  · intro t ht
    have hquota := @createdOf_target cap targets fleet busy t ht
    constructor
    · have hnew : ∀ t' ∈ targets.list, ∀ i, ((t'.pod (names i)).isIdle busy &&
          (t'.pod (names i)).dagVersionID == t.dagVersionID) = (t'.dagVersionID == t.dagVersionID) := by
        intro t' _ i
        show (!false && !busy (names i) && t'.dagVersionID == t.dagVersionID) = _
        rw [hnames]
        rfl
      rw [idleOf_eq_countP, hperm.countP_eq, countP_tick hok hnew, h.kept_eq hok, ← idleOf_eq_countP, ← hquota]
      rfl
    · have hnew : ∀ t' ∈ targets.list, ∀ i, ((t'.pod (names i)).isLive &&
          (t'.pod (names i)).dagVersionID == t.dagVersionID) = (t'.dagVersionID == t.dagVersionID) := fun t' _ i => rfl
      rw [liveOf_eq_countP, hperm.countP_eq, countP_tick hok hnew, h.kept_eq hok, ← liveOf_eq_countP, ← hquota]
      rfl
  · intro tenant hne
    have hnew : ∀ t ∈ targets.list, ∀ i, ((t.pod (names i)).isLive &&
        (t.pod (names i)).attributed (versionTenant targets.list) == some tenant) =
          (t.tenantID == tenant) := fun t ht i => attributed_pod targets.distinct ht (names i) hne
    rw [tenantLiveOf, hperm.countP_eq, countP_tick hok hnew, h.kept_eq hok]
    rfl

/-- A second tick leaves each version wanting what it did not get. -/
theorem Settled.want_after (h : Settled targets busy fleet) (htick : Tick cap targets busy fleet fleet')
    {t : WarmTarget} (ht : t ∈ targets.list) :
    want busy fleet'.pods t = want busy fleet.pods t - quota cap targets.list fleet.pods busy t := by
  obtain ⟨hidle, hlive⟩ := (h.counts htick).1 t ht
  unfold want
  rw [hidle, hlive]
  omega

/-! ## The headroom of a tenant -/

theorem tenantLiveOf_empty (targets : List WarmTarget) (pods : List WarmPodInfo) :
    tenantLiveOf targets pods "" = 0 := by
  rw [tenantLiveOf, countP_eq_zero]
  intro p _ hp
  have hattr : p.attributed (versionTenant targets) = some "" := by
    simp only [Bool.and_eq_true, beq_iff_eq] at hp
    exact hp.2
  unfold attributed at hattr
  split at hattr
  · have hsome := Option.mem_filter_iff.mp hattr
    exact absurd hsome.2 (by decide)
  next hne =>
    exact hne (Option.some.inj hattr)

theorem sum_want_le (busy : String → Bool) (pods : List WarmPodInfo) {ts : List WarmTarget}
    (hfloor : ∀ t ∈ ts, 0 ≤ t.effectiveMinIdle) :
    ((ts.map (want busy pods)).sum : Int) ≤ (ts.map WarmTarget.effectiveMinIdle).sum := by
  induction ts with
  | nil => exact Int.le_refl 0
  | cons t ts ih =>
    have hrest := ih fun t' ht' => hfloor t' (mem_cons_of_mem _ ht')
    have ht := hfloor t mem_cons_self
    have hwant : (want busy pods t : Int) ≤ t.effectiveMinIdle := by
      unfold want
      omega
    rw [map_cons, map_cons, sum_cons, sum_cons]
    omega

theorem le_tenantBudget (cap floors : Int) : floors ≤ tenantBudget cap floors := by
  unfold tenantBudget
  split <;> omega

/-- Without a tenant the headroom covers all the floors. -/
theorem sum_want_le_headroom (targets : WarmTargets) (pods : List WarmPodInfo) :
    ((tenantVersions targets.list "").map (want busy pods)).sum ≤ headroom cap targets.list pods "" := by
  have hperm := mergeSort_perm (targets.list.filter fun t => t.tenantID == "")
    fun a b => decide (a.dagVersionID ≤ b.dagVersionID)
  have hsum : ((tenantVersions targets.list "").map (want busy pods)).sum =
      ((targets.list.filter fun t => t.tenantID == "").map (want busy pods)).sum :=
    (hperm.map _).sum_eq
  have hfloors := @sum_want_le busy pods (targets.list.filter fun t => t.tenantID == "")
    fun t ht => targets.floors t (mem_filter.mp ht).1
  have hbudget := le_tenantBudget cap (floorSum targets.list "")
  rw [hsum, headroom, tenantLiveOf_empty]
  unfold floorSum at hbudget ⊢
  omega

/-- After a second tick no version has anything left to create. -/
theorem Settled.quota_after (h : Settled targets busy fleet)
    (htick : Tick cap targets busy fleet fleet') {t : WarmTarget} (ht : t ∈ targets.list) :
    quota cap targets.list fleet'.pods busy t = 0 := by
  have hwant := fun t' ht' => @Settled.want_after cap targets fleet fleet' busy h htick t' ht'
  by_cases hcap : cap ≤ 0
  · have hall : quota cap targets.list fleet.pods busy t = want busy fleet.pods t := if_pos hcap
    rw [quota, if_pos hcap, hwant t ht, hall, Nat.sub_self]
  · have hcap : 0 < cap := Int.not_le.mp hcap
    have hmem : t ∈ tenantVersions targets.list t.tenantID := mem_tenantVersions.mpr ⟨ht, rfl⟩
    by_cases htenant : t.tenantID = ""
    · have hall : quota cap targets.list fleet.pods busy t = want busy fleet.pods t := by
        rw [quota_eq_ration hcap htenant]
        exact Lib.ration_of_sum_le (sum_want_le_headroom targets fleet.pods) (htenant ▸ hmem)
      have hle := @quota_le_want cap targets.list fleet'.pods busy t
      rw [hwant t ht, hall] at hle
      omega
    · have hleft : ∀ t' ∈ tenantVersions targets.list t.tenantID, want busy fleet'.pods t' =
          want busy fleet.pods t' - ration (want busy fleet.pods) (headroom cap targets.list fleet.pods t.tenantID)
            (tenantVersions targets.list t.tenantID) t' := by
        intro t' ht'
        obtain ⟨ht', heq⟩ := mem_tenantVersions.mp ht'
        rw [hwant t' ht', quota_eq_ration hcap heq]
      have hlive := (h.counts htick).2 t.tenantID htenant
      rw [sum_quota hcap] at hlive
      rw [quota_eq_ration hcap rfl]
      refine Lib.ration_again (nodup_tenantVersions targets.distinct t.tenantID) hleft ?_ hmem
      unfold headroom at hlive ⊢
      rw [hlive]
      omega

/-! ## The fixed point -/

/-- Nothing to delete and nothing to create. -/
structure AtRest (cap : Int) (targets : WarmTargets) (busy : String → Bool) (fleet : WarmFleet) : Prop where
  settled : Settled targets busy fleet
  nothingDue : ∀ t ∈ targets.list, quota cap targets.list fleet.pods busy t = 0

theorem AtRest.activeTrace_eq_nil (h : AtRest cap targets busy fleet) (env : WarmEnv) {t : WarmTarget}
    (ht : t ∈ targets.list) : activeTrace env cap targets.list fleet.pods busy t = [] := by
  have hreaped : (podsOf t.dagVersionID fleet.pods).filter terminal = [] :=
    (append_eq_nil_iff.mp (h.settled.surplus_eq_nil t.dagVersionID)).1
  rcases trace_reconcileVersion env t (podsOf t.dagVersionID fleet.pods) busy
    (allowanceFor (createAllowances env cap targets.list fleet.pods busy) t.dagVersionID) with
    htr | ⟨hidle, hlive, htr⟩ | ⟨hfloor, hover, n, htr⟩
  · rw [activeTrace, htr, eq_nil_iff_forall_not_mem]
    intro e he
    obtain ⟨p, hp, hterm, -⟩ := mem_partitionPods he
    cases hterm.symm.trans (h.settled.live p (mem_podsOf.mp hp).1)
  · have hshare := @share_eq_quota cap targets.list fleet.pods busy env targets.distinct t ht
    unfold idleOf liveOf at hshare
    rw [h.nothingDue t ht, share, if_pos ⟨hidle, hlive⟩] at hshare
    rw [activeTrace, htr, hreaped, ensureAnchorAndCreate, if_pos (Int.toNat_eq_zero.mp hshare)]
    rfl
  · have hidle := h.settled.idle t.dagVersionID
    rw [floorOf_target targets.distinct ht] at hidle
    unfold idleOf at hidle
    omega

/-- A tick at rest makes no call, however the cluster would answer. -/
theorem AtRest.trace_eq_nil (h : AtRest cap targets busy fleet) (env : WarmEnv) :
    (reconcile env cap (.ok targets.list) (.ok fleet.pods) (some (.ok busy))).trace = [] := by
  rw [trace_reconcile, trace_sweepVersions, append_eq_nil_iff]
  constructor
  · rw [flatMap_eq_nil_iff]
    exact fun t ht => h.activeTrace_eq_nil env ht
  · rw [eq_nil_iff_forall_not_mem]
    intro e he
    obtain ⟨v, hv, he, -⟩ := mem_forM he
    -- a version that is not active has only busy pods left
    have hbusy : (∀ t ∈ targets.list, t.dagVersionID ≠ v) → ∀ p ∈ podsOf v fleet.pods, p.isBusy busy := by
      intro hinactive p hp
      have hnone := h.settled.idle v
      rw [floorOf_inactive hinactive, Nat.le_zero, idleOf, countP_eq_zero] at hnone
      exact (isBusy_or_isIdle busy (h.settled.live p (mem_podsOf.mp hp).1)).resolve_right (hnone p hp)
    obtain ⟨hinactive, hcall⟩ := mem_drainVersion he
    rcases hcall with ⟨p, hp, hidle, -⟩ | ⟨-, hzero, hsub⟩
    · cases hidle.symm.trans (hbusy hinactive p hp)
    · rw [(env.rangeOver_perm _).mem_iff, GoMap.mem_keys_group] at hv
      obtain ⟨p, hp, rfl⟩ := hv
      have hmem : p ∈ podsOf p.dagVersionID fleet.pods := mem_podsOf.mpr ⟨hp, rfl⟩
      have hdeleted := deleted_of_drained (ne_nil_of_mem hmem) hzero p hmem
      obtain ⟨-, ⟨p', hp', hidle, -⟩ | ⟨heq, -⟩⟩ := mem_drainVersion (hsub hdeleted)
      · cases hidle.symm.trans (hbusy hinactive p' hp')
      · cases heq

theorem AtRest.tick (h : AtRest cap targets busy fleet) (htick : Tick cap targets busy fleet fleet') :
    AtRest cap targets busy fleet' :=
  ⟨htick.settled, fun _ ht => h.settled.quota_after htick ht⟩

/-- At rest a version with room has its floor of idle pods. -/
theorem AtRest.idle_eq_floor (h : AtRest cap targets busy fleet) {t : WarmTarget}
    (ht : t ∈ targets.list) (hpool : (liveOf fleet.pods t.dagVersionID : Int) < t.maxPoolSize)
    (hbudget : 0 < cap → (tenantLiveOf targets.list fleet.pods t.tenantID : Int) <
      tenantBudget cap (floorSum targets.list t.tenantID)) :
    (idleOf busy fleet.pods t.dagVersionID : Int) = t.effectiveMinIdle := by
  have hidle := h.settled.idle t.dagVersionID
  rw [floorOf_target targets.distinct ht] at hidle
  have hfloor := targets.floors t ht
  have hquota := h.nothingDue t ht
  by_contra hne
  have hwant : 0 < want busy fleet.pods t := by
    have hceil : t.maxPoolSize ≤ t.maxPool := by
      unfold WarmTarget.maxPool
      split <;> omega
    unfold want
    omega
  by_cases hcap : cap ≤ 0
  · rw [quota, if_pos hcap] at hquota
    omega
  · -- all the tenant's rations are zero, though there is headroom and something wanted
    have hcap : 0 < cap := Int.not_le.mp hcap
    have hroom : 0 < headroom cap targets.list fleet.pods t.tenantID := by
      have := hbudget hcap
      unfold headroom
      omega
    have hsum := @Lib.sum_ration _ _ (want busy fleet.pods) (headroom cap targets.list fleet.pods t.tenantID) _
      (nodup_tenantVersions targets.distinct t.tenantID)
    have hzero : ((tenantVersions targets.list t.tenantID).map (ration (want busy fleet.pods)
        (headroom cap targets.list fleet.pods t.tenantID)
        (tenantVersions targets.list t.tenantID))).sum = 0 := by
      rw [sum_eq_zero_iff]
      intro n hn
      obtain ⟨t', ht', rfl⟩ := mem_map.mp hn
      obtain ⟨ht', heq⟩ := mem_tenantVersions.mp ht'
      rw [← quota_eq_ration hcap heq]
      exact h.nothingDue t' ht'
    have hmem : t ∈ tenantVersions targets.list t.tenantID := mem_tenantVersions.mpr ⟨ht, rfl⟩
    have hle := single_le_sum (fun _ _ => Nat.zero_le _) _ (mem_map_of_mem (f := want busy fleet.pods) hmem)
    omega

end Ticks

/-- **Warm reconcile convergence**: in every run of ticks whose calls succeed, from the third tick on
nothing is created or deleted, and a version with room under its ceiling and under its tenant's budget
has its floor. -/
theorem reconcile_converges (cap : Int) (targets : WarmTargets) (busy : String → Bool)
    (fleets : Nat → WarmFleet) (hticks : ∀ n, Tick cap targets busy (fleets n) (fleets (n + 1))) :
    ∀ n, 2 ≤ n → (∀ env, (reconcile env cap (.ok targets.list) (.ok (fleets n).pods) (some (.ok busy))).trace = []) ∧
      ∀ t ∈ targets.list, (liveOf (fleets n).pods t.dagVersionID : Int) < t.maxPoolSize →
        (0 < cap → (tenantLiveOf targets.list (fleets n).pods t.tenantID : Int) <
          tenantBudget cap (floorSum targets.list t.tenantID)) →
        (idleOf busy (fleets n).pods t.dagVersionID : Int) = t.effectiveMinIdle := by
  have hrest : ∀ n, AtRest cap targets busy (fleets (n + 2)) := by
    intro n
    induction n with
    | zero => exact ⟨(hticks 1).settled, fun t ht => (hticks 0).settled.quota_after (hticks 1) ht⟩
    | succ n ih => exact ih.tick (hticks (n + 2))
  intro n hn
  obtain ⟨m, rfl⟩ := Nat.exists_eq_add_of_le' hn
  exact ⟨(hrest m).trace_eq_nil, fun t ht hpool hbudget => (hrest m).idle_eq_floor ht hpool hbudget⟩

/-! One version with a floor of two, and an idle pod of a version that is gone. Under the tenant's cap
of two the first tick can create one pod only; the drained pod makes room for the other. -/

/-- The targets once a version was replaced. -/
def drainTargets : WarmTargets where
  list := [⟨"v2", "img", 2, 3, "acme"⟩]
  distinct := by decide
  floors := by decide

/-- The fleets from tick to tick. -/
def drainFleets : Nat → WarmFleet
  | 0 => ⟨[⟨"p0", "v1", false, "acme"⟩], by decide⟩
  | 1 => ⟨[⟨"p1", "v2", false, "acme"⟩], by decide⟩
  | _ + 2 => ⟨[⟨"p1", "v2", false, "acme"⟩, ⟨"p2", "v2", false, "acme"⟩], by decide⟩

/-- A cluster that does what it is asked. -/
def answering : WarmEnv where
  ensureWarmAnchor _ := .ok
  anchorUID v := v
  createWarmPod _ _ := .ok
  deleteWarmPod _ := .ok
  deleteWarmAnchor _ := .ok
  rangeOver keys := keys
  rangeOver_perm _ := .rfl

theorem answering_succeeds : answering.Succeeds :=
  ⟨fun _ => rfl, fun _ _ => rfl, fun _ => rfl, fun _ => rfl⟩

theorem drainFleets_tick (n : Nat) : Tick 2 drainTargets (fun _ => false) (drainFleets n) (drainFleets (n + 1)) := by
  match n with
  | 0 => exact ⟨answering, fun _ => "p1", answering_succeeds, fun _ => rfl, by decide +kernel⟩
  | 1 => exact ⟨answering, fun _ => "p2", answering_succeeds, fun _ => rfl, by decide +kernel⟩
  | n + 2 =>
    have hrest : (drainFleets 2).pods.Perm (fleetAfter (fun _ => "p3")
        (reconcile answering 2 (.ok drainTargets.list) (.ok (drainFleets 2).pods)
          (some (.ok fun _ => false))).trace (drainFleets 2).pods) := by decide +kernel
    exact ⟨answering, fun _ => "p3", answering_succeeds, fun _ => rfl, hrest⟩

theorem reconcile_converges_drained :
    (∀ n, Tick 2 drainTargets (fun _ => false) (drainFleets n) (drainFleets (n + 1))) ∧
    (∀ env, (reconcile env 2 (.ok drainTargets.list) (.ok (drainFleets 2).pods)
      (some (.ok fun _ => false))).trace = []) ∧
    ∀ t ∈ drainTargets.list, (liveOf (drainFleets 2).pods t.dagVersionID : Int) < t.maxPoolSize →
      (0 < (2 : Int) → (tenantLiveOf drainTargets.list (drainFleets 2).pods t.tenantID : Int) <
        tenantBudget 2 (floorSum drainTargets.list t.tenantID)) →
      (idleOf (fun _ => false) (drainFleets 2).pods t.dagVersionID : Int) = t.effectiveMinIdle :=
  ⟨drainFleets_tick, reconcile_converges 2 drainTargets _ drainFleets drainFleets_tick 2 (Nat.le_refl 2)⟩

end Leoflow.Executor
