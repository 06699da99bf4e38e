import Leoflow.Properties.WarmReconcile
import Leoflow.Lib.Runs

/-!
# Anchors of versions that are gone

A version's anchor is created with its first pods and deleted by the drain, which looks only at the
versions of the listed pods.
-/

namespace Leoflow.Executor

open Lib (GoMap Traced System)
open List

variable {anchor : String} {p : WarmPodInfo}

/-! ## The cluster over time -/

/-- The cluster answers, except that creates may fail. -/
structure SteadyEnv extends WarmEnv where
  ensured : ∀ v, ensureWarmAnchor v = .ok
  deleted : ∀ name, deleteWarmPod name = .ok
  unanchored : ∀ v, deleteWarmAnchor v = .ok

/-- The active targets, the warm pods and the names of the anchor ConfigMaps. -/
structure WarmCluster where
  targets : WarmTargets
  fleet : WarmFleet
  anchors : List String

/-- `EnsureWarmAnchor` creates the ConfigMap of the version or finds it, `DeleteWarmAnchor` removes it. -/
def anchorAfter (anchors : List String) : WarmEvent → List String
  | (.ensureWarmAnchor v, r) => if r.landed then anchors.insert (warmAnchorName v) else anchors
  | (.deleteWarmAnchor v, r) =>
    if r.landed then anchors.filter (· != warmAnchorName v) else anchors
  | (.createWarmPod _ _ _, _) | (.deleteWarmPod _, _) => anchors

/-- The anchors after some events. -/
def anchorsAfter (es : List WarmEvent) (anchors : List String) : List String :=
  es.foldl anchorAfter anchors

/-- What happens to a cluster with warm pools. -/
inductive WarmAction where
  /-- Runs start and finish, and with them the active versions change. -/
  | retarget (targets : WarmTargets)
  /-- A pod ends and stays as a terminal one. -/
  | exit (name : String)
  /-- A pod is deleted or garbage-collected by others. -/
  | remove (name : String)
  /-- A tick of the reconciler; new pods get the given names. -/
  | tick (env : SteadyEnv) (cap : Int) (busy : String → Bool) (names : Nat → String)

namespace WarmCluster

/-- What a tick of the pool manager does. -/
def tickTrace (s : WarmCluster) (env : SteadyEnv) (cap : Int) (busy : String → Bool) :
    List WarmEvent :=
  (reconcile env.toWarmEnv cap (.ok s.targets.list) (.ok s.fleet.pods) (some (.ok busy))).trace

/-- The cluster with other pods, where their names are distinct. -/
def withPods (s : WarmCluster) (pods : List WarmPodInfo) (anchors : List String) :
    Option WarmCluster :=
  if h : (pods.map WarmPodInfo.name).Nodup then some { s with fleet := ⟨pods, h⟩, anchors := anchors }
  else none

/-- The cluster after an action. -/
def step (s : WarmCluster) : WarmAction → Option WarmCluster
  | .retarget targets => some { s with targets := targets }
  | .exit name => s.withPods
      (s.fleet.pods.map fun p => if p.name = name then { p with terminal := true } else p) s.anchors
  | .remove name => s.withPods (s.fleet.pods.filter (·.name != name)) s.anchors
  | .tick env cap busy names => s.withPods (fleetAfter names (s.tickTrace env cap busy) s.fleet.pods)
      (anchorsAfter (s.tickTrace env cap busy) s.anchors)

/-- A version that is active or has a pod has the anchor. -/
def Needs (s : WarmCluster) (anchor : String) : Prop :=
  (∃ t ∈ s.targets.list, warmAnchorName t.dagVersionID = anchor) ∨
    ∃ p ∈ s.fleet.pods, warmAnchorName p.dagVersionID = anchor

instance (s : WarmCluster) (anchor : String) : Decidable (s.Needs anchor) :=
  inferInstanceAs (Decidable ((∃ t ∈ s.targets.list, warmAnchorName t.dagVersionID = anchor) ∨
    ∃ p ∈ s.fleet.pods, warmAnchorName p.dagVersionID = anchor))

/-- The anchors without an active version or a pod. -/
def orphans (s : WarmCluster) : List String := s.anchors.filter fun anchor => ¬ s.Needs anchor

theorem mem_orphans {s : WarmCluster} : anchor ∈ s.orphans ↔ anchor ∈ s.anchors ∧ ¬ s.Needs anchor := by
  rw [orphans, mem_filter, decide_eq_true_iff]

end WarmCluster

/-- It starts with no pod and no anchor. -/
def warmClusters : System WarmCluster WarmAction where
  init s := s.fleet.pods = [] ∧ s.anchors = []
  step := WarmCluster.step

/-! ## One tick -/

theorem mem_anchorsAfter {es : List WarmEvent} {anchors : List String}
    (h : ∀ v r, (WarmCall.ensureWarmAnchor v, r) ∈ es → warmAnchorName v ≠ anchor) :
    anchor ∈ anchorsAfter es anchors ↔ anchor ∈ anchors ∧
      ∀ v r, (WarmCall.deleteWarmAnchor v, r) ∈ es → r.landed → warmAnchorName v ≠ anchor := by
  induction es generalizing anchors with
  | nil => simp [anchorsAfter]
  | cons e es ih =>
    have hrest := @ih (anchorAfter anchors e) fun v r hv => h v r (mem_cons_of_mem _ hv)
    show anchor ∈ anchorsAfter es (anchorAfter anchors e) ↔ _
    rw [hrest]
    match e with
    | (.ensureWarmAnchor v, r) =>
      have hne := h v r mem_cons_self
      cases hr : r.landed <;> simp [anchorAfter, hr, hne.symm]
    | (.deleteWarmAnchor v, r) =>
      cases hr : r.landed with
      | false => grind [anchorAfter]
      | true => grind [anchorAfter]
    | (.createWarmPod _ _ _, _) => simp [anchorAfter]
    | (.deleteWarmPod _, _) => simp [anchorAfter]

namespace WarmCluster

variable {s s' : WarmCluster} {env : SteadyEnv} {cap : Int} {busy : String → Bool}

theorem tickTrace_eq : s.tickTrace env cap busy =
    (sweepVersions env.toWarmEnv cap s.targets.list s.fleet.pods busy).trace := by
  show (sweepVersions env.toWarmEnv cap s.targets.list s.fleet.pods busy >>= _).trace = _
  rw [Traced.trace_bind_pure]

theorem withPods_eq {pods : List WarmPodInfo} {anchors : List String} (h : s.withPods pods anchors = some s') :
    s'.targets = s.targets ∧ s'.fleet.pods = pods ∧ s'.anchors = anchors := by
  unfold withPods at h
  split at h
  · cases h
    exact ⟨rfl, rfl, rfl⟩
  · cases h

theorem mem_targets_of_ensured {v : String} {r : Reply} (h : (.ensureWarmAnchor v, r) ∈ s.tickTrace env cap busy) :
    ∃ t ∈ s.targets.list, t.dagVersionID = v := by
  rw [tickTrace_eq] at h
  rcases mem_sweepVersions h with ⟨p, -, -, he⟩ | ⟨t, ht, hmem, -⟩ | ⟨v', -, -, he, -⟩
  · cases he
  · rcases mem_reconcileVersion hmem with ⟨p, -, -, he⟩ | ⟨-, n, he, -⟩
    · cases he
    · rcases mem_ensureAnchorAndCreate he with heq | ⟨⟨i, heq⟩, -⟩
      · cases heq
        exact ⟨t, ht, rfl⟩
      · cases heq
  · cases he

theorem mem_pods_of_unanchored {v : String} {r : Reply} (h : (.deleteWarmAnchor v, r) ∈ s.tickTrace env cap busy) :
    ∃ p ∈ s.fleet.pods, p.dagVersionID = v := by
  rw [tickTrace_eq] at h
  rcases mem_sweepVersions h with ⟨p, -, -, he⟩ | ⟨t, -, hmem, -⟩ | ⟨v', -, hpod, he, -⟩
  · cases he
  · rcases mem_reconcileVersion hmem with ⟨p, -, -, he⟩ | ⟨-, n, he, -⟩
    · cases he
    · rcases mem_ensureAnchorAndCreate he with heq | ⟨⟨i, heq⟩, -⟩ <;> cases heq
  · cases he
    exact hpod

/-- A tick deletes the anchor of an inactive version none of whose pods is busy. -/
theorem unanchored_of_idle (hp : p ∈ s.fleet.pods) (hinactive : ∀ t ∈ s.targets.list, t.dagVersionID ≠ p.dagVersionID)
    (hidle : ∀ q ∈ podsOf p.dagVersionID s.fleet.pods, q.isBusy busy = false) :
    (.deleteWarmAnchor p.dagVersionID, .ok) ∈ s.tickTrace env cap busy := by
  have hround : (.deleteWarmAnchor p.dagVersionID, .ok) ∈ (drainVersion env.toWarmEnv s.targets.list
      (podsOf p.dagVersionID s.fleet.pods) busy p.dagVersionID).trace := by
    have hactive : ¬ (s.targets.list.any fun t => t.dagVersionID == p.dagVersionID) := by
      intro h
      obtain ⟨t, ht, he⟩ := any_eq_true.mp h
      exact hinactive t ht (beq_iff_eq.mp he)
    have hzero : (podsOf p.dagVersionID s.fleet.pods).countP (WarmPodInfo.isBusy busy) = 0 := by
      rw [countP_eq_zero]
      intro q hq
      rw [hidle q hq]
      exact Bool.false_ne_true
    unfold drainVersion
    rw [if_neg hactive, Traced.mem_bind]
    refine .inr ⟨_, drain_result env.deleted _ _ _ _, ?_⟩
    rw [hzero, Nat.cast_zero, if_pos rfl, Traced.trace_bind_pure, trace_call, env.unanchored]
    exact mem_singleton.mpr rfl
  rw [tickTrace_eq, trace_sweepVersions,
    Traced.forM_of_total fun v _ => drainVersion_total env.unanchored (podsOf v s.fleet.pods) v]
  refine mem_append_right _ (mem_flatMap.mpr ⟨p.dagVersionID, ?_, hround⟩)
  rw [(env.rangeOver_perm _).mem_iff, GoMap.mem_keys_group]
  exact ⟨p, hp, rfl⟩

theorem of_mem_deletedNames {es : List WarmEvent} {name : String} (h : name ∈ deletedNames es) :
    ∃ r, (.deleteWarmPod name, r) ∈ es := by
  obtain ⟨e, he, hname⟩ := mem_filterMap.mp h
  split at hname
  next name' r =>
    split at hname <;> cases hname
    exact ⟨r, he⟩
  · cases hname

theorem mem_fleetAfter_of_isBusy (names : Nat → String) (hp : p ∈ s.fleet.pods) (hbusy : p.isBusy busy) :
    p ∈ fleetAfter names (s.tickTrace env cap busy) s.fleet.pods := by
  have hlive : p.terminal = false ∧ busy p.name := by
    simpa [WarmPodInfo.isBusy] using hbusy
  have hsafe := safeTick_sweepVersions env.toWarmEnv cap s.targets s.fleet busy
  refine mem_append_left _ (mem_filter.mpr ⟨hp, ?_⟩)
  rw [Bool.not_eq_true', contains_eq_mem, decide_eq_false_iff_not, tickTrace_eq]
  intro hdeleted
  obtain ⟨r, hr⟩ := of_mem_deletedNames hdeleted
  exact hsafe.busyKept busy rfl p hp hlive.1 hlive.2 r hr

theorem needs_of_mem_fleetAfter {names : Nat → String}
    (hp : p ∈ fleetAfter names (s.tickTrace env cap busy) s.fleet.pods) : s.Needs (warmAnchorName p.dagVersionID) := by
  rcases mem_append.mp hp with hp | hp
  · exact .inr ⟨p, (mem_filter.mp hp).1, rfl⟩
  · obtain ⟨c, hc, rfl⟩ := mem_map.mp hp
    have hmem : c.1 ∈ created (s.tickTrace env cap busy) := fst_mem_of_mem_zipIdx hc
    obtain ⟨n, -, hcreated⟩ := created_sweepVersions env.toWarmEnv cap s.targets.distinct s.fleet.pods busy
    rw [tickTrace_eq, hcreated, mem_flatMap] at hmem
    obtain ⟨t, ht, hmem⟩ := hmem
    left
    exact ⟨t, ht, congrArg _ (congrArg _ (eq_of_mem_replicate hmem).symm)⟩

/-- A tick leaves the orphans it finds and makes no other. -/
theorem tick_orphans {names : Nat → String} (h : s.step (.tick env cap busy names) = some s') :
    anchor ∈ s'.orphans ↔ anchor ∈ s.orphans := by
  obtain ⟨htargets, hpods, hanchors⟩ := withPods_eq h
  rw [mem_orphans, mem_orphans, hanchors]
  -- an orphan's version is not active, so the tick does not ensure it
  have hensured : (∀ t ∈ s.targets.list, warmAnchorName t.dagVersionID ≠ anchor) → ∀ v r,
      (WarmCall.ensureWarmAnchor v, r) ∈ s.tickTrace env cap busy → warmAnchorName v ≠ anchor := by
    intro hinactive v r hv
    obtain ⟨t, ht, rfl⟩ := mem_targets_of_ensured hv
    exact hinactive t ht
  constructor
  · rintro ⟨hmem, hneeds⟩
    have hinactive : ∀ t ∈ s.targets.list, warmAnchorName t.dagVersionID ≠ anchor :=
      fun t ht he => hneeds (.inl ⟨t, htargets ▸ ht, he⟩)
    obtain ⟨hbefore, hkept⟩ := (mem_anchorsAfter (hensured hinactive)).mp hmem
    refine ⟨hbefore, ?_⟩
    rintro (⟨t, ht, he⟩ | ⟨p, hp, he⟩)
    · exact hinactive t ht he
    · have hversion : ∀ t ∈ s.targets.list, t.dagVersionID ≠ p.dagVersionID :=
        fun t ht heq => hinactive t ht (heq ▸ he)
      -- its version keeps a busy pod, or the drain deletes the anchor
      by_cases hbusy : ∃ q ∈ podsOf p.dagVersionID s.fleet.pods, q.isBusy busy
      · obtain ⟨q, hq, hbusy⟩ := hbusy
        obtain ⟨hq, hv⟩ := mem_filter.mp hq
        apply hneeds
        right
        refine ⟨q, ?_, (congrArg _ (beq_iff_eq.mp hv)).trans he⟩
        rw [hpods]
        exact mem_fleetAfter_of_isBusy names hq hbusy
      · have hidle : ∀ q ∈ podsOf p.dagVersionID s.fleet.pods, q.isBusy busy = false :=
          fun q hq => Bool.eq_false_iff.mpr fun hb => hbusy ⟨q, hq, hb⟩
        exact hkept _ _ (unanchored_of_idle hp hversion hidle) rfl he
  · rintro ⟨hmem, hneeds⟩
    have hinactive : ∀ t ∈ s.targets.list, warmAnchorName t.dagVersionID ≠ anchor :=
      fun t ht he => hneeds (.inl ⟨t, ht, he⟩)
    refine ⟨(mem_anchorsAfter (hensured hinactive)).mpr ⟨hmem, ?_⟩, ?_⟩
    · intro v r hv _ he
      obtain ⟨p, hp, rfl⟩ := mem_pods_of_unanchored hv
      exact hneeds (.inr ⟨p, hp, he⟩)
    · rintro (⟨t, ht, he⟩ | ⟨p, hp, he⟩)
      · exact hinactive t (htargets ▸ ht) he
      · rw [hpods] at hp
        exact hneeds (he ▸ needs_of_mem_fleetAfter hp)

/-! ## Whole runs -/

/-- The targets change and pods are removed only so that every anchor keeps an active version or a
pod. -/
def Keeps (s : WarmCluster) : WarmAction → Prop
  | .retarget targets => ∀ t ∈ s.targets.list, warmAnchorName t.dagVersionID ∈ s.anchors →
      (∃ t' ∈ targets.list, t'.dagVersionID = t.dagVersionID) ∨ ∃ p ∈ s.fleet.pods, p.dagVersionID = t.dagVersionID
  | .remove name => ∀ p ∈ s.fleet.pods, p.name = name → warmAnchorName p.dagVersionID ∈ s.anchors →
      (∃ t ∈ s.targets.list, t.dagVersionID = p.dagVersionID) ∨
        ∃ p' ∈ s.fleet.pods, p'.name ≠ name ∧ p'.dagVersionID = p.dagVersionID
  | .exit _ | .tick _ _ _ _ => True

theorem orphans_eq_nil_iff {s : WarmCluster} : s.orphans = [] ↔ ∀ anchor ∈ s.anchors, s.Needs anchor := by
  rw [eq_nil_iff_forall_not_mem]
  refine forall_congr' fun anchor => ?_
  rw [mem_orphans]
  exact ⟨fun h ha => Classical.not_not.mp fun hn => h ⟨ha, hn⟩, fun h ha => ha.2 (h ha.1)⟩

/-- No anchor is orphaned, if every one keeps an active version or a pod. -/
theorem clean_step {a : WarmAction} (hclean : s.orphans = []) (hkeeps : s.Keeps a)
    (h : s.step a = some s') : s'.orphans = [] := by
  rw [orphans_eq_nil_iff] at hclean
  cases a with
  | tick env cap busy names =>
    rw [eq_nil_iff_forall_not_mem]
    intro anchor hmem
    rw [tick_orphans h, mem_orphans] at hmem
    exact hmem.2 (hclean anchor hmem.1)
  | retarget targets =>
    cases h
    rw [orphans_eq_nil_iff]
    intro anchor ha
    rcases hclean anchor ha with ⟨t, ht, rfl⟩ | hpod
    · rcases hkeeps t ht ha with ⟨t', ht', he⟩ | ⟨p, hp, he⟩
      · exact .inl ⟨t', ht', congrArg _ he⟩
      · exact .inr ⟨p, hp, congrArg _ he⟩
    · exact .inr hpod
  | exit name =>
    obtain ⟨htargets, hpods, hanchors⟩ := withPods_eq h
    rw [orphans_eq_nil_iff, hanchors]
    intro anchor ha
    rcases hclean anchor ha with ⟨t, ht, he⟩ | ⟨p, hp, he⟩
    · exact .inl ⟨t, htargets ▸ ht, he⟩
    · right
      rw [hpods]
      refine ⟨_, mem_map_of_mem hp, ?_⟩
      split <;> exact he
  | remove name =>
    obtain ⟨htargets, hpods, hanchors⟩ := withPods_eq h
    rw [orphans_eq_nil_iff, hanchors]
    intro anchor ha
    unfold Needs
    rw [htargets, hpods]
    rcases hclean anchor ha with htarget | ⟨p, hp, rfl⟩
    · exact .inl htarget
    · by_cases hname : p.name = name
      · rcases hkeeps p hp hname ha with ⟨t, ht, he⟩ | ⟨p', hp', hne, he⟩
        · exact .inl ⟨t, ht, congrArg _ he⟩
        · exact .inr ⟨p', mem_filter.mpr ⟨hp', bne_iff_ne.mpr hne⟩, congrArg _ he⟩
      · exact .inr ⟨p, mem_filter.mpr ⟨hp, bne_iff_ne.mpr hname⟩, rfl⟩

end WarmCluster

/-- **Anchors are reclaimed** exactly as far as the ticks see them go: a tick leaves no orphan iff it
finds none, and no run whose target changes and removals leave each anchor an active version or a pod
ever has one. -/
theorem anchors_reclaimed {s : WarmCluster} : (∀ env cap busy names s', s.step (.tick env cap busy names) = some s' →
      (s'.orphans = [] ↔ s.orphans = [])) ∧
    (warmClusters.Reaches WarmCluster.Keeps s → s.orphans = []) := by
  constructor
  · intro env cap busy names s' h
    simp only [eq_nil_iff_forall_not_mem, WarmCluster.tick_orphans h]
  · intro h
    refine System.Reaches.invariant (I := fun s => s.orphans = []) (fun s hs => ?_)
      (fun s a s' _ hclean hkeeps hs => ?_) h
    · rw [WarmCluster.orphans, hs.2]
      rfl
    · exact WarmCluster.clean_step hclean hkeeps hs

/-! A version with a floor of one gets its anchor and its pod, ends, and is drained; the second time
its create fails. -/

/-- One version with a pool of one. -/
def oneTarget : WarmTargets := ⟨[⟨"v1", "img", 1, 1, "acme"⟩], by decide, by decide⟩

/-- No version has a pool. -/
def noTarget : WarmTargets := ⟨[], by decide, by decide⟩

/-- A cluster that answers every create alike. -/
def steady (create : Reply) : SteadyEnv where
  ensureWarmAnchor _ := .ok
  anchorUID v := v
  createWarmPod _ _ := create
  deleteWarmPod _ := .ok
  deleteWarmAnchor _ := .ok
  rangeOver keys := keys
  rangeOver_perm _ := .rfl
  ensured _ := rfl
  deleted _ := rfl
  unanchored _ := rfl

/-- A tick at such a cluster. -/
def warmTick (create : Reply) : WarmAction := .tick (steady create) 0 (fun _ => false) fun _ => "p1"

/-- A cluster without pods. -/
def emptyCluster : WarmCluster := ⟨oneTarget, ⟨[], by decide⟩, []⟩

/-- It has the pod. -/
def servedCluster : WarmCluster :=
  (emptyCluster.step (warmTick .ok)).get (by decide +kernel)

/-- Its version is not active any more. -/
def drainingCluster : WarmCluster := { servedCluster with targets := noTarget }

/-- The create failed, and the version is not active any more. -/
def failedCluster : WarmCluster :=
  (warmClusters.run emptyCluster [warmTick (.error false), .retarget noTarget]).get (by decide +kernel)

/-- The tick after that. -/
def leakedCluster : WarmCluster := (failedCluster.step (warmTick .ok)).get (by decide +kernel)

theorem anchors_reclaimed_drained : drainingCluster.anchors = ["leoflow-pool-v1"] ∧
    (∀ env cap busy names s', drainingCluster.step (.tick env cap busy names) = some s' →
      (s'.orphans = [] ↔ drainingCluster.orphans = [])) ∧ drainingCluster.orphans = [] := by
  have hinit : warmClusters.Reaches WarmCluster.Keeps emptyCluster := .init ⟨rfl, rfl⟩
  have hserved : warmClusters.Reaches WarmCluster.Keeps servedCluster :=
    hinit.step (a := warmTick .ok) trivial (Option.some_get _).symm
  have hkeeps : servedCluster.Keeps (.retarget noTarget) := by
    intro t ht _
    right
    obtain rfl : t = ⟨"v1", "img", 1, 1, "acme"⟩ := mem_singleton.mp ht
    decide +kernel
  exact ⟨by decide +kernel, anchors_reclaimed.1, anchors_reclaimed.2 (.step hserved hkeeps rfl)⟩

/-- The pod of the only tick could not be created, and the version ends: its anchor stays. -/
theorem anchor_outlives_version : ¬ ∀ s s' env cap busy names, warmClusters.Reachable s →
    s.step (.tick env cap busy names) = some s' → s'.orphans = [] := by
  intro h
  have hreach : warmClusters.Reachable failedCluster :=
    System.Reachable.run (.init ⟨rfl, rfl⟩) (Option.some_get _).symm
  have hclean : leakedCluster.orphans = [] :=
    h failedCluster leakedCluster _ _ _ _ hreach (Option.some_get _).symm
  have hleak : leakedCluster.orphans = ["leoflow-pool-v1"] := by decide +kernel
  rw [hclean] at hleak
  cases hleak

end Leoflow.Executor
