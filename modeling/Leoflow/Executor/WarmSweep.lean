import Leoflow.Executor.WarmPool
import Leoflow.Lib.Ration

/-!
# What a tick of the warm pool does

One spec for each function of the reconciler: which calls it makes, whatever the cluster answers, and
what its result says about the pods that are still there. The allowances are a rationing of the
tenant's headroom, so the pods a version creates are its share.
-/

namespace Leoflow.Executor

open Lib (GoMap Traced ration)
open WarmPodInfo Lib.Traced List

variable {pods : List WarmPodInfo} {n allowance : Int} {e : WarmEvent} {s : Partition}
    {p : WarmPodInfo} {es : List WarmEvent}

/-! ## Calls -/

@[simp] theorem trace_call (c : WarmCall) (r : Reply) : (call c r).trace = [(c, r)] := by
  cases r <;> rfl

theorem result_call {c : WarmCall} {r : Reply} {b : Bool} (h : (call c r).result = some b) : b = decide (r = .ok) := by
  cases r <;> cases h <;> rfl

/-- The event of deleting a pod. -/
def deletion (env : WarmEnv) (p : WarmPodInfo) : WarmEvent :=
  (.deleteWarmPod p.name, env.deleteWarmPod p.name)

/-- The pod's delete does not succeed. -/
def WarmEnv.keeps (env : WarmEnv) (p : WarmPodInfo) : Bool := env.deleteWarmPod p.name != .ok

/-- The targets for which a pod was created. -/
def created (es : List WarmEvent) : List WarmTarget :=
  es.filterMap fun e =>
    match e with
    | (.createWarmPod t _ _, r) => if r.landed then some t else none
    | _ => none

/-- The names of the deleted pods. -/
def deletedNames (es : List WarmEvent) : List String :=
  es.filterMap fun e =>
    match e with
    | (.deleteWarmPod name, r) => if r.landed then some name else none
    | _ => none

section Specs

variable {env : WarmEnv} {busy : String → Bool} {t : WarmTarget}

/-! ## The loops -/

theorem mem_deleteExcess (h : e ∈ (deleteExcess env pods n).trace) : ∃ p ∈ pods, e = deletion env p := by
  obtain ⟨n', p, hp, h⟩ := mem_foldlM h
  rcases mem_bind.mp h with h | ⟨b, -, h⟩
  · rw [deleteWarmPod, trace_call, mem_singleton] at h
    exact ⟨p, hp, h⟩
  · cases h

theorem deleteExcess_spec {m : Int} (h : (deleteExcess env pods n).result = some m) :
    (deleteExcess env pods n).trace = pods.map (deletion env) ∧ m = n + pods.countP env.keeps := by
  induction pods generalizing n with
  | nil =>
    cases h
    exact ⟨rfl, by simp⟩
  | cons p pods ih =>
    unfold deleteExcess at h ⊢
    rw [foldlM_cons, result_bind] at h
    obtain ⟨n', hp, hrest⟩ := h
    rw [foldlM_cons, bind_of_some hp]
    obtain ⟨htrace, hm⟩ := ih hrest
    obtain ⟨b, hb, hn'⟩ := result_bind.mp hp
    cases hn'
    have hok := result_call hb
    refine ⟨?_, ?_⟩
    · rw [bind_of_some hb]
      show _ ++ (deleteExcess env pods _).trace = _
      rw [htrace]
      simp [deleteWarmPod, deletion]
    · rw [hm, countP_cons, hok, WarmEnv.keeps]
      by_cases hr : env.deleteWarmPod p.name = .ok
      · simp [hr]
      · simp [hr]
        omega

/-- With deletes that succeed the second loop does not panic. -/
theorem deleteExcess_total (hdel : ∀ name, env.deleteWarmPod name = .ok) (pods : List WarmPodInfo)
    (n : Int) : ∃ m, (deleteExcess env pods n).result = some m := by
  apply foldlM_total
  intro s p _
  rw [deleteWarmPod, hdel]
  exact ⟨_, rfl⟩

/-- The pod is live and has work. -/
def WarmPodInfo.isBusy (busy : String → Bool) (p : WarmPodInfo) : Bool := !p.terminal && busy p.name

/-- The pod is live and has none. -/
def WarmPodInfo.isIdle (busy : String → Bool) (p : WarmPodInfo) : Bool := !p.terminal && !busy p.name

theorem mem_partitionPods (h : e ∈ (partitionPods env busy pods).trace) :
    ∃ p ∈ pods, p.terminal ∧ e = deletion env p := by
  obtain ⟨s, p, hp, h⟩ := mem_foldlM h
  unfold partitionPod at h
  split at h
  next ht =>
    rcases mem_bind.mp h with h | ⟨b, -, h⟩
    · rw [deleteWarmPod, trace_call, mem_singleton] at h
      exact ⟨p, hp, ht, h⟩
    · cases h
  · split at h <;> cases h

/-- What the first loop adds to a partition. -/
def Partition.add (env : WarmEnv) (busy : String → Bool) (s : Partition) (pods : List WarmPodInfo) : Partition where
  remaining := s.remaining + pods.countP fun p => p.terminal && env.keeps p
  busyCount := s.busyCount + pods.countP (isBusy busy)
  idle := s.idle ++ pods.filter (isIdle busy)

theorem partitionPod_spec {s' : Partition} (h : (partitionPod env busy s p).result = some s') :
    (partitionPod env busy s p).trace = (if p.terminal then [deletion env p] else []) ∧ s' = s.add env busy [p] := by
  unfold partitionPod at h ⊢
  cases ht : p.terminal with
  | true =>
    simp only [ht, if_true] at h ⊢
    obtain ⟨b, hb, hs⟩ := result_bind.mp h
    cases hs
    rw [bind_of_some hb]
    refine ⟨by simp [deleteWarmPod, deletion], ?_⟩
    have hok := result_call hb
    by_cases hr : env.deleteWarmPod p.name = .ok
    · simp [Partition.add, hok, hr, ht, WarmEnv.keeps, isBusy, isIdle]
    · simp [Partition.add, hok, hr, ht, WarmEnv.keeps, isBusy, isIdle]
  | false =>
    simp only [ht, Bool.false_eq_true, if_false] at h ⊢
    cases hb : busy p.name with
    | true =>
      simp only [hb, if_true] at h ⊢
      cases h
      exact ⟨rfl, by simp [Partition.add, ht, hb, isBusy, isIdle]⟩
    | false =>
      simp only [hb, Bool.false_eq_true, if_false] at h ⊢
      cases h
      exact ⟨rfl, by simp [Partition.add, ht, hb, isBusy, isIdle]⟩

theorem Partition.add_cons (s : Partition) (p : WarmPodInfo) (pods : List WarmPodInfo) :
    s.add env busy (p :: pods) = (s.add env busy [p]).add env busy pods := by
  simp only [Partition.add, countP_cons, countP_nil, filter_cons, filter_nil, Partition.mk.injEq]
  refine ⟨?_, ?_, ?_⟩
  · push_cast
    omega
  · push_cast
    omega
  · split <;> simp

/-- The first loop deletes the terminal pods and tells the live ones apart. -/
theorem foldlM_partitionPod {s' : Partition} (h : (pods.foldlM (partitionPod env busy) s).result = some s') :
    (pods.foldlM (partitionPod env busy) s).trace = (pods.filter terminal).map (deletion env) ∧
      s' = s.add env busy pods := by
  induction pods generalizing s with
  | nil =>
    cases h
    exact ⟨rfl, by simp [Partition.add]⟩
  | cons p pods ih =>
    rw [foldlM_cons, result_bind] at h
    obtain ⟨s1, hp, hrest⟩ := h
    rw [foldlM_cons, bind_of_some hp]
    obtain ⟨htrace, rfl⟩ := ih hrest
    obtain ⟨hround, rfl⟩ := partitionPod_spec hp
    refine ⟨?_, (Partition.add_cons s p pods).symm⟩
    rw [htrace, hround, filter_cons]
    split <;> rfl

theorem partitionPods_spec (h : (partitionPods env busy pods).result = some s) :
    (partitionPods env busy pods).trace = (pods.filter terminal).map (deletion env) ∧
      s.remaining = (pods.countP fun p => p.terminal && env.keeps p : Nat) ∧
      s.busyCount = (pods.countP (isBusy busy) : Nat) ∧ s.idle = pods.filter (isIdle busy) := by
  obtain ⟨htrace, rfl⟩ := foldlM_partitionPod h
  refine ⟨htrace, ?_, ?_, ?_⟩ <;> simp [Partition.add]

/-- With deletes that succeed the first loop does not panic. -/
theorem partitionPods_total (busy : String → Bool) (hdel : ∀ name, env.deleteWarmPod name = .ok)
    (pods : List WarmPodInfo) : ∃ s, (partitionPods env busy pods).result = some s := by
  apply foldlM_total
  intro s p _
  unfold partitionPod
  split
  · rw [deleteWarmPod, hdel]
    exact ⟨_, rfl⟩
  · split <;> exact ⟨_, rfl⟩

/-! ## Creates -/

/-- The event of creating a version's `i`-th pod. -/
def creation (env : WarmEnv) (t : WarmTarget) (i : Nat) : WarmEvent :=
  (.createWarmPod t (warmAnchorName t.dagVersionID) (env.anchorUID t.dagVersionID), env.createWarmPod t.dagVersionID i)

theorem trace_createWarmPod (env : WarmEnv) (t : WarmTarget) (i : Nat) :
    (createWarmPod env t i).trace = [creation env t i] := by
  rw [createWarmPod, trace_bind_pure, trace_call]
  rfl

/-- The calls of `ensureAnchorAndCreate`: the anchor, and then a first part of the creates if it was
ensured. -/
theorem ensureAnchorAndCreate_cases (env : WarmEnv) (t : WarmTarget) (n : Int) :
    (ensureAnchorAndCreate env t n).trace = [] ∨
    (ensureAnchorAndCreate env t n).trace = [(.ensureWarmAnchor t.dagVersionID, env.ensureWarmAnchor t.dagVersionID)] ∨
    env.ensureWarmAnchor t.dagVersionID = .ok ∧ ∃ es, es <+: (List.range n.toNat).map (creation env t) ∧
        (ensureAnchorAndCreate env t n).trace = (.ensureWarmAnchor t.dagVersionID, .ok) :: es := by
  unfold ensureAnchorAndCreate
  split
  · exact .inl rfl
  · right
    cases hb : (call (.ensureWarmAnchor t.dagVersionID) (env.ensureWarmAnchor t.dagVersionID)).result with
    | none =>
      rw [bind_of_none hb, trace_call]
      exact .inl rfl
    | some b =>
      rw [bind_of_some hb, trace_call]
      have hok := result_call hb
      cases b with
      | false => exact .inl rfl
      | true =>
        have hreply : env.ensureWarmAnchor t.dagVersionID = .ok := of_decide_eq_true hok.symm
        rw [hreply]
        exact .inr ⟨rfl, _, forM_trace_prefix_map (trace_createWarmPod env t), rfl⟩

theorem mem_of_part_creations {n : Nat} (h : es <+: (List.range n).map (creation env t)) (he : e ∈ es) :
    ∃ i < n, e = creation env t i := by
  obtain ⟨i, hi, rfl⟩ := mem_map.mp (h.subset he)
  exact ⟨i, mem_range.mp hi, rfl⟩

theorem mem_ensureAnchorAndCreate (h : e ∈ (ensureAnchorAndCreate env t n).trace) :
    e = (.ensureWarmAnchor t.dagVersionID, env.ensureWarmAnchor t.dagVersionID) ∨
    (∃ i, e = creation env t i) ∧ (.ensureWarmAnchor t.dagVersionID, .ok) ∈ (ensureAnchorAndCreate env t n).trace := by
  rcases ensureAnchorAndCreate_cases env t n with htr | htr | ⟨hok, es, hes, htr⟩
  · rw [htr] at h
    cases h
  · rw [htr, mem_singleton] at h
    exact .inl h
  · rw [htr, mem_cons] at h
    rcases h with h | h
    · exact .inl (hok ▸ h)
    · obtain ⟨i, -, he⟩ := mem_of_part_creations hes h
      exact .inr ⟨⟨i, he⟩, htr ▸ mem_cons_self⟩

theorem created_append (es es' : List WarmEvent) : created (es ++ es') = created es ++ created es' := filterMap_append

theorem created_eq_nil (h : ∀ e ∈ es, ∀ t name uid, e.1 ≠ .createWarmPod t name uid) : created es = [] := by
  rw [created, filterMap_eq_nil_iff]
  intro e he
  split
  next t name uid r =>
    exact absurd rfl (h _ he t name uid)
  · rfl

theorem created_part {n : Nat} (h : es <+: (List.range n).map (creation env t)) :
    ∃ k ≤ n, created es = List.replicate k t := by
  refine ⟨(created es).length, ?_, ?_⟩
  · calc (created es).length ≤ es.length := length_filterMap_le ..
      _ ≤ ((List.range n).map (creation env t)).length := h.length_le
      _ = n := by rw [length_map, length_range]
  · rw [eq_replicate_iff]
    refine ⟨rfl, fun t' ht' => ?_⟩
    obtain ⟨e, he, ht'⟩ := mem_filterMap.mp ht'
    obtain ⟨i, -, rfl⟩ := mem_of_part_creations h he
    simp only [creation] at ht'
    split at ht' <;> cases ht'
    rfl

/-- The create path leaves copies of its target, at most as many as asked for. -/
theorem created_ensureAnchorAndCreate (env : WarmEnv) (t : WarmTarget) (n : Int) :
    ∃ k ≤ n.toNat, created (ensureAnchorAndCreate env t n).trace = List.replicate k t := by
  rcases ensureAnchorAndCreate_cases env t n with h | h | ⟨-, es, hes, h⟩
  · rw [h]
    exact ⟨0, Nat.zero_le _, rfl⟩
  · rw [h]
    exact ⟨0, Nat.zero_le _, rfl⟩
  · rw [h]
    show ∃ k ≤ n.toNat, created es = List.replicate k t
    exact created_part hes

/-! ## One version -/

/-- The pod has not ended. -/
def WarmPodInfo.isLive (p : WarmPodInfo) : Bool := !p.terminal

theorem countP_isLive (busy : String → Bool) (pods : List WarmPodInfo) : pods.countP WarmPodInfo.isLive =
      pods.countP (isBusy busy) + pods.countP (isIdle busy) := by
  induction pods with
  | nil => rfl
  | cons p pods ih =>
    rw [countP_cons, countP_cons, countP_cons, ih]
    cases ht : p.terminal <;> cases hb : busy p.name <;> simp [WarmPodInfo.isLive, isBusy, isIdle, ht, hb] <;> omega

/-- The calls of `reconcileVersion`: the terminal pods are deleted, and then pods are created up to the floor or
the idle ones over it deleted, while nothing panics. -/
theorem trace_reconcileVersion (env : WarmEnv) (t : WarmTarget) (pods : List WarmPodInfo)
    (busy : String → Bool) (allowance : Int) :
    let idle : Int := pods.countP (isIdle busy)
    let live : Int := pods.countP WarmPodInfo.isLive
    let reaped := (pods.filter terminal).map (deletion env)
    let trace := (reconcileVersion env t pods busy allowance).trace
    trace = (partitionPods env busy pods).trace ∨
    (idle < t.effectiveMinIdle ∧ live < t.maxPool ∧ trace = reaped ++
      (ensureAnchorAndCreate env t (createCount t idle live allowance)).trace) ∨
    (0 ≤ t.effectiveMinIdle ∧ t.effectiveMinIdle < idle ∧ ∃ n, trace = reaped ++ (deleteExcess env
      ((pods.filter (isIdle busy)).drop t.effectiveMinIdle.toNat) n).trace) := by
  intro idle live reaped trace
  have hrec : trace = (partitionPods env busy pods >>= settleIdle env t allowance).trace := rfl
  cases hs : (partitionPods env busy pods).result with
  | none =>
    left
    rw [hrec, bind_of_none hs]
  | some s =>
    obtain ⟨htrace, -, hbusy, hidle⟩ := partitionPods_spec hs
    have hlen : (s.idle.length : Int) = idle := by
      rw [hidle, ← countP_eq_length_filter]
    have hlive : s.busyCount + idle = live := by
      rw [hbusy, ← Int.natCast_add, ← countP_isLive]
    rw [bind_of_some hs, htrace, settleIdle] at hrec
    simp only [hlen, hlive] at hrec
    split at hrec
    next hshort =>
      right
      left
      refine ⟨hshort.1, hshort.2, ?_⟩
      rw [hrec, trace_bind_pure]
    · split at hrec
      · split at hrec
        · left
          rw [hrec, htrace]
          exact append_nil _
        next hover hneg =>
          right
          right
          refine ⟨Int.not_lt.mp hneg, hover, s.remaining + s.busyCount + t.effectiveMinIdle, ?_⟩
          rw [hrec, hidle]
      · left
        rw [hrec, htrace]
        exact append_nil _

theorem not_isBusy_of_terminal (h : p.terminal) : p.isBusy busy = false := by
  rw [isBusy, h]
  rfl

theorem not_isBusy_of_isIdle (h : p.isIdle busy) : p.isBusy busy = false := by
  simp only [isIdle, Bool.and_eq_true, Bool.not_eq_true'] at h
  rw [isBusy, h.2, Bool.and_false]

theorem mem_reaped (h : e ∈ (pods.filter terminal).map (deletion env)) :
    ∃ p ∈ pods, p.isBusy busy = false ∧ e = deletion env p := by
  obtain ⟨p, hp, rfl⟩ := mem_map.mp h
  obtain ⟨hp, ht⟩ := mem_filter.mp hp
  exact ⟨p, hp, not_isBusy_of_terminal ht, rfl⟩

/-- What a call of `reconcileVersion` may be: the delete of a pod of the version that is not busy, or
one of the create path, all of whose calls are then made. -/
theorem mem_reconcileVersion (h : e ∈ (reconcileVersion env t pods busy allowance).trace) :
    (∃ p ∈ pods, p.isBusy busy = false ∧ e = deletion env p) ∨
    0 < t.effectiveMinIdle ∧ ∃ n, e ∈ (ensureAnchorAndCreate env t n).trace ∧
      (ensureAnchorAndCreate env t n).trace ⊆ (reconcileVersion env t pods busy allowance).trace := by
  rcases trace_reconcileVersion env t pods busy allowance with htr | ⟨hidle, -, htr⟩ | ⟨-, -, n, htr⟩
  · rw [htr] at h
    obtain ⟨p, hp, ht, rfl⟩ := mem_partitionPods h
    exact .inl ⟨p, hp, not_isBusy_of_terminal ht, rfl⟩
  · have hpos : 0 < t.effectiveMinIdle := Int.lt_of_le_of_lt (Int.natCast_nonneg _) hidle
    rw [htr] at h ⊢
    rcases mem_append.mp h with h | h
    · exact .inl (mem_reaped h)
    · exact .inr ⟨hpos, _, h, subset_append_right _ _⟩
  · rw [htr] at h
    rcases mem_append.mp h with h | h
    · exact .inl (mem_reaped h)
    · obtain ⟨p, hp, rfl⟩ := mem_deleteExcess h
      obtain ⟨hp, hidle⟩ := mem_filter.mp (mem_of_mem_drop hp)
      exact .inl ⟨p, hp, not_isBusy_of_isIdle hidle, rfl⟩

/-- The pods the version sets out to create. -/
def share (t : WarmTarget) (idle live allowance : Int) : Nat :=
  if idle < t.effectiveMinIdle ∧ live < t.maxPool then (createCount t idle live allowance).toNat
  else 0

theorem created_reconcileVersion (env : WarmEnv) (t : WarmTarget) (pods : List WarmPodInfo)
    (busy : String → Bool) (allowance : Int) :
    ∃ k ≤ share t (pods.countP (isIdle busy) : Nat) (pods.countP WarmPodInfo.isLive : Nat) allowance,
      created (reconcileVersion env t pods busy allowance).trace = List.replicate k t := by
  have hreaped : created ((pods.filter terminal).map (deletion env)) = [] := by
    apply created_eq_nil
    intro e he t' name uid heq
    obtain ⟨p, -, rfl⟩ := mem_map.mp he
    cases heq
  rcases trace_reconcileVersion env t pods busy allowance with htr | ⟨hidle, hlive, htr⟩ | ⟨-, -, n, htr⟩
  · refine ⟨0, Nat.zero_le _, ?_⟩
    rw [htr]
    apply created_eq_nil
    intro e he t' name uid heq
    obtain ⟨p, -, -, rfl⟩ := mem_partitionPods he
    cases heq
  · rw [htr, created_append, hreaped, share, if_pos ⟨hidle, hlive⟩]
    exact created_ensureAnchorAndCreate env t _
  · refine ⟨0, Nat.zero_le _, ?_⟩
    rw [htr, created_append, hreaped]
    apply created_eq_nil
    intro e he t' name uid heq
    obtain ⟨p, -, rfl⟩ := mem_deleteExcess he
    cases heq

theorem ensured_of_created {t' : WarmTarget} {name uid : String} {r : Reply}
    (h : (.createWarmPod t' name uid, r) ∈ (reconcileVersion env t pods busy allowance).trace) :
    t' = t ∧ (.ensureWarmAnchor t.dagVersionID, .ok) ∈ (reconcileVersion env t pods busy allowance).trace := by
  rcases mem_reconcileVersion h with ⟨p, -, -, he⟩ | ⟨-, n, he, hsub⟩
  · cases he
  · rcases mem_ensureAnchorAndCreate he with heq | ⟨⟨i, heq⟩, hensured⟩
    · cases heq
    · cases heq
      exact ⟨rfl, hsub hensured⟩

theorem isBusy_or_isIdle (busy : String → Bool) (h : p.terminal = false) :
    p.isBusy busy ∨ p.isIdle busy := by
  cases hb : busy p.name <;> simp [isBusy, isIdle, h, hb]

theorem settleIdle_drained (env : WarmEnv) (v : String) (allowance : Int) (s : Partition) :
    settleIdle env (drained v) allowance s = deleteExcess env s.idle (s.remaining + s.busyCount) := by
  have hshort : ¬ ((s.idle.length : Int) < (drained v).effectiveMinIdle ∧
      s.busyCount + s.idle.length < (drained v).maxPool) :=
    fun hs => absurd hs.1 (Int.not_lt.mpr (Int.natCast_nonneg _))
  have hfloor : ¬ (drained v).effectiveMinIdle < 0 := Int.lt_irrefl 0
  unfold settleIdle
  simp only [if_neg hshort, if_neg hfloor]
  split
  · show deleteExcess env s.idle (s.remaining + s.busyCount + 0) = _
    rw [Int.add_zero]
  next hover =>
    have hnil : s.idle = [] := by
      rw [← length_eq_zero_iff]
      have : ¬ (0 : Int) < s.idle.length := hover
      omega
    rw [hnil]
    show pure (s.remaining + s.busyCount + 0) = _
    rw [Int.add_zero]
    rfl

theorem drain_spec {v : String} (h : (reconcileVersion env (drained v) pods busy allowance).result = some n)
    (hn : n ≠ pods.length) : (reconcileVersion env (drained v) pods busy allowance).trace =
      (pods.filter terminal).map (deletion env) ++ (pods.filter (isIdle busy)).map (deletion env) ∧
    n = (pods.countP (fun p => p.terminal && env.keeps p) + pods.countP (isBusy busy) +
        (pods.filter (isIdle busy)).countP env.keeps : Nat) := by
  have hresult : (partitionPods env busy pods >>= settleIdle env (drained v) allowance).result =
      some n := by
    rw [reconcileVersion, result_recover] at h
    cases hr : (partitionPods env busy pods >>= settleIdle env (drained v) allowance).result with
    | none =>
      rw [hr] at h
      cases h
      exact absurd rfl hn
    | some m =>
      rw [hr] at h
      exact h
  obtain ⟨s, hs, hsettle⟩ := result_bind.mp hresult
  obtain ⟨htrace, hremaining, hbusy, hidle⟩ := partitionPods_spec hs
  rw [settleIdle_drained] at hsettle
  obtain ⟨hdeleted, hcount⟩ := deleteExcess_spec hsettle
  constructor
  · rw [reconcileVersion, trace_recover, bind_of_some hs, settleIdle_drained, htrace, hdeleted, hidle]
  · rw [hcount, hremaining, hbusy, hidle]
    push_cast
    rfl

theorem drain_result (hdel : ∀ name, env.deleteWarmPod name = .ok) (v : String)
    (pods : List WarmPodInfo) (busy : String → Bool) (allowance : Int) :
    (reconcileVersion env (drained v) pods busy allowance).result = some (pods.countP (isBusy busy) : Nat) := by
  have hkeeps : env.keeps = fun _ => false := by
    funext p
    rw [WarmEnv.keeps, hdel]
    rfl
  obtain ⟨s, hs⟩ := partitionPods_total busy hdel pods
  obtain ⟨-, hremaining, hbusy, -⟩ := partitionPods_spec hs
  obtain ⟨n, hn⟩ := deleteExcess_total hdel s.idle (s.remaining + s.busyCount)
  obtain ⟨-, hcount⟩ := deleteExcess_spec hn
  rw [reconcileVersion, result_recover, bind_of_some hs, settleIdle_drained, hn,
    Option.getD_some, hcount, hremaining, hbusy, hkeeps]
  simp

/-- A version is drained only if every pod was deleted. -/
theorem deleted_of_drained {v : String} (hne : pods ≠ [])
    (h : (reconcileVersion env (drained v) pods busy allowance).result = some 0) :
    ∀ p ∈ pods, (.deleteWarmPod p.name, .ok) ∈ (reconcileVersion env (drained v) pods busy allowance).trace := by
  have hlen : (0 : Int) ≠ pods.length := by
    have hpos := length_pos_iff.mpr hne
    omega
  obtain ⟨htrace, hcount⟩ := drain_spec h hlen
  have hzero : pods.countP (fun p => p.terminal && env.keeps p) = 0 ∧ pods.countP (isBusy busy) = 0 ∧
      (pods.filter (isIdle busy)).countP env.keeps = 0 := by omega
  obtain ⟨hterm, hbusy, hidle⟩ := hzero
  rw [countP_eq_zero] at hterm hbusy hidle
  have hok : ∀ {p : WarmPodInfo}, ¬ env.keeps p → deletion env p = (.deleteWarmPod p.name, .ok) := by
    intro p hp
    have hreply : env.deleteWarmPod p.name = .ok := by simpa [WarmEnv.keeps] using hp
    rw [deletion, hreply]
  intro p hp
  rw [htrace, mem_append]
  cases ht : p.terminal with
  | true =>
    have hkeeps : ¬ env.keeps p := fun hk => hterm p hp (by simp [ht, hk])
    left
    rw [← hok hkeeps]
    exact mem_map_of_mem (mem_filter.mpr ⟨hp, ht⟩)
  | false =>
    rcases isBusy_or_isIdle busy ht with hb | hi
    · exact absurd hb (hbusy p hp)
    · have hmem := mem_filter.mpr ⟨hp, hi⟩
      right
      rw [← hok (hidle p hmem)]
      exact mem_map_of_mem hmem

end Specs

end Leoflow.Executor
