import Leoflow.Executor.WarmSweep

/-!
# What the versions of a tenant may create

`createAllowances` hands the headroom of each tenant out to its versions in the order of their ids.
So what `reconcileVersion` sets out to create for a target is its want, or under a cap its ration of
the tenant's headroom.
-/

namespace Leoflow.Executor

open Lib (GoMap ration)
open WarmTarget Lib.GoMap

/-- The pods of a version. -/
def podsOf (v : String) (existing : List WarmPodInfo) : List WarmPodInfo :=
  existing.filter fun p => p.dagVersionID == v

/-- How many pods of a version are idle. -/
def idleOf (busy : String → Bool) (existing : List WarmPodInfo) (v : String) : Nat :=
  (podsOf v existing).countP (WarmPodInfo.isIdle busy)

/-- How many pods of a version are live. -/
def liveOf (existing : List WarmPodInfo) (v : String) : Nat :=
  (podsOf v existing).countP WarmPodInfo.isLive

/-- The tenant of each version that has a target. -/
def versionTenant (targets : List WarmTarget) : GoMap String :=
  collect dagVersionID (fun t => some t.tenantID) targets

/-- How many live pods count for a tenant. -/
def tenantLiveOf (targets : List WarmTarget) (existing : List WarmPodInfo) (tenant : String) : Nat :=
  existing.countP fun p => p.isLive && p.attributed (versionTenant targets) == some tenant

/-- The idle pods all versions of a tenant ask for. -/
def floorSum (targets : List WarmTarget) (tenant : String) : Int :=
  ((targets.filter fun t => t.tenantID == tenant).map effectiveMinIdle).sum

/-- What a version is short of, as far as its ceiling allows. -/
def want (busy : String → Bool) (existing : List WarmPodInfo) (t : WarmTarget) : Nat :=
  (min (t.effectiveMinIdle - idleOf busy existing t.dagVersionID)
    (t.maxPool - liveOf existing t.dagVersionID)).toNat

/-- How many pods a tenant may still get. -/
def headroom (cap : Int) (targets : List WarmTarget) (existing : List WarmPodInfo) (tenant : String) :
    Nat :=
  (tenantBudget cap (floorSum targets tenant) - tenantLiveOf targets existing tenant).toNat

/-- A tenant's versions in the order they are rationed. -/
def tenantVersions (targets : List WarmTarget) (tenant : String) : List WarmTarget :=
  (targets.filter fun t => t.tenantID == tenant).mergeSort fun a b => decide (a.dagVersionID ≤ b.dagVersionID)

/-- What a tick creates for a target if nothing fails. -/
def quota (cap : Int) (targets : List WarmTarget) (existing : List WarmPodInfo)
    (busy : String → Bool) (t : WarmTarget) : Nat :=
  if cap ≤ 0 then want busy existing t
  else ration (want busy existing) (headroom cap targets existing t.tenantID)
    (tenantVersions targets t.tenantID) t

/-! ## Counting -/

section Counting

variable {busy : String → Bool} {vt : GoMap String}

variable (p : WarmPodInfo) (existing : List WarmPodInfo) (v : String)

theorem idleOf_cons : idleOf busy (p :: existing) v =
      idleOf busy existing v + if v = p.dagVersionID ∧ p.isIdle busy then 1 else 0 := by
  unfold idleOf podsOf
  by_cases hv : p.dagVersionID = v
  · simp [List.countP_cons, hv]
  · simp [hv, Ne.symm hv]

theorem liveOf_cons : liveOf (p :: existing) v =
      liveOf existing v + if v = p.dagVersionID ∧ p.isLive then 1 else 0 := by
  unfold liveOf podsOf
  by_cases hv : p.dagVersionID = v
  · simp [List.countP_cons, hv]
  · simp [hv, Ne.symm hv]

/-- What one pod adds to the counts. -/
theorem countPod_spec (counts : GoMap WarmVerStat × GoMap Int) (p : WarmPodInfo) (v tenant : String) :
    (countPod busy vt counts p).1.getD v {} =
      ⟨(counts.1.getD v {}).idle + if v = p.dagVersionID ∧ p.isIdle busy then 1 else 0,
        (counts.1.getD v {}).live + if v = p.dagVersionID ∧ p.isLive then 1 else 0⟩ ∧
    (countPod busy vt counts p).2.getD tenant 0 = counts.2.getD tenant 0 +
      if p.isLive && p.attributed vt == some tenant then 1 else 0 := by
  unfold countPod
  cases ht : p.terminal with
  | true => simp [WarmPodInfo.isLive, WarmPodInfo.isIdle, ht]
  | false =>
    have hlive : p.isLive := by simp [WarmPodInfo.isLive, ht]
    have hidle : p.isIdle busy = !busy p.name := by simp [WarmPodInfo.isIdle, ht]
    have hstat : getD (counts.1.insert p.dagVersionID
        { live := (counts.1.getD p.dagVersionID {}).live + 1,
          idle := if busy p.name then (counts.1.getD p.dagVersionID {}).idle
            else (counts.1.getD p.dagVersionID {}).idle + 1 : WarmVerStat }) v {} =
        ⟨(counts.1.getD v {}).idle + if v = p.dagVersionID ∧ p.isIdle busy then 1 else 0,
          (counts.1.getD v {}).live + if v = p.dagVersionID ∧ p.isLive then 1 else 0⟩ := by
      rw [getD_insert, hlive, hidle]
      by_cases hv : v = p.dagVersionID
      · subst hv
        cases busy p.name <;> simp
      · simp [hv]
    simp only [Bool.false_eq_true, if_false]
    cases ha : p.attributed vt with
    | none => exact ⟨hstat, by simp⟩
    | some tenant' =>
      refine ⟨hstat, ?_⟩
      rw [getD_addTo, hlive]
      by_cases htn : tenant = tenant'
      · simp [htn]
      · simp [htn, Ne.symm htn]

theorem foldl_countPod (counts : GoMap WarmVerStat × GoMap Int) (v tenant : String) :
    (existing.foldl (countPod busy vt) counts).1.getD v {} =
      ⟨(counts.1.getD v {}).idle + idleOf busy existing v, (counts.1.getD v {}).live + liveOf existing v⟩ ∧
    (existing.foldl (countPod busy vt) counts).2.getD tenant 0 = counts.2.getD tenant 0 +
      existing.countP fun p => p.isLive && p.attributed vt == some tenant := by
  induction existing generalizing counts with
  | nil => simp [idleOf, liveOf, podsOf]
  | cons p existing ih =>
    obtain ⟨hstat, htenant⟩ := ih (countPod busy vt counts p)
    obtain ⟨hpod, hpodTenant⟩ := @countPod_spec busy vt counts p v tenant
    rw [List.foldl_cons, hstat, htenant, hpod, hpodTenant, idleOf_cons, liveOf_cons, List.countP_cons]
    push_cast
    constructor
    · congr 1 <;> omega
    · omega

theorem countLiveByTenant_spec (tenant : String) :
    (countLiveByTenant existing busy vt).1.getD v {} = ⟨idleOf busy existing v, liveOf existing v⟩ ∧
    (countLiveByTenant existing busy vt).2.getD tenant 0 =
      existing.countP fun p => p.isLive && p.attributed vt == some tenant := by
  obtain ⟨hstat, htenant⟩ := @foldl_countPod busy vt existing (∅, ∅) v tenant
  rw [countLiveByTenant, hstat, htenant]
  exact ⟨by simp [getD], by simp [getD]⟩

end Counting

/-! ## Rationing -/

section Rationing

variable {busy : String → Bool} {existing : List WarmPodInfo} {stat : GoMap WarmVerStat}

theorem ite_lt_eq_min (a b : Int) : (if b < a then b else a) = min a b := by
  split <;> omega

section

variable (hstat : ∀ v, stat.getD v {} = ⟨idleOf busy existing v, liveOf existing v⟩)
include hstat

/-- A round grants what the version wants as far as there is headroom. -/
theorem rationVersion_spec (stock : Nat) (allow : GoMap Int) (t : WarmTarget) :
    rationVersion stat ((stock : Int), allow) t = (((stock - min (want busy existing t) stock : Nat) : Int),
        allow.insert t.dagVersionID ((min (want busy existing t) stock : Nat) : Int)) := by
  have hgrant : ∀ n : Int, min (if n < 0 then 0 else n) (stock : Int) = (min n.toNat stock : Nat) := by
    intro n
    split <;> omega
  unfold rationVersion want
  simp only [hstat, ite_lt_eq_min, hgrant]
  congr 1
  omega

/-- All rounds together ration the headroom. -/
theorem foldl_rationVersion {versions : List WarmTarget} (hnd : (versions.map dagVersionID).Nodup) (stock : Nat)
    (allow : GoMap Int) :
    (∀ t ∈ versions, (versions.foldl (rationVersion stat) ((stock : Int), allow)).2.getD t.dagVersionID 0 =
        ration (want busy existing) stock versions t) ∧ ∀ v ∉ versions.map dagVersionID,
      (versions.foldl (rationVersion stat) ((stock : Int), allow)).2.getD v 0 = allow.getD v 0 := by
  induction versions generalizing stock allow with
  | nil => exact ⟨(fun _ h => by cases h), fun _ _ => rfl⟩
  | cons t versions ih =>
    obtain ⟨hnot, hnd⟩ := List.nodup_cons.mp hnd
    rw [List.foldl_cons, rationVersion_spec hstat]
    obtain ⟨hin, hout⟩ := ih hnd (stock - min (want busy existing t) stock)
      (allow.insert t.dagVersionID ((min (want busy existing t) stock : Nat) : Int))
    constructor
    · intro t' ht'
      rcases List.mem_cons.mp ht' with rfl | hmem
      · rw [hout _ hnot, getD_insert, if_pos rfl, ration, if_pos rfl]
      · have hne : t' ≠ t := by
          rintro rfl
          exact hnot (List.mem_map_of_mem hmem)
        rw [hin t' hmem, ration, if_neg hne]
    · intro v hv
      rw [List.map_cons, List.mem_cons, not_or] at hv
      rw [hout v hv.2, getD_insert, if_neg hv.1]

theorem rationTenant_spec {versions : List WarmTarget} (hnd : (versions.map dagVersionID).Nodup) (room : Int)
    (allow : GoMap Int) : (∀ t ∈ versions, (rationTenant versions stat room allow).getD t.dagVersionID 0 =
      ration (want busy existing) room.toNat
        (versions.mergeSort fun a b => decide (a.dagVersionID ≤ b.dagVersionID)) t) ∧ ∀ v ∉ versions.map dagVersionID,
      (rationTenant versions stat room allow).getD v 0 = allow.getD v 0 := by
  have hperm := List.mergeSort_perm versions fun a b => decide (a.dagVersionID ≤ b.dagVersionID)
  have hroom : (if room < 0 then 0 else room) = (room.toNat : Int) := by
    split <;> omega
  unfold rationTenant
  rw [hroom]
  obtain ⟨hin, hout⟩ := foldl_rationVersion hstat ((hperm.map _).nodup_iff.mpr hnd) room.toNat allow
  constructor
  · intro t ht
    exact hin t (hperm.mem_iff.mpr ht)
  · intro v hv
    exact hout v fun hmem => hv ((hperm.map _).mem_iff.mp hmem)

end

end Rationing

/-! ## The allowances -/

section Allowances

variable {env : WarmEnv} {cap : Int} {targets : List WarmTarget} {existing : List WarmPodInfo}
  {busy : String → Bool}

/-- A loop over tenants whose rounds each decide the versions of their tenant. -/
theorem foldl_tenants {step : GoMap Int → String → GoMap Int} (grant : WarmTarget → Int)
    (hin : ∀ allow t, t ∈ targets → (step allow t.tenantID).getD t.dagVersionID 0 = grant t)
    (hout : ∀ allow tenant t, t ∈ targets → t.tenantID ≠ tenant →
      (step allow tenant).getD t.dagVersionID 0 = allow.getD t.dagVersionID 0)
    (tenants : List String) (allow : GoMap Int) {t : WarmTarget} (ht : t ∈ targets)
    (hmem : t.tenantID ∈ tenants ∨ allow.getD t.dagVersionID 0 = grant t) :
    (tenants.foldl step allow).getD t.dagVersionID 0 = grant t := by
  induction tenants generalizing allow with
  | nil =>
    rcases hmem with hmem | hmem
    · cases hmem
    · exact hmem
  | cons tenant tenants ih =>
    rw [List.foldl_cons]
    apply ih
    by_cases he : t.tenantID = tenant
    · right
      rw [← he]
      exact hin allow t ht
    · rcases hmem with hmem | hmem
      · exact .inl ((List.mem_cons.mp hmem).resolve_left he)
      · right
        rw [hout allow tenant t ht he]
        exact hmem

/-- The allowance of a version is its share of its tenant's headroom. -/
theorem allowanceFor_createAllowances (hcap : 0 < cap)
    (hnd : (targets.map dagVersionID).Nodup) {t : WarmTarget} (ht : t ∈ targets) :
    allowanceFor (createAllowances env cap targets existing busy) t.dagVersionID =
      ration (want busy existing) (headroom cap targets existing t.tenantID) (tenantVersions targets t.tenantID) t := by
  have hstat := fun v => (@countLiveByTenant_spec busy (versionTenant targets) existing v "").1
  have hlive := fun tenant =>
    (@countLiveByTenant_spec busy (versionTenant targets) existing "" tenant).2
  have hversions : ∀ tenant, (group tenantID targets).getD tenant [] =
      targets.filter fun t => t.tenantID == tenant := getD_group _ _
  have hnodup : ∀ tenant, ((targets.filter fun t => t.tenantID == tenant).map dagVersionID).Nodup :=
    fun tenant => hnd.sublist (List.filter_sublist.map _)
  unfold createAllowances
  rw [if_neg (Int.not_le.mpr hcap)]
  refine foldl_tenants (fun t => ((ration (want busy existing)
    (headroom cap targets existing t.tenantID) (tenantVersions targets t.tenantID) t : Nat) : Int))
    (fun allow t ht => ?_) (fun allow tenant t ht hne => ?_) _ _ ht (.inl ?_)
  · have hmem : t ∈ targets.filter fun t' => t'.tenantID == t.tenantID :=
      List.mem_filter.mpr ⟨ht, beq_self_eq_true _⟩
    simp only [hversions, getD_total]
    have hration := (rationTenant_spec hstat (hnodup t.tenantID)
      (tenantBudget cap (floorSum targets t.tenantID) -
        (countLiveByTenant existing busy (versionTenant targets)).2.getD t.tenantID 0) allow).1 t hmem
    refine hration.trans ?_
    rw [hlive]
    rfl
  · simp only [hversions]
    refine (rationTenant_spec hstat (hnodup tenant) _ allow).2 t.dagVersionID fun hmem => ?_
    obtain ⟨t', ht', he⟩ := List.mem_map.mp hmem
    obtain ⟨ht', htenant⟩ := List.mem_filter.mp ht'
    obtain rfl := List.inj_on_of_nodup_map hnd ht' ht he
    exact hne (beq_iff_eq.mp htenant)
  · rw [(env.rangeOver_perm _).mem_iff, mem_keys_group]
    exact ⟨t, ht, rfl⟩

/-- What a target wants is what its create path asks for without a tenant cap. -/
theorem share_unlimited (t : WarmTarget) :
    share t (idleOf busy existing t.dagVersionID) (liveOf existing t.dagVersionID)
      unlimitedAllowance = want busy existing t := by
  unfold share createCount want unlimitedAllowance
  simp only [ite_lt_eq_min]
  split
  · split <;> omega
  · omega

/-- With an allowance the create path asks for no more than it. -/
theorem share_of_allowance (t : WarmTarget) {n : Nat} (hn : n ≤ want busy existing t) :
    share t (idleOf busy existing t.dagVersionID) (liveOf existing t.dagVersionID) n = n := by
  unfold want at hn
  unfold share createCount
  simp only [ite_lt_eq_min]
  split
  · split <;> omega
  · omega

theorem share_eq_quota (env : WarmEnv) (hnd : (targets.map dagVersionID).Nodup) {t : WarmTarget} (ht : t ∈ targets) :
    share t (idleOf busy existing t.dagVersionID) (liveOf existing t.dagVersionID)
      (allowanceFor (createAllowances env cap targets existing busy) t.dagVersionID) =
      quota cap targets existing busy t := by
  unfold quota
  by_cases hcap : cap ≤ 0
  · rw [if_pos hcap]
    have hnone : createAllowances env cap targets existing busy = none := by
      unfold createAllowances
      rw [if_pos hcap]
    rw [hnone]
    exact share_unlimited t
  · rw [if_neg hcap, allowanceFor_createAllowances (Int.not_le.mp hcap) hnd ht]
    exact share_of_allowance t (Lib.ration_le_want t)

end Allowances

end Leoflow.Executor
