import Leoflow.Executor.Pods
import Leoflow.Lib.Traced

/-!
# The warm-pool reconciler

`WarmPoolReconciler` of `internal/executor/warmpool.go`. `Reconcile` reads the active targets, the fleet and the busy
set, rations what each version may create under the tenant cap, brings every active version to its idle floor and
drains the others. How the cluster answers is a table, as each call is made at most once in a tick.
-/

namespace Leoflow.Executor

open Lib (GoMap Traced)

/-! ## Inputs -/

/-- The pool a DAG version ought to have. -/
structure WarmTarget where
  dagVersionID : String
  image : String := ""
  effectiveMinIdle : Int
  maxPoolSize : Int
  tenantID : String := ""
deriving DecidableEq

/-- How a call on the cluster ends. One that returns an error or panics may still have taken effect. -/
inductive Reply where
  | ok
  | error (landed : Bool)
  | panic (landed : Bool)
deriving DecidableEq

/-- The cluster made the change, whatever it answered. -/
def Reply.landed : Reply → Bool
  | ok => true
  | error l | panic l => l

/-- The calls that change the cluster. -/
inductive WarmCall where
  | ensureWarmAnchor (dagVersionID : String)
  | createWarmPod (t : WarmTarget) (anchorName anchorUID : String)
  | deleteWarmPod (name : String)
  | deleteWarmAnchor (dagVersionID : String)
deriving DecidableEq

/-- A call and the cluster's answer. -/
abbrev WarmEvent := WarmCall × Reply

/-- What a tick does not decide: the answers of the cluster, `createWarmPod v n` to the `n`-th create for the
version, and the order in which a map is ranged over. -/
structure WarmEnv where
  ensureWarmAnchor : String → Reply
  anchorUID : String → String
  createWarmPod : String → Nat → Reply
  deleteWarmPod : String → Reply
  deleteWarmAnchor : String → Reply
  rangeOver : List String → List String
  rangeOver_perm : ∀ keys, (rangeOver keys).Perm keys

/-- A call whose error is reported as `false`. -/
def call (c : WarmCall) (r : Reply) : Traced WarmEvent Bool :=
  match r with
  | .ok => ⟨[(c, r)], some true⟩
  | .error _ => ⟨[(c, r)], some false⟩
  | .panic _ => ⟨[(c, r)], none⟩

/-- The name of the object that owns a version's warm pods, cut to what Kubernetes allows. -/
def warmAnchorName (dagVersionID : String) : String :=
  let name := "leoflow-pool-" ++ sanitizeLabel dagVersionID
  if name.utf8ByteSize > 253 then String.ofList (trimRight (name.toList.take 253)) else name

/-! ## The allowances -/

/-- The idle and the live pods of a version. -/
structure WarmVerStat where
  idle : Int := 0
  live : Int := 0
deriving DecidableEq

/-- The tenant a live pod is counted for: its label, or for a pod without one the tenant of its
version where that is active and has one. -/
def WarmPodInfo.attributed (p : WarmPodInfo) (versionTenant : GoMap String) : Option String :=
  if p.tenantID = "" then (versionTenant.lookup p.dagVersionID).filter (· != "")
  else some p.tenantID

/-- A round of `countLiveByTenant`. -/
def countPod (busy : String → Bool) (versionTenant : GoMap String)
    (counts : GoMap WarmVerStat × GoMap Int) (p : WarmPodInfo) : GoMap WarmVerStat × GoMap Int :=
  if p.terminal then counts
  else
    let s := counts.1.getD p.dagVersionID {}
    let stat := counts.1.insert p.dagVersionID
      { live := s.live + 1, idle := if busy p.name then s.idle else s.idle + 1 }
    match p.attributed versionTenant with
    | none => (stat, counts.2)
    | some tenant => (stat, counts.2.addTo tenant 1)

/-- One pass over the pods: counts by version, and live pods by tenant. -/
def countLiveByTenant (existing : List WarmPodInfo) (busy : String → Bool)
    (versionTenant : GoMap String) : GoMap WarmVerStat × GoMap Int :=
  existing.foldl (countPod busy versionTenant) (∅, ∅)

/-- A tenant's cap, which its versions' floors override. -/
def tenantBudget (maxWarmPodsPerTenant floorSum : Int) : Int :=
  if floorSum ≤ maxWarmPodsPerTenant then maxWarmPodsPerTenant else floorSum

/-- The total ceiling of a version: its idle floor can always be created. -/
def WarmTarget.maxPool (t : WarmTarget) : Int :=
  if t.maxPoolSize < t.effectiveMinIdle then t.effectiveMinIdle else t.maxPoolSize

/-- A round of `rationTenant`: the headroom left and the allowances so far. -/
def rationVersion (stat : GoMap WarmVerStat) (left : Int × GoMap Int) (t : WarmTarget) : Int × GoMap Int :=
  let s := stat.getD t.dagVersionID {}
  let want := t.effectiveMinIdle - s.idle
  let want := if t.maxPool - s.live < want then t.maxPool - s.live else want
  let want := if want < 0 then 0 else want
  let grant := if left.1 < want then left.1 else want
  (left.1 - grant, left.2.insert t.dagVersionID grant)

/-- Divide what a tenant may still get among its versions, in order. -/
def rationTenant (versions : List WarmTarget) (stat : GoMap WarmVerStat) (headroom : Int)
    (allow : GoMap Int) : GoMap Int :=
  let headroom := if headroom < 0 then 0 else headroom
  let versions := versions.mergeSort fun a b => decide (a.dagVersionID ≤ b.dagVersionID)
  (versions.foldl (rationVersion stat) (headroom, allow)).2

/-- `createAllowances`; `none` where no cap is configured. -/
def createAllowances (env : WarmEnv) (maxWarmPodsPerTenant : Int) (targets : List WarmTarget)
    (existing : List WarmPodInfo) (busy : String → Bool) : Option (GoMap Int) :=
  if maxWarmPodsPerTenant ≤ 0 then none
  else
    let versionTenant := GoMap.collect WarmTarget.dagVersionID (fun t => some t.tenantID) targets
    let tenantFloors := GoMap.total WarmTarget.tenantID WarmTarget.effectiveMinIdle targets
    let tenantVersions := GoMap.group WarmTarget.tenantID targets
    let (stat, tenantLive) := countLiveByTenant existing busy versionTenant
    some ((env.rangeOver tenantVersions.keys).foldl (fun allow tenant =>
      let budget := tenantBudget maxWarmPodsPerTenant (tenantFloors.getD tenant 0)
      rationTenant (tenantVersions.getD tenant []) stat (budget - tenantLive.getD tenant 0) allow) ∅)

/-- No cap is configured. -/
def unlimitedAllowance : Int := -1

/-- What a version may create; one that was not rationed may create nothing. -/
def allowanceFor (allow : Option (GoMap Int)) (dagVersionID : String) : Int :=
  match allow with
  | none => unlimitedAllowance
  | some allow => allow.getD dagVersionID 0

/-! ## One version -/

/-- Delete a warm pod. -/
def deleteWarmPod (env : WarmEnv) (p : WarmPodInfo) : Traced WarmEvent Bool :=
  call (.deleteWarmPod p.name) (env.deleteWarmPod p.name)

/-- The `i`-th create of the version; an error leaves the others to go on. -/
def createWarmPod (env : WarmEnv) (t : WarmTarget) (i : Nat) : Traced WarmEvent Unit := do
  let _ ← call (.createWarmPod t (warmAnchorName t.dagVersionID) (env.anchorUID t.dagVersionID))
    (env.createWarmPod t.dagVersionID i)
  pure ()

/-- Make the anchor and then the pods, and none where the anchor fails. -/
def ensureAnchorAndCreate (env : WarmEnv) (t : WarmTarget) (create : Int) :
    Traced WarmEvent Unit :=
  if create ≤ 0 then pure ()
  else do
    let ensured ← call (.ensureWarmAnchor t.dagVersionID) (env.ensureWarmAnchor t.dagVersionID)
    if ensured then (List.range create.toNat).forM (createWarmPod env t)
    else pure ()

/-- What the first loop of `reconcileVersion` finds: the pods still there, the busy ones counted, and
the idle ones. -/
structure Partition where
  remaining : Int := 0
  busyCount : Int := 0
  idle : List WarmPodInfo := []
deriving DecidableEq

/-- A round of the first loop of `reconcileVersion`: a terminal pod is deleted, live ones are told
apart. -/
def partitionPod (env : WarmEnv) (busy : String → Bool) (s : Partition) (p : WarmPodInfo) :
    Traced WarmEvent Partition := do
  if p.terminal then
    let deleted ← deleteWarmPod env p
    pure (if deleted then s else { s with remaining := s.remaining + 1 })
  else if busy p.name then pure { s with busyCount := s.busyCount + 1 }
  else pure { s with idle := s.idle ++ [p] }

/-- The first loop of `reconcileVersion`. -/
def partitionPods (env : WarmEnv) (busy : String → Bool) (pods : List WarmPodInfo) :
    Traced WarmEvent Partition :=
  pods.foldlM (partitionPod env busy) {}

/-- The loop over the excess idle pods; the count of those still there. -/
def deleteExcess (env : WarmEnv) (pods : List WarmPodInfo) (remaining : Int) :
    Traced WarmEvent Int :=
  pods.foldlM (fun remaining p => do
    let deleted ← deleteWarmPod env p
    pure (if deleted then remaining else remaining + 1)) remaining

/-- How many pods to create: up to the idle floor, the pool's size and the allowance. -/
def createCount (t : WarmTarget) (idle live createAllowance : Int) : Int :=
  let create := t.effectiveMinIdle - idle
  let create := if t.maxPool - live < create then t.maxPool - live else create
  if createAllowance ≥ 0 ∧ create > createAllowance then createAllowance else create

/-- The rest of `reconcileVersion`: what is done about the idle pods, and the pods still there. A slice
with a negative bound panics. -/
def settleIdle (env : WarmEnv) (t : WarmTarget) (createAllowance : Int) (s : Partition) :
    Traced WarmEvent Int :=
  let remaining := s.remaining + s.busyCount
  let idle : Int := s.idle.length
  let live := s.busyCount + idle
  if idle < t.effectiveMinIdle ∧ live < t.maxPool then do
    ensureAnchorAndCreate env t (createCount t idle live createAllowance)
    pure (remaining + idle)
  else if idle > t.effectiveMinIdle then
    if t.effectiveMinIdle < 0 then Traced.panicked
    else deleteExcess env (s.idle.drop t.effectiveMinIdle.toNat) (remaining + t.effectiveMinIdle)
  else pure (remaining + idle)

/-- After a panic every listed pod counts as still there. -/
def reconcileVersion (env : WarmEnv) (t : WarmTarget) (pods : List WarmPodInfo)
    (busy : String → Bool) (createAllowance : Int) : Traced WarmEvent Int :=
  Traced.recover (partitionPods env busy pods >>= settleIdle env t createAllowance) pods.length

/-! ## The tick -/

/-- The target of a version that has none any more. -/
def drained (dagVersionID : String) : WarmTarget where
  dagVersionID := dagVersionID
  effectiveMinIdle := 0
  maxPoolSize := 0

/-- A round of the second loop of `Reconcile`: a version with pods that is not active is drained, and
its anchor deleted once nothing is left. -/
def drainVersion (env : WarmEnv) (targets : List WarmTarget) (pods : List WarmPodInfo)
    (busy : String → Bool) (v : String) : Traced WarmEvent Unit := do
  if targets.any fun t => t.dagVersionID == v then pure ()
  else
    let remaining ← reconcileVersion env (drained v) pods busy unlimitedAllowance
    if remaining = 0 then
      let _ ← call (.deleteWarmAnchor v) (env.deleteWarmAnchor v)
      pure ()
    else pure ()

/-- The part of `Reconcile` after its reads. -/
def sweepVersions (env : WarmEnv) (maxWarmPodsPerTenant : Int) (targets : List WarmTarget)
    (existing : List WarmPodInfo) (busy : String → Bool) : Traced WarmEvent Unit := do
  let byVersion := GoMap.group WarmPodInfo.dagVersionID existing
  let allow := createAllowances env maxWarmPodsPerTenant targets existing busy
  targets.forM fun t => do
    let _ ← reconcileVersion env t (byVersion.getD t.dagVersionID []) busy (allowanceFor allow t.dagVersionID)
    pure ()
  (env.rangeOver byVersion.keys).forM fun v =>
    drainVersion env targets (byVersion.getD v []) busy v

/-- An error only where the targets or the fleet could not be read. `busy` is `none`
where no source is wired. -/
def reconcile (env : WarmEnv) (maxWarmPodsPerTenant : Int)
    (targets : Except String (List WarmTarget)) (existing : Except String (List WarmPodInfo))
    (busy : Option (Except String (String → Bool))) : Traced WarmEvent (Except String Unit) :=
  match targets, existing, busy with
  | .error e, _, _ => pure (.error e)
  | _, .error e, _ => pure (.error e)
  | _, _, none | _, _, some (.error _) => pure (.ok ())
  | .ok targets, .ok existing, some (.ok busy) => do
    sweepVersions env maxWarmPodsPerTenant targets existing busy
    pure (.ok ())

end Leoflow.Executor
