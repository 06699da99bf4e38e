import Leoflow.KubeExchange.Resolver

/-!
# Who a task pod is taken for

`mergeMetadata` lets a DAG author set every label and annotation `BuildPod` does not set itself. The
warm-worker label and, unless a token is projected, the identity annotation are among them. So an
author can have a task pod listed as a warm worker and resolved to a worker of any pool, or to another
task instance.
-/

namespace Leoflow

open Executor KubeExchange
open PodResolver

/-- The identity is the request's attempt and no warm worker. A request names no DAG version, and
neither does a task's identity. -/
structure Names (identity : AgentIdentity) (req : Executor.Request) : Prop where
  scope : identity.scope ≠ scopeWarmWorker
  tenantID : identity.tenantID = req.tenantID
  dagVersionID : identity.dagVersionID = ""
  runID : identity.runID = req.runID
  taskID : identity.taskID = req.taskID
  tryNumber : identity.tryNumber = req.tryNumber

/-- The pod built for the request is not selected as a warm pod, and a resolver that finds it in the
cluster resolves it to nothing but the request's attempt. -/
structure NeverWarm (req : Executor.Request) : Prop where
  unlisted : ∀ suffix, isWarmPod (buildPod suffix req) = false
  resolved : ∀ suffix (r : PodResolver) (pod : ReviewedPod) uid terminal identity,
    r.client (r.namespaceOf pod) pod.podName = .ok ⟨buildPod suffix req, uid, terminal⟩ →
      r.resolveAgent pod = .ok identity → Names identity req

/-- The author does not set the warm-worker label, and where no token is projected no identity
annotation that names another attempt. -/
structure AuthorHarmless (req : Executor.Request) : Prop where
  label : req.labels.lookup warmWorkerLabel ≠ some warmWorkerLabelValue
  annotation : req.agentTokenSecretName = "" ∨ ∀ raw id, req.annotations.lookup agentIdentityAnnotation = some raw →
      parseAgentIdentity raw = .ok id → id.taskInstanceID ≠ "" →
      id.tenantID = req.tenantID ∧ id.runID = req.runID ∧ id.taskID = req.taskID ∧ id.tryNumber = req.tryNumber

section Build

variable {req : Executor.Request} (suffix : String)

theorem buildPod_warmWorkerLabel :
    (buildPod suffix req).labels.lookup warmWorkerLabel = req.labels.lookup warmWorkerLabel := by
  have hown : (ownLabels req).lookup warmWorkerLabel = none := rfl
  have hlabels : (buildPod suffix req).labels = mergeMetadata (ownLabels req) req.labels := by
    unfold buildPod mountAgentToken
    split <;> rfl
  rw [hlabels, mergeMetadata, Lib.GoMap.lookup_fill, hown, Option.none_or]

theorem buildPod_identity_of_projects (h : req.projects) :
    (buildPod suffix req).annotations.lookup agentIdentityAnnotation = some req.identity.marshal := by
  unfold buildPod mountAgentToken
  rw [if_pos h]
  exact AList.lookup_insert _

/-- Else it is the author's. -/
theorem buildPod_identity_of_not_projects (h : req.projects = false) :
    (buildPod suffix req).annotations.lookup agentIdentityAnnotation =
      req.annotations.lookup agentIdentityAnnotation := by
  have hown : (ownAnnotations req).lookup agentIdentityAnnotation = none := rfl
  have hann : (buildPod suffix req).annotations = mergeMetadata (ownAnnotations req) req.annotations := by
    unfold buildPod mountAgentToken
    rw [if_neg (by simp [h])]
  rw [hann, mergeMetadata, Lib.GoMap.lookup_fill, hown, Option.none_or]

end Build

/-! ## The resolver -/

section Resolve

variable {r : PodResolver} {pod : ReviewedPod} {p : Pod} {uid : String} {terminal : Bool}
  {identity : AgentIdentity}

theorem isWarmPod_iff : isWarmPod p ↔ p.labels.getD warmWorkerLabel "" = warmWorkerLabelValue := by
  simp only [isWarmPod, beq_iff_eq, Lib.GoMap.getD]
  cases p.labels.lookup warmWorkerLabel with
  | none => simp [warmWorkerLabelValue]
  | some v => simp

theorem annotation_of_taskIdentity {ns name : String} (h : taskIdentityFromPod ns name p = .ok identity) :
    ∃ raw id, p.annotations.lookup agentIdentityAnnotation = some raw ∧
      parseAgentIdentity raw = .ok id ∧ id.taskInstanceID ≠ "" ∧ identity = .ofPod id := by
  unfold taskIdentityFromPod at h
  simp only at h
  split at h
  · cases h
  rename_i hraw
  split at h
  · cases h
  rename_i id hparse
  split at h
  · cases h
  rename_i hti
  cases hlookup : p.annotations.lookup agentIdentityAnnotation with
  | none => simp [Lib.GoMap.getD, hlookup] at hraw
  | some raw =>
    simp only [Lib.GoMap.getD, hlookup, Option.getD_some] at hparse
    exact ⟨raw, id, rfl, hparse, hti, (Except.ok.inj h).symm⟩

theorem taskIdentity_of_annotated {ns name raw : String} {id : PodIdentity}
    (hraw : p.annotations.lookup agentIdentityAnnotation = some raw)
    (hparse : parseAgentIdentity raw = .ok id) (hti : id.taskInstanceID ≠ "") :
    taskIdentityFromPod ns name p = .ok (.ofPod id) := by
  have hne : raw ≠ "" := by
    rintro rfl
    cases hparse
  simp [taskIdentityFromPod, Lib.GoMap.getD, hraw, hne, hparse, hti]

theorem resolveAgent_of_not_warm (hwarm : isWarmPod p = false)
    (hget : r.client (r.namespaceOf pod) pod.podName = .ok ⟨p, uid, terminal⟩)
    (huid : ¬ (pod.podUID ≠ "" ∧ uid ≠ pod.podUID)) :
    r.resolveAgent pod = taskIdentityFromPod (r.namespaceOf pod) pod.podName p := by
  have hlabel : ¬ p.labels.getD warmWorkerLabel "" = warmWorkerLabelValue := by
    rw [← isWarmPod_iff, hwarm]
    exact Bool.false_ne_true
  have hgot : r.getReviewedPod pod = .ok p := by
    simp only [getReviewedPod, hget, if_neg huid]
  simp only [resolveAgent, hgot, if_neg hlabel]

theorem uid_of_resolveAgent (hget : r.client (r.namespaceOf pod) pod.podName = .ok ⟨p, uid, terminal⟩)
    (h : r.resolveAgent pod = .ok identity) : ¬ (pod.podUID ≠ "" ∧ uid ≠ pod.podUID) := by
  intro huid
  simp only [resolveAgent, getReviewedPod, hget, if_pos huid] at h
  cases h

end Resolve

theorem isWarmPod_buildPod (suffix : String) (req : Executor.Request) : isWarmPod (buildPod suffix req) = false ↔
      req.labels.lookup warmWorkerLabel ≠ some warmWorkerLabelValue := by
  rw [isWarmPod, buildPod_warmWorkerLabel, beq_eq_false_iff_ne]

theorem AuthorHarmless.identity_eq {req : Executor.Request} (hharm : AuthorHarmless req)
    (h : req.agentTokenTransport = agentTransportExchange) {suffix raw : String} {id : PodIdentity}
    (hraw : (buildPod suffix req).annotations.lookup agentIdentityAnnotation = some raw)
    (hparse : parseAgentIdentity raw = .ok id) (hti : id.taskInstanceID ≠ "") :
    id.tenantID = req.tenantID ∧ id.runID = req.runID ∧ id.taskID = req.taskID ∧ id.tryNumber = req.tryNumber := by
  by_cases hsecret : req.agentTokenSecretName = ""
  · have hproj : req.projects := by simp [Request.projects, h, hsecret]
    rw [buildPod_identity_of_projects suffix hproj] at hraw
    cases hraw
    rw [parseAgentIdentity_marshal] at hparse
    cases hparse
    exact ⟨rfl, rfl, rfl, rfl⟩
  · have hproj : req.projects = false := by simp [Request.projects, hsecret]
    rw [buildPod_identity_of_not_projects suffix hproj] at hraw
    exact hharm.annotation.resolve_left hsecret raw id hraw hparse hti

/-- **Task pods are not warm workers.** Under the exchange transport, a task pod is never selected as
a warm pod and never resolves to another identity exactly when its author sets neither the warm-worker
label nor, where the token comes from a Secret, an identity annotation naming another attempt. -/
theorem task_pod_never_warm {req : Executor.Request}
    (h : req.agentTokenTransport = agentTransportExchange) : NeverWarm req ↔ AuthorHarmless req := by
  constructor
  · intro hnever
    refine ⟨(isWarmPod_buildPod "" req).mp (hnever.unlisted ""), ?_⟩
    by_cases hsecret : req.agentTokenSecretName = ""
    · exact .inl hsecret
    refine .inr fun raw id hraw hparse hti => ?_
    -- A resolver that finds the pod resolves it by the author's annotation.
    have hproj : req.projects = false := by simp [Request.projects, hsecret]
    let r : PodResolver := ⟨fun _ _ => .ok ⟨buildPod "" req, "", false⟩, ""⟩
    have hres : r.resolveAgent ⟨"", "", ""⟩ = .ok (.ofPod id) :=
      (resolveAgent_of_not_warm (hnever.unlisted "") rfl fun hne => hne.1 rfl).trans
        (taskIdentity_of_annotated ((buildPod_identity_of_not_projects "" hproj).trans hraw) hparse hti)
    have hnames := hnever.resolved "" r ⟨"", "", ""⟩ "" false _ rfl hres
    exact ⟨hnames.tenantID, hnames.runID, hnames.taskID, hnames.tryNumber⟩
  · intro hharm
    have hunlisted : ∀ suffix, isWarmPod (buildPod suffix req) = false := fun suffix =>
      (isWarmPod_buildPod suffix req).mpr hharm.label
    refine ⟨hunlisted, fun suffix r pod uid terminal identity hget hres => ?_⟩
    rw [resolveAgent_of_not_warm (hunlisted suffix) hget (uid_of_resolveAgent hget hres)] at hres
    obtain ⟨raw, id, hraw, hparse, hti, rfl⟩ := annotation_of_taskIdentity hres
    obtain ⟨htenant, hrun, htask, htry⟩ := hharm.identity_eq h hraw hparse hti
    exact ⟨(by decide : "" ≠ scopeWarmWorker), htenant, rfl, hrun, htask, htry⟩

/-- A request under the exchange transport whose author sets the given labels. -/
def labelledRequest (labels : List (String × String)) : Executor.Request where
  taskInstanceID := "ti"
  tenantID := "tenant-a"
  dagID := "dag"
  runID := "run"
  taskID := "task"
  tryNumber := 1
  labels := .literal labels
  annotations := ∅
  agentTokenTransport := agentTransportExchange
  agentTokenSecretName := ""
  agentTokenAudience := ""
  agentTokenExpirationSeconds := 0

/-- An author's team label does no harm. -/
theorem task_pod_never_warm_labelled : NeverWarm (labelledRequest [("team", "data")]) :=
  (task_pod_never_warm rfl).mpr ⟨by decide, .inl rfl⟩

/-- The warm-worker label makes a task pod a warm worker of the pool its author names. -/
theorem author_label_makes_warm_worker : ¬ ∀ req : Executor.Request, req.agentTokenTransport = agentTransportExchange →
      NeverWarm req := by
  intro h
  have hnever := h (labelledRequest [(warmWorkerLabel, "true"), (warmDagVersionLabel, "v9")]) rfl
  let r : PodResolver := ⟨fun _ _ => .ok ⟨buildPod "00000000"
    (labelledRequest [(warmWorkerLabel, "true"), (warmDagVersionLabel, "v9")]), "uid", false⟩, "ns"⟩
  have hres : r.resolveAgent ⟨"ns", "pod", "uid"⟩ =
      .ok { scope := scopeWarmWorker, dagVersionID := "v9", tenantID := "tenant-a"
            workerID := "pod" } := by
    decide +kernel
  exact (hnever.resolved "00000000" r ⟨"ns", "pod", "uid"⟩ "uid" false _ rfl hres).scope rfl

end Leoflow
