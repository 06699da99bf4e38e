import Leoflow.Executor.Selectors

/-!
# The pods of one attempt

`DeleteTaskPod` and `TaskPodPresence` find the pods of an attempt by the labels `BuildPod` gave them, and
the task's label is its sanitised id.
-/

namespace Leoflow.Executor

theorem listPods_cons {sel : LabelSelector} {p : TaskPod} (h : sel.selects p.pod = false)
    (pods : List TaskPod) : listPods sel (p :: pods) = listPods sel pods := by
  unfold listPods
  rw [List.filter_cons_of_neg (by rw [h]; exact Bool.false_ne_true)]

/-! ## Attempts -/

/-- An attempt of a task the DAG schema accepts; tries are counted from one. -/
structure TaskAttempt where
  taskID : String
  tryNumber : Int64
  accepted : isIdentifier taskID
  counted : 0 < tryNumber.toInt

/-- The selector of an attempt does not match the pod, and neither the teardown nor the presence of the
attempt depends on it. -/
structure Spares (runID : String) (a : TaskAttempt) (p : TaskPod) : Prop where
  unmatched : (taskPodSelector runID a.taskID a.tryNumber).selects p.pod = false
  kept : ∀ pods, deleteTaskPod runID a.taskID a.tryNumber (p :: pods) = deleteTaskPod runID a.taskID a.tryNumber pods
  ignored : ∀ pods, clusterPodPresence runID a.taskID a.tryNumber (p :: pods) =
    clusterPodPresence runID a.taskID a.tryNumber pods

theorem spares_iff {runID : String} {a : TaskAttempt} {p : TaskPod} :
    Spares runID a p ↔ (taskPodSelector runID a.taskID a.tryNumber).selects p.pod = false := by
  refine ⟨Spares.unmatched, fun h => ⟨h, fun pods => ?_, fun pods => ?_⟩⟩
  · unfold deleteTaskPod deletePodsBySelector
    rw [listPods_cons h]
  · unfold clusterPodPresence
    rw [listPods_cons h]

theorem repr_toInt_inj {n n' : Int64} : n.toInt.repr = n'.toInt.repr ↔ n = n' := by
  refine ⟨fun h => ?_, fun h => by rw [h]⟩
  have hparse := Lib.Json.parseInt64_repr n
  rw [h, Lib.Json.parseInt64_repr] at hparse
  exact (Option.some.inj hparse).symm

/-- The labels that select a task pod, as `BuildPod` sets them. -/
theorem buildPod_labels (suffix : String) (req : Request) {key value : String}
    (h : (ownLabels req).lookup key = some value) : (buildPod suffix req).labels.lookup key = some value := by
  have hlabels : (buildPod suffix req).labels = mergeMetadata (ownLabels req) req.labels := by
    unfold buildPod mountAgentToken
    split <;> rfl
  rw [hlabels, mergeMetadata, Lib.GoMap.lookup_fill, h]
  rfl

theorem selects_buildPod (suffix : String) (req : Request) (runID taskID : String) (tryNumber : Int64) :
    (taskPodSelector runID taskID tryNumber).selects (buildPod suffix req) ↔
      (taskPodSelector runID taskID tryNumber).valid ∧
      sanitizeLabel req.runID = sanitizeLabel runID ∧ sanitizeLabel req.taskID = sanitizeLabel taskID ∧
      req.tryNumber = tryNumber := by
  have hrun : (buildPod suffix req).labels.lookup "leoflow.io/run-id" = some (sanitizeLabel req.runID) :=
    buildPod_labels suffix req rfl
  have htask : (buildPod suffix req).labels.lookup "leoflow.io/task-id" =
      some (sanitizeLabel req.taskID) := buildPod_labels suffix req rfl
  have htry : (buildPod suffix req).labels.lookup "leoflow.io/try-number" =
      some req.tryNumber.toInt.repr := buildPod_labels suffix req rfl
  simp only [LabelSelector.selects, taskPodSelector, Bool.and_eq_true, List.all_cons, List.all_nil,
    Bool.and_true, hrun, htask, htry, beq_iff_eq, Option.some.injEq, repr_toInt_inj]

theorem valid_taskPodSelector {runID : String} (hrun : isUUID runID) (a : TaskAttempt) :
    (taskPodSelector runID a.taskID a.tryNumber).valid ↔ (core a.taskID).length ≤ 63 := by
  have htry := isLabelValue_tryNumber (Int.le_of_lt a.counted)
  have huuid := isLabelValue_uuid hrun
  simp only [LabelSelector.valid, taskPodSelector, List.all_cons, List.all_nil, Bool.and_true,
    huuid, htry, Bool.true_and]
  rw [isLabelValue_sanitizeLabel, length_sanitizeLabel a.accepted]

/-- **Pod selectors**: an attempt's teardown and presence leave the pod of an attempt of the same run alone
exactly when the tries differ, the task ids are not alike, or the label would be too long to ask for. -/
theorem selector_exact_iff {runID : String} (hrun : isUUID runID) (a a' : TaskAttempt)
    (suffix : String) {req : Request} (hreq : req.runID = runID) (htask : req.taskID = a'.taskID)
    (htry : req.tryNumber = a'.tryNumber) (phase : PodPhase) (record : Bool) :
    Spares runID a ⟨buildPod suffix req, phase, record⟩ ↔
      ¬ (a'.tryNumber = a.tryNumber ∧ Alike a'.taskID a.taskID ∧ (core a.taskID).length ≤ 63) := by
  rw [spares_iff, ← Bool.not_eq_true, selects_buildPod, valid_taskPodSelector hrun, hreq, htask, htry,
    sanitizeLabel_eq_iff a'.accepted a.accepted]
  apply not_congr
  constructor
  · rintro ⟨hvalid, -, halike, hsame⟩
    exact ⟨hsame, halike, hvalid⟩
  · rintro ⟨hsame, halike, hvalid⟩
    exact ⟨hvalid, rfl, halike, hsame⟩

/-! A run with the tasks `load_data`, `load-data` and `report`. -/

/-- The id of a run. -/
def someRun : String := "6f1c1f52-6a43-4f0a-9a3b-0d6b5e0f7a11"

/-- The first try of a task. -/
def firstTry (taskID : String) (h : isIdentifier taskID) : TaskAttempt :=
  ⟨taskID, 1, h, by decide⟩

/-- The request of an attempt. -/
def requestOf (a : TaskAttempt) : Request where
  taskInstanceID := "ti"
  tenantID := "6f1c1f52-6a43-4f0a-9a3b-0d6b5e0f7a12"
  dagID := "etl"
  runID := someRun
  taskID := a.taskID
  tryNumber := a.tryNumber
  labels := ∅
  annotations := ∅
  agentTokenTransport := ""
  agentTokenSecretName := ""
  agentTokenAudience := ""
  agentTokenExpirationSeconds := 0

/-- A task with an underscore. -/
def loadData : TaskAttempt := firstTry "load_data" (by decide +kernel)

/-- A task with a dash in its place. -/
def loadDashData : TaskAttempt := firstTry "load-data" (by decide +kernel)

/-- Another task. -/
def report : TaskAttempt := firstTry "report" (by decide +kernel)

theorem selector_exact_apart : Spares someRun loadData ⟨buildPod "0a0b0c0d" (requestOf report), .running, false⟩ := by
  have hrun : isUUID someRun := by decide +kernel
  exact (selector_exact_iff hrun loadData report "0a0b0c0d" rfl rfl rfl .running false).mpr (by decide +kernel)

/-- `load_data` and `load-data` share a label: the teardown of one deletes the pod of the other. -/
theorem selector_not_exact : ¬ ∀ (runID : String) (a a' : TaskAttempt) (suffix : String) (req : Request)
    (phase : PodPhase) (record : Bool), isUUID runID → req.runID = runID →
    req.taskID = a'.taskID → req.tryNumber = a'.tryNumber →
    (a.taskID, a.tryNumber) ≠ (a'.taskID, a'.tryNumber) →
    Spares runID a ⟨buildPod suffix req, phase, record⟩ := by
  intro h
  have hspares := h someRun loadData loadDashData "0a0b0c0d" (requestOf loadDashData) .running false
    (by decide +kernel) rfl rfl rfl (by decide)
  have hselects : (taskPodSelector someRun loadData.taskID loadData.tryNumber).selects
      (buildPod "0a0b0c0d" (requestOf loadDashData)) := by decide +kernel
  cases hselects.symm.trans hspares.unmatched

end Leoflow.Executor
