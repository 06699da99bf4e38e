import Leoflow.Properties.PodSelectors

/-!
# The labels of accepted DAGs

The DAG schema takes identifiers of up to 200 characters, and a label value has at most 63. `podName` cuts
its parts, the labels are set as they are.
-/

namespace Leoflow.Executor

/-- The labels `BuildPod` sets itself. -/
def ownLabelKeys : List String :=
  ["leoflow.io/dag-id", "leoflow.io/task-id", "leoflow.io/run-id", "leoflow.io/try-number", "leoflow.io/tenant-id"]

/-- Every own label of the pod has a value Kubernetes accepts. -/
def ValidLabels (pod : Pod) : Prop :=
  ∀ key ∈ ownLabelKeys, ∃ value, pod.labels.lookup key = some value ∧ isLabelValue value

theorem validLabels_buildPod (suffix : String) (req : Request) :
    ValidLabels (buildPod suffix req) ↔ isLabelValue (sanitizeLabel req.dagID) ∧
      isLabelValue (sanitizeLabel req.taskID) ∧ isLabelValue (sanitizeLabel req.runID) ∧
      isLabelValue req.tryNumber.toInt.repr ∧ isLabelValue (sanitizeLabel req.tenantID) := by
  have hset : ∀ {key value}, (ownLabels req).lookup key = some value →
      ((∃ v, (buildPod suffix req).labels.lookup key = some v ∧ isLabelValue v) ↔
        isLabelValue value) := by
    intro key value h
    rw [buildPod_labels suffix req h]
    simp
  simp only [ValidLabels, ownLabelKeys, List.forall_mem_cons, List.not_mem_nil, false_implies, implies_true, and_true]
  refine and_congr (hset rfl) (and_congr (hset rfl) (and_congr (hset rfl) (and_congr (hset rfl) ?_)))
  exact hset rfl

/-- **Dispatchable names**: the labels of a pod of an accepted DAG are valid exactly when both ids have at
most 63 characters between their first and last alphanumeric. -/
theorem labels_valid_iff (suffix : String) {req : Request} (hdag : isIdentifier req.dagID)
    (htask : isIdentifier req.taskID) (hrun : isUUID req.runID)
    (htenant : isUUID req.tenantID) (htry : 0 < req.tryNumber.toInt) :
    ValidLabels (buildPod suffix req) ↔ (core req.dagID).length ≤ 63 ∧ (core req.taskID).length ≤ 63 := by
  rw [validLabels_buildPod, isLabelValue_sanitizeLabel req.dagID, isLabelValue_sanitizeLabel req.taskID,
    length_sanitizeLabel hdag, length_sanitizeLabel htask]
  constructor
  · rintro ⟨hd, ht, -⟩
    exact ⟨hd, ht⟩
  · rintro ⟨hd, ht⟩
    exact ⟨hd, ht, isLabelValue_uuid hrun, isLabelValue_tryNumber (Int.le_of_lt htry), isLabelValue_uuid htenant⟩

theorem labels_valid_report : ValidLabels (buildPod "0a0b0c0d" (requestOf report)) :=
  (labels_valid_iff "0a0b0c0d" (by decide +kernel) (by decide +kernel) (by decide +kernel)
    (by decide +kernel) (by decide)).mpr (by decide +kernel)

/-- A name of 64 letters is accepted, and its label is not. -/
def longName : String := String.ofList (List.replicate 64 'a')

theorem label_too_long : ¬ ∀ (suffix : String) (req : Request), isIdentifier req.dagID →
    isIdentifier req.taskID → isUUID req.runID → isUUID req.tenantID →
    0 < req.tryNumber.toInt → ValidLabels (buildPod suffix req) := by
  intro h
  have hvalid := h "0a0b0c0d" { requestOf report with dagID := longName } (by decide +kernel)
    (by decide +kernel) (by decide +kernel) (by decide +kernel) (by decide)
  have hlabel := ((validLabels_buildPod _ _).mp hvalid).1
  exact absurd hlabel (by decide +kernel)

end Leoflow.Executor
