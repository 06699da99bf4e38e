import Leoflow.Executor.Labels
import Leoflow.Executor.Sweeps

/-!
# Selectors of task pods

`internal/executor/kubernetes.go`: how the pods of an attempt are found by the labels `BuildPod` gave them.
-/

namespace Leoflow.Executor

/-- A pod in the cluster, with its phase and whether its status carries an outcome record. -/
structure TaskPod where
  pod : Pod
  phase : PodPhase
  outcomeRecord : Bool := false

/-- The requirements `key=value` of a label selector. -/
abbrev LabelSelector := List (String × String)

/-- The selector of `DeleteTaskPod` and `TaskPodPresence`. -/
def taskPodSelector (runID taskID : String) (tryNumber : Int64) : LabelSelector :=
  [("leoflow.io/run-id", sanitizeLabel runID), ("leoflow.io/task-id", sanitizeLabel taskID),
    ("leoflow.io/try-number", tryNumber.toInt.repr)]

/-- The apiserver refuses a selector with a value that is none of a label. -/
def LabelSelector.valid (sel : LabelSelector) : Bool := sel.all fun kv => isLabelValue kv.2

/-- The selector is accepted and every requirement holds of the pod's labels. -/
def LabelSelector.selects (sel : LabelSelector) (pod : Pod) : Bool :=
  sel.valid && sel.all fun kv => pod.labels.lookup kv.1 == some kv.2

/-- The pods a selector lists; the API server refuses one with an invalid value. -/
def listPods (sel : LabelSelector) (pods : List TaskPod) : Except String (List TaskPod) :=
  if sel.valid then .ok (pods.filter fun p => sel.selects p.pod)
  else .error "unable to parse requirement"

/-- The pod has ended, by its phase or by the outcome it left. -/
def terminalForTeardown (p : TaskPod) : Bool :=
  p.outcomeRecord || p.phase == .succeeded || p.phase == .failed

/-- The pods that are deleted: those that have not ended. -/
def deletePodsBySelector (sel : LabelSelector) (pods : List TaskPod) : Except String (List TaskPod) :=
  (listPods sel pods).map fun listed => listed.filter fun p => !terminalForTeardown p

/-- `DeleteTaskPod`. -/
def deleteTaskPod (runID taskID : String) (tryNumber : Int64) (pods : List TaskPod) :
    Except String (List TaskPod) :=
  deletePodsBySelector (taskPodSelector runID taskID tryNumber) pods

/-- The presence of an attempt's pod, by the selector. -/
def clusterPodPresence (runID taskID : String) (tryNumber : Int64) (pods : List TaskPod) :
    Except String PodPresence :=
  taskPodPresence ((listPods (taskPodSelector runID taskID tryNumber) pods).map fun listed => listed.map TaskPod.phase)

end Leoflow.Executor
