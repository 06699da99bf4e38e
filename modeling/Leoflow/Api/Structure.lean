import Leoflow.Domain.Spec
import Leoflow.Lib.GoMap

/-!
# The structure view

`topoSortTasks` of `internal/api/ui_structure.go`: Kahn's algorithm with the ready tasks sorted by id.
-/

namespace Leoflow.TaskOrder

open Lib (GoMap)
open TaskSpec Lib.GoMap List

/-- The dependencies on declared tasks, from the dependency to the task. -/
def edges (tasks : List TaskSpec) : List (String × String) :=
  tasks.flatMap fun t => (t.dependsOn.filter (· ∈ tasks.map taskID)).map (·, t.taskID)

/-- `indeg` before the loop. -/
def indegrees (tasks : List TaskSpec) : GoMap Int :=
  (edges tasks).foldl (fun m e => m.addTo e.2 1) (collect taskID (fun _ => some 0) tasks)

/-- The tasks that depend on a task, in the order they are declared. -/
def childrenOf (tasks : List TaskSpec) (id : String) : List String :=
  ((group Prod.fst (edges tasks)).getD id []).map Prod.snd

/-- `sort.Strings`. -/
def sortStrings (ids : List String) : List String := ids.mergeSort fun a b => decide (a ≤ b)

/-- The inner loop: what is added to the ready tasks when the given children lose a dependency. -/
def release : List String → GoMap Int → List String × GoMap Int
  | [], indeg => ([], indeg)
  | ch :: chs, indeg =>
    let indeg := indeg.addTo ch (-1)
    let (added, rest) := release chs indeg
    (if indeg.getD ch 0 = 0 then ch :: added else added, rest)

/-- The loop. Every id becomes ready when its count reaches zero, so `2 * len(tasks)` turns are enough. -/
def kahn (tasks : List TaskSpec) : Nat → List String → GoMap Int → List String
  | 0, _, _ => []
  | _, [], _ => []
  | fuel + 1, id :: ready, indeg =>
    let (added, indeg) := release (childrenOf tasks id) indeg
    id :: kahn tasks fuel (sortStrings (ready ++ added)) indeg

/-- `topoSortTasks`: Kahn's algorithm over sorted ids; what is on a cycle comes last as it was declared. -/
def topoSortTasks (tasks : List TaskSpec) : List TaskSpec :=
  let ids := tasks.map taskID
  let out := kahn tasks (2 * tasks.length) (sortStrings (ids.filter fun id => (indegrees tasks).getD id 0 = 0))
    (indegrees tasks)
  let out := if out.length < tasks.length then out ++ ids.filter (· ∉ out) else out
  out.filterMap (collect taskID some tasks).lookup

end Leoflow.TaskOrder
