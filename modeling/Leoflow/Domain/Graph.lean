import Leoflow.Domain.Spec
import Leoflow.Lib.DepthFirst
import Leoflow.Lib.GoMap

/-!
# Validation of the task graph

`internal/domain/graph.go`. A version is registered only if `validateGraph` accepts its tasks: their
ids are distinct, every dependency is declared and no chain of dependencies comes back to its start.
-/

namespace Leoflow

open Lib (GoMap)
open TaskSpec
open Lib.DepthFirst (search search_spec Grounded IsCycle)
open List

/-- The errors of `validateGraph`: `ErrDuplicateTaskID`, `ErrUnknownDependency` and `ErrCyclicDAG`. -/
inductive GraphError where
  | duplicateTaskID (id : String)
  | unknownDependency (id dep : String)
  | cyclicDAG (cycle : List String)
deriving DecidableEq

/-- The text of an error; `quote` is what `%q` makes of an id. -/
def GraphError.message (quote : String → String) : GraphError → String
  | duplicateTaskID id => "duplicate task_id: " ++ quote id ++ " is declared more than once"
  | unknownDependency id dep => "unknown task dependency: task " ++ quote id ++ " depends on " ++
      quote dep ++ ", which is not declared in this DAG"
  | cyclicDAG cycle => "cyclic task graph: " ++ " -> ".intercalate cycle ++
      "; no task in this chain can ever become ready, so the run would hang"

/-- The fuel is one for every id that occurs. -/
def findTaskCycle (order : List String) (deps : GoMap (List String)) : Option (List String) :=
  let fuel := (order ++ deps.entries.flatMap Sigma.snd).length
  match search (deps.getD · []) fuel order with
  | .done _ => none
  | .cycle path => some path
  | .outOfFuel => some []

/-- The loop that fills `byID` and `order`. -/
def indexTasks (byID : GoMap (List String)) (order : List String) :
    List TaskSpec → Except GraphError (GoMap (List String) × List String)
  | [] => .ok (byID, order)
  | t :: tasks =>
    if (byID.lookup t.taskID).isSome then .error (.duplicateTaskID t.taskID)
    else indexTasks (byID.insert t.taskID t.dependsOn) (order ++ [t.taskID]) tasks

/-- The inner loop over the dependencies of one task. -/
def checkDependencies (byID : GoMap (List String)) (id : String) : List String → Except GraphError Unit
  | [] => .ok ()
  | dep :: deps =>
    if (byID.lookup dep).isNone then .error (.unknownDependency id dep)
    else checkDependencies byID id deps

/-- `ValidateGraph`: the ids are distinct, every dependency is declared, and there is no cycle. -/
def validateGraph (tasks : List TaskSpec) : Except GraphError Unit := do
  let (byID, order) ← indexTasks ∅ [] tasks
  forM order fun id => checkDependencies byID id (byID.getD id [])
  match findTaskCycle order byID with
  | none => .ok ()
  | some cycle => .error (.cyclicDAG cycle)

/-! ## What is accepted -/

/-- `byID`: the dependencies of each task. -/
def dependencies (tasks : List TaskSpec) : GoMap (List String) :=
  GoMap.collect taskID (fun t => some t.dependsOn) tasks

/-- A task graph that can execute. -/
structure WellFormedGraph (tasks : List TaskSpec) : Prop where
  distinct : (tasks.map taskID).Nodup
  declared : ∀ t ∈ tasks, t.dependsOn ⊆ tasks.map taskID
  acyclic : WellFounded fun dep id => dep ∈ (dependencies tasks).getD id []

theorem dependencies_subset (order : List String) (deps : GoMap (List String)) (id : String) :
    deps.getD id [] ⊆ order ++ deps.entries.flatMap Sigma.snd := by
  intro dep hdep
  unfold GoMap.getD at hdep
  cases hl : deps.lookup id with
  | none =>
    rw [hl] at hdep
    cases hdep
  | some ds =>
    rw [hl] at hdep
    exact mem_append_right _ (mem_flatMap.mpr ⟨⟨id, ds⟩, AList.mem_lookup_iff.mp hl, hdep⟩)

theorem findTaskCycle_spec (order : List String) (deps : GoMap (List String)) : match findTaskCycle order deps with
    | none => ∀ id ∈ order, Grounded (deps.getD · []) id
    | some path => IsCycle (deps.getD · []) path := by
  have hspec := search_spec (fun id _ => dependencies_subset order deps id)
    (subset_append_left order (deps.entries.flatMap Sigma.snd)) le_rfl
  unfold findTaskCycle
  dsimp only
  cases hr : search (deps.getD · []) (order ++ deps.entries.flatMap Sigma.snd).length order with
  | done s =>
    rw [hr] at hspec
    obtain ⟨hgood, -, -, hblack⟩ := hspec
    exact fun id hid => hgood.black (hblack id hid)
  | cycle path =>
    rw [hr] at hspec
    exact hspec
  | outOfFuel =>
    rw [hr] at hspec
    exact hspec.elim

/-- The index is built exactly if no id comes twice. -/
theorem indexTasks_eq_ok {byID : GoMap (List String)} {order : List String} {tasks : List TaskSpec}
    {r : GoMap (List String) × List String} (hkeys : ∀ id, (byID.lookup id).isSome ↔ id ∈ order)
    (hnodup : order.Nodup) : indexTasks byID order tasks = .ok r ↔ (order ++ tasks.map taskID).Nodup ∧
      r = (tasks.foldl (fun m t => m.insert t.taskID t.dependsOn) byID, order ++ tasks.map taskID) := by
  induction tasks generalizing byID order with
  | nil => simp [indexTasks, hnodup, eq_comm]
  | cons t tasks ih =>
    have happ : order ++ (t :: tasks).map taskID = (order ++ [t.taskID]) ++ tasks.map taskID := by simp
    unfold indexTasks
    split
    next hdup =>
      refine ⟨fun h => (by cases h), fun ⟨hnd, _⟩ => ?_⟩
      rw [nodup_append] at hnd
      exact absurd rfl (hnd.2.2 _ ((hkeys _).mp hdup) _ mem_cons_self)
    next hnew =>
      rw [hkeys] at hnew
      have hkeys' : ∀ id, ((byID.insert t.taskID t.dependsOn).lookup id).isSome ↔ id ∈ order ++ [t.taskID] := by
        intro id
        by_cases hid : id = t.taskID
        · subst hid
          simp
        · simp [AList.lookup_insert_ne hid, hkeys, hid]
      have hnodup' : (order ++ [t.taskID]).Nodup := by
        rw [nodup_append]
        refine ⟨hnodup, nodup_singleton _, ?_⟩
        rintro id hid _ hlast rfl
        rw [mem_singleton.mp hlast] at hid
        exact hnew hid
      rw [ih hkeys' hnodup', happ, foldl_cons]

theorem checkDependencies_eq_ok {byID : GoMap (List String)} {id : String} {deps : List String} :
    checkDependencies byID id deps = .ok () ↔ ∀ dep ∈ deps, (byID.lookup dep).isSome := by
  induction deps with
  | nil => simp [checkDependencies]
  | cons dep deps ih =>
    unfold checkDependencies
    split
    next hnone =>
      simp [Option.isNone_iff_eq_none.mp hnone]
    next hsome =>
      rw [ih, forall_mem_cons]
      simp [Option.isSome_iff_ne_none, Option.isNone_iff_eq_none.not.mp hsome]

theorem forM_eq_ok {α ε : Type} {xs : List α} {f : α → Except ε Unit} :
    forM xs f = .ok () ↔ ∀ x ∈ xs, f x = .ok () := by
  induction xs with
  | nil => simp [pure, Except.pure]
  | cons x xs ih =>
    rw [forM_cons, forall_mem_cons, ← ih]
    cases f x <;> simp [bind, Except.bind]

theorem dependencies_getD {tasks : List TaskSpec} (hnd : (tasks.map taskID).Nodup)
    {t : TaskSpec} (ht : t ∈ tasks) : (dependencies tasks).getD t.taskID [] = t.dependsOn := by
  rw [GoMap.getD, dependencies, GoMap.lookup_collect hnd ht]
  rfl

/-- **What `validateGraph` accepts.** -/
theorem validateGraph_eq_ok {tasks : List TaskSpec} : validateGraph tasks = .ok () ↔ WellFormedGraph tasks := by
  have hindex : ∀ r, indexTasks ∅ [] tasks = .ok r ↔ (tasks.map taskID).Nodup ∧
      r = (dependencies tasks, tasks.map taskID) :=
    fun r => indexTasks_eq_ok (fun id => by simp) nodup_nil
  unfold validateGraph
  cases hr : indexTasks ∅ [] tasks with
  | error e =>
    refine ⟨fun h => (by cases h), fun h => ?_⟩
    cases hr.symm.trans ((hindex _).mpr ⟨h.distinct, rfl⟩)
  | ok r =>
    obtain ⟨hnd, rfl⟩ := (hindex r).mp hr
    have hdeps : (forM (tasks.map taskID) fun id => checkDependencies (dependencies tasks) id
        ((dependencies tasks).getD id [])) = .ok () ↔
        ∀ t ∈ tasks, t.dependsOn ⊆ tasks.map taskID := by
      rw [forM_eq_ok, forall_mem_map]
      refine forall₂_congr fun t ht => ?_
      rw [checkDependencies_eq_ok, dependencies_getD hnd ht]
      exact forall₂_congr fun dep _ => GoMap.isSome_lookup_collect hnd _ dep
    have hcycle := findTaskCycle_spec (tasks.map taskID) (dependencies tasks)
    simp only [bind, Except.bind]
    split
    next e he =>
      refine ⟨fun h => (by cases h), fun h => ?_⟩
      cases he.symm.trans (hdeps.mpr h.declared)
    next he =>
      cases hf : findTaskCycle (tasks.map taskID) (dependencies tasks) with
      | none =>
        rw [hf] at hcycle
        refine ⟨fun _ => ⟨hnd, hdeps.mp he, ⟨fun id => ?_⟩⟩, fun _ => rfl⟩
        by_cases hid : id ∈ tasks.map taskID
        · exact hcycle id hid
        · -- An id that is not declared has no dependencies.
          refine Acc.intro id fun dep hdep => ?_
          rw [← GoMap.isSome_lookup_collect hnd dependsOn, Option.not_isSome_iff_eq_none] at hid
          rw [GoMap.getD, dependencies, hid] at hdep
          cases hdep
      | some cycle =>
        rw [hf] at hcycle
        refine ⟨fun h => (by cases h), fun h => ?_⟩
        obtain ⟨id, hid⟩ := hcycle.not_grounded
        exact absurd (h.acyclic.apply id) hid

/-! ## Default retries -/

theorem mem_applyDefaultRetries {spec : DAGSpec} {t : TaskSpec} (h : t ∈ applyDefaultRetries spec) :
    ∃ t0 ∈ spec.tasks, t.taskID = t0.taskID ∧ t.dependsOn = t0.dependsOn ∧ t.triggerRule = t0.triggerRule := by
  unfold applyDefaultRetries at h
  split at h
  · exact ⟨t, h, rfl, rfl, rfl⟩
  · obtain ⟨t0, ht0, rfl⟩ := mem_map.mp h
    refine ⟨t0, ht0, ?_⟩
    split <;> exact ⟨rfl, rfl, rfl⟩

theorem dependencies_applyDefaultRetries (spec : DAGSpec) :
    dependencies (applyDefaultRetries spec) = dependencies spec.tasks := by
  unfold applyDefaultRetries
  split
  · rfl
  · rw [dependencies, Lib.GoMap.collect, foldl_map]
    refine foldl_ext _ _ _ fun m t _ => ?_
    split <;> rfl

theorem WellFormedGraph.applyDefaultRetries {spec : DAGSpec} (h : WellFormedGraph spec.tasks) :
    WellFormedGraph (applyDefaultRetries spec) where
  distinct := by
    rw [applyDefaultRetries_taskIDs]
    exact h.distinct
  declared t ht := by
    obtain ⟨t0, ht0, -, hdeps, -⟩ := mem_applyDefaultRetries ht
    rw [applyDefaultRetries_taskIDs, hdeps]
    exact h.declared t0 ht0
  acyclic := by
    rw [dependencies_applyDefaultRetries]
    exact h.acyclic

end Leoflow
