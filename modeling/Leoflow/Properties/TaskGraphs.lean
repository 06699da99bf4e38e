import Leoflow.Api.Expansion

/-!
# The task graph

What `validateGraph` accepts and `expandTaskIDs` selects, in terms of the dependencies between the tasks alone.
-/

namespace Leoflow

open Relation (TransGen)

/-! ## Validation -/

/-- No chain of dependencies comes back to its start. -/
def Acyclic (tasks : List TaskSpec) : Prop := ∀ id, ¬TransGen (DependsOn tasks) id id

variable {tasks : List TaskSpec}

/-- With distinct ids the map of dependencies is well founded exactly for acyclic tasks. -/
theorem wellFounded_iff (hnd : (tasks.map TaskSpec.taskID).Nodup) :
    (WellFounded fun dep id => dep ∈ (dependencies tasks).getD id []) ↔ Acyclic tasks := by
  have hrel : (fun dep id => dep ∈ (dependencies tasks).getD id []) = Function.swap (DependsOn tasks) := by
    funext dep id
    exact propext (mem_dependencies hnd)
  constructor
  · intro hwf id hcycle
    rw [hrel] at hwf
    exact hwf.transGen.irrefl.irrefl id (Relation.transGen_swap.mpr hcycle)
  · intro hacyclic
    have hspec := findTaskCycle_spec (tasks.map TaskSpec.taskID) (dependencies tasks)
    cases hfind : findTaskCycle (tasks.map TaskSpec.taskID) (dependencies tasks) with
    | none =>
      rw [hfind] at hspec
      refine ⟨fun id => ?_⟩
      by_cases hid : id ∈ tasks.map TaskSpec.taskID
      · exact hspec id hid
      · refine Acc.intro id fun dep hdep => absurd ?_ hid
        obtain ⟨t, ht, rfl, -⟩ := (mem_dependencies hnd).mp hdep
        exact List.mem_map_of_mem ht
    | some path =>
      rw [hfind] at hspec
      obtain ⟨x, mid, hpath⟩ := hspec.closed
      have hwalk := hspec.walk.imp fun _ _ h => (mem_dependencies hnd).mp h
      rw [hpath, List.cons_append] at hwalk
      cases htail : mid ++ [x] with
      | nil => simp at htail
      | cons z rest =>
        rw [htail, List.isChain_cons_cons] at hwalk
        have hback := List.relationReflTransGen_of_exists_isChain_cons rest hwalk.2 (b := x) (by simp [← htail])
        exact absurd (TransGen.head' hwalk.1 hback) (hacyclic x)

/-- **Validation is exact**, and a reported path is a cycle of the map that was searched. -/
theorem validateGraph_exact (tasks : List TaskSpec) :
    (validateGraph tasks = .ok () ↔ (tasks.map TaskSpec.taskID).Nodup ∧
      (∀ t ∈ tasks, ∀ dep ∈ t.dependsOn, ∃ t' ∈ tasks, t'.taskID = dep) ∧ Acyclic tasks) ∧
    ∀ order deps path, findTaskCycle order deps = some path →
      (path.IsChain fun id dep => dep ∈ deps.getD id []) ∧ ∃ id mid, path = id :: mid ++ [id] := by
  constructor
  · rw [validateGraph_eq_ok]
    have hdeclared : (∀ t ∈ tasks, t.dependsOn ⊆ tasks.map TaskSpec.taskID) ↔
        ∀ t ∈ tasks, ∀ dep ∈ t.dependsOn, ∃ t' ∈ tasks, t'.taskID = dep :=
      forall₂_congr fun t _ => forall₂_congr fun dep _ => List.mem_map
    constructor
    · intro h
      exact ⟨h.distinct, hdeclared.mp h.declared, (wellFounded_iff h.distinct).mp h.acyclic⟩
    · rintro ⟨hnd, hdecl, hacyclic⟩
      exact ⟨hnd, hdeclared.mpr hdecl, (wellFounded_iff hnd).mpr hacyclic⟩
  · intro order deps path hfind
    have hspec := findTaskCycle_spec order deps
    rw [hfind] at hspec
    exact ⟨hspec.walk, hspec.closed⟩

/-! ## The expansion of a clear -/

/-- **Where no task outside the seeds lies between two of them, the expansion is the closure**, in whatever order the
seeds are given. -/
theorem expandTaskIDs_closure {seeds : List String} {up down : Bool} (hnd : (tasks.map TaskSpec.taskID).Nodup)
    (hsep : Separated tasks seeds up down) :
    (∀ id, id ∈ expandTaskIDs tasks seeds up down ↔ InClosure tasks seeds up down id) ∧
    ∀ seeds', seeds'.Perm seeds →
      ∀ id, id ∈ expandTaskIDs tasks seeds' up down ↔ id ∈ expandTaskIDs tasks seeds up down := by
  have hclosure : ∀ id, id ∈ expandTaskIDs tasks seeds up down ↔ InClosure tasks seeds up down id :=
    fun _ => mem_expandTaskIDs hnd hsep
  refine ⟨hclosure, fun seeds' hperm id => ?_⟩
  have habove : ∀ id, Above tasks seeds' id ↔ Above tasks seeds id := fun id =>
    exists_congr fun _ => and_congr_left fun _ => hperm.mem_iff
  have hbelow : ∀ id, Below tasks seeds' id ↔ Below tasks seeds id := fun id =>
    exists_congr fun _ => and_congr_left fun _ => hperm.mem_iff
  have hsep' : Separated tasks seeds' up down := by
    intro hup hdown id ha hb
    exact hperm.mem_iff.mpr (hsep hup hdown id ((habove id).mp ha) ((hbelow id).mp hb))
  rw [mem_expandTaskIDs hnd hsep', hclosure, InClosure, InClosure, hperm.mem_iff, habove, hbelow]

/-- Two tasks behind one. -/
def fork : List TaskSpec :=
  [{ taskID := "b" }, { taskID := "c", dependsOn := ["b"] }, { taskID := "a", dependsOn := ["c"] },
    { taskID := "d", dependsOn := ["c"] }]

theorem wellFormed_fork : WellFormedGraph fork := validateGraph_eq_ok.mp (by decide +kernel)

theorem separated_fork : Separated fork ["c"] true true := by
  rintro - - id ⟨_, hs, habove⟩ ⟨_, hs', hbelow⟩
  rw [List.mem_singleton.mp hs] at habove
  rw [List.mem_singleton.mp hs'] at hbelow
  exact absurd (habove.trans hbelow) ((wellFounded_iff wellFormed_fork.distinct).mp wellFormed_fork.acyclic "c")

theorem below_fork : Below fork ["a", "b"] "d" := by
  refine ⟨"b", by simp, .tail (.single ?_) (?_ : DependsOn fork "c" "b")⟩
  · exact ⟨{ taskID := "d", dependsOn := ["c"] }, by simp [fork], rfl, by simp⟩
  · exact ⟨{ taskID := "c", dependsOn := ["b"] }, by simp [fork], rfl, by simp⟩

theorem expandTaskIDs_closure_fork : InClosure fork ["c"] true true "a" :=
  ((expandTaskIDs_closure wellFormed_fork.distinct separated_fork).1 "a").mp (by decide +kernel)

/-- `d` is downstream of `b`. From `a` first, the walk up has marked `c` when the walk down from `b` meets it. -/
theorem expansion_depends_on_order : WellFormedGraph fork ∧ InClosure fork ["a", "b"] true true "d" ∧
      "d" ∉ expandTaskIDs fork ["a", "b"] true true ∧ "d" ∈ expandTaskIDs fork ["b", "a"] true true :=
  ⟨wellFormed_fork, .inr (.inr ⟨rfl, below_fork⟩), by decide +kernel, by decide +kernel⟩

end Leoflow
