import Leoflow.Api.Structure
import Leoflow.Properties.TaskGraphs

/-!
# The order of the task list

What `topoSortTasks` returns is an order of the tasks in which each comes after its dependencies, the least by id.
-/

namespace Leoflow.TaskOrder

open Lib (GoMap)
open TaskSpec Lib.GoMap List

/-! ## Orders -/

/-- Every task comes after all its dependencies; `seen` are those before. -/
def Follows (dependsOn : String → String → Prop) : List String → List String → Prop
  | _, [] => True
  | seen, id :: ids => (∀ dep, dependsOn id dep → dep ∈ seen) ∧ Follows dependsOn (id :: seen) ids

/-- An order of the tasks in which every task comes after all its dependencies. -/
def IsOrder (tasks order : List TaskSpec) : Prop :=
  order.Perm tasks ∧ Follows (DependsOn tasks) [] (order.map taskID)

variable {tasks : List TaskSpec}

theorem sorted_sortStrings (ids : List String) : (sortStrings ids).Pairwise (· ≤ ·) := by
  have h := @List.pairwise_mergeSort _ (fun a b : String => decide (a ≤ b))
    (by simpa using fun a b c => String.le_trans) (by simpa using String.le_total) ids
  unfold sortStrings
  simpa using h

/-- What the release of children takes off the counts, and whom it adds: those whose count it brings to zero. -/
theorem release_spec (chs : List String) (indeg : GoMap Int) :
    (∀ id, (release chs indeg).2.getD id 0 = indeg.getD id 0 - chs.count id) ∧ (release chs indeg).1.Nodup ∧
      ∀ id, id ∈ (release chs indeg).1 ↔ 0 < indeg.getD id 0 ∧ indeg.getD id 0 ≤ chs.count id := by
  induction chs generalizing indeg with
  | nil =>
    refine ⟨fun id => by simp [release], nodup_nil, fun id => ?_⟩
    simp [release]
  | cons ch chs ih =>
    obtain ⟨hrest, hnd, hmem⟩ := ih (indeg.addTo ch (-1))
    have hadded : ∀ id, id ∈ (release (ch :: chs) indeg).1 ↔
        (id = ch ∧ (indeg.addTo ch (-1)).getD ch 0 = 0) ∨ id ∈ (release chs (indeg.addTo ch (-1))).1 := by
      intro id
      simp only [release]
      split <;> rename_i hzero <;> simp [hzero]
    refine ⟨fun id => ?_, ?_, fun id => ?_⟩
    · show (release chs (indeg.addTo ch (-1))).2.getD id 0 = _
      rw [hrest, getD_addTo, count_cons]
      by_cases hid : id = ch
      · simp [hid]
        omega
      · simp [hid, Ne.symm hid]
    · simp only [release]
      split
      next hzero =>
        refine nodup_cons.mpr ⟨fun hin => ?_, hnd⟩
        have hpos := ((hmem ch).mp hin).1
        omega
      · exact hnd
    · rw [hadded, hmem, getD_addTo, getD_addTo, if_pos rfl, count_cons]
      by_cases hid : id = ch
      · simp [hid]
        omega
      · simp [hid, Ne.symm hid]

/-! ## The loop -/

theorem mem_edges (hdecl : ∀ t ∈ tasks, t.dependsOn ⊆ tasks.map taskID) {dep id : String} :
    (dep, id) ∈ edges tasks ↔ DependsOn tasks id dep := by
  simp only [edges, mem_flatMap, mem_map, mem_filter, Prod.mk.injEq]
  constructor
  · rintro ⟨t, ht, _, ⟨hdep, -⟩, rfl, rfl⟩
    exact ⟨t, ht, rfl, hdep⟩
  · rintro ⟨t, ht, rfl, hdep⟩
    exact ⟨t, ht, dep, ⟨hdep, by simpa using hdecl t ht hdep⟩, rfl, rfl⟩

theorem count_childrenOf (id ch : String) :
    (childrenOf tasks id).count ch = (edges tasks).countP fun e => e.1 == id && e.2 == ch := by
  rw [childrenOf, getD_group, List.count, countP_map, countP_filter]
  exact countP_congr fun e _ => by simp [and_comm]

/-- How many dependencies of a task are not done. -/
def openCount (tasks : List TaskSpec) (done : List String) (id : String) : Nat :=
  (edges tasks).countP fun e => e.2 == id && e.1 ∉ done

/-- What holds before each turn, `done` being the ids listed so far. -/
structure Turn (tasks : List TaskSpec) (done ready : List String) (indeg : GoMap Int) : Prop where
  counts : ∀ id, indeg.getD id 0 = openCount tasks done id
  sorted : ready.Pairwise (· ≤ ·)
  distinct : ready.Nodup
  mem : ∀ id, id ∈ ready ↔ id ∈ tasks.map taskID ∧ id ∉ done ∧ ∀ dep, DependsOn tasks id dep → dep ∈ done
  closed : ∀ id ∈ done, ∀ dep, DependsOn tasks id dep → dep ∈ done
  listed : done.Nodup ∧ done ⊆ tasks.map taskID

section Loop

variable (hdecl : ∀ t ∈ tasks, t.dependsOn ⊆ tasks.map taskID)
include hdecl

theorem openCount_eq_zero {done : List String} {id : String} :
    openCount tasks done id = 0 ↔ ∀ dep, DependsOn tasks id dep → dep ∈ done := by
  rw [openCount, countP_eq_zero]
  constructor
  · intro h dep hdep
    simpa using h (dep, id) ((mem_edges hdecl).mpr hdep)
  · rintro h ⟨dep, id'⟩ he
    simp only [Bool.and_eq_true, beq_iff_eq, decide_eq_true_eq, not_and, not_not]
    rintro rfl
    exact h dep ((mem_edges hdecl).mp he)

theorem turn_start (hnd : (tasks.map taskID).Nodup) :
    Turn tasks [] (sortStrings ((tasks.map taskID).filter fun id => (indegrees tasks).getD id 0 = 0))
      (indegrees tasks) := by
  have hcounts : ∀ id, (indegrees tasks).getD id 0 = openCount tasks [] id := by
    intro id
    have hzero : (collect taskID (fun _ => some (0 : Int)) tasks).getD id 0 = 0 := by
      refine Option.getD_eq_iff.mpr (or_iff_not_imp_right.mpr fun hsome => ?_)
      obtain ⟨n, hn⟩ := Option.ne_none_iff_exists'.mp fun hnone => hsome ⟨hnone, rfl⟩
      obtain ⟨_, -, -, hzero⟩ := mem_of_lookup_collect hn
      exact hn.trans hzero.symm
    rw [indegrees, getD_foldl_addTo, hzero]
    simp [openCount]
  refine ⟨hcounts, sorted_sortStrings _, (mergeSort_perm _ _).nodup_iff.mpr (hnd.filter _), fun id => ?_,
    by simp, by simp⟩
  rw [sortStrings, mem_mergeSort, mem_filter, decide_eq_true_eq, hcounts, Int.natCast_eq_zero, openCount_eq_zero hdecl]
  simp

/-- One turn of the loop. -/
theorem turn_next {done ready : List String} {id : String} {indeg : GoMap Int}
    (h : Turn tasks done (id :: ready) indeg) :
    Turn tasks (id :: done) (sortStrings (ready ++ (release (childrenOf tasks id) indeg).1))
      (release (childrenOf tasks id) indeg).2 := by
  obtain ⟨hid, hfresh, hdeps⟩ := (h.mem id).mp mem_cons_self
  obtain ⟨hhead, hnd⟩ := nodup_cons.mp h.distinct
  -- the open dependencies of a task are those on `id` and those that stay open
  have hsplit : ∀ k, openCount tasks done k = (childrenOf tasks id).count k + openCount tasks (id :: done) k := by
    intro k
    rw [count_childrenOf, openCount, openCount]
    generalize edges tasks = es
    induction es with
    | nil => rfl
    | cons e es ih =>
      simp only [countP_cons, ih]
      by_cases hk : e.2 = k <;> by_cases he : e.1 = id <;> by_cases hd : e.1 ∈ done <;>
        simp [hk, he, hd, hfresh] at * <;> omega
  obtain ⟨hget, hadded, hmem⟩ := release_spec (childrenOf tasks id) indeg
  have hchild : ∀ k, k ∈ childrenOf tasks id ↔ DependsOn tasks k id := by
    intro k
    rw [← count_pos_iff, count_childrenOf, countP_pos_iff, ← mem_edges hdecl]
    simp
  have hnew : ∀ k, k ∈ (release (childrenOf tasks id) indeg).1 ↔
      DependsOn tasks k id ∧ ∀ dep, DependsOn tasks k dep → dep ∈ id :: done := by
    intro k
    rw [hmem, ← hchild, ← count_pos_iff, h.counts, hsplit, ← openCount_eq_zero hdecl]
    omega
  refine ⟨fun k => ?_, sorted_sortStrings _, ?_, fun k => ?_, fun k hk dep hdep => ?_,
    nodup_cons.mpr ⟨hfresh, h.listed.1⟩, cons_subset.mpr ⟨hid, h.listed.2⟩⟩
  · rw [hget, h.counts, hsplit]
    omega
  · refine (mergeSort_perm _ _).nodup_iff.mpr (nodup_append.mpr ⟨hnd, hadded, ?_⟩)
    rintro k hready _ hk rfl
    exact hfresh (((h.mem k).mp (mem_cons_of_mem _ hready)).2.2 id ((hnew k).mp hk).1)
  · rw [sortStrings, mem_mergeSort, mem_append, hnew, mem_cons, not_or]
    constructor
    · rintro (hk | ⟨hk, hall⟩)
      · obtain ⟨hin, hnot, hsub⟩ := (h.mem k).mp (mem_cons_of_mem _ hk)
        exact ⟨hin, ⟨fun heq => hhead (heq ▸ hk), hnot⟩, fun dep hdep => mem_cons_of_mem _ (hsub dep hdep)⟩
      · have hin := hk
        obtain ⟨t, ht, rfl, -⟩ := hin
        exact ⟨mem_map_of_mem ht, ⟨fun heq => hfresh (hdeps id (heq ▸ hk)), fun hd => hfresh (h.closed _ hd id hk)⟩,
          hall⟩
    · rintro ⟨hin, ⟨hne, hnot⟩, hall⟩
      by_cases hk : DependsOn tasks k id
      · exact .inr ⟨hk, hall⟩
      · refine .inl (((mem_cons.mp ((h.mem k).mpr ⟨hin, hnot, fun dep hdep => ?_⟩)).resolve_left hne))
        exact (mem_cons.mp (hall dep hdep)).resolve_left fun heq => hk (heq ▸ hdep)
  · rcases mem_cons.mp hk with rfl | hk
    · exact mem_cons_of_mem _ (hdeps dep hdep)
    · exact mem_cons_of_mem _ (h.closed k hk dep hdep)

/-- The ids complete those listed so far to an order. -/
structure Completes (tasks : List TaskSpec) (done ids : List String) : Prop where
  fresh : ∀ id ∈ ids, id ∈ tasks.map taskID ∧ id ∉ done
  distinct : ids.Nodup
  follows : Follows (DependsOn tasks) done ids
  covers : ∀ id ∈ tasks.map taskID, id ∈ done ∨ id ∈ ids

omit hdecl in
theorem completes_cons {done ids : List String} {id : String} :
    Completes tasks done (id :: ids) ↔ id ∈ tasks.map taskID ∧ id ∉ done ∧
      (∀ dep, DependsOn tasks id dep → dep ∈ done) ∧ Completes tasks (id :: done) ids := by
  constructor
  · rintro ⟨hfresh, hnd, ⟨hdeps, hfollows⟩, hcovers⟩
    obtain ⟨⟨hin, hnot⟩, hfresh⟩ := forall_mem_cons.mp hfresh
    obtain ⟨hid, hnd⟩ := nodup_cons.mp hnd
    exact ⟨hin, hnot, hdeps, by grind, hnd, hfollows, by grind⟩
  · rintro ⟨hin, hnot, hdeps, hfresh, hnd, hfollows, hcovers⟩
    exact ⟨by grind, by grind, ⟨hdeps, hfollows⟩, by grind⟩

/-- The loop completes the order, with the least ids first. -/
theorem kahn_spec (hwf : WellFounded fun dep id => DependsOn tasks id dep) (fuel : Nat) {done ready : List String}
    {indeg : GoMap Int} (h : Turn tasks done ready indeg) (hfuel : tasks.length ≤ fuel + done.length) :
    Completes tasks done (kahn tasks fuel ready indeg) ∧ ∀ ids, Completes tasks done ids →
      kahn tasks fuel ready indeg = ids ∨ List.Lex (· < ·) (kahn tasks fuel ready indeg) ids := by
  cases ready with
  | nil =>
    -- nothing is ready, so nothing is left
    have hall : ∀ id ∈ tasks.map taskID, id ∈ done := by
      intro id
      induction id using hwf.induction with
      | _ id ih =>
        intro hid
        by_contra hnot
        refine not_mem_nil ((h.mem id).mpr ⟨hid, hnot, fun dep hdep => ih dep hdep ?_⟩)
        obtain ⟨t, ht, rfl, hin⟩ := hdep
        exact hdecl t ht hin
    have hnil : kahn tasks fuel [] indeg = [] := by cases fuel <;> rfl
    rw [hnil]
    refine ⟨⟨by simp, nodup_nil, trivial, fun id hid => .inl (hall id hid)⟩, fun ids hids => ?_⟩
    cases ids with
    | nil => exact .inl rfl
    | cons id ids =>
      obtain ⟨hin, hnot, -⟩ := completes_cons.mp hids
      exact absurd (hall id hin) hnot
  | cons id ready =>
    obtain ⟨hid, hfresh, hdeps⟩ := (h.mem id).mp mem_cons_self
    have hnext := turn_next hdecl h
    have hlen := (hnext.listed.1.subperm hnext.listed.2).length_le
    rw [length_cons, length_map] at hlen
    cases fuel with
    | zero => omega
    | succ fuel =>
      obtain ⟨hrest, hleast⟩ := kahn_spec hwf fuel hnext (by rw [length_cons]; omega)
      rw [kahn]
      refine ⟨completes_cons.mpr ⟨hid, hfresh, hdeps, hrest⟩, fun ids hids => ?_⟩
      cases ids with
      | nil => exact absurd (hids.covers id hid) (by simpa using hfresh)
      | cons k ids =>
        obtain ⟨hin, hnot, hready, hcompletes⟩ := completes_cons.mp hids
        rcases mem_cons.mp ((h.mem k).mpr ⟨hin, hnot, hready⟩) with rfl | hk
        · rcases hleast ids hcompletes with heq | hlex
          · exact .inl (congrArg _ heq)
          · exact .inr (.cons hlex)
        · have hle := rel_of_pairwise_cons h.sorted hk
          by_cases heq : id = k
          · exact absurd (heq ▸ hk) (nodup_cons.mp h.distinct).1
          · exact .inr (.rel (String.not_le.mp fun hge => heq (String.le_antisymm hle hge)))

end Loop

/-! ## The order -/

theorem dependsOn_congr {tasks' : List TaskSpec} (h : tasks'.Perm tasks) : DependsOn tasks' = DependsOn tasks := by
  funext id dep
  exact propext (exists_congr fun _ => and_congr_left fun _ => h.mem_iff)

theorem completes_of_isOrder {order : List TaskSpec} (hnd : (tasks.map taskID).Nodup) (h : IsOrder tasks order) :
    Completes tasks [] (order.map taskID) := by
  have hperm := h.1.map taskID
  exact ⟨fun id hid => ⟨hperm.mem_iff.mp hid, not_mem_nil⟩, hperm.nodup_iff.mpr hnd, h.2,
    fun id hid => .inr (hperm.mem_iff.mpr hid)⟩

theorem filterMap_lookup (hnd : (tasks.map taskID).Nodup) {l : List TaskSpec} (h : ∀ t ∈ l, t ∈ tasks) :
    (l.map taskID).filterMap (collect taskID some tasks).lookup = l := by
  rw [filterMap_map]
  exact (filterMap_congr fun t ht => lookup_collect hnd (h t ht)).trans filterMap_some

/-- The sort gives an order, and the least by ids. -/
theorem topoSortTasks_spec (hnd : (tasks.map taskID).Nodup)
    (hdecl : ∀ t ∈ tasks, t.dependsOn ⊆ tasks.map taskID) (hacyclic : Acyclic tasks) :
    IsOrder tasks (topoSortTasks tasks) ∧ ∀ ids, Completes tasks [] ids → (topoSortTasks tasks).map taskID = ids ∨
        List.Lex (· < ·) ((topoSortTasks tasks).map taskID) ids := by
  have hwf : WellFounded fun dep id => DependsOn tasks id dep := by
    have h := (wellFounded_iff hnd).mpr hacyclic
    simpa only [mem_dependencies hnd] using h
  obtain ⟨hout, hleast⟩ := kahn_spec hdecl hwf (2 * tasks.length) (turn_start hdecl hnd) (by omega)
  rw [topoSortTasks]
  generalize kahn tasks _ _ _ = out at hout hleast ⊢
  have hperm : out.Perm (tasks.map taskID) :=
    (perm_ext_iff_of_nodup hout.distinct hnd).mpr fun id =>
      ⟨fun hid => (hout.fresh id hid).1, fun hid => (hout.covers id hid).resolve_left not_mem_nil⟩
  have hall : ¬out.length < tasks.length := by
    rw [hperm.length_eq, length_map]
    omega
  simp only [if_neg hall]
  have hres := hperm.filterMap (collect taskID some tasks).lookup
  rw [filterMap_lookup hnd fun _ ht => ht] at hres
  have hids : (out.filterMap (collect taskID some tasks).lookup).map taskID = out := by
    rw [map_filterMap]
    refine (filterMap_congr fun id hid => ?_).trans filterMap_some
    obtain ⟨t, ht, rfl⟩ := mem_map.mp (hperm.mem_iff.mp hid)
    rw [lookup_collect hnd ht]
    rfl
  rw [IsOrder, hids]
  exact ⟨⟨hres, hout.follows⟩, hleast⟩

/-- **The stable order.** The result is the lexicographically least order by id of those in which every task comes
after its dependencies, and does not depend on the order of the input. -/
theorem topoSortTasks_least (hnd : (tasks.map taskID).Nodup)
    (hdecl : ∀ t ∈ tasks, t.dependsOn ⊆ tasks.map taskID) (hacyclic : Acyclic tasks) :
    IsOrder tasks (topoSortTasks tasks) ∧
    (∀ order, IsOrder tasks order → (topoSortTasks tasks).map taskID = order.map taskID ∨
      List.Lex (· < ·) ((topoSortTasks tasks).map taskID) (order.map taskID)) ∧
    ∀ tasks', tasks'.Perm tasks → topoSortTasks tasks' = topoSortTasks tasks := by
  obtain ⟨horder, hleast⟩ := topoSortTasks_spec hnd hdecl hacyclic
  refine ⟨horder, fun order h => hleast _ (completes_of_isOrder hnd h), fun tasks' hperm => ?_⟩
  have hids := hperm.map taskID
  have hdeps := dependsOn_congr hperm
  have hnd' := hids.nodup_iff.mpr hnd
  obtain ⟨horder', hleast'⟩ := topoSortTasks_spec hnd'
    (fun t ht => List.Subset.trans (hdecl t (hperm.mem_iff.mp ht)) hids.symm.subset) (by rwa [Acyclic, hdeps])
  have hsame : (topoSortTasks tasks').map taskID = (topoSortTasks tasks).map taskID := by
    rcases hleast _ (completes_of_isOrder hnd ⟨horder'.1.trans hperm, hdeps ▸ horder'.2⟩) with heq | hlt
    · exact heq.symm
    · rcases hleast' _ (completes_of_isOrder hnd' ⟨horder.1.trans hperm.symm, hdeps.symm ▸ horder.2⟩) with heq | hgt
      · exact heq
      · exact absurd hgt (List.lt_asymm hlt)
  rw [← filterMap_lookup hnd fun t ht => hperm.mem_iff.mp (horder'.1.mem_iff.mp ht), hsame,
    filterMap_lookup hnd fun t ht => horder.1.mem_iff.mp ht]

theorem topoSortTasks_fork : IsOrder fork (topoSortTasks fork) ∧ topoSortTasks fork.reverse = topoSortTasks fork := by
  obtain ⟨horder, -, hperm⟩ := topoSortTasks_least wellFormed_fork.distinct wellFormed_fork.declared
    ((wellFounded_iff wellFormed_fork.distinct).mp wellFormed_fork.acyclic)
  exact ⟨horder, hperm _ (reverse_perm _)⟩

end Leoflow.TaskOrder
