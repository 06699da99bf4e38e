import Leoflow.Api.Clear

/-!
# The expansion of a clear along the graph

What `expandTaskIDs` selects: the seeds, with what lies upstream of one and what lies downstream of
one. The two walks share their marks, so a task that a walk in one direction has marked is not walked
from in the other. Where no task outside the seeds lies on both sides of them the result is the
closure all the same.
-/

namespace Leoflow

open Lib (GoMap)
open Lib.GoMap
open Lib.Marking (Explores walk_explores fresh)
open Relation (TransGen ReflTransGen)

variable {id dep : String}

/-- A task depends on another. -/
def DependsOn (tasks : List TaskSpec) (id dep : String) : Prop :=
  ∃ t ∈ tasks, t.taskID = id ∧ dep ∈ t.dependsOn

/-- A task some seed depends on. -/
def Above (tasks : List TaskSpec) (seeds : List String) (id : String) : Prop :=
  ∃ seed ∈ seeds, TransGen (DependsOn tasks) seed id

/-- A task that depends on some seed. -/
def Below (tasks : List TaskSpec) (seeds : List String) (id : String) : Prop :=
  ∃ seed ∈ seeds, TransGen (DependsOn tasks) id seed

/-- A task is a seed, or above or below one as far as the flags go. -/
def InClosure (tasks : List TaskSpec) (seeds : List String) (up down : Bool) (id : String) : Prop :=
  id ∈ seeds ∨ (up ∧ Above tasks seeds id) ∨ (down ∧ Below tasks seeds id)

/-- No task outside the seeds is upstream of one and downstream of another, or only one direction is
asked for. -/
def Separated (tasks : List TaskSpec) (seeds : List String) (up down : Bool) : Prop :=
  up → down → ∀ id, Above tasks seeds id → Below tasks seeds id → id ∈ seeds

/-! ## The two maps -/

theorem mem_dependencies {tasks : List TaskSpec} (hnd : (tasks.map TaskSpec.taskID).Nodup) :
    dep ∈ (dependencies tasks).getD id [] ↔ DependsOn tasks id dep := by
  unfold getD dependencies
  constructor
  · intro h
    cases hl : (collect TaskSpec.taskID (fun t => some t.dependsOn) tasks).lookup id with
    | none =>
      rw [hl] at h
      cases h
    | some deps =>
      rw [hl] at h
      obtain ⟨t, ht, hid, hdeps⟩ := mem_of_lookup_collect hl
      refine ⟨t, ht, hid, ?_⟩
      rw [Option.some.inj hdeps]
      exact h
  · rintro ⟨t, ht, rfl, hdep⟩
    rw [lookup_collect hnd ht]
    exact hdep

theorem mem_addChild {deps : List String} {m : GoMap (List String)} {child : String} :
    id ∈ getD (deps.foldl (fun m d => m.insert d (getD m d [] ++ [child])) m) dep [] ↔
      id ∈ getD m dep [] ∨ (id = child ∧ dep ∈ deps) := by
  induction deps generalizing m with
  | nil => simp
  | cons d deps ih =>
    rw [List.foldl_cons, ih, getD_insert]
    by_cases hd : dep = d
    · subst hd
      rw [if_pos rfl, List.mem_append, List.mem_singleton]
      simp only [List.mem_cons, true_or, and_true, or_assoc]
      tauto
    · simp [hd]

theorem mem_childrenOf {tasks : List TaskSpec} : id ∈ (childrenOf tasks).getD dep [] ↔ DependsOn tasks id dep := by
  have hloop : ∀ (tasks : List TaskSpec) (m : GoMap (List String)), id ∈ getD (tasks.foldl (fun m t => t.dependsOn.foldl
        (fun m d => m.insert d (getD m d [] ++ [t.taskID])) m) m) dep [] ↔
        id ∈ getD m dep [] ∨ DependsOn tasks id dep := by
    intro tasks
    induction tasks with
    | nil => simp [DependsOn]
    | cons t tasks ih =>
      intro m
      rw [List.foldl_cons, ih, mem_addChild]
      unfold DependsOn
      rw [List.exists_mem_cons_iff, or_assoc, eq_comm]
  rw [childrenOf, hloop]
  simp [getD]

/-! ## The walks -/

section Walks

variable {tasks : List TaskSpec} {seeds : List String}

theorem mem_walkedIDs_of_dependsOn (h : DependsOn tasks id dep) :
    id ∈ walkedIDs tasks seeds ∧ dep ∈ walkedIDs tasks seeds := by
  obtain ⟨t, ht, rfl, hdep⟩ := h
  constructor
  · exact List.mem_append_right _ (List.mem_flatMap.mpr ⟨t, ht, List.mem_cons_self⟩)
  · exact List.mem_append_right _ (List.mem_flatMap.mpr ⟨t, ht, List.mem_cons_of_mem _ hdep⟩)

/-- What a walk along `edge` from a seed, taken if `gate` is set, makes of the marks. -/
structure Walked (edge : String → String → Prop) (gate : Bool) (seed : String) (m m' : List String) : Prop where
  grows : m ⊆ m'
  sound : ∀ id ∈ m', id ∈ m ∨ (gate ∧ TransGen edge seed id)
  closed : gate → ∀ id ∈ m', id = seed ∨ id ∉ m → ∀ next, edge id next → next ∈ m'

theorem walked_of_adj (adj : String → List String) (edge : String → String → Prop)
    (hadj : ∀ x y, y ∈ adj x ↔ edge x y) (hnodes : ∀ x y, edge x y → y ∈ walkedIDs tasks seeds)
    (gate : Bool) {seed : String} (hseed : seed ∈ seeds) (m : List String) : Walked edge gate seed m (if gate then
      Lib.Marking.walk adj ((walkedIDs tasks seeds).length + 1) m seed else m) := by
  cases gate with
  | false => exact ⟨List.Subset.refl m, fun id hid => .inl hid, fun h => (by cases h)⟩
  | true =>
    have hmem : seed ∈ walkedIDs tasks seeds := List.mem_append_left _ hseed
    have hfuel : fresh (walkedIDs tasks seeds) m < (walkedIDs tasks seeds).length + 1 :=
      Nat.lt_succ_of_le (List.length_filter_le _ _)
    have hclosed : ∀ x ∈ walkedIDs tasks seeds, adj x ⊆ walkedIDs tasks seeds := fun x _ y hy =>
      hnodes x y ((hadj x y).mp hy)
    have hex := walk_explores hclosed _ m seed hmem hfuel
    constructor
    · exact hex.grows
    · intro id hid
      rcases hex.sound id hid with hid | ⟨x, hx, hr⟩
      · exact .inl hid
      · exact .inr ⟨rfl, .head' ((hadj seed x).mp hx) (ReflTransGen.mono (fun a b => (hadj a b).mp) _ _ hr)⟩
    · intro _ id hid hcase next hnext
      rcases hcase with rfl | hnot
      · exact hex.enters ((hadj id next).mpr hnext)
      · exact hex.closed id hid hnot ((hadj id next).mpr hnext)

end Walks

/-! ## The loop over the seeds -/

section Loop

variable {tasks : List TaskSpec} {seeds : List String} {up down : Bool}

/-- The marks when the walks of the seeds `done` are over: nothing but the closure, the seeds done, and nothing
open beyond a task in the direction of a walk that entered it. A seed can be marked before its own walks. -/
structure Expanded (tasks : List TaskSpec) (seeds : List String) (up down : Bool)
    (done marked : List String) : Prop where
  within : ∀ id ∈ marked, InClosure tasks seeds up down id
  marks : done ⊆ marked
  above : up → ∀ id ∈ marked, id ∈ done ∨ (id ∉ seeds ∧ Above tasks seeds id) →
    ∀ dep, DependsOn tasks id dep → dep ∈ marked
  below : down → ∀ id ∈ marked, id ∈ done ∨ (id ∉ seeds ∧ Below tasks seeds id) →
    ∀ child, DependsOn tasks child id → child ∈ marked

theorem expandSeed_walked (hnd : (tasks.map TaskSpec.taskID).Nodup) {seed : String}
    (hseed : seed ∈ seeds) (up down : Bool) (marked : List String) : ∃ m,
      Walked (DependsOn tasks) up seed (marked.insert seed) m ∧ Walked (fun x y => DependsOn tasks y x) down seed m
        (expandSeed tasks ((walkedIDs tasks seeds).length + 1) up down marked seed) := by
  have hup := walked_of_adj _ (DependsOn tasks) (fun _ _ => mem_dependencies hnd)
    (fun _ _ hxy => (mem_walkedIDs_of_dependsOn hxy).2) up hseed (marked.insert seed)
  have hdown := walked_of_adj _ (fun x y => DependsOn tasks y x) (fun _ _ => mem_childrenOf)
    (fun _ _ hxy => (mem_walkedIDs_of_dependsOn hxy).1) down hseed
  exact ⟨_, hup, hdown _⟩

/-- One turn of the loop over the seeds: the walk of a seed marks its part of the closure. -/
theorem Expanded.step (hnd : (tasks.map TaskSpec.taskID).Nodup)
    (hsep : Separated tasks seeds up down) {done marked : List String}
    (h : Expanded tasks seeds up down done marked) {seed : String} (hseed : seed ∈ seeds) :
    Expanded tasks seeds up down (done ++ [seed])
      (expandSeed tasks ((walkedIDs tasks seeds).length + 1) up down marked seed) := by
  obtain ⟨m, hup, hdown⟩ := expandSeed_walked hnd hseed up down marked
  generalize expandSeed tasks ((walkedIDs tasks seeds).length + 1) up down marked seed = m' at hdown ⊢
  have hkept : marked ⊆ m' := fun id hid =>
    hdown.grows (hup.grows (List.mem_insert_of_mem hid))
  have habove : ∀ id ∈ m, id ∈ marked ∨ id = seed ∨ (up ∧ Above tasks seeds id) := by
    intro id hid
    rcases hup.sound id hid with hid | ⟨hu, hr⟩
    · rcases List.mem_insert_iff.mp hid with rfl | hid
      · exact .inr (.inl rfl)
      · exact .inl hid
    · exact .inr (.inr ⟨hu, seed, hseed, hr⟩)
  have hbelow : ∀ id ∈ m', id ∈ m ∨ (down ∧ Below tasks seeds id) := by
    intro id hid
    rcases hdown.sound id hid with hid | ⟨hd, hr⟩
    · exact .inl hid
    · exact .inr ⟨hd, seed, hseed, Relation.transGen_swap.mp hr⟩
  have hdone : ∀ id ∈ done ++ [seed], id ∈ m := by
    intro id hid
    apply hup.grows
    rcases List.mem_append.mp hid with hid | hid
    · exact List.mem_insert_of_mem (h.marks hid)
    · rw [List.mem_singleton.mp hid]
      exact List.mem_insert_self
  have hbefore : ∀ {id} {P : Prop}, id ≠ seed → id ∈ done ++ [seed] ∨ P → id ∈ done ∨ P := by
    intro id P hne hcase
    simpa [hne] using hcase
  constructor
  · intro id hid
    rcases hbelow id hid with hid | hb
    · rcases habove id hid with hid | rfl | ha
      · exact h.within id hid
      · exact .inl hseed
      · exact .inr (.inl ha)
    · exact .inr (.inr hb)
  · exact fun id hid => hdown.grows (hdone id hid)
  · intro hu id hid hcase dep hdep
    by_cases hold : id ∈ marked ∧ id ≠ seed
    · exact hkept (h.above hu id hold.1 (hbefore hold.2 hcase) dep hdep)
    · have hnew : id = seed ∨ id ∉ marked.insert seed := by
        grind
      rcases hbelow id hid with hm | ⟨hd, hb⟩
      · exact hdown.grows (hup.closed hu id hm hnew dep hdep)
      · rcases hcase with hcase | ⟨hout, ha⟩
        · exact hdown.grows (hup.closed hu id (hdone id hcase) hnew dep hdep)
        · exact absurd (hsep hu hd id ha hb) hout
  · intro hd id hid hcase child hchild
    by_cases hold : id ∈ marked ∧ id ≠ seed
    · exact hkept (h.below hd id hold.1 (hbefore hold.2 hcase) child hchild)
    · by_cases hnew : id = seed ∨ id ∉ m
      · exact hdown.closed hd id hid hnew child hchild
      · -- marked by the upward walk, so above a seed
        simp only [not_or, not_not] at hnew
        rcases habove id hnew.2 with hm | hs | ⟨hu, ha⟩
        · exact absurd ⟨hm, hnew.1⟩ hold
        · exact absurd hs hnew.1
        · rcases hbefore hnew.1 hcase with hm | ⟨hout, hb⟩
          · exact absurd ⟨h.marks hm, hnew.1⟩ hold
          · exact absurd (hsep hu hd id ha hb) hout

theorem Expanded.complete {marked : List String} (h : Expanded tasks seeds up down seeds marked)
    (hid : InClosure tasks seeds up down id) : id ∈ marked := by
  have hopen : ∀ {P : String → Prop} {x : String}, P x → x ∈ seeds ∨ (x ∉ seeds ∧ P x) := by
    intro P x hx
    by_cases hmem : x ∈ seeds
    · exact .inl hmem
    · exact .inr ⟨hmem, hx⟩
  rcases hid with hid | ⟨hu, seed, hseed, hr⟩ | ⟨hd, seed, hseed, hr⟩
  · exact h.marks hid
  · induction hr with
    | single hdep => exact h.above hu seed (h.marks hseed) (.inl hseed) _ hdep
    | tail hr hdep ih => exact h.above hu _ ih (hopen ⟨seed, hseed, hr⟩) _ hdep
  · induction hr using TransGen.head_induction_on with
    | single hdep => exact h.below hd seed (h.marks hseed) (.inl hseed) _ hdep
    | head hdep hr ih => exact h.below hd _ ih (hopen ⟨seed, hseed, hr⟩) _ hdep

theorem mem_expandTaskIDs (hnd : (tasks.map TaskSpec.taskID).Nodup) (hsep : Separated tasks seeds up down) :
    id ∈ expandTaskIDs tasks seeds up down ↔ InClosure tasks seeds up down id := by
  have hloop : ∀ (todo done marked : List String), todo ⊆ seeds →
      Expanded tasks seeds up down done marked → Expanded tasks seeds up down (done ++ todo)
        (todo.foldl (expandSeed tasks ((walkedIDs tasks seeds).length + 1) up down) marked) := by
    intro todo
    induction todo with
    | nil =>
      intro done marked _ h
      rw [List.append_nil]
      exact h
    | cons seed todo ih =>
      intro done marked hsub h
      obtain ⟨hseed, hsub⟩ := List.cons_subset.mp hsub
      have hrest := ih (done ++ [seed]) _ hsub (h.step hnd hsep hseed)
      rw [List.append_assoc] at hrest
      exact hrest
  have hend := hloop seeds [] [] (List.Subset.refl seeds)
    ⟨fun _ h => (by cases h), List.nil_subset _, fun _ _ h => (by cases h), fun _ _ h => (by cases h)⟩
  constructor
  · exact hend.within id
  · exact hend.complete

end Loop

/-! ## The request -/

namespace ClearRequest

/-- The tasks a request asks for, along the dependencies of `tasks`. -/
def Selects (body : ClearRequest) (tasks : List TaskSpec) (id : String) : Prop :=
  InClosure tasks body.taskIDs body.includeUpstream body.includeDownstream id

end ClearRequest

/-- The tasks of the DAG's current version, none if it has no current version. -/
def Tables.currentTasks (T : Tables) (dag : Dag) : List TaskSpec :=
  ((T.getCurrentSpec dag).map DAGSpec.tasks).getD []

theorem not_dependsOn_nil : ¬ DependsOn [] id dep := by
  rintro ⟨t, ht, -⟩
  cases ht

theorem inClosure_nil {seeds : List String} {up down : Bool} : InClosure [] seeds up down id ↔ id ∈ seeds := by
  have hnone : ∀ {x y}, ¬ TransGen (DependsOn []) x y := by
    intro x y h
    obtain ⟨z, hz, -⟩ := TransGen.head'_iff.mp h
    exact not_dependsOn_nil hz
  constructor
  · rintro (h | ⟨-, seed, -, h⟩ | ⟨-, seed, -, h⟩)
    · exact h
    · exact absurd h hnone
    · exact absurd h hnone
  · exact .inl

theorem inClosure_no_direction {tasks : List TaskSpec} {seeds : List String} :
    InClosure tasks seeds false false id ↔ id ∈ seeds := by
  simp [InClosure]

theorem inClosure_no_seeds {tasks : List TaskSpec} {up down : Bool} : ¬ InClosure tasks [] up down id := by
  simp [InClosure, Above, Below]

section

variable {T : Tables} {dag : Dag} {body : ClearRequest}
  (hsep : Separated (T.currentTasks dag) body.taskIDs body.includeUpstream body.includeDownstream)
include hsep

theorem mem_expandClearTasks :
    id ∈ expandClearTasks (T.getCurrentSpec dag) body ↔ body.Selects (T.currentTasks dag) id := by
  unfold expandClearTasks ClearRequest.Selects
  split
  next hseeds =>
    simp only [Bool.or_eq_true, List.isEmpty_iff, Bool.and_eq_true, Bool.not_eq_true'] at hseeds
    rcases hseeds with hnil | ⟨hup, hdown⟩
    · rw [hnil]
      exact ⟨fun h => (by cases h), fun h => absurd h inClosure_no_seeds⟩
    · rw [hup, hdown, inClosure_no_direction]
  · unfold Tables.currentTasks at hsep ⊢
    cases hspec : T.getCurrentSpec dag with
    | none => exact inClosure_nil.symm
    | some spec =>
      rw [hspec] at hsep
      exact mem_expandTaskIDs spec.distinct hsep

theorem expandClearTasks_eq_nil : expandClearTasks (T.getCurrentSpec dag) body = [] ↔ body.taskIDs = [] := by
  constructor
  · intro h
    cases hids : body.taskIDs with
    | nil => rfl
    | cons seed seeds =>
      have hseed : seed ∈ body.taskIDs := by
        rw [hids]
        exact List.mem_cons_self
      have hmem := (mem_expandClearTasks hsep).mpr (.inl hseed)
      rw [h] at hmem
      cases hmem
  · intro h
    unfold expandClearTasks
    rw [h]
    rfl

end

end Leoflow
