import Mathlib.Data.List.Chain
import Mathlib.Data.List.Nodup
import Mathlib.Data.List.Perm.Subperm

/-!
# Depth-first search for a cycle

The three-colour search of a directed graph given by the successors of each node. A node is gray while it is on the
stack; a successor that is gray closes a cycle. The search either reports a cycle of the graph or leaves only nodes
from which every walk ends, and within a finite set that is closed under successors it does not run out of fuel.
-/

namespace Leoflow.Lib

open List Function

/-- The colours of a node during the search. -/
inductive Color where
  | white
  | gray
  | black
deriving DecidableEq

namespace DepthFirst

/-- The state of the search: the colours and the walk from a root to the node being explored. -/
structure Search (α : Type) where
  color : α → Color := fun _ => .white
  stack : List α := []

/-- How a search ends. -/
inductive Result (α : Type) where
  | done (s : Search α)
  | cycle (path : List α)
  | outOfFuel

variable {α : Type} [DecidableEq α]

namespace Search

/-- The search goes into a node. -/
def enter (s : Search α) (x : α) : Search α where
  color := Function.update s.color x .gray
  stack := s.stack ++ [x]

/-- The search is done with a node. -/
def leave (s : Search α) (x : α) : Search α where
  color := Function.update s.color x .black
  stack := s.stack.dropLast

/-- The part of the stack from `x` on, closed by `x`. -/
def closes (s : Search α) (x : α) : List α :=
  match s.stack.idxOf? x with
  | some i => s.stack.drop i ++ [x]
  | none => [x, x]

end Search

/-- The loop over the successors of a node. -/
def explore (visit : Search α → α → Result α) (s : Search α) : List α → Result α
  | [] => .done s
  | x :: xs =>
    match s.color x with
    | .gray => .cycle (s.closes x)
    | .black => explore visit s xs
    | .white =>
      match visit s x with
      | .done s' => explore visit s' xs
      | r => r

/-- Explores a white node. -/
def visit (next : α → List α) : Nat → Search α → α → Result α
  | 0, _, _ => .outOfFuel
  | fuel + 1, s, x =>
    match explore (visit next fuel) (s.enter x) (next x) with
    | .done s' => .done (s'.leave x)
    | r => r

/-- The loop over the roots. -/
def visitAll (visit : Search α → α → Result α) (s : Search α) : List α → Result α
  | [] => .done s
  | x :: xs =>
    if s.color x = .white then
      match visit s x with
      | .done s' => visitAll visit s' xs
      | r => r
    else visitAll visit s xs

/-- The search from the roots, in order. -/
def search (next : α → List α) (fuel : Nat) (roots : List α) : Result α :=
  visitAll (visit next fuel) {} roots

/-! ## What the search keeps -/

/-- A closed walk. -/
structure IsCycle (next : α → List α) (path : List α) : Prop where
  walk : path.IsChain fun x y => y ∈ next x
  closed : ∃ x mid, path = x :: mid ++ [x]

/-- Every walk from `x` ends. -/
abbrev Grounded (next : α → List α) (x : α) : Prop := Acc (fun y x => y ∈ next x) x

/-- The stack is a walk through the gray nodes, within `nodes`, and every black node is grounded. -/
structure Search.Good (next : α → List α) (nodes : List α) (s : Search α) : Prop where
  gray : ∀ {x}, s.color x = .gray ↔ x ∈ s.stack
  nodup : s.stack.Nodup
  within : s.stack ⊆ nodes
  walk : s.stack.IsChain fun x y => y ∈ next x
  black : ∀ {x}, s.color x = .black → Grounded next x

/-- What is asked of a search that started in `s`: where it is done, the stack is as it was, black
nodes stay black and `post` holds. -/
def Result.Meets (next : α → List α) (nodes : List α) (s : Search α) (post : Search α → Prop) : Result α → Prop
  | .done s' => s'.Good next nodes ∧ s'.stack = s.stack ∧ (∀ x, s.color x = .black → s'.color x = .black) ∧ post s'
  | .cycle path => IsCycle next path
  | .outOfFuel => False

section Spec

variable {next : α → List α} {nodes : List α} {s s' : Search α} {x : α}

omit [DecidableEq α] in
/-- A search that goes on where another one stopped. -/
theorem Result.Meets.from {r : Result α} {post post' : Search α → Prop}
    (h : r.Meets next nodes s' post) (hstack : s'.stack = s.stack)
    (hkept : ∀ x, s.color x = .black → s'.color x = .black) (hpost : ∀ t, s'.stack = t.stack →
      (∀ x, s'.color x = .black → t.color x = .black) → post t → post' t) : r.Meets next nodes s post' := by
  cases r with
  | done t =>
    obtain ⟨hgood, hst, hk, hp⟩ := h
    exact ⟨hgood, hst.trans hstack, fun x hx => hk x (hkept x hx), hpost t hst.symm hk hp⟩
  | cycle => exact h
  | outOfFuel => exact h

omit [DecidableEq α] in
theorem Search.Good.not_mem_stack (h : s.Good next nodes) (hx : s.color x = .white) : x ∉ s.stack := by
  intro hm
  rw [h.gray.mpr hm] at hx
  cases hx

/-- An edge to a node on the stack closes a cycle. -/
theorem Search.Good.isCycle_closes (h : s.Good next nodes) (hx : s.color x = .gray)
    (hedge : ∀ y ∈ s.stack.getLast?, x ∈ next y) : IsCycle next (s.closes x) := by
  obtain ⟨before, after, hstack⟩ := append_of_mem (h.gray.mp hx)
  have hnot : x ∉ before := by
    intro hm
    have hnd := h.nodup
    rw [hstack] at hnd
    exact (nodup_append.mp hnd).2.2 x hm x mem_cons_self rfl
  have hidx : s.stack.idxOf? x = some before.length := by
    rw [hstack, List.idxOf?_eq_some_iff]
    refine ⟨by simp, by simp, fun j hj => ?_⟩
    rw [getElem_append_left hj]
    have hne : before[j] ≠ x := by
      rintro rfl
      exact hnot (getElem_mem hj)
    simpa using hne
  have hcloses : s.closes x = x :: after ++ [x] := by
    unfold Search.closes
    rw [hidx]
    dsimp only
    rw [hstack, drop_left]
  refine ⟨?_, x, after, hcloses⟩
  rw [hcloses, isChain_append]
  have hwalk := h.walk
  rw [hstack] at hwalk hedge
  refine ⟨hwalk.right_of_append, isChain_singleton x, fun y hy z hz => ?_⟩
  cases hz
  refine hedge y ?_
  rwa [List.getLast?_append_of_ne_nil _ (cons_ne_nil _ _)]

theorem Search.Good.enter (h : s.Good next nodes) (hw : s.color x = .white) (hx : x ∈ nodes)
    (hedge : ∀ y ∈ s.stack.getLast?, x ∈ next y) : (s.enter x).Good next nodes where
  gray {y} := by
    simp only [Search.enter, update_apply, mem_append, mem_singleton]
    split
    · simp_all
    · simp_all [h.gray]
  nodup := by
    simp only [Search.enter, nodup_append, mem_singleton, nodup_cons,
      not_mem_nil, not_false_iff, nodup_nil, and_true, true_and]
    refine ⟨h.nodup, ?_⟩
    rintro y hy _ rfl rfl
    exact h.not_mem_stack hw hy
  within y hy := by
    rcases mem_append.mp hy with hy | hy
    · exact h.within hy
    · rwa [mem_singleton.mp hy]
  walk := by
    simp only [Search.enter, isChain_append]
    refine ⟨h.walk, isChain_singleton x, fun y hy z hz => ?_⟩
    cases hz
    exact hedge y hy
  black {y} hy := by
    simp only [Search.enter, update_apply] at hy
    split at hy
    · cases hy
    · exact h.black hy

/-- A node whose successors are all black is explored. -/
theorem Search.Good.leave (h : s'.Good next nodes) (hw : s.color x = .white)
    (hs : s.Good next nodes) (hstack : s'.stack = s.stack ++ [x])
    (hnext : ∀ y ∈ next x, s'.color y = .black) : (s'.leave x).Good next nodes := by
  have hst : (s'.leave x).stack = s.stack := by
    simp [Search.leave, hstack]
  refine ⟨fun {y} => ?_, hst ▸ hs.nodup, hst ▸ hs.within, hst ▸ hs.walk, fun {y} hy => ?_⟩
  · rw [hst]
    simp only [Search.leave, update_apply]
    split
    next hyx =>
      rw [hyx]
      exact ⟨fun hc => (by cases hc), fun hm => absurd hm (hs.not_mem_stack hw)⟩
    next hyx =>
      rw [h.gray, hstack]
      simp [hyx]
  · simp only [Search.leave, update_apply] at hy
    split at hy
    next hyx =>
      rw [hyx]
      exact Acc.intro x fun z hz => h.black (hnext z hz)
    · exact h.black hy

/-! ## The loops -/

/-- The loop over the successors. -/
theorem explore_spec {visit : Search α → α → Result α}
    (hvisit : ∀ t x, t.Good next nodes → t.stack = s.stack → t.color x = .white → x ∈ nodes →
      (∀ y ∈ s.stack.getLast?, x ∈ next y) → (visit t x).Meets next nodes t fun t' => t'.color x = .black)
    (hs : s.Good next nodes) {xs : List α} (hxs : xs ⊆ nodes) (hedge : ∀ x ∈ xs, ∀ y ∈ s.stack.getLast?, x ∈ next y) :
    (explore visit s xs).Meets next nodes s fun t => ∀ x ∈ xs, t.color x = .black := by
  induction xs generalizing s with
  | nil => exact ⟨hs, rfl, fun _ hx => hx, fun _ hx => by cases hx⟩
  | cons x xs ih =>
    have hrest : xs ⊆ nodes := fun y hy => hxs (mem_cons_of_mem x hy)
    have hedge' : ∀ y ∈ xs, ∀ z ∈ s.stack.getLast?, y ∈ next z :=
      fun y hy => hedge y (mem_cons_of_mem x hy)
    unfold explore
    cases hc : s.color x with
    | gray => exact hs.isCycle_closes hc (hedge x mem_cons_self)
    | black =>
      refine (ih hvisit hs hrest hedge').from rfl (fun _ hy => hy) fun t _ hk hp => ?_
      exact forall_mem_cons.mpr ⟨hk x hc, hp⟩
    | white =>
      have hv := hvisit s x hs rfl hc (hxs mem_cons_self) (hedge x mem_cons_self)
      dsimp only
      cases hr : visit s x with
      | cycle =>
        rw [hr] at hv
        exact hv
      | outOfFuel =>
        rw [hr] at hv
        exact hv.elim
      | done s1 =>
        rw [hr] at hv
        obtain ⟨hgood, hstack, hkept, hblack⟩ := hv
        rw [← hstack] at hvisit hedge'
        refine (ih hvisit hgood hrest hedge').from hstack hkept fun t _ hk hp => ?_
        exact forall_mem_cons.mpr ⟨hk x hblack, hp⟩

/-- The visit of a white node ends with it black, or finds a cycle. -/
theorem visit_spec (hclosed : ∀ x ∈ nodes, next x ⊆ nodes) {fuel : Nat} (hs : s.Good next nodes)
    (hw : s.color x = .white) (hx : x ∈ nodes) (hedge : ∀ y ∈ s.stack.getLast?, x ∈ next y)
    (hfuel : nodes.length ≤ s.stack.length + fuel) :
    (visit next fuel s x).Meets next nodes s fun t => t.color x = .black := by
  have henter := hs.enter hw hx hedge
  induction fuel generalizing s x with
  | zero =>
    have hle := (subperm_of_subset henter.nodup henter.within).length_le
    simp only [Search.enter, length_append, length_singleton] at hle
    omega
  | succ fuel ih =>
    unfold visit
    have hexp : (explore (visit next fuel) (s.enter x) (next x)).Meets next nodes (s.enter x)
        fun t => ∀ y ∈ next x, t.color y = .black := by
      refine explore_spec (fun t y ht hstack hy hmem hey => ?_) henter (hclosed x hx) fun y hy z hz => ?_
      · rw [← hstack] at hey
        refine ih ht hy hmem hey ?_ (ht.enter hy hmem hey)
        rw [hstack]
        simp only [Search.enter, length_append, length_singleton]
        omega
      · simp only [Search.enter, List.getLast?_append, List.getLast?_singleton, Option.some_or,
          Option.mem_some_iff] at hz
        rwa [← hz]
    cases hr : explore (visit next fuel) (s.enter x) (next x) with
    | cycle =>
      rw [hr] at hexp
      exact hexp
    | outOfFuel =>
      rw [hr] at hexp
      exact hexp.elim
    | done t =>
      rw [hr] at hexp
      obtain ⟨hgood, hstack, hkept, hblack⟩ := hexp
      refine ⟨hgood.leave hw hs hstack hblack, ?_, fun y hy => ?_, ?_⟩
      · simp [Search.leave, hstack, Search.enter]
      · simp only [Search.leave, update_apply]
        split
        · rfl
        next hne =>
          refine hkept y ?_
          simpa [Search.enter, hne] using hy
      · simp [Search.leave]

omit [DecidableEq α] in

/-- The search from every node. -/
theorem visitAll_spec {visit : Search α → α → Result α}
    (hvisit : ∀ t x, t.Good next nodes → t.stack = [] → t.color x = .white → x ∈ nodes →
      (visit t x).Meets next nodes t fun t' => t'.color x = .black)
    (hs : s.Good next nodes) (hstack : s.stack = []) {xs : List α} (hxs : xs ⊆ nodes) :
    (visitAll visit s xs).Meets next nodes s fun t => ∀ x ∈ xs, t.color x = .black := by
  induction xs generalizing s with
  | nil => exact ⟨hs, rfl, fun _ hx => hx, fun _ hx => by cases hx⟩
  | cons x xs ih =>
    have hrest : xs ⊆ nodes := fun y hy => hxs (mem_cons_of_mem x hy)
    unfold visitAll
    split
    next hw =>
      have hv := hvisit s x hs hstack hw (hxs mem_cons_self)
      cases hr : visit s x with
      | cycle =>
        rw [hr] at hv
        exact hv
      | outOfFuel =>
        rw [hr] at hv
        exact hv.elim
      | done s1 =>
        rw [hr] at hv
        obtain ⟨hgood, hst, hkept, hblack⟩ := hv
        refine (ih hgood (hst.trans hstack) hrest).from hst hkept fun t _ hk hp => ?_
        exact forall_mem_cons.mpr ⟨hk x hblack, hp⟩
    · -- With an empty stack nothing is gray.
      rename_i hw
      have hblack : s.color x = .black := by
        cases hc : s.color x with
        | white => exact absurd hc hw
        | gray =>
          have hm := hs.gray.mp hc
          rw [hstack] at hm
          cases hm
        | black => rfl
      refine (ih hs hstack hrest).from rfl (fun _ hy => hy) fun t _ hk hp => ?_
      exact forall_mem_cons.mpr ⟨hk x hblack, hp⟩

end Spec

/-! ## The search -/

section Search

variable {next : α → List α} {nodes roots : List α} {fuel : Nat}

theorem search_spec (hclosed : ∀ x ∈ nodes, next x ⊆ nodes) (hroots : roots ⊆ nodes) (hfuel : nodes.length ≤ fuel) :
    (search next fuel roots).Meets next nodes {} fun s => ∀ x ∈ roots, s.color x = .black := by
  refine visitAll_spec (fun t x ht hstack hw hx => ?_) ?_ rfl hroots
  · refine visit_spec hclosed ht hw hx (fun y hy => ?_) ?_
    · rw [hstack] at hy
      cases hy
    · rw [hstack, length_nil, Nat.zero_add]
      exact hfuel
  · exact ⟨⟨fun hc => (by cases hc), fun hm => (by cases hm)⟩, nodup_nil, nil_subset _, .nil, fun hc => (by cases hc)⟩

omit [DecidableEq α] in
/-- A closed walk passes only through nodes that are not grounded. -/
theorem IsCycle.not_grounded {path : List α} (h : IsCycle next path) : ∃ x, ¬ Grounded next x := by
  obtain ⟨x, mid, hpath⟩ := h.closed
  refine ⟨x, fun hx => ?_⟩
  -- By induction on accessibility: the second node of the walk is below `x` and on a cycle itself.
  have hwalk := h.walk
  rw [hpath] at hwalk
  clear hpath h
  induction hx generalizing mid with
  | intro x _ ih =>
    cases mid with
    | nil =>
      have hself : x ∈ next x := isChain_pair.mp hwalk
      exact ih x hself [] hwalk
    | cons y mid =>
      obtain ⟨hxy, hrest⟩ := isChain_cons_cons.mp hwalk
      refine ih y hxy (mid ++ [x]) ?_
      refine isChain_append.mpr ⟨hrest, isChain_singleton y, fun z hz w hw => ?_⟩
      cases hw
      rw [List.getLast?_cons, List.getLast?_append] at hz
      simp only [List.getLast?_singleton, Option.some_or, Option.getD_some, Option.mem_some_iff] at hz
      rwa [← hz]

end Search

end DepthFirst

end Leoflow.Lib
