import Mathlib.Data.List.Basic
import Mathlib.Logic.Relation

/-!
# Marking walks

The recursive walk over a directed graph that marks what it meets and does not enter a marked node
again. The marks are shared by all walks of a caller, so a walk may start among marks another one
left: it then explores what it marks itself, and nothing behind the nodes it finds marked.
-/

namespace Leoflow.Lib.Marking

open Relation (TransGen ReflTransGen)
open List

variable {α : Type} [DecidableEq α]

/-- Walk from each node that has no mark yet. -/
def enterAll (walk : List α → α → List α) (marked : List α) : List α → List α
  | [] => marked
  | y :: ys => enterAll walk (if y ∈ marked then marked else walk (y :: marked) y) ys

/-- Mark everything that is reached from a node, as far as the fuel lasts. -/
def walk (adj : α → List α) : Nat → List α → α → List α
  | 0, marked, _ => marked
  | fuel + 1, marked, x => enterAll (walk adj fuel) marked (adj x)

/-- What a walk over the nodes `xs`, entered from marks `m`, is to leave: the marks, `xs` marked, nothing marked
that is not behind `xs`, and nothing open behind a node it marked itself. -/
structure Explores (adj : α → List α) (m : List α) (xs : List α) (m' : List α) : Prop where
  grows : m ⊆ m'
  enters : xs ⊆ m'
  sound : ∀ y ∈ m', y ∈ m ∨ ∃ x ∈ xs, ReflTransGen (fun a b => b ∈ adj a) x y
  closed : ∀ y ∈ m', y ∉ m → adj y ⊆ m'

/-- How many nodes have no mark. -/
def fresh (nodes marked : List α) : Nat := (nodes.filter (· ∉ marked)).length

theorem fresh_le {nodes m m' : List α} (h : m ⊆ m') : fresh nodes m' ≤ fresh nodes m := by
  unfold fresh
  rw [← countP_eq_length_filter, ← countP_eq_length_filter]
  apply countP_mono_left
  intro y _ hy
  have hnot : y ∉ m' := by simpa using hy
  simpa using fun hm => hnot (h hm)

theorem fresh_cons_lt {nodes m : List α} {y : α} (hy : y ∈ nodes) (hm : y ∉ m) :
    fresh nodes (y :: m) < fresh nodes m := by
  unfold fresh
  rw [← countP_eq_length_filter, ← countP_eq_length_filter]
  obtain ⟨before, after, rfl⟩ := append_of_mem hy
  have hle : ∀ l : List α, l.countP (fun z => decide (z ∉ y :: m)) ≤ l.countP (fun z => decide (z ∉ m)) := by
    intro l
    apply countP_mono_left
    intro z _ hz
    simp only [mem_cons, not_or, decide_eq_true_eq] at hz ⊢
    exact hz.2
  have hb := hle before
  have ha := hle after
  have hself : decide (y ∉ y :: m) = false := by simp
  have hout : decide (y ∉ m) := by simpa using hm
  simp only [countP_append, countP_cons, hself, hout, Bool.false_eq_true, if_false, if_true]
  omega

section Spec

variable {adj : α → List α} {nodes : List α}

theorem Explores.append {m m' m'' xs ys : List α} (h : Explores adj m xs m')
    (h' : Explores adj m' ys m'') : Explores adj m (xs ++ ys) m'' where
  grows := List.Subset.trans h.grows h'.grows
  enters := append_subset.mpr ⟨List.Subset.trans h.enters h'.grows, h'.enters⟩
  sound y hy := by
    rcases h'.sound y hy with hy | ⟨x, hx, hr⟩
    · rcases h.sound y hy with hy | ⟨x, hx, hr⟩
      · exact .inl hy
      · exact .inr ⟨x, mem_append_left _ hx, hr⟩
    · exact .inr ⟨x, mem_append_right _ hx, hr⟩
  closed y hy hm := by
    by_cases hy' : y ∈ m'
    · exact List.Subset.trans (h.closed y hy' hm) h'.grows
    · exact h'.closed y hy hy'

omit [DecidableEq α] in
theorem Explores.of_mem {m : List α} {x : α} (hx : x ∈ m) : Explores adj m [x] m where
  grows := List.Subset.refl m
  enters := cons_subset.mpr ⟨hx, nil_subset m⟩
  sound _ hy := .inl hy
  closed _ hy hm := absurd hy hm

/-- A node is explored by marking it and walking over its successors. -/
theorem Explores.enter {m m' : List α} {x : α} (h : Explores adj (x :: m) (adj x) m') : Explores adj m [x] m' where
  grows := List.Subset.trans (subset_cons_self x m) h.grows
  enters := cons_subset.mpr ⟨h.grows mem_cons_self, nil_subset m'⟩
  sound y hy := by
    rcases h.sound y hy with hy | ⟨z, hz, hr⟩
    · rcases mem_cons.mp hy with rfl | hy
      · exact .inr ⟨y, mem_cons_self, .refl⟩
      · exact .inl hy
    · exact .inr ⟨x, mem_cons_self, .head hz hr⟩
  closed y hy hm := by
    by_cases hyx : y = x
    · subst hyx
      exact h.enters
    · apply h.closed y hy
      intro hc
      rcases mem_cons.mp hc with hc | hc
      · exact hyx hc
      · exact hm hc

theorem enterAll_explores {walk : List α → α → List α} {bound : Nat}
    (hwalk : ∀ m x, x ∈ nodes → fresh nodes m < bound → Explores adj m (adj x) (walk m x))
    (xs : List α) : ∀ m, xs ⊆ nodes → fresh nodes m ≤ bound → Explores adj m xs (enterAll walk m xs) := by
  induction xs with
  | nil =>
    intro m _ _
    exact ⟨List.Subset.refl m, nil_subset m, fun _ hy => .inl hy, fun _ hy hm => absurd hy hm⟩
  | cons x xs ih =>
    intro m hxs hm
    obtain ⟨hx, hxs⟩ := cons_subset.mp hxs
    have hfirst : Explores adj m [x] (if x ∈ m then m else walk (x :: m) x) := by
      split
      next hmem =>
        exact .of_mem hmem
      next hmem =>
        have hlt := fresh_cons_lt hx hmem
        exact .enter (hwalk (x :: m) x hx (by omega))
    exact hfirst.append (ih _ hxs (Nat.le_trans (fresh_le hfirst.grows) hm))

/-- Within a finite set that is closed under successors a walk explores the successors of its node. -/
theorem walk_explores (hclosed : ∀ x ∈ nodes, adj x ⊆ nodes) (fuel : Nat) :
    ∀ m x, x ∈ nodes → fresh nodes m < fuel → Explores adj m (adj x) (walk adj fuel m x) := by
  induction fuel with
  | zero =>
    intro m x _ hlt
    omega
  | succ fuel ih =>
    intro m x hx hlt
    exact enterAll_explores ih (adj x) m (hclosed x hx) (by omega)

end Spec

end Leoflow.Lib.Marking
