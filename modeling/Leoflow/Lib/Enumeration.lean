import Mathlib.Data.Finset.Sort
import Mathlib.Order.Interval.Finset.Basic

/-!
# Enumerating the points of an interval

The points of a half-open interval that satisfy a predicate, taken one at a time from the left: the least
point splits off, and a step over points that do not satisfy the predicate changes nothing.
-/

namespace Leoflow.Lib

variable {α : Type*} [LinearOrder α] [LocallyFiniteOrder α] (p : α → Prop) [DecidablePred p]

/-- The points of `p` after `a` up to `b`. -/
def pointsIn (a b : α) : Finset α := (Finset.Ioc a b).filter p

/-- A finite set from its least element on. -/
abbrev inOrder (s : Finset α) : List α := s.sort

variable {p} {a b c : α}

@[simp] theorem mem_pointsIn {s : α} : s ∈ pointsIn p a b ↔ (a < s ∧ s ≤ b) ∧ p s := by
  rw [pointsIn, Finset.mem_filter, Finset.mem_Ioc]

theorem pointsIn_eq_empty (h : ∀ s, p s → a < s → b < s) : pointsIn p a b = ∅ := by
  refine Finset.eq_empty_of_forall_notMem fun s hs => ?_
  obtain ⟨⟨ha, hb⟩, hp⟩ := mem_pointsIn.mp hs
  exact absurd (h s hp ha) (not_lt.mpr hb)

theorem pointsIn_skip (hac : a ≤ c) (h : ∀ s, p s → a < s → c < s) : pointsIn p a b = pointsIn p c b := by
  ext s
  simp only [mem_pointsIn]
  constructor
  · rintro ⟨⟨ha, hb⟩, hp⟩
    exact ⟨⟨h s hp ha, hb⟩, hp⟩
  · rintro ⟨⟨hc, hb⟩, hp⟩
    exact ⟨⟨lt_of_le_of_lt hac hc, hb⟩, hp⟩

section Least

variable (hp : p c) (hac : a < c) (hleast : ∀ s, p s → a < s → c ≤ s) (hcb : c ≤ b)
include hp hac hleast hcb

theorem pointsIn_least : pointsIn p a b = insert c (pointsIn p c b) := by
  ext s
  simp only [Finset.mem_insert, mem_pointsIn]
  constructor
  · rintro ⟨⟨ha, hb⟩, hs⟩
    rcases (hleast s hs ha).eq_or_lt with rfl | hc
    · exact .inl rfl
    · exact .inr ⟨⟨hc, hb⟩, hs⟩
  · rintro (rfl | ⟨⟨hc, hb⟩, hs⟩)
    · exact ⟨⟨hac, hcb⟩, hp⟩
    · exact ⟨⟨hac.trans hc, hb⟩, hs⟩

theorem card_pointsIn_least : (pointsIn p a b).card = (pointsIn p c b).card + 1 := by
  rw [pointsIn_least hp hac hleast hcb]
  exact Finset.card_insert_of_notMem fun h => lt_irrefl c (mem_pointsIn.mp h).1.1

theorem inOrder_pointsIn_least : inOrder (pointsIn p a b) = c :: inOrder (pointsIn p c b) := by
  rw [pointsIn_least hp hac hleast hcb]
  refine Finset.sort_insert (· ≤ ·) (fun s hs => (mem_pointsIn.mp hs).1.1.le) fun h => ?_
  exact lt_irrefl c (mem_pointsIn.mp h).1.1

end Least

/-- Induction on what is left of the interval up to `top`. -/
@[elab_as_elim]
theorem climb_induction {P : Int → Prop} (top : Int) (step : ∀ c, (∀ d, c < d → d ≤ top → P d) → P c) (c : Int) :
    P c := by
  obtain ⟨n, hn⟩ : ∃ n : Nat, top - c ≤ n := ⟨(top - c).toNat, Int.self_le_toNat _⟩
  induction n generalizing c with
  | zero => exact step c fun d hcd hd => absurd hd (by omega)
  | succ n ih => exact step c fun d hcd hd => ih d (by omega)

end Leoflow.Lib
