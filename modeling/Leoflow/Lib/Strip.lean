import Mathlib.Data.List.TakeWhile

/-!
# Lists without their margins

`strip p l` is `l` without the elements at both ends that satisfy `p`; `trimSpace` takes the white space off a text.
-/

namespace Leoflow.Lib

open List

variable {α β : Type}

/-- The list without what satisfies `p` at its ends. -/
def strip (p : α → Bool) (l : List α) : List α := ((l.dropWhile p).reverse.dropWhile p).reverse

/-- Go's `unicode.IsSpace`. -/
def isSpace (c : Char) : Bool :=
  ('\t' ≤ c && c ≤ '\r') || [0x20, 0x85, 0xa0, 0x1680, 0x2028, 0x2029, 0x202f, 0x205f, 0x3000].contains c.val
    || (0x2000 ≤ c.val && c.val ≤ 0x200a)

/-- Go's `strings.TrimSpace`. -/
def trimSpace (s : String) : String := String.ofList (strip isSpace s.toList)

theorem strip_map (p : β → Bool) (f : α → β) (l : List α) : strip p (l.map f) = (strip (p ∘ f) l).map f := by
  rw [strip, dropWhile_map, ← map_reverse, dropWhile_map, ← map_reverse, strip]

theorem dropWhile_congr {p q : α → Bool} {l : List α} (h : ∀ a ∈ l, p a = q a) : l.dropWhile p = l.dropWhile q := by
  induction l with
  | nil => rfl
  | cons a l ih =>
    rw [dropWhile_cons, dropWhile_cons, h a mem_cons_self, ih fun b hb => h b (mem_cons_of_mem _ hb)]

theorem strip_congr {p q : α → Bool} {l : List α} (h : ∀ a ∈ l, p a = q a) : strip p l = strip q l := by
  rw [strip, strip, dropWhile_congr h]
  congr 1
  refine dropWhile_congr fun a ha => h a ?_
  exact (dropWhile_sublist q).subset (mem_reverse.mp ha)

theorem strip_eq_self {p : α → Bool} {l : List α} (hhead : ∀ a ∈ l.head?, p a = false)
    (hlast : ∀ a ∈ l.getLast?, p a = false) : strip p l = l := by
  have hkeep : ∀ l : List α, (∀ a ∈ l.head?, p a = false) → l.dropWhile p = l := by
    intro l h
    cases l with
    | nil => rfl
    | cons a l => exact dropWhile_cons_of_neg (by simp [h a rfl])
  rw [strip, hkeep l hhead, hkeep l.reverse (by simpa using hlast), reverse_reverse]

theorem strip_sublist (p : α → Bool) (l : List α) : (strip p l).Sublist l := by
  have hback := (dropWhile_sublist (l := (l.dropWhile p).reverse) p).reverse
  rw [reverse_reverse] at hback
  exact hback.trans (dropWhile_sublist p)

section

variable {p : α → Bool} {l : List α}

theorem not_of_head?_dropWhile {a : α} (h : (l.dropWhile p).head? = some a) : p a = false := by
  have hhead := List.head?_dropWhile_not p l
  rw [h] at hhead
  exact hhead

theorem not_of_getLast?_strip {a : α} (h : (strip p l).getLast? = some a) : p a = false := by
  rw [strip, List.getLast?_reverse] at h
  exact not_of_head?_dropWhile h

theorem all_of_strip_eq_nil (h : strip p l = []) : ∀ a ∈ l, p a := by
  rw [strip, reverse_eq_nil_iff, dropWhile_eq_nil_iff] at h
  rw [← dropWhile_eq_nil_iff]
  cases hdrop : l.dropWhile p with
  | nil => rfl
  | cons a rest =>
    have hnot : p a = false := not_of_head?_dropWhile (l := l) (by rw [hdrop]; rfl)
    exact absurd (h a (by rw [hdrop]; simp)) (by simp [hnot])

/-- What is cut off behind does not change the head of a list whose head stays. -/
theorem not_of_head?_strip {a : α} (h : (strip p l).head? = some a) : p a = false := by
  -- the stripped list begins like the list without its left margin
  have hbegin : strip p l <+: l.dropWhile p := by
    have hsuffix := dropWhile_suffix (l := (l.dropWhile p).reverse) p
    rw [← reverse_prefix, reverse_reverse] at hsuffix
    exact hsuffix
  obtain ⟨rest, hrest⟩ := hbegin
  refine not_of_head?_dropWhile (l := l) ?_
  rw [← hrest, List.head?_append, h]
  rfl

end

end Leoflow.Lib
