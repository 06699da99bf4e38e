import Mathlib.Data.List.Basic

/-!
# Computations that make calls

A computation is what it leaves behind: the calls it made, in order, and its result, which is missing
when it panicked. The calls made before a panic stay made. `recover` is a deferred recover with the
value it returns.
-/

namespace Leoflow.Lib

open List

/-- The calls made and the result; `none` is a panic. -/
structure Traced (ε α : Type) where
  trace : List ε
  result : Option α

namespace Traced

variable {ε α β ρ : Type}

instance : Monad (Traced ε) where
  pure a := ⟨[], some a⟩
  bind x f :=
    match x.result with
    | some a => ⟨x.trace ++ (f a).trace, (f a).result⟩
    | none => ⟨x.trace, none⟩

/-- A computation that panics at once. -/
def panicked : Traced ε α := ⟨[], none⟩

/-- The calls stand, and a panic returns the given value. -/
def recover (x : Traced ε α) (value : α) : Traced ε α := ⟨x.trace, some (x.result.getD value)⟩

@[simp] theorem trace_pure (a : α) : (pure a : Traced ε α).trace = [] := rfl

@[simp] theorem result_pure (a : α) : (pure a : Traced ε α).result = some a := rfl

@[simp] theorem trace_panicked : (panicked : Traced ε α).trace = [] := rfl

@[simp] theorem result_panicked : (panicked : Traced ε α).result = none := rfl

@[simp] theorem trace_recover (x : Traced ε α) (value : α) : (x.recover value).trace = x.trace := rfl

@[simp] theorem result_recover (x : Traced ε α) (value : α) :
    (x.recover value).result = some (x.result.getD value) := rfl

theorem bind_of_some {x : Traced ε α} {a : α} (h : x.result = some a) (f : α → Traced ε β) :
    x >>= f = ⟨x.trace ++ (f a).trace, (f a).result⟩ := by
  show (match x.result with
    | some a => ⟨x.trace ++ (f a).trace, (f a).result⟩
    | none => ⟨x.trace, none⟩ : Traced ε β) = _
  rw [h]

theorem bind_of_none {x : Traced ε α} (h : x.result = none) (f : α → Traced ε β) : x >>= f = ⟨x.trace, none⟩ := by
  show (match x.result with
    | some a => ⟨x.trace ++ (f a).trace, (f a).result⟩
    | none => ⟨x.trace, none⟩ : Traced ε β) = _
  rw [h]

theorem mem_bind {x : Traced ε α} {f : α → Traced ε β} {e : ε} : e ∈ (x >>= f).trace ↔
    e ∈ x.trace ∨ ∃ a, x.result = some a ∧ e ∈ (f a).trace := by
  cases h : x.result with
  | none => simp [bind_of_none h]
  | some a => simp [bind_of_some h]

theorem trace_bind_pure (x : Traced ε α) (f : α → β) : (x >>= fun a => pure (f a)).trace = x.trace := by
  cases h : x.result with
  | none => rw [bind_of_none h]
  | some a =>
    rw [bind_of_some h]
    exact append_nil _

theorem result_bind {x : Traced ε α} {f : α → Traced ε β} {b : β} : (x >>= f).result = some b ↔
    ∃ a, x.result = some a ∧ (f a).result = some b := by
  cases h : x.result with
  | none => simp [bind_of_none h]
  | some a => simp [bind_of_some h]

theorem mem_foldlM {f : β → ρ → Traced ε β} {rows : List ρ} {b : β} {e : ε}
    (h : e ∈ (rows.foldlM f b).trace) : ∃ b', ∃ r ∈ rows, e ∈ (f b' r).trace := by
  induction rows generalizing b with
  | nil => cases h
  | cons r rows ih =>
    rw [foldlM_cons, mem_bind] at h
    rcases h with h | ⟨b', -, h⟩
    · exact ⟨b, r, mem_cons_self, h⟩
    · obtain ⟨b'', r', hr', h⟩ := ih h
      exact ⟨b'', r', mem_cons_of_mem _ hr', h⟩

theorem foldlM_total {f : β → ρ → Traced ε β} {rows : List ρ} (b : β)
    (h : ∀ b, ∀ r ∈ rows, ∃ b', (f b r).result = some b') : ∃ b', (rows.foldlM f b).result = some b' := by
  induction rows generalizing b with
  | nil => exact ⟨b, rfl⟩
  | cons r rows ih =>
    obtain ⟨b1, hr⟩ := h b r mem_cons_self
    obtain ⟨b2, hrest⟩ := ih b1 fun b' r' hr' => h b' r' (mem_cons_of_mem _ hr')
    refine ⟨b2, ?_⟩
    rw [foldlM_cons, result_bind]
    exact ⟨b1, hr, hrest⟩

theorem mem_forM {f : ρ → Traced ε PUnit} {rows : List ρ} {e : ε} (h : e ∈ (rows.forM f).trace) :
    ∃ r ∈ rows, e ∈ (f r).trace ∧ (f r).trace ⊆ (rows.forM f).trace := by
  induction rows with
  | nil => cases h
  | cons r rows ih =>
    rcases mem_bind.mp h with h | ⟨a, ha, h⟩
    · exact ⟨r, mem_cons_self, h, fun e' he' => mem_bind.mpr (.inl he')⟩
    · obtain ⟨r', hr', h, hsub⟩ := ih h
      exact ⟨r', mem_cons_of_mem _ hr', h, fun e' he' => mem_bind.mpr (.inr ⟨a, ha, hsub he'⟩)⟩

theorem forM_of_total {f : ρ → Traced ε PUnit} {rows : List ρ} (h : ∀ r ∈ rows, (f r).result = some ⟨⟩) :
    rows.forM f = ⟨rows.flatMap fun r => (f r).trace, some ⟨⟩⟩ := by
  induction rows with
  | nil => rfl
  | cons r rows ih =>
    show f r >>= (fun _ => rows.forM f) = _
    rw [bind_of_some (h r mem_cons_self), ih fun r' hr' => h r' (mem_cons_of_mem _ hr')]
    rfl

/-- A loop that makes one call a round makes a first part of them. -/
theorem forM_trace_prefix_map {f : ρ → Traced ε PUnit} {g : ρ → ε} {rows : List ρ}
    (h : ∀ r, (f r).trace = [g r]) : (rows.forM f).trace <+: rows.map g := by
  induction rows with
  | nil => exact prefix_refl []
  | cons r rows ih =>
    show (f r >>= fun _ => rows.forM f).trace <+: _
    cases hr : (f r).result with
    | none =>
      rw [bind_of_none hr, h r]
      exact ⟨rows.map g, rfl⟩
    | some a =>
      rw [bind_of_some hr, h r, map_cons]
      exact (prefix_cons_inj (g r)).mpr ih

end Traced

end Leoflow.Lib
