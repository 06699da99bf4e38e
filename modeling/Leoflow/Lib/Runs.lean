import Mathlib.Data.List.Basic

/-!
# Runs of a labelled system

A system is a partial step function on labelled actions. Its runs are the states reached from an
initial state by steps that each meet a condition on the state before the step and the action taken.
With the condition always true these are all the runs of the system.
-/

namespace Leoflow.Lib

open Option

variable {σ α γ : Type}

/-- A computation that is seen to return something. -/
theorem exists_eq_some {o : Option σ} {P : σ → Prop} (h : o.isSome) (hP : o = some (o.get h) → P (o.get h)) :
    ∃ s, o = some s ∧ P s :=
  ⟨_, (some_get h).symm, hP (some_get h).symm⟩

theorem guard_eq_some {p : Prop} [Decidable p] {s t : σ} : (if p then some s else none) = some t ↔ p ∧ s = t := by
  rw [ite_none_right_eq_some, Option.some.injEq]

/-- A labelled transition system: an action is enabled where `step` returns a state. -/
structure System (σ α : Type) where
  init : σ → Prop
  step : σ → α → Option σ

namespace System

variable (S : System σ α)

/-- The states reached by steps that all meet `cond`. -/
inductive Reaches (cond : σ → α → Prop) : σ → Prop where
  | init {s : σ} (h : S.init s) : Reaches cond s
  | step {s s' : σ} {a : α} (h : Reaches cond s) (hc : cond s a) (hs : S.step s a = some s') : Reaches cond s'

/-- The states of all runs. -/
abbrev Reachable : σ → Prop := S.Reaches fun _ _ => True

/-- The actions of a list taken one after another, each only where the check allows it. -/
def runIf (check : σ → α → Bool) (s : σ) : List α → Option σ
  | [] => some s
  | a :: as => if check s a then (S.step s a).bind (runIf check · as) else none

/-- The state after some actions, where each is enabled. -/
def run (s : σ) (as : List α) : Option σ := S.runIf (fun _ _ => true) s as

variable {S}

/-- **Invariant rule.** What holds initially and is kept by every step that meets the condition
holds in every state of every run whose steps meet it. The step may use that its source state is
itself reached. -/
theorem Reaches.invariant {cond : σ → α → Prop} {I : σ → Prop} (hi : ∀ s, S.init s → I s)
    (hstep : ∀ s a s', S.Reaches cond s → I s → cond s a → S.step s a = some s' → I s')
    {s : σ} (h : S.Reaches cond s) : I s := by
  induction h with
  | init h => exact hi _ h
  | step h hc hs ih => exact hstep _ _ _ h ih hc hs

theorem Reaches.mono {cond cond' : σ → α → Prop} (hc : ∀ s a, cond s a → cond' s a) {s : σ}
    (h : S.Reaches cond s) : S.Reaches cond' s := by
  induction h with
  | init h => exact .init h
  | step _ hcond hs ih => exact .step ih (hc _ _ hcond) hs

theorem Reaches.reachable {cond : σ → α → Prop} {s : σ} (h : S.Reaches cond s) : S.Reachable s :=
  h.mono fun _ _ _ => trivial

/-- Enabled actions lead from one state of a run to another where the check gives the condition. -/
theorem Reaches.runIf {cond : σ → α → Prop} {check : σ → α → Bool} {s s' : σ} {as : List α}
    (h : S.Reaches cond s) (hc : ∀ s a, check s a → cond s a)
    (hr : S.runIf check s as = some s') : S.Reaches cond s' := by
  induction as generalizing s with
  | nil =>
    simp only [System.runIf, Option.some.injEq] at hr
    exact hr ▸ h
  | cons a as ih =>
    simp only [System.runIf, ite_none_right_eq_some, bind_eq_some_iff] at hr
    obtain ⟨hcheck, t, ht, hr⟩ := hr
    exact ih (.step h (hc s a hcheck) ht) hr

theorem Reachable.run {s s' : σ} {as : List α} (h : S.Reachable s) (hr : S.run s as = some s') : S.Reachable s' :=
  Reaches.runIf h (fun _ _ _ => trivial) hr

/-- A step, or none. -/
def stepOr (S : System σ α) (s : σ) : Option α → Option σ
  | none => some s
  | some a => S.step s a

theorem Reachable.stepOr {s s' : σ} {a : Option α} (h : S.Reachable s)
    (hs : S.stepOr s a = some s') : S.Reachable s' := by
  cases a with
  | none => exact Option.some.inj hs ▸ h
  | some a => exact .step h trivial hs

/-! ## Ghosts -/

variable (S) in
/-- The system with a ghost: a value that every step updates and none reads. -/
def withGhost (start : γ) (note : σ → α → σ → γ → γ) : System (σ × γ) α where
  init p := S.init p.1 ∧ p.2 = start
  step p a := (S.step p.1 a).map fun s' => (s', note p.1 a s' p.2)

variable {start : γ} {note : σ → α → σ → γ → γ}

theorem withGhost_step {p p' : σ × γ} {a : α} : (S.withGhost start note).step p a = some p' ↔
      S.step p.1 a = some p'.1 ∧ p'.2 = note p.1 a p'.1 p.2 := by
  obtain ⟨s', g'⟩ := p'
  simp only [withGhost, map_eq_some_iff, Prod.mk.injEq]
  constructor
  · rintro ⟨_, hs, rfl, rfl⟩
    exact ⟨hs, rfl⟩
  · rintro ⟨hs, rfl⟩
    exact ⟨s', hs, rfl, rfl⟩

theorem Reaches.fst {cond : σ → α → Prop} {p : σ × γ}
    (h : (S.withGhost start note).Reaches (fun p a => cond p.1 a) p) : S.Reaches cond p.1 := by
  induction h with
  | init h => exact .init h.1
  | step _ hc hs ih => exact .step ih hc (withGhost_step.mp hs).1

theorem Reaches.reachable_fst {cond : σ × γ → α → Prop} {p : σ × γ}
    (h : (S.withGhost start note).Reaches cond p) : S.Reachable p.1 :=
  Reaches.fst h.reachable

/-- **Invariant rule with a ghost.** -/
theorem Reaches.ghost_invariant {cond : σ → α → Prop} {I : σ → γ → Prop} (hi : ∀ s, S.init s → I s start)
    (hstep : ∀ s a s' g, S.Reaches cond s → I s g → cond s a → S.step s a = some s' → I s' (note s a s' g))
    {p : σ × γ} (h : (S.withGhost start note).Reaches (fun p a => cond p.1 a) p) : I p.1 p.2 := by
  induction h with
  | init h => exact h.2 ▸ hi _ h.1
  | step h hc hs ih =>
    obtain ⟨hs, hg⟩ := withGhost_step.mp hs
    exact hg ▸ hstep _ _ _ _ h.fst ih hc hs

theorem Reachable.ghost_invariant {I : σ → γ → Prop} (hi : ∀ s, S.init s → I s start)
    (hstep : ∀ s a s' g, S.Reachable s → I s g → S.step s a = some s' → I s' (note s a s' g))
    {p : σ × γ} (h : (S.withGhost start note).Reachable p) : I p.1 p.2 :=
  @Reaches.ghost_invariant σ α γ S start note (fun _ _ => True) I hi
    (fun s a s' g hr ih _ hs => hstep s a s' g hr ih hs) p h

end System

end Leoflow.Lib
