import Mathlib.Data.List.Induction

/-!
# Sequences of calls

A sequence of calls on a state, each of which may fail and ends the sequence then, is `List.foldlM` in
`Option`. What holds of the state and the calls so far at the start, and after a call where it held
before, holds at the end with the whole sequence.
-/

namespace Leoflow.Lib

variable {σ α : Type}

theorem foldlM_snoc {step : σ → α → Option σ} {as : List α} {a : α} {s s' : σ} :
    (as ++ [a]).foldlM step s = some s' ↔ ∃ mid, as.foldlM step s = some mid ∧ step mid a = some s' := by
  rw [List.foldlM_append]
  refine Option.bind_eq_some_iff.trans (exists_congr fun mid => and_congr_right fun _ => ?_)
  rw [List.foldlM_cons]
  constructor
  · intro h
    obtain ⟨last, hlast, hend⟩ := Option.bind_eq_some_iff.mp h
    obtain rfl := Option.some.inj hend
    exact hlast
  · intro h
    exact Option.bind_eq_some_iff.mpr ⟨s', h, rfl⟩

/-- **The rule of invariants for sequences of calls**, where each call may be known to satisfy `P`. -/
theorem foldlM_history {step : σ → α → Option σ} {I : List α → σ → Prop} {P : α → Prop} {s : σ} (hi : I [] s)
    (hs : ∀ as a s s', I as s → P a → step s a = some s' → I (as ++ [a]) s') {as : List α}
    (hP : ∀ a ∈ as, P a) {s' : σ} (h : as.foldlM step s = some s') : I as s' := by
  induction as using List.reverseRecOn generalizing s' with
  | nil =>
    obtain rfl := Option.some.inj h
    exact hi
  | append_singleton as a ih =>
    obtain ⟨mid, hmid, hlast⟩ := foldlM_snoc.mp h
    have hheld := ih (fun b hb => hP b (List.mem_append_left _ hb)) hmid
    exact hs as a mid s' hheld (hP a (List.mem_append_right _ List.mem_cons_self)) hlast

end Leoflow.Lib
