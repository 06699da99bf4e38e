import Mathlib

/-!
# Handing out a stock in order

The keys of a list take what they want one after another, as long as there is some left. Together
they get all they want or the whole stock, so a second round over what is left gives nothing.
-/

namespace Leoflow.Lib

variable {κ : Type} [DecidableEq κ]

/-- What each gets from a stock that is handed out in order. -/
def ration (want : κ → Nat) : Nat → List κ → κ → Nat
  | _, [], _ => 0
  | stock, k :: ks, j =>
    if j = k then min (want k) stock else ration want (stock - min (want k) stock) ks j

variable {want : κ → Nat} {stock : Nat} {ks : List κ}

theorem ration_le_want (j : κ) : ration want stock ks j ≤ want j := by
  induction ks generalizing stock with
  | nil => exact Nat.zero_le _
  | cons k ks ih =>
    unfold ration
    split
    next hj =>
      rw [hj]
      exact Nat.min_le_left ..
    · exact ih

theorem ration_zero (j : κ) : ration want 0 ks j = 0 := by
  induction ks with
  | nil => rfl
  | cons k ks ih =>
    unfold ration
    rw [Nat.min_zero, Nat.sub_zero, ih, ite_self]

theorem sum_ration (hnd : ks.Nodup) : (ks.map (ration want stock ks)).sum = min stock (ks.map want).sum := by
  induction ks generalizing stock with
  | nil => simp
  | cons k ks ih =>
    obtain ⟨hk, hnd⟩ := List.nodup_cons.mp hnd
    have hrest : ks.map (ration want stock (k :: ks)) =
        ks.map (ration want (stock - min (want k) stock) ks) := by
      refine List.map_congr_left fun j hj => ?_
      have hne : j ≠ k := fun he => hk (he ▸ hj)
      rw [ration, if_neg hne]
    rw [List.map_cons, List.sum_cons, hrest, ih hnd, List.map_cons, List.sum_cons, ration, if_pos rfl]
    omega

theorem ration_of_sum_le (h : (ks.map want).sum ≤ stock) {j : κ} (hj : j ∈ ks) : ration want stock ks j = want j := by
  induction ks generalizing stock with
  | nil => cases hj
  | cons k ks ih =>
    rw [List.map_cons, List.sum_cons] at h
    unfold ration
    split
    next he =>
      rw [he]
      omega
    next hne =>
      apply ih
      · omega
      · exact (List.mem_cons.mp hj).resolve_left hne

theorem ration_again (hnd : ks.Nodup) {want' : κ → Nat} {stock' : Nat}
    (hwant : ∀ j ∈ ks, want' j = want j - ration want stock ks j)
    (hstock : stock' = stock - (ks.map (ration want stock ks)).sum) {j : κ} (hj : j ∈ ks) :
    ration want' stock' ks j = 0 := by
  by_cases hle : (ks.map want).sum ≤ stock
  · have hzero : want' j = 0 := by
      rw [hwant j hj, ration_of_sum_le hle hj, Nat.sub_self]
    have hbound := @ration_le_want κ _ want' stock' ks j
    omega
  · rw [sum_ration hnd] at hstock
    have hzero : stock' = 0 := by omega
    rw [hzero]
    exact ration_zero j

end Leoflow.Lib
