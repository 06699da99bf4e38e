/-!
# Fencing tokens

Objects carry a token, and writers hold the token an object had when they were started. A writer
whose token is no longer the object's is stale. Where no token changes under an outstanding holder,
no writer is ever stale, whatever the writers do with their tokens.
-/

namespace Leoflow.Lib

variable {σ ι κ : Type}

/-- What a state says about tokens: the current one of each object, and the outstanding holders. -/
structure Fence (σ ι κ : Type) where
  token : σ → ι → κ → Prop
  holds : σ → ι → κ → Prop

namespace Fence

variable (F : Fence σ ι κ)

/-- No outstanding holder is stale. -/
def Current (s : σ) : Prop := ∀ i k, F.holds s i k → F.token s i k

/-- A step respects the fence when each holder after it was issued with the present token, or was
outstanding before and its token did not change. -/
def Respects (s s' : σ) : Prop :=
  ∀ i k, F.holds s' i k → F.token s' i k ∨ (F.holds s i k ∧ (F.token s i k → F.token s' i k))

variable {F}

theorem Current.step {s s' : σ} (h : F.Current s) (hs : F.Respects s s') : F.Current s' := by
  intro i k hk
  rcases hs i k hk with hnew | ⟨hold, hsame⟩
  · exact hnew
  · exact hsame (h i k hold)

end Fence

end Leoflow.Lib
