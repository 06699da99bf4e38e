import Mathlib.Data.Set.Subsingleton
import Leoflow.Oidc.Verify

/-!
# The tenants of a claim

One pass over the values of the claim, with a candidate, decides how many tenants they name.
-/

namespace Leoflow.Oidc

open Lib (GoMap)
open List

/-- The tenants that the values name. -/
def tenantsOf (tenantClaims : GoMap String) (values : List String) : Set String :=
  {t | t ≠ "" ∧ ∃ val ∈ values, tenantClaims.lookup val = some t}

/-- What a result says of the tenants named. -/
def Decides (tenants : Set String) : Except TenantError String → Prop
  | .ok t => tenants = {t}
  | .error .notAllowed => tenants = ∅
  | .error .ambiguous => tenants.Nontrivial

variable {tenantClaims : GoMap String} {values : List String}

theorem mem_tenantsOf {t : String} :
    t ∈ tenantsOf tenantClaims values ↔ t ≠ "" ∧ ∃ val ∈ values, tenantClaims.getD val "" = t := by
  refine and_congr_right fun ht => exists_congr fun val => and_congr_right fun _ => ?_
  unfold GoMap.getD
  cases tenantClaims.lookup val with
  | none => simp [Ne.symm ht]
  | some mapped => simp

/-- The loop decides on its candidate, unless that is empty, and the tenants still to come. -/
theorem resolveValues_decides (tenant : String) (values : List String) :
    Decides {t | t = tenant ∧ t ≠ "" ∨ t ∈ tenantsOf tenantClaims values}
      (resolveValues tenantClaims tenant values) := by
  induction values generalizing tenant with
  | nil =>
    unfold resolveValues
    split <;> ext t <;> simp_all [mem_tenantsOf]
  | cons val values ih =>
    unfold resolveValues
    dsimp only
    split
    next hval =>
      convert ih tenant using 2
      ext t
      grind [mem_tenantsOf]
    next hval =>
      split
      next hne =>
        exact ⟨tenant, .inl ⟨rfl, hne.1⟩, _, .inr (mem_tenantsOf.mpr ⟨hval, val, mem_cons_self, rfl⟩), hne.2.symm⟩
      next hsame =>
        convert ih (tenantClaims.getD val "") using 2
        ext t
        grind [mem_tenantsOf]

theorem Decides.unique {tenants : Set String} {r r' : Except TenantError String} (h : Decides tenants r)
    (h' : Decides tenants r') : r = r' := by
  cases r with
  | ok t => cases r' with
    | ok t' => exact congrArg _ (Set.singleton_injective (h.symm.trans h'))
    | error e => cases e <;> simp_all [Decides]
  | error e => cases r' with
    | ok t => cases e <;> simp_all [Decides]
    | error e' => cases e <;> cases e' <;> simp_all [Decides]

theorem resolveValues_eq_iff {r : Except TenantError String} :
    resolveValues tenantClaims "" values = r ↔ Decides (tenantsOf tenantClaims values) r := by
  have hloop := @resolveValues_decides tenantClaims "" values
  simp only [and_not_self, false_or, Set.ofPred_mem_eq] at hloop
  exact ⟨fun h => h ▸ hloop, hloop.unique⟩

/-- **The sign-in succeeds with the one tenant that is named and fails on none and on several, whatever the order.** -/
theorem resolveTenant_decides (tenantClaims : GoMap String) (values : List String) :
    (∀ t, resolveValues tenantClaims "" values = .ok t ↔ tenantsOf tenantClaims values = {t}) ∧
    (resolveValues tenantClaims "" values = .error .notAllowed ↔ tenantsOf tenantClaims values = ∅) ∧
    (resolveValues tenantClaims "" values = .error .ambiguous ↔ (tenantsOf tenantClaims values).Nontrivial) ∧
    ∀ values', (∀ val, val ∈ values' ↔ val ∈ values) →
      resolveValues tenantClaims "" values' = resolveValues tenantClaims "" values := by
  refine ⟨fun t => resolveValues_eq_iff, resolveValues_eq_iff, resolveValues_eq_iff, fun values' hsame => ?_⟩
  rw [resolveValues_eq_iff]
  have htenants : tenantsOf tenantClaims values' = tenantsOf tenantClaims values := by simp only [tenantsOf, hsame]
  rw [htenants, ← resolveValues_eq_iff]

end Leoflow.Oidc
