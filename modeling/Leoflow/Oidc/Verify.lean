import Leoflow.Lib.GoMap

/-!
# The tenant of a sign-in

`resolveTenant` of `internal/oidc/verify.go` maps the values of the tenant claim to a tenant.
-/

namespace Leoflow.Oidc

open Lib (GoMap)

/-- Why no tenant is found. -/
inductive TenantError where
  | notAllowed | ambiguous

/-- The loop of `resolveTenant`, from a candidate. -/
def resolveValues (tenantClaims : GoMap String) (tenant : String) : List String → Except TenantError String
  | [] => if tenant = "" then .error .notAllowed else .ok tenant
  | val :: values =>
    let mapped := tenantClaims.getD val ""
    if mapped = "" then resolveValues tenantClaims tenant values
    else if tenant ≠ "" ∧ mapped ≠ tenant then .error .ambiguous
    else resolveValues tenantClaims mapped values

end Leoflow.Oidc
