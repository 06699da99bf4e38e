import Leoflow.Auth.Tokens
import Leoflow.Lib.Runs

/-!
# Hand-off tokens

The verifier of `internal/issuer/verify.go`. The OIDC library is a parameter: what a raw token carries, if
its signature, issuer and audience are right; it accepts such a token up to and including its expiry.
-/

namespace Leoflow.Issuer

open Lib (GoMap Json)

/-- The most token ids that are remembered. -/
def maxUsedIDs : Nat := 100000

/-- How far the clocks may be apart. -/
def clockSkew : Duration := minute

/-- How long a handoff token may last where nothing is configured. -/
def defaultMaxLifetime : Duration := 2 * minute

/-- What a verifier accepts. -/
structure Config where
  tenantClaim : String
  allowedTenants : List String
  maxLifetime : Duration

/-- `New`, which fills in the default lifetime. -/
def Config.new (cfg : Config) : Config :=
  if cfg.maxLifetime ≤ 0 then { cfg with maxLifetime := defaultMaxLifetime } else cfg

/-- The claims may not decode. -/
structure IDToken where
  subject : String
  issuedAt : Time
  expiry : Time
  claims : Option (GoMap Json)

/-- Who a token signs in. -/
structure Identity where
  subject : String
  email : String
  tenant : String
deriving DecidableEq

/-- Why a token is refused. -/
inductive VerifyError where
  | invalidToken (detail : String)
  | lifetime
  | tenantNotAllowed (claim : String)
  | replayed (jti : String)
deriving DecidableEq

/-! ## Used ids -/

/-- An id and until when it counts as used. -/
abbrev UsedIDs := GoMap Time

/-- The entries that have expired leave a full set. -/
def UsedIDs.prune (u : UsedIDs) (now : Time) : UsedIDs :=
  if u.entries.length ≥ maxUsedIDs then GoMap.dropWhere u fun usedUntil => decide (usedUntil ≤ now) else u

/-- Remember a token's id until it expires. An id that is known is refused, and any while the memory is full. -/
def UsedIDs.claim (u : UsedIDs) (id : String) (exp now : Time) : UsedIDs × Bool :=
  if (u.lookup id).any fun usedUntil => decide (now < usedUntil) then (u, false)
  else
    let u' := u.prune now
    if u'.entries.length ≥ maxUsedIDs then (u', false) else (u'.insert id exp, true)

/-! ## Verification -/

/-- A claim that is a string. -/
def stringClaim (claims : GoMap Json) (name : String) : Option String :=
  match claims.lookup name with
  | some (.string s) => some s
  | _ => none

/-- The tenant may sign in here. -/
def Config.allowed (cfg : Config) (tenant : String) : Bool :=
  cfg.allowedTenants.any fun t => t == "*" || t == tenant

/-- The clock values one call of `Verify` reads: in the library, at the lifetime check and at the claim. -/
structure Clock where
  checked : Time
  lifetime : Time
  claimed : Time
  checked_le : checked ≤ lifetime
  lifetime_le : lifetime ≤ claimed

/-- What the claims must hold: an allowed tenant and an id. -/
def Config.readClaims (cfg : Config) (subject : String) (claims : GoMap Json) :
    Except VerifyError (String × Identity) :=
  match stringClaim claims cfg.tenantClaim with
  | none => .error (.tenantNotAllowed cfg.tenantClaim)
  | some tenant =>
    if tenant = "" ∨ cfg.allowed tenant = false then .error (.tenantNotAllowed cfg.tenantClaim)
    else
      match stringClaim claims "jti" with
      | none => .error (.invalidToken "no jti")
      | some jti =>
        if jti = "" then .error (.invalidToken "no jti")
        else .ok (jti, ⟨subject, (stringClaim claims "email").getD "", tenant⟩)

/-- `Verify` up to the claim of the id, over a token the library knows: the id and the identity. -/
def Config.inspect (cfg : Config) (tok : IDToken) (clock : Clock) : Except VerifyError (String × Identity) :=
  if clock.checked > tok.expiry then .error (.invalidToken "token is expired")
  else if tok.subject = "" then .error (.invalidToken "no subject")
  else if tok.issuedAt = 0 ∨ timeSub tok.expiry tok.issuedAt > cfg.maxLifetime ∨
      tok.issuedAt > clock.lifetime + clockSkew then .error .lifetime
  else
    match tok.claims with
    | none => .error (.invalidToken "decoding claims")
    | some claims => cfg.readClaims tok.subject claims

/-- The id is claimed last, so a token refused before does not use it up. -/
def Config.verify (cfg : Config) (u : UsedIDs) (tok : Option IDToken) (clock : Clock) :
    UsedIDs × Except VerifyError Identity :=
  match tok with
  | none => (u, .error (.invalidToken "signature, issuer or audience"))
  | some tok =>
    match cfg.inspect tok clock with
    | .error e => (u, .error e)
    | .ok (jti, id) =>
      match u.claim jti tok.expiry clock.claimed with
      | (u', true) => (u', .ok id)
      | (u', false) => (u', .error (.replayed jti))

/-! ## Histories -/

/-- A verifier over time: the used ids, the clock at the last claim and the raw tokens it accepted. -/
structure State where
  used : UsedIDs
  now : Time
  accepted : List String

/-- One call of `Verify`. -/
structure Call where
  raw : String
  clock : Clock

/-- A call takes the lock of the used ids no earlier than the last one did. -/
def step (decode : String → Option IDToken) (cfg : Config) (s : State) (c : Call) : Option State :=
  if s.now ≤ c.clock.claimed then
    match cfg.verify s.used (decode c.raw) c.clock with
    | (u, .ok _) => some ⟨u, c.clock.claimed, c.raw :: s.accepted⟩
    | (u, .error _) => some ⟨u, c.clock.claimed, s.accepted⟩
  else none

/-- The verifier under any calls. -/
def system (decode : String → Option IDToken) (cfg : Config) : Lib.System State Call where
  init s := s.used = ∅ ∧ s.accepted = []
  step := step decode cfg.new

end Leoflow.Issuer
