import Leoflow.Domain.State
import Leoflow.KubeExchange.Resolver

/-!
# Tokens

The agent and user tokens of `internal/auth/agent_token.go` and `internal/auth/jwt.go`. Signatures are
unforgeable, so a token the control plane signed is the claims it was signed over; what the JWT library
reads back of a time is its second.
-/

namespace Leoflow.Auth

open KubeExchange (AgentIdentity scopeWarmWorker)

/-! ## Times -/

/-- `jwt.NewNumericDate`, which is also what a date is read back as. -/
def numericDate (t : Time) : Time := t / second * second

theorem numericDate_le (t : Time) : numericDate t ≤ t :=
  Int.ediv_mul_le t (by decide)

@[simp] theorem numericDate_numericDate (t : Time) : numericDate (numericDate t) = numericDate t := by
  unfold numericDate
  rw [Int.mul_ediv_cancel _ (by decide)]

/-- A saturated difference under the maximum is at least the exact one. -/
theorem sub_le_of_timeSub_le {t u : Time} {d : Duration} (hd : d < maxDuration) (h : timeSub t u ≤ d) : t ≤ u + d := by
  have hmin : min (t - u) maxDuration ≤ d := le_trans (le_max_right _ _) h
  rcases min_le_iff.mp hmin with hsub | hmax
  · exact Int.le_add_of_sub_left_le hsub
  · exact absurd (lt_of_lt_of_le hd hmax) (lt_irrefl _)

/-! ## Registered claims -/

/-- The issuer of every token. -/
def tokenIssuer : String := "leoflow"

/-- The audience of an agent's token. -/
def audienceAgent : String := "leoflow-agent"

/-- The audience of a session's token. -/
def audienceUser : String := "leoflow-user"

/-- The registered claims of a token. -/
structure RegisteredClaims where
  subject : String
  issuer : String
  audience : List String
  issuedAt : Option Time
  expiresAt : Option Time
deriving DecidableEq

/-- What `ParseWithClaims` checks of a token of ours: issuer, audience and expiry. -/
def RegisteredClaims.valid (c : RegisteredClaims) (audience : String) (now : Time) : Bool :=
  c.issuer == tokenIssuer && c.audience.contains audience && c.expiresAt.all fun exp => decide (now < exp)

/-- The claims of a token minted at `now`. -/
def registered (subject audience : String) (now : Time) (ttl : Duration) : RegisteredClaims where
  subject := subject
  issuer := tokenIssuer
  audience := [audience]
  issuedAt := some (numericDate now)
  expiresAt := some (numericDate (now + ttl))

theorem valid_registered (subject audience : String) (now : Time) (ttl : Duration) (t : Time) :
    (registered subject audience now ttl).valid audience t = decide (t < numericDate (now + ttl)) := by
  simp [RegisteredClaims.valid, registered]

/-- The origin of a credential: `oiat`, or `iat` for a token minted before that claim existed. -/
def originOf (originIssuedAt issuedAt : Option Time) : Time := (originIssuedAt.or issuedAt).getD 0

/-- The ceiling on the age of a credential. -/
def pastCeiling (origin now : Time) (maxLifetime : Duration) : Bool :=
  decide (maxLifetime > 0) && decide (origin ≠ 0) && decide (timeSub now origin > maxLifetime)

theorem le_of_not_pastCeiling {origin now : Time} {maxLifetime : Duration} (hpos : 0 < maxLifetime)
    (hmax : maxLifetime < maxDuration) (horigin : origin ≠ 0)
    (h : pastCeiling origin now maxLifetime = false) : now ≤ origin + maxLifetime := by
  refine sub_le_of_timeSub_le hmax (not_lt.mp fun hgt => ?_)
  unfold pastCeiling at h
  rw [decide_eq_true hpos, decide_eq_true horigin, decide_eq_true hgt] at h
  cases h

/-! ## Agent tokens -/

/-- The claims of an agent's token. -/
structure AgentClaims where
  tenantID : String
  dagID : String
  runID : String
  taskID : String
  tryNumber : Int64
  scope : String
  dagVersionID : String
  originIssuedAt : Option Time
  registered : RegisteredClaims
deriving DecidableEq

/-- A token for an identity, with the origin of its chain. -/
def mintAgentToken (id : AgentIdentity) (ttl : Duration) (origin now : Time) : AgentClaims where
  tenantID := id.tenantID
  dagID := id.dagID
  runID := id.runID
  taskID := id.taskID
  tryNumber := id.tryNumber
  scope := id.scope
  dagVersionID := id.dagVersionID
  originIssuedAt := some (numericDate origin)
  registered :=
    registered (if id.scope = scopeWarmWorker then id.workerID else id.taskInstanceID) audienceAgent now ttl

/-- `IssueAgentToken`: a chain begins. -/
def issueAgentToken (id : AgentIdentity) (ttl : Duration) (now : Time) : AgentClaims :=
  mintAgentToken id ttl now now

/-- The identity the claims name. -/
def identityFromClaims (c : AgentClaims) : AgentIdentity where
  tenantID := c.tenantID
  dagID := c.dagID
  runID := c.runID
  taskID := c.taskID
  tryNumber := c.tryNumber
  scope := c.scope
  dagVersionID := c.dagVersionID
  workerID := if c.scope = scopeWarmWorker then c.registered.subject else ""
  taskInstanceID := if c.scope = scopeWarmWorker then "" else c.registered.subject

/-- `AuthenticateAgent`: who a valid token belongs to. -/
def authenticateAgent (c : AgentClaims) (now : Time) : Option AgentIdentity :=
  if c.registered.valid audienceAgent now then some (identityFromClaims c) else none

/-- What a renewal answers. -/
inductive Renewal (τ : Type) where
  | renewed (token : τ)
  | lapsed
  | invalid
  | unavailable

/-- The new token, where there is one. -/
def Renewal.token? {τ : Type} : Renewal τ → Option τ
  | renewed t => some t
  | _ => none

/-- `RenewAgentToken`: the same identity again, until the chain is too old. -/
def renewAgentToken (c : AgentClaims) (ttl maxLifetime : Duration) (now : Time) : Renewal AgentClaims :=
  if c.registered.valid audienceAgent now then
    let origin := originOf c.originIssuedAt c.registered.issuedAt
    if pastCeiling origin now maxLifetime then .lapsed
    else .renewed (mintAgentToken (identityFromClaims c) ttl origin now)
  else .invalid

/-! ## Session tokens -/

/-- The fields of `auth.User` a token carries. -/
structure User where
  id : String
  tenantID : String
  email : String
  roles : List String
deriving DecidableEq

/-- What `FindUserByID` answers. -/
inductive FoundUser where
  | user (u : User) (active : Bool)
  | notFound
  | failed
deriving DecidableEq

/-- What the data plane knows of a user. -/
abbrev UserStore := (id : String) → FoundUser

/-- The subject of the token of `dexaflow lite`. -/
def devTokenSubject : String := "leoflow-dev"

/-- The claims of a session's token. -/
structure UserClaims where
  tenantID : String
  email : String
  roles : List String
  originIssuedAt : Option Time
  registered : RegisteredClaims
deriving DecidableEq

/-- A session token for a user, with the origin of its chain. -/
def mintUserToken (user : User) (ttl : Duration) (origin now : Time) : UserClaims where
  tenantID := user.tenantID
  email := user.email
  roles := user.roles
  originIssuedAt := some (numericDate origin)
  registered := registered user.id audienceUser now ttl

/-- `Sign`: a session begins. -/
def sign (user : User) (ttl : Duration) (now : Time) : UserClaims := mintUserToken user ttl now now

/-- The principal the signed claims name. -/
def claimedUser (c : UserClaims) : User := ⟨c.registered.subject, c.tenantID, c.email, c.roles⟩

/-- Without a store, and for the dev token without a row, the claims stand. -/
def reloadForRenewal (store : Option UserStore) (c : UserClaims) : Renewal User :=
  match store with
  | none => .renewed (claimedUser c)
  | some find =>
    match find c.registered.subject with
    | .user u true => .renewed u
    | .user _ false => .invalid
    | .notFound => if c.registered.subject = devTokenSubject then .renewed (claimedUser c) else .invalid
    | .failed => .unavailable

/-- `RenewUserToken`: the session goes on with the user's roles as they are now. -/
def renewUserToken (store : Option UserStore) (c : UserClaims) (ttl maxLifetime : Duration) (now : Time) :
    Renewal UserClaims :=
  if c.registered.valid audienceUser now then
    let origin := originOf c.originIssuedAt c.registered.issuedAt
    if pastCeiling origin now maxLifetime then .lapsed
    else
      match reloadForRenewal store c with
      | .renewed user => .renewed (mintUserToken user ttl origin now)
      | .lapsed => .lapsed
      | .invalid => .invalid
      | .unavailable => .unavailable
  else .invalid

end Leoflow.Auth
