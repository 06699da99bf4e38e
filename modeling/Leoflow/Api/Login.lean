import Leoflow.Auth.RateLimiter
import Leoflow.Lib.Runs
import Leoflow.Lib.Strip

/-!
# Logins

`authTokenHandler` of `internal/api/auth_handler.go`. A request peeks at the limiter, verifies the password
and only then charges a failure, so between the peek and the charge other requests take their own steps.
`Login.system` is every interleaving of any number of requests.
-/

namespace Leoflow.Api

open Auth (RateLimiter newRateLimiter)

/-- The body of a login. -/
structure TokenRequest where
  username : String
  password : String
  tenant : String
deriving DecidableEq

/-- What `FindUserByLogin` answers: the password hash of an active user. -/
inductive FoundLogin where
  | user (hash : String)
  | invalidCredentials
  | failed
deriving DecidableEq

/-- What a login is answered with. -/
inductive LoginAnswer where
  | token
  | problem (status : Nat) (title detail : String)
deriving DecidableEq

/-- The answer to an address with too many failures. -/
def rateLimited : LoginAnswer :=
  .problem 429 "rate limited" "too many failed login attempts; wait about a minute and try again"

/-- The answer to a wrong name or password. -/
def invalidCredentials : LoginAnswer := .problem 401 "unauthorized" "invalid credentials"

/-- What the handler is built with. `breakGlass` is the allowlist of the break-glass gate, if any;
`verifyPassword` compares a hash and a password. -/
structure LoginServer where
  breakGlass : Option (String → Bool)
  verifyPassword : String → String → Bool

/-- A request after the verification: answered, or about to charge a failure first. -/
inductive LoginVerdict where
  | answered (a : LoginAnswer)
  | failed (wrongPassword : Bool)
deriving DecidableEq

/-- `IssueToken` and the branches on its error, with the store as it is at that moment. -/
def LoginServer.issueToken (S : LoginServer) (found : FoundLogin) (password : String) : LoginVerdict :=
  match found with
  | .failed => .answered (.problem 503 "service unavailable" "authentication temporarily unavailable")
  | .invalidCredentials => .failed false
  | .user hash => if S.verifyPassword hash password then .answered .token else .failed true

/-- The handler between the peek and the charge. `body` is what `ShouldBindJSON` makes of the request. -/
def LoginServer.verify (S : LoginServer) (store : String → String → FoundLogin)
    (body : Except String TokenRequest) : LoginVerdict :=
  match body with
  | .error err => .answered (.problem 400 "bad request" err)
  | .ok req =>
    let tenant := if Lib.trimSpace req.tenant = "" then "default" else Lib.trimSpace req.tenant
    let username := Lib.trimSpace req.username
    -- under OIDC only the allowlist reaches the credential store
    if S.breakGlass.any fun allows => !allows username then .failed false
    else S.issueToken (store tenant username) req.password

namespace Login

/-- Where a request under way stands. -/
inductive Phase where
  | checked (body : Except String TokenRequest)
  | failed (wrongPassword : Bool)
deriving DecidableEq

/-- A request under way, from its client's address. -/
structure Pending where
  ip : String
  phase : Phase
deriving DecidableEq

/-- The handler's world. A failed verification falls into the window in effect for its key, or into the next
one where none is: `windows` counts the windows opened, `failures` notes key and window. -/
structure State where
  now : Time
  limiter : RateLimiter
  pending : List Pending
  windows : String → Nat
  failures : List (String × Nat)
  answers : List (String × LoginAnswer)

/-- The steps of the logins that are served, in any order. -/
inductive Action where
  | tick (d : Nat)
  | peek (ip : String) (body : Except String TokenRequest)
  | verify (ip : String) (body : Except String TokenRequest) (store : String → String → FoundLogin)
  | charge (ip : String) (wrongPassword : Bool)

namespace State

/-- The window a failure at this moment falls into. -/
def slot (s : State) (ip : String) : Nat :=
  if (s.limiter.current ip s.now).isSome then s.windows ip else s.windows ip + 1

/-- An address gets its answer. -/
def answer (s : State) (ip : String) (a : LoginAnswer) : State := { s with answers := (ip, a) :: s.answers }

/-- A verification ends. -/
def verified (s : State) (ip : String) : LoginVerdict → State
  | .answered a => s.answer ip a
  | .failed wrongPassword =>
    { s with
      pending := ⟨ip, .failed wrongPassword⟩ :: s.pending
      failures := if wrongPassword then (ip, s.slot ip) :: s.failures else s.failures }

/-- `limiter.Allow`, and the answer. -/
def charge (s : State) (ip : String) : State :=
  { s with
    limiter := (s.limiter.allow ip s.now).1
    windows := if (s.limiter.current ip s.now).isSome then s.windows
      else Function.update s.windows ip (s.windows ip + 1) }.answer ip invalidCredentials

/-- A login goes on from where it waits. -/
def take (s : State) (p : Pending) : Option State :=
  if p ∈ s.pending then some { s with pending := s.pending.erase p } else none

end State

/-- One step of one request, or of the clock. -/
def step (S : LoginServer) (s : State) : Action → Option State
  | .tick d => some { s with now := s.now + d }
  | .peek ip body =>
    if s.limiter.blocked ip s.now then some (s.answer ip rateLimited)
    else some { s with pending := ⟨ip, .checked body⟩ :: s.pending }
  | .verify ip body store =>
    (s.take ⟨ip, .checked body⟩).map fun s' => s'.verified ip (S.verify store body)
  | .charge ip wrongPassword => (s.take ⟨ip, .failed wrongPassword⟩).map fun s' => s'.charge ip

/-- No request has come yet. -/
structure Fresh (limit : Nat) (window : Duration) (s : State) : Prop where
  limiter : s.limiter = newRateLimiter limit window
  pending : s.pending = []
  failures : s.failures = []

/-- The logins of a server. -/
def system (S : LoginServer) (limit : Nat) (window : Duration) : Lib.System State Action where
  init := Fresh limit window
  step := step S

end Login

end Leoflow.Api
