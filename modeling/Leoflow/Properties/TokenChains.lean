import Leoflow.Auth.Tokens
import Leoflow.Lib.History

/-!
# Chains of renewals

A renewed token is the token of the same identity and the same origin, minted at the moment of the
renewal.
-/

namespace Leoflow.Auth

open KubeExchange (AgentIdentity scopeWarmWorker)

variable {ttl maxLifetime : Duration} {t0 : Time}

variable {now : Time} {c : UserClaims}

/-- The origin of a credential outlives its renewals. -/
theorem originOf_minted (t : Time) (issuedAt : Option Time) :
    originOf (some (numericDate t)) issuedAt = numericDate t := rfl

theorem le_of_renewed (hpos : 0 < maxLifetime) (hmax : maxLifetime < maxDuration) (ht0 : numericDate t0 ≠ 0)
    (h : pastCeiling (numericDate t0) now maxLifetime = false) : now ≤ t0 + maxLifetime :=
  le_trans (le_of_not_pastCeiling hpos hmax ht0 h) (Int.add_le_add_right (numericDate_le t0) _)

theorem expiry_le {minted : Time} (h : minted ≤ t0 + maxLifetime) :
    numericDate (minted + ttl) ≤ t0 + maxLifetime + ttl :=
  le_trans (numericDate_le _) (Int.add_le_add_right h _)

theorem start_le (hpos : 0 < maxLifetime) : t0 ≤ t0 + maxLifetime :=
  Int.le_add_of_nonneg_right (le_of_lt hpos)

/-! ## Agents -/

section Agent

variable {id : AgentIdentity}

/-- A worker id in the scope of a warm worker only, a task instance id in the others only. -/
structure WellScoped (id : AgentIdentity) : Prop where
  worker : id.scope = scopeWarmWorker → id.taskInstanceID = ""
  task : id.scope ≠ scopeWarmWorker → id.workerID = ""

instance (id : AgentIdentity) : Decidable (WellScoped id) :=
  decidable_of_iff ((id.scope = scopeWarmWorker → id.taskInstanceID = "") ∧
    (id.scope ≠ scopeWarmWorker → id.workerID = "")) ⟨fun h => ⟨h.1, h.2⟩, fun h => ⟨h.worker, h.task⟩⟩

/-- The subject is routed back to the field it was taken from. -/
theorem identityFromClaims_minted (h : WellScoped id) (origin now : Time) :
    identityFromClaims (mintAgentToken id ttl origin now) = id := by
  by_cases hs : id.scope = scopeWarmWorker
  · have hti := h.worker hs
    unfold identityFromClaims mintAgentToken registered
    simp only [hs, if_true]
    rw [← hti, ← hs]
  · have hworker := h.task hs
    unfold identityFromClaims mintAgentToken registered
    simp only [hs, if_false]
    rw [← hworker]

/-- The tokens of a chain: a token is issued at `t0` and renewed at each of the times. -/
def agentChain (id : AgentIdentity) (ttl maxLifetime : Duration) (t0 : Time) (times : List Time) :
    Option AgentClaims :=
  times.foldlM (fun c now => (renewAgentToken c ttl maxLifetime now).token?) (issueAgentToken id ttl t0)

/-- A token of the chain is that of the identity, minted under the ceiling. -/
def AgentLink (id : AgentIdentity) (ttl maxLifetime : Duration) (t0 : Time) (c : AgentClaims) : Prop :=
  ∃ minted ≤ t0 + maxLifetime, c = mintAgentToken id ttl t0 minted

section

variable (hpos : 0 < maxLifetime) (hmax : maxLifetime < maxDuration) (ht0 : numericDate t0 ≠ 0) (hid : WellScoped id)
include hpos hmax ht0 hid

theorem AgentLink.renew {c c' : AgentClaims} (hc : AgentLink id ttl maxLifetime t0 c)
    (h : (renewAgentToken c ttl maxLifetime now).token? = some c') : AgentLink id ttl maxLifetime t0 c' := by
  obtain ⟨minted, -, rfl⟩ := hc
  unfold renewAgentToken at h
  split at h
  · simp only at h
    split at h
    · cases h
    next hceiling =>
      obtain rfl := Option.some.inj h
      refine ⟨now, le_of_renewed hpos hmax ht0 (Bool.eq_false_iff.mpr hceiling), ?_⟩
      rw [identityFromClaims_minted hid]
      unfold mintAgentToken
      rw [originOf_minted, numericDate_numericDate]
  · cases h

theorem agentLink_chain {times : List Time} {c : AgentClaims}
    (h : agentChain id ttl maxLifetime t0 times = some c) : AgentLink id ttl maxLifetime t0 c :=
  Lib.foldlM_history (I := fun _ c => AgentLink id ttl maxLifetime t0 c) (P := fun _ => True)
    ⟨t0, start_le hpos, rfl⟩ (fun _ _ _ _ hc _ hs => hc.renew hpos hmax ht0 hid hs)
    (fun _ _ => trivial) h

end

/-- A token of the chain authenticates to the identity until it expires. -/
theorem authenticate_minted (hid : WellScoped id) (origin minted now : Time) :
    authenticateAgent (mintAgentToken id ttl origin minted) now =
      if now < numericDate (minted + ttl) then some id else none := by
  have hvalid : (mintAgentToken id ttl origin minted).registered.valid audienceAgent now =
      decide (now < numericDate (minted + ttl)) := valid_registered _ _ _ _ _
  unfold authenticateAgent
  rw [hvalid, identityFromClaims_minted hid]
  by_cases h : now < numericDate (minted + ttl)
  · rw [if_pos h, if_pos (decide_eq_true h)]
  · rw [if_neg h, if_neg (by simpa using h)]

end Agent

/-! ## Sessions -/

section Session

variable {user : User}

/-- A renewal of a session: its time and the user store at that time. -/
abbrev SessionRenewal := Time × Option UserStore

/-- The tokens of a session: a login at `t0` and the renewals. -/
def userChain (user : User) (ttl maxLifetime : Duration) (t0 : Time) (renewals : List SessionRenewal) :
    Option UserClaims :=
  renewals.foldlM (fun c r => (renewUserToken r.2 c ttl maxLifetime r.1).token?) (sign user ttl t0)

/-- A token of the session is that of some user, minted under the ceiling. -/
def UserLink (ttl maxLifetime : Duration) (t0 : Time) (c : UserClaims) : Prop :=
  ∃ user, ∃ minted ≤ t0 + maxLifetime, c = mintUserToken user ttl t0 minted

theorem renewUserToken_token? {store : Option UserStore} {c' : UserClaims}
    (h : (renewUserToken store c ttl maxLifetime now).token? = some c') :
    pastCeiling (originOf c.originIssuedAt c.registered.issuedAt) now maxLifetime = false ∧
      ∃ u, reloadForRenewal store c = .renewed u ∧
        c' = mintUserToken u ttl (originOf c.originIssuedAt c.registered.issuedAt) now := by
  unfold renewUserToken at h
  split at h
  · simp only at h
    split at h
    · cases h
    next hceiling =>
      refine ⟨Bool.eq_false_iff.mpr hceiling, ?_⟩
      cases hreload : reloadForRenewal store c with
      | renewed u =>
        simp only [hreload] at h
        exact ⟨u, rfl, (Option.some.inj h).symm⟩
      | lapsed => simp only [hreload] at h; cases h
      | invalid => simp only [hreload] at h; cases h
      | unavailable => simp only [hreload] at h; cases h
  · cases h

section

variable (hpos : 0 < maxLifetime) (hmax : maxLifetime < maxDuration) (ht0 : numericDate t0 ≠ 0)
include hpos hmax ht0

theorem UserLink.renew {c' : UserClaims} {r : SessionRenewal} (hc : UserLink ttl maxLifetime t0 c)
    (h : (renewUserToken r.2 c ttl maxLifetime r.1).token? = some c') : UserLink ttl maxLifetime t0 c' := by
  obtain ⟨user, minted, -, rfl⟩ := hc
  obtain ⟨hceiling, u, -, rfl⟩ := renewUserToken_token? h
  refine ⟨u, r.1, le_of_renewed hpos hmax ht0 hceiling, ?_⟩
  unfold mintUserToken
  rw [originOf_minted, numericDate_numericDate]

theorem userLink_chain {renewals : List SessionRenewal} (h : userChain user ttl maxLifetime t0 renewals = some c) :
    UserLink ttl maxLifetime t0 c :=
  Lib.foldlM_history (I := fun _ c => UserLink ttl maxLifetime t0 c) (P := fun _ => True)
    ⟨user, t0, start_le hpos, rfl⟩ (fun _ _ _ _ hc _ hs => hc.renew hpos hmax ht0 hs)
    (fun _ _ => trivial) h

end

theorem reloadForRenewal_stored {find : UserStore} {u : User}
    (hdev : c.registered.subject = devTokenSubject → find c.registered.subject ≠ .notFound)
    (h : reloadForRenewal (some find) c = .renewed u) : find c.registered.subject = .user u true := by
  unfold reloadForRenewal at h
  cases hfind : find c.registered.subject with
  | user u' active =>
    cases active with
    | true =>
      simp only [hfind, Renewal.renewed.injEq] at h
      rw [h]
    | false => simp only [hfind] at h; cases h
  | notFound =>
    simp only [hfind] at h
    split at h
    next hsub =>
      exact absurd hfind (hdev hsub)
    · cases h
  | failed => simp only [hfind] at h; cases h

theorem reloadForRenewal_dev {find : UserStore} (hsub : c.registered.subject = devTokenSubject)
    (hnone : find c.registered.subject = .notFound) : reloadForRenewal (some find) c = .renewed (claimedUser c) := by
  simp only [reloadForRenewal, hnone, if_pos hsub]

end Session

/-! ## The bound -/

/-- **Renewal chains are bounded and keep their identity.** Every token of a chain of agent tokens
authenticates, until it expires, to the identity the first was issued for, and it expires no later than
`maxLifetime + ttl` after that. Every token of a session expires within the same bound of the login, and
a renewed one carries the roles and the tenant of the subject in the store; the dev token's subject without a row keeps
those of its token. -/
theorem renewal_chains_bounded (hpos : 0 < maxLifetime) (hmax : maxLifetime < maxDuration) (ht0 : numericDate t0 ≠ 0) :
    (∀ id, WellScoped id → ∀ times c, agentChain id ttl maxLifetime t0 times = some c →
      ∃ exp, c.registered.expiresAt = some exp ∧ exp ≤ t0 + maxLifetime + ttl ∧
        ∀ now, authenticateAgent c now = if now < exp then some id else none) ∧
    (∀ user renewals c, userChain user ttl maxLifetime t0 renewals = some c →
      ∃ exp, c.registered.expiresAt = some exp ∧ exp ≤ t0 + maxLifetime + ttl) ∧
    ∀ user renewals now find c c', userChain user ttl maxLifetime t0 renewals = some c →
      userChain user ttl maxLifetime t0 (renewals ++ [(now, some find)]) = some c' →
      ((c.registered.subject = devTokenSubject → find c.registered.subject ≠ .notFound) →
        ∃ u, find c.registered.subject = .user u true ∧ c'.roles = u.roles ∧ c'.tenantID = u.tenantID) ∧
      (c.registered.subject = devTokenSubject → find c.registered.subject = .notFound →
        c'.roles = c.roles ∧ c'.tenantID = c.tenantID) := by
  refine ⟨fun id hid times c hc => ?_, fun user renewals c hc => ?_, fun user renewals now find c c' hc hc' => ?_⟩
  · obtain ⟨minted, hle, rfl⟩ := agentLink_chain hpos hmax ht0 hid hc
    exact ⟨_, rfl, expiry_le hle, fun now => authenticate_minted hid t0 minted now⟩
  · obtain ⟨u, minted, hle, rfl⟩ := userLink_chain hpos hmax ht0 hc
    exact ⟨_, rfl, expiry_le hle⟩
  · obtain ⟨mid, hmid, hlast⟩ := Lib.foldlM_snoc.mp hc'
    obtain rfl := Option.some.inj (hc.symm.trans hmid)
    obtain ⟨-, u, hreload, rfl⟩ := renewUserToken_token? hlast
    refine ⟨fun hdev => ⟨u, reloadForRenewal_stored hdev hreload, rfl, rfl⟩, fun hsub hnone => ?_⟩
    have hclaims := (reloadForRenewal_dev hsub hnone).symm.trans hreload
    cases hclaims
    exact ⟨rfl, rfl⟩

/-- A warm worker's token, renewed twice under a ceiling of one hour. -/
def workerIdentity : AgentIdentity :=
  { tenantID := "tenant", scope := scopeWarmWorker, dagVersionID := "v1", workerID := "pod-1" }

/-- The last token of that chain. -/
def workerToken : AgentClaims :=
  (agentChain workerIdentity (10 * minute) (60 * minute) second [5 * minute, 12 * minute]).get (by decide +kernel)

theorem renewal_chains_bounded_worker : ∃ exp, workerToken.registered.expiresAt = some exp ∧
    exp ≤ second + 60 * minute + 10 * minute ∧
    ∀ now, authenticateAgent workerToken now = if now < exp then some workerIdentity else none :=
  (renewal_chains_bounded (by decide) (by decide) (by decide : numericDate second ≠ 0)).1 workerIdentity (by decide)
    [5 * minute, 12 * minute] workerToken (Option.some_get _).symm

/-- A token of `dexaflow lite`. -/
def devUser : User := ⟨devTokenSubject, "tenant", "dev@local", ["admin"]⟩

/-- Three exceptions. The dev token, whose subject has no row, keeps the roles it was minted with. An
origin at Go's zero time counts as absent. And no difference of times is above the largest duration. -/
theorem renewal_exceptions :
    ((userChain devUser minute (60 * minute) second [(2 * second, some fun _ => .notFound)]).map
        UserClaims.roles = some ["admin"]) ∧
    ((agentChain workerIdentity (10 * second) second 0 [5 * second]).map
        (fun c => c.registered.expiresAt) = some (some (15 * second)) ∧
      ¬15 * second ≤ 0 + second + 10 * second) ∧
    ((agentChain workerIdentity (2 ^ 62) maxDuration second
        [4000000000 * second, 8000000000 * second, 12000000000 * second]).map
        (fun c => c.registered.expiresAt) = some (some (numericDate (12000000000 * second + 2 ^ 62))) ∧
      ¬numericDate (12000000000 * second + 2 ^ 62) ≤ second + maxDuration + 2 ^ 62) := by
  refine ⟨by decide +kernel, ⟨by decide +kernel, by decide⟩, by decide +kernel, by decide⟩

end Leoflow.Auth
