import Leoflow.Issuer.Verify

/-!
# One session per hand-off token

The used ids keep the id of an accepted token as long as the clock is before the token's expiry. The library
accepts the token a moment longer, at the expiry itself, and reads its clock before the id is claimed.
-/

namespace Leoflow.Issuer

open Lib (GoMap Json)
open UsedIDs

variable {decode : String → Option IDToken} {cfg : Config} {u u' : UsedIDs} {s s' : State}

/-- The id of a token. -/
def IDToken.jti (tok : IDToken) : Option String := tok.claims.bind (stringClaim · "jti")

/-! ## The used ids -/

theorem UsedIDs.lookup_prune {id : String} {usedUntil now : Time} (h : u.lookup id = some usedUntil)
    (hnow : now < usedUntil) : (u.prune now).lookup id = some usedUntil := by
  unfold prune
  split
  · rw [GoMap.lookup_dropWhere]
    exact ⟨h, decide_eq_false (Int.not_le.mpr hnow)⟩
  · exact h

theorem UsedIDs.claim_true {id : String} {exp now : Time} (h : u.claim id exp now = (u', true)) :
    (∀ usedUntil, u.lookup id = some usedUntil → usedUntil ≤ now) ∧ u' = (u.prune now).insert id exp := by
  unfold UsedIDs.claim at h
  split at h
  · cases (Prod.mk.inj h).2
  next hfree =>
    simp only at h
    split at h
    · cases (Prod.mk.inj h).2
    · refine ⟨fun usedUntil hlook => ?_, (Prod.mk.inj h).1.symm⟩
      rw [hlook, Option.any_some, decide_eq_true_eq] at hfree
      exact Int.not_lt.mp hfree

theorem UsedIDs.lookup_claim {id k : String} {exp now usedUntil : Time} {won : Bool}
    (h : u.claim id exp now = (u', won)) (hlook : u.lookup k = some usedUntil) (hnow : now < usedUntil) :
    u'.lookup k = some usedUntil := by
  cases won with
  | true =>
    obtain ⟨hfree, rfl⟩ := claim_true h
    have hne : k ≠ id := by
      rintro rfl
      exact Int.not_lt.mpr (hfree usedUntil hlook) hnow
    rw [AList.lookup_insert_ne hne]
    exact lookup_prune hlook hnow
  | false =>
    unfold UsedIDs.claim at h
    split at h
    · rw [← (Prod.mk.inj h).1]
      exact hlook
    · simp only at h
      split at h
      · rw [← (Prod.mk.inj h).1]
        exact lookup_prune hlook hnow
      · cases (Prod.mk.inj h).2

/-! ## Verification -/

theorem Config.readClaims_ok {subject jti : String} {claims : GoMap Json} {id : Identity}
    (h : cfg.readClaims subject claims = .ok (jti, id)) : stringClaim claims "jti" = some jti := by
  unfold Config.readClaims at h
  split at h
  · cases h
  · split at h
    · cases h
    · cases hjti : stringClaim claims "jti" with
      | none => simp only [hjti] at h; cases h
      | some j =>
        simp only [hjti] at h
        split at h
        · cases h
        · cases h
          rfl

theorem Config.inspect_ok {clock : Clock} {tok : IDToken} {jti : String} {id : Identity}
    (h : cfg.inspect tok clock = .ok (jti, id)) : clock.checked ≤ tok.expiry ∧ tok.jti = some jti := by
  unfold Config.inspect at h
  split at h
  · cases h
  next hchecked =>
    refine ⟨Int.not_lt.mp hchecked, ?_⟩
    split at h
    · cases h
    · split at h
      · cases h
      · cases hclaims : tok.claims with
        | none => simp only [hclaims] at h; cases h
        | some claims =>
          simp only [hclaims] at h
          rw [IDToken.jti, hclaims, Option.bind_some]
          exact Config.readClaims_ok h

/-- A call leaves the ids alone and fails, or claims the token's id and fails where it is lost. -/
inductive Verified (u u' : UsedIDs) (tok? : Option IDToken) (clock : Clock) (ok : Bool) : Prop where
  | refused (kept : u' = u) (fails : ok = false)
  | claimed (tok : IDToken) (jti : String) (known : tok? = some tok) (checked : clock.checked ≤ tok.expiry)
      (carries : tok.jti = some jti) (claim : u.claim jti tok.expiry clock.claimed = (u', ok))

/-- What one verification does to the used ids. -/
theorem Config.verified {tok? : Option IDToken} {clock : Clock} {answer : Except VerifyError Identity}
    (h : cfg.verify u tok? clock = (u', answer)) : Verified u u' tok? clock answer.isOk := by
  unfold Config.verify at h
  cases tok? with
  | none =>
    obtain ⟨rfl, rfl⟩ := Prod.mk.inj h
    exact .refused rfl rfl
  | some tok =>
    simp only at h
    cases hinspect : cfg.inspect tok clock with
    | error e =>
      simp only [hinspect] at h
      obtain ⟨rfl, rfl⟩ := Prod.mk.inj h
      exact .refused rfl rfl
    | ok found =>
      obtain ⟨jti, id⟩ := found
      obtain ⟨hchecked, hjti⟩ := Config.inspect_ok hinspect
      simp only [hinspect] at h
      refine .claimed tok jti rfl hchecked hjti ?_
      cases hclaim : u.claim jti tok.expiry clock.claimed with
      | mk u'' won =>
        rw [hclaim] at h
        cases won with
        | true =>
          obtain ⟨rfl, rfl⟩ := Prod.mk.inj h
          rfl
        | false =>
          obtain ⟨rfl, rfl⟩ := Prod.mk.inj h
          rfl

/-! ## Histories -/

theorem step_cases {c : Call} (h : step decode cfg s c = some s') : s.now ≤ c.clock.claimed ∧ s'.now = c.clock.claimed ∧
      ∃ ok, Verified s.used s'.used (decode c.raw) c.clock ok ∧
        s'.accepted = if ok then c.raw :: s.accepted else s.accepted := by
  unfold step at h
  split at h
  next hle =>
    cases hverify : cfg.verify s.used (decode c.raw) c.clock with
    | mk u answer =>
      rw [hverify] at h
      have hverified := Config.verified hverify
      cases answer with
      | ok id =>
        obtain rfl := Option.some.inj h
        exact ⟨hle, rfl, true, hverified, rfl⟩
      | error e =>
        obtain rfl := Option.some.inj h
        exact ⟨hle, rfl, false, hverified, rfl⟩
  · cases h

/-- The id of an accepted token is in use until the token has expired. -/
def Spent (decode : String → Option IDToken) (s : State) (raw : String) : Prop :=
  ∃ tok jti, decode raw = some tok ∧ tok.jti = some jti ∧
    (tok.expiry ≤ s.now ∨ ∃ usedUntil, s.used.lookup jti = some usedUntil ∧ tok.expiry ≤ usedUntil)

theorem Spent.step {raw : String} (h : Spent decode s raw) {c : Call} (hs : step decode cfg s c = some s') :
    Spent decode s' raw := by
  obtain ⟨hle, hnow, ok, hverified, -⟩ := step_cases hs
  obtain ⟨tok, jti, htok, hjti, hused⟩ := h
  refine ⟨tok, jti, htok, hjti, ?_⟩
  rw [hnow]
  rcases hused with hexp | ⟨usedUntil, hlook, hexp⟩
  · exact .inl (Int.le_trans hexp hle)
  · by_cases hlate : usedUntil ≤ c.clock.claimed
    · exact .inl (Int.le_trans hexp hlate)
    · refine .inr ⟨usedUntil, ?_, hexp⟩
      cases hverified with
      | refused kept _ => rw [kept]; exact hlook
      | claimed _ _ _ _ _ claim => exact lookup_claim claim hlook (Int.not_le.mp hlate)

theorem Spent.accepted {c : Call}
    (hv : Verified s.used s'.used (decode c.raw) c.clock true) : Spent decode s' c.raw := by
  cases hv with
  | refused _ fails => cases fails
  | claimed tok jti known checked carries claim =>
    refine ⟨tok, jti, known, carries, .inr ⟨tok.expiry, ?_, Int.le_refl _⟩⟩
    rw [(claim_true claim).2]
    exact AList.lookup_insert _

/-- A call with a token that was accepted before reads the clock after the token's expiry in the library, or
before it at the claim. -/
def Prompt (decode : String → Option IDToken) (s : State) (c : Call) : Prop :=
  c.raw ∈ s.accepted → ∀ tok, decode c.raw = some tok → tok.expiry < c.clock.checked ∨ c.clock.claimed < tok.expiry

theorem not_accepted_of_spent {c : Call} (hspent : Spent decode s c.raw) (hmem : c.raw ∈ s.accepted)
    (hprompt : Prompt decode s c) (hle : s.now ≤ c.clock.claimed) {ok : Bool}
    (hv : Verified s.used s'.used (decode c.raw) c.clock ok) : ok = false := by
  cases hv with
  | refused _ fails => exact fails
  | claimed tok jti known checked carries claim =>
    obtain ⟨tok', jti', htok, hjti, hused⟩ := hspent
    obtain rfl := Option.some.inj (htok.symm.trans known)
    obtain rfl := Option.some.inj (hjti.symm.trans carries)
    have hbefore : c.clock.claimed < tok'.expiry :=
      (hprompt hmem tok' htok).resolve_left (Int.not_lt.mpr checked)
    cases ok with
    | false => rfl
    | true =>
      exfalso
      rcases hused with hexp | ⟨usedUntil, hlook, hexp⟩
      · exact Int.not_lt.mpr (Int.le_trans hexp hle) hbefore
      · have hfree := (claim_true claim).1 usedUntil hlook
        exact Int.not_lt.mpr (Int.le_trans hexp hfree) hbefore

/-- **One session per hand-off token.** In every history in which no accepted token comes back across its
expiry, every raw token is accepted at most once. -/
theorem accepted_once (h : (system decode cfg).Reaches (Prompt decode) s) : s.accepted.Nodup := by
  have hinv : s.accepted.Nodup ∧ ∀ raw ∈ s.accepted, Spent decode s raw := by
    refine h.invariant (I := fun s => s.accepted.Nodup ∧ ∀ raw ∈ s.accepted, Spent decode s raw) ?_ ?_
    · rintro s ⟨-, hempty⟩
      rw [hempty]
      exact ⟨List.nodup_nil, fun _ hmem => absurd hmem List.not_mem_nil⟩
    · intro s c s' _ ⟨hnodup, hspent⟩ hprompt hs
      have hkept : ∀ raw ∈ s.accepted, Spent decode s' raw := fun raw hmem => (hspent raw hmem).step hs
      obtain ⟨hle, -, ok, hverified, haccepted⟩ := step_cases hs
      rw [haccepted]
      cases ok with
      | false => exact ⟨hnodup, hkept⟩
      | true =>
        have hnew : c.raw ∉ s.accepted := fun hmem =>
          Bool.noConfusion (not_accepted_of_spent (hspent c.raw hmem) hmem hprompt hle hverified)
        refine ⟨List.nodup_cons.mpr ⟨hnew, hnodup⟩, fun raw hmem => ?_⟩
        rcases List.mem_cons.mp hmem with rfl | hmem
        · exact Spent.accepted hverified
        · exact hkept raw hmem
  exact hinv.1

/-- A hand-off token, valid for a minute. -/
def handoff : IDToken where
  subject := "user-1"
  issuedAt := 10 * minute
  expiry := 11 * minute
  claims := some (GoMap.literal [("tenant", .string "acme"), ("jti", .string "t-1")])

/-- One text decodes. -/
def onlyHandoff (raw : String) : Option IDToken := if raw = "handoff" then some handoff else none

/-- A verifier for one tenant. -/
def acme : Config := ⟨"tenant", ["acme"], 0⟩

/-- It has seen no token. -/
def fresh : State := ⟨∅, 10 * minute, []⟩

/-- A call with the token whose clock stands still. -/
def post (now : Time) : Call := ⟨"handoff", ⟨now, now, now, le_refl _, le_refl _⟩⟩

/-- The token comes back a second later. -/
def postedTwice : State :=
  ((system onlyHandoff acme).runIf (fun _ c => decide (c.clock.claimed < handoff.expiry)) fresh
    [post (10 * minute), post (10 * minute + second)]).get (by decide +kernel)

theorem reaches_postedTwice : (system onlyHandoff acme).Reaches (Prompt onlyHandoff) postedTwice := by
  refine Lib.System.Reaches.runIf (.init ⟨rfl, rfl⟩) (fun s c hbefore => ?_) (Option.some_get _).symm
  intro _ tok htok
  have heq : handoff = tok := by
    unfold onlyHandoff at htok
    split at htok
    · exact Option.some.inj htok
    · cases htok
  rw [← heq]
  exact .inr (of_decide_eq_true hbefore)

theorem accepted_once_postedTwice : postedTwice.accepted.Nodup := accepted_once reaches_postedTwice

/-- The token comes twice at the very moment it expires. -/
def atExpiry : State :=
  ((system onlyHandoff acme).run fresh [post (11 * minute), post (11 * minute)]).get (by decide +kernel)

/-- A token whose expiry is now passes the library and is no longer in use. -/
theorem replayed_at_expiry : (system onlyHandoff acme).Reachable atExpiry ∧ ¬atExpiry.accepted.Nodup :=
  ⟨Lib.System.Reachable.run (.init ⟨rfl, rfl⟩) (Option.some_get _).symm, by decide +kernel⟩

end Leoflow.Issuer
